import MqttBroker.Proofs.Session.Regular
import MqttBroker.Proofs.Writer.Emission
/-!
The bytes a connection's client gets from the writer, over every run of a session. They are whole
packets and a part of one more, unless the connection was asked to close while a packet larger than
the buffer was out in part.
-/

namespace MqttBroker

namespace Writer

variable {env : Surroundings} {s : Session} {w : Writer} {turn : Turn}

/-- What a writer begins to write is a packet that has waited whole, a PUBLISH or a PUBREL. -/
theorem encodes_of_begun {P : Packet → Prop} (h : Traffic env s w turn)
    (hcontrols : ∀ bytes, .control bytes ∈ s.outbox.items →
      ∃ p level, P p ∧ Packet.encode p level = .ok bytes)
    (hpublish : ∀ p, P (.publish p)) (hpubRel : ∀ a, P (.pubRel a))
    {frame : Bytes} (hbegun : w.phase.begun turn.writer.phase = some frame) :
    ∃ p level, P p ∧ Packet.encode p level = .ok frame := by
  have hnone : w.phase.begun turn.writer.phase ≠ none := hbegun ▸ nofun
  have hstarts : ∀ {p : Packet} {left : Option (List Redelivery)}, P p → w.Starts p left turn →
      ∃ p level, P p ∧ Packet.encode p level = .ok frame :=
    fun hp hstarts => ⟨_, _, hp, hstarts.encode_of_begun hbegun⟩
  cases h with
  | idle _ _ hphase => exact absurd hphase.begun hnone
  | stop _ _ _ hnext | giveBack _ _ _ hnext | forsake _ _ _ _ hnext =>
    exact absurd (Phase.begun_of_isEnding hnext) hnone
  | @resend r _ _ _ hs =>
    cases r with
    | publish => exact hstarts (hpublish _) hs
    | release => exact hstarts (hpubRel _) hs
  | transient _ _ _ _ hs | reserve _ _ _ hs => exact hstarts (hpublish _) hs
  | lookUp _ _ hnext | hold _ _ _ _ _ hnext =>
    refine absurd (Phase.begun_of_not_writing ?_) hnone
    rw [hnext]
    rfl
  | drop _ _ _ _ hnext =>
    refine absurd (Phase.begun_of_not_writing ?_) hnone
    rcases hnext with hnext | hnext <;> rw [hnext] <;> rfl
  | control _ hitems _ hnext =>
    rw [hnext] at hbegun
    rw [Phase.eq_of_begun hbegun]
    exact hcontrols _ (by rw [hitems]; exact List.mem_cons_self)

theorem isPacket_of_begun (h : Traffic env s w turn)
    (hcontrols : ∀ bytes, .control bytes ∈ s.outbox.items → Outgoing.IsControlPacket bytes)
    {frame : Bytes} (hbegun : w.phase.begun turn.writer.phase = some frame) :
    ∃ p level, Packet.encode p level = .ok frame := by
  have hpackets : ∀ bytes, .control bytes ∈ s.outbox.items →
      ∃ p level, True ∧ Packet.encode p level = .ok bytes := by
    intro bytes hmem
    obtain ⟨p, level, -, hencode⟩ := hcontrols bytes hmem
    exact ⟨p, level, trivial, hencode⟩
  obtain ⟨p, level, -, hencode⟩ :=
    encodes_of_begun h hpackets (fun _ => trivial) (fun _ => trivial) hbegun
  exact ⟨p, level, hencode⟩

/-- The last packet is a DISCONNECT, if there is one. -/
theorem farewell_cases (w : Writer) (reason : Option CloseReason) :
    w.farewell reason = [] ∨
      ∃ code level, Packet.encode (.disconnect { code }) level = .ok (w.farewell reason) := by
  unfold farewell
  split
  · next code _ _ =>
    cases hencode : Packet.encode (.disconnect { code }) w.link.level with
    | error => exact .inl rfl
    | ok bytes => exact .inr ⟨code, w.link.level, hencode⟩
  · exact .inl rfl

/-- A writer turns to its last packet by what the connection was closed for. -/
theorem parted_of_acts (h : Acts env s w turn) :
    w.phase.parted turn.writer.phase = [] ∨
      w.phase.parted turn.writer.phase = w.farewell env.reason := by
  have hclose : ∀ s : Session, w.phase.isEnding = false →
      w.phase.parted (w.close env s).writer.phase = w.farewell env.reason :=
    fun s hgoing => Phase.parted_closing hgoing _ _
  have hstarts : ∀ {p : Packet} {left : Option (List Redelivery)} {turn : Turn},
      w.Starts p left turn → w.phase.parted turn.writer.phase = [] := by
    rintro p left turn (⟨_, -, hnext⟩ | ⟨hnext, -⟩)
    · exact Phase.parted_of_going (by rw [hnext]; rfl)
    · rw [hnext, Phase.parted_stopped]
  cases h with
  | interrupt hphase =>
    refine .inr (hclose s ?_)
    cases hw : w.phase <;> first | rfl | (rw [hw] at hphase; cases hphase)
  | leave hphase | giveBack hphase | forsake hphase => exact .inr (hclose _ (by rw [hphase]; rfl))
  | lose => exact .inl Phase.parted_stopped
  | finish hphase | stop hphase => exact .inl (by rw [hphase]; rfl)
  | resend | reserve => exact .inl (hstarts (starts_put ..))
  | @take item =>
    left
    unfold begin
    split
    · exact Phase.parted_of_going rfl
    split
    · exact Phase.parted_of_going (w.isGoing_resume _ none).1
    split
    · exact hstarts (starts_put ..)
    · exact Phase.parted_of_going rfl
  | @written _ _ _ _ left _ w' => exact .inl (Phase.parted_of_going (w'.isGoing_resume s left).1)
  | _ => exact .inl (Phase.parted_of_going rfl)

/-- The writer turns to its last packet only once. -/
theorem farewell_follow {a : Transcript} (h : w.Emission a) (hacts : Acts env s w turn) :
    (a.follow w turn).farewell = a.farewell ∨
      (a.follow w turn).farewell = w.farewell env.reason := by
  show a.farewell ++ w.phase.parted turn.writer.phase = _ ∨ _ ++ _ = _
  cases hend : w.phase.isEnding with
  | true =>
    rw [Phase.parted_of_isEnding hend, List.append_nil]
    exact .inl rfl
  | false =>
    rw [h.farewell_eq_nil hend, List.nil_append]
    exact parted_of_acts hacts

end Writer

namespace Tenancy

variable {t t' : Tenancy}

/-- The step the writer at work takes next. -/
def turn? (t : Tenancy) (now : Nat) (room : Option Nat) (look : Writer.Look) :
    Option (Writer × Writer.Turn) := do
  let x ← t.tenant
  let w ← x.writer
  let turn ← w.step { now, room, reason := x.reason, look } t.session
  return (w, turn)

theorem exists_turn?_of_write {now : Nat} {room : Option Nat} {look : Writer.Look}
    (h : t.step (.write now room look) = some t') :
    ∃ x w turn, t.tenant = some x ∧ x.writer = some w ∧
      t.turn? now room look = some (w, turn) ∧
      Writer.Acts { now, room, reason := x.reason, look } t.session w turn ∧
      t' = { session := turn.session, tenant := some (x.after turn) } := by
  obtain ⟨x, hx, h⟩ := Option.bind_eq_some_iff.1 h
  obtain ⟨w, hw, h⟩ := Option.bind_eq_some_iff.1 h
  obtain ⟨turn, hturn, rfl⟩ := Option.map_eq_some_iff.1 h
  refine ⟨x, w, turn, hx, hw, ?_, Writer.acts_of_step hturn, rfl⟩
  simp only [turn?, hx, hw, hturn, Option.bind_eq_bind, Option.bind_some, Option.pure_def]

end Tenancy

/-- Keeps the record of the connection that uses the session. -/
def Transcript.note (t : Tenancy) (move : Tenancy.Move) (_ : Tenancy) (a : Transcript) :
    Transcript :=
  match move with
  | .arrive _ => {}
  | .write now room look => match t.turn? now room look with
    | some (w, turn) => a.follow w turn
    | none => a
  | _ => a

namespace Tenancy

variable {t t' : Tenancy} {move : Move} {x : Tenant} {w : Writer} {a : Transcript}

/-- The record is that of the writer at work. -/
structure Transcribed (t : Tenancy) (a : Transcript) : Prop where
  idle : t.tenant.map (·.writer) = some none → a = {}
  emission : ∀ w, t.tenant.map (·.writer) = some (some w) → w.Emission a
  frames : ∀ frame ∈ a.frames, ∃ p level, Packet.encode p level = .ok frame
  farewell : a.farewell = [] ∨ ∃ code level, Packet.encode (.disconnect { code }) level =
    .ok a.farewell

namespace Transcribed

theorem of_idle (hidle : t.writer? = none) : Transcribed t {} where
  idle := fun _ => rfl
  emission := by
    intro w hw
    obtain ⟨x, hx, hwriter⟩ := Option.map_eq_some_iff.1 hw
    rw [writer?_of_tenant hx, hwriter] at hidle
    cases hidle
  frames := nofun
  farewell := .inl rfl

theorem of_writer (h : Transcribed t a)
    (hwriter : t'.tenant.map (·.writer) = t.tenant.map (·.writer)) : Transcribed t' a where
  idle := hwriter ▸ h.idle
  emission := hwriter ▸ h.emission
  frames := h.frames
  farewell := h.farewell

theorem write (h : Transcribed t a) (hregular : t.Regular) {env : Writer.Surroundings}
    {turn : Writer.Turn} (hx : t.tenant = some x) (hw : x.writer = some w)
    (hacts : Writer.Acts env t.session w turn) :
    Transcribed { session := turn.session, tenant := some (x.after turn) } (a.follow w turn) := by
  have hemission := h.emission w (by rw [hx, Option.map_some, hw])
  constructor
  case idle =>
    rw [Option.map_some, Tenant.after_writer]
    rintro ⟨⟩
  case emission =>
    intro w' hw'
    rw [Option.map_some, Tenant.after_writer] at hw'
    cases hw'
    exact Writer.emission_of_acts hemission hacts
  case frames =>
    intro frame hmem
    rcases List.mem_append.1 hmem with hold | hnew
    · exact h.frames frame hold
    · exact Writer.isPacket_of_begun (Writer.traffic_of_acts hacts) hregular.controls
        (Option.mem_toList.1 hnew)
  case farewell =>
    rcases Writer.farewell_follow hemission hacts with hsame | hnew
    · rw [hsame]
      exact h.farewell
    · rw [hnew]
      exact w.farewell_cases _

theorem step (h : Transcribed t a) (hregular : t.Regular) (hstep : t.step move = some t') :
    Transcribed t' (Transcript.note t move t' a) := by
  cases goes_of_step hstep with
  | arrive => exact .of_idle rfl
  | @activate threshold x hx hwriter =>
    obtain rfl := h.idle (by rw [hx, Option.map_some, hwriter])
    refine ⟨nofun, ?_, h.frames, h.farewell⟩
    rintro w hw
    cases hw
    exact Writer.Emission.start x.link threshold
  | @close reason =>
    refine h.of_writer ?_
    cases hx : t.tenant <;> rfl
  | offer | ack | abandon | complete | adjust => exact h.of_writer rfl
  | answer hx => exact h.of_writer (t.answer_appends hx _).1
  | receive hx => exact h.of_writer (t.receive_appends hx _).1
  | write =>
    obtain ⟨x, w, turn, hx, hw, hturn, hacts, ht'⟩ := exists_turn?_of_write hstep
    simp only [Transcript.note, hturn, ht']
    exact h.write hregular hx hw hacts
  | leave => exact ⟨nofun, nofun, h.frames, h.farewell⟩

end Transcribed

theorem transcribed_of_run {clientId : String} {capacity : Nat} {moves : List Move}
    (h : run Transcript.note moves (fresh clientId capacity, {}) = some (t, a)) :
    Transcribed t a :=
  (run_induction (I := fun x => x.1.Regular ∧ Transcribed x.1 x.2)
    (fun _ _ _ _ hstep ⟨hregular, htranscribed⟩ =>
      ⟨hregular.step hstep, htranscribed.step hregular hstep⟩) h
    ⟨.fresh clientId capacity, .of_idle rfl⟩).2

/-- Whatever a transport takes and whenever it stalls, it gets packets one behind the other, at most
the last of them in part. Only a connection that is closing can leave a packet in part and go on:
one larger than the buffer, behind which the DISCONNECT follows. -/
theorem framed_of_run {clientId : String} {capacity : Nat} {moves : List Move}
    (h : run Transcript.note moves (fresh clientId capacity, {}) = some (t, a))
    (hx : t.tenant = some x) (hw : x.writer = some w) :
    (∀ frame ∈ a.frames, ∃ p level, Packet.encode p level = .ok frame) ∧
      (a.farewell = [] ∨ ∃ code level, Packet.encode (.disconnect { code }) level =
        .ok a.farewell) ∧
      (IsFramed (a.frames ++ [a.farewell]) a.sent ∨
        x.reason.isSome = true ∧ a.IsTorn (max w.threshold 1024)) := by
  have htranscribed := transcribed_of_run h
  have hemission := htranscribed.emission w (by rw [hx, Option.map_some, hw])
  refine ⟨htranscribed.frames, htranscribed.farewell, hemission.framed.imp_right ?_⟩
  rintro ⟨hending, htorn⟩
  exact ⟨(regular_of_run h).ending x w hx hw hending, htorn⟩

/-- A client takes eight bytes of a PUBLISH that is larger than the buffer. Then it reads no more,
and the broker shuts down. -/
def tornMoves : List Move :=
  [.adjust ⟨[([97], .atMostOnce)]⟩ [] none true none,
    .offer { topic := [97], payload := List.replicate 1100 120, qos := .atMostOnce },
    .arrive { narrowLink with level := .v5 }, .activate 1] ++ writing 4 ++
  [.write 0 (some 8) .itemFirst, .close .serverShutdown, .write 0 (some 0) .itemFirst] ++ writing 2

theorem tornMoves_torn :
    ∃ t x w a, run Transcript.note tornMoves (fresh "a" 1000, {}) = some (t, a) ∧
      t.tenant = some x ∧ x.writer = some w ∧
      a.sent = [48, 208, 8, 0, 1, 97, 0, 120, 224, 1, 139] ∧
      ¬IsFramed (a.frames ++ [a.farewell]) a.sent := by
  have hrun : ((run Transcript.note tornMoves (fresh "a" 1000, {})).bind fun y =>
      (y.1.tenant.bind (·.writer)).map fun _ => (y.2.sent, decide (∀ frame ∈
        y.2.frames ++ [y.2.farewell], frame = [] ∨ ¬frame <+: y.2.sent ∧ ¬y.2.sent <+: frame))) =
      some ([48, 208, 8, 0, 1, 97, 0, 120, 224, 1, 139], true) := by
    decide +kernel
  obtain ⟨⟨t, a⟩, hrun, hwriter⟩ := Option.bind_eq_some_iff.1 hrun
  obtain ⟨w, hwriter, hsent⟩ := Option.map_eq_some_iff.1 hwriter
  obtain ⟨x, hx, hw⟩ := Option.bind_eq_some_iff.1 hwriter
  obtain ⟨hsent, hnone⟩ := Prod.mk.inj hsent
  refine ⟨t, x, w, a, hrun, hx, hw, hsent, fun hframed => ?_⟩
  obtain ⟨frame, hmem, hne, hcomparable⟩ := hframed.exists_comparable (by rw [hsent]; exact nofun)
  obtain ⟨hpre, hsuf⟩ := (of_decide_eq_true hnone frame hmem).resolve_left hne
  exact hcomparable.elim hpre hsuf

theorem framed_of_run_torn :
    ∃ t x w a, run Transcript.note tornMoves (fresh "a" 1000, {}) = some (t, a) ∧
      t.tenant = some x ∧ x.writer = some w ∧
      a.sent = [48, 208, 8, 0, 1, 97, 0, 120, 224, 1, 139] ∧
      x.reason.isSome = true ∧ a.IsTorn (max w.threshold 1024) := by
  obtain ⟨t, x, w, a, hrun, hx, hw, hsent, htorn⟩ := tornMoves_torn
  exact ⟨t, x, w, a, hrun, hx, hw, hsent, (framed_of_run hrun hx hw).2.2.resolve_left htorn⟩

/-- A DISCONNECT can stand behind a packet that is not complete. -/
theorem not_isFramed_of_run :
    ¬∀ clientId capacity moves t (a : Transcript),
      run Transcript.note moves (fresh clientId capacity, {}) = some (t, a) →
        IsFramed (a.frames ++ [a.farewell]) a.sent := by
  intro hframed
  obtain ⟨t, x, w, a, hrun, -, -, -, htorn⟩ := tornMoves_torn
  exact htorn (hframed _ _ _ _ _ hrun)

end Tenancy

end MqttBroker
