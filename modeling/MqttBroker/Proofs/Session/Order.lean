import MqttBroker.Proofs.Session.Custody
import MqttBroker.Proofs.Session.Framing
import MqttBroker.Proofs.Writer.Sequence
/-!
The order in which a session's messages reach its clients. Every connection is sent what is left
from the connections before it, the oldest first, and then what is queued; and over all connections
messages enter the window as the outbox took them in.
-/

namespace MqttBroker

/-- Keeps the record of the connection that uses the session. -/
def Course.note (t : Tenancy) (move : Tenancy.Move) (t' : Tenancy) (a : Course) : Course :=
  match move with
  | .arrive _ => { queued := t.session.outbox.items }
  | .write now room look => match t.turn? now room look with
    | some (w, turn) => a.follow w t.session turn
    | none => a
  | _ =>
    { a with
      queued := a.queued ++ t'.session.outbox.items.drop t.session.outbox.items.length }

theorem Course.toTranscript_note (t : Tenancy) (move : Tenancy.Move) (t' : Tenancy) (a : Course) :
    (a.note t move t').toTranscript = a.toTranscript.note t move t' := by
  cases move with
  | write now room look =>
    unfold note Transcript.note
    dsimp only
    cases t.turn? now room look <;> rfl
  | _ => rfl

/-- The record of a connection beside that of the session. -/
structure Chronicle where
  course : Course := {}
  ledger : Ledger := {}
deriving DecidableEq

def Chronicle.note (t : Tenancy) (move : Tenancy.Move) (t' : Tenancy) (c : Chronicle) :
    Chronicle where
  course := c.course.note t move t'
  ledger := c.ledger.note t move t'

/-- The messages that entered the window, in the order they did. -/
def Ledger.sendings (l : Ledger) : List Sending := l.passages.filterMap Passage.sending?

/-- What a step of a writer puts into the window is what it is noted for. -/
theorem Handover.sendings_eq {s : Session} {w : Writer} {turn : Writer.Turn}
    (h : Handover s w turn) :
    turn.session.window.sendings = s.window.sendings ++
      (Ledger.passed w turn.writer s turn.session).filterMap Passage.sending? := by
  cases h with
  | keeps hpassed _ hwindow =>
    rw [hpassed, hwindow]
    exact (List.append_nil _).symm
  | leaves hpassed hunsent _ hwindow =>
    rw [hpassed, hwindow, List.filterMap_cons_none hunsent]
    exact (List.append_nil _).symm
  | sends hpassed _ hwindow =>
    rw [hpassed]
    exact hwindow

theorem Session.sublist_settle {s : Session} {p : InFlight → Bool} {window? : Option Window}
    (h : s.window.Removes p window?) :
    (s.settle window?).1.window.sendings.Sublist s.window.sendings := by
  rcases h with ⟨rfl, -⟩ | rfl
  · exact List.Sublist.refl _
  · exact List.eraseP_sublist.map _

theorem Ledger.passages_accept (l : Ledger) (s : Session) (m : Message) :
    (l.accept s m).passages = l.passages := by
  rcases s.offer_cases m with heq | heq | ⟨qos, heq⟩ <;> rw [accept, heq]

namespace Tenancy

variable {t t' : Tenancy} {move : Move} {x : Tenant} {w : Writer} {a : Course} {l : Ledger}

/-! ### One connection -/

/-- The record is that of the connection, and the connection keeps to the order. -/
structure Ordered (t : Tenancy) (a : Course) : Prop where
  idle : t.tenant.map (·.writer) = some none →
    a.frames = [] ∧ a.resumed = [] ∧ a.queued = t.session.outbox.items
  busy : ∀ w, t.tenant.map (·.writer) = some (some w) → ∃ resent later taken written,
    w.Sequence t.session.outbox.items a resent later taken written

namespace Ordered

theorem of_free (htenant : t.tenant = none) : Ordered t a := by
  constructor
  case idle =>
    rw [htenant]
    exact nofun
  case busy =>
    rw [htenant]
    exact nofun

/-- A move that only adds to the outbox. -/
theorem of_appended (h : Ordered t a)
    (hwriter : t'.tenant.map (·.writer) = t.tenant.map (·.writer))
    (hitems : t.session.outbox.items <+: t'.session.outbox.items) :
    Ordered t' { a with
      queued := a.queued ++ t'.session.outbox.items.drop t.session.outbox.items.length } := by
  obtain ⟨more, hmore⟩ := hitems
  rw [← hmore, List.drop_left]
  constructor
  case idle =>
    intro hidle
    obtain ⟨hframes, hresumed, hqueued⟩ := h.idle (hwriter ▸ hidle)
    exact ⟨hframes, hresumed, by rw [hqueued, hmore]⟩
  case busy =>
    intro w hw
    obtain ⟨resent, later, taken, written, hsequence⟩ := h.busy w (hwriter ▸ hw)
    rw [← hmore]
    exact ⟨_, _, _, _, hsequence.append more⟩

end Ordered

theorem offer_appends (s : Session) (m : Message) :
    s.outbox.items <+: (s.offer m).1.outbox.items := by
  rcases s.offer_cases m with heq | heq | ⟨qos, heq⟩
  · rw [heq]
  · rw [heq]
  · rw [heq]
    exact List.prefix_append _ _

theorem settle_appends (s : Session) (window? : Option Window) :
    s.outbox.items <+: (s.settle window?).1.outbox.items := by
  rw [s.settle_outbox]

theorem Ordered.step (h : Ordered t a) (hregular : t.Regular) (hstep : t.step move = some t') :
    Ordered t' (a.note t move t') := by
  cases goes_of_step hstep with
  | arrive => exact ⟨fun _ => ⟨rfl, rfl, rfl⟩, by rintro _ ⟨⟩⟩
  | @activate threshold x hx hwriter =>
    obtain ⟨hframes, hresumed, hqueued⟩ := h.idle (by rw [hx, Option.map_some, hwriter])
    refine ⟨by rintro ⟨⟩, fun w hw => ?_⟩
    cases hw
    have hsame : a.queued ++ t.session.outbox.items.drop t.session.outbox.items.length =
        t.session.outbox.items := by
      rw [hqueued, List.drop_length, List.append_nil]
    exact ⟨_, _, _, _, .start x.link threshold hframes hresumed hsame⟩
  | close =>
    refine h.of_appended ?_ (List.prefix_refl _)
    cases hx : t.tenant <;> rfl
  | offer => exact h.of_appended rfl (offer_appends _ _)
  | answer hx =>
    obtain ⟨hwriter, hitems⟩ := t.answer_appends hx _
    exact h.of_appended hwriter hitems
  | receive hx =>
    obtain ⟨hwriter, hitems⟩ := t.receive_appends hx _
    exact h.of_appended hwriter hitems
  | ack | abandon | complete => exact h.of_appended rfl (settle_appends _ _)
  | adjust => exact h.of_appended rfl (List.prefix_refl _)
  | write =>
    obtain ⟨x, w, turn, hx, hw, hturn, hacts, ht'⟩ := exists_turn?_of_write hstep
    obtain ⟨resent, later, taken, written, hsequence⟩ :=
      h.busy w (by rw [hx, Option.map_some, hw])
    have hheld := hregular.held
    rw [hand, writer?_of_tenant hx, hw] at hheld
    simp only [Course.note, hturn, ht']
    constructor
    case idle =>
      rw [Option.map_some, Tenant.after_writer]
      rintro ⟨⟩
    case busy =>
      intro w' hw'
      rw [Option.map_some, Tenant.after_writer] at hw'
      cases hw'
      exact Writer.sequence_of_acts hsequence hheld hacts
  | leave => exact .of_free rfl

/-! ### All connections -/

theorem answer_window (t : Tenancy) (x : Tenant) (p : Packet) :
    (t.answer x p).session.window = t.session.window := by
  rcases t.answer_cases x p with ⟨reason, heq⟩ | ⟨bytes, -, heq⟩
  · rw [heq]
  · rw [heq]
    rfl

theorem sublist_receive (t : Tenancy) (x : Tenant) (id : UInt16) :
    (t.receive x id).session.window.sendings.Sublist t.session.window.sendings := by
  rcases t.receive_cases x id with ⟨-, heq⟩ | ⟨window, hwindow, heq⟩
  · rw [heq]
  · rw [heq, answer_window, Window.sendings_received hwindow]

theorem offer_window (s : Session) (m : Message) : (s.offer m).1.window = s.window := by
  rcases s.offer_cases m with heq | heq | ⟨qos, heq⟩
  · rw [heq]
  · rw [heq]
  · rw [heq]
    rfl

/-- The window holds messages in the order they entered it, and so did the window that the writer
looked into. -/
structure Dated (t : Tenancy) (a : Course) (l : Ledger) : Prop where
  window : t.session.window.sendings.Sublist l.sendings
  resumed : (a.resumed.map InFlight.sending).Sublist l.sendings

namespace Dated

/-- A move that takes messages out of the window at most. -/
theorem of_sublist (h : Dated t a l) {a' : Course} {l' : Ledger}
    (hwindow : t'.session.window.sendings.Sublist t.session.window.sendings)
    (hresumed : a'.resumed = a.resumed) (hpassages : l'.passages = l.passages) :
    Dated t' a' l' where
  window := by
    rw [Ledger.sendings, hpassages]
    exact hwindow.trans h.window
  resumed := by
    rw [Ledger.sendings, hpassages, hresumed]
    exact h.resumed

theorem write (h : Dated t a l) {turn : Writer.Turn} (hhandover : Handover t.session w turn)
    (ht' : t'.session = turn.session) {l' : Ledger}
    (hpassages : l'.passages =
      l.passages ++ Ledger.passed w turn.writer t.session turn.session) :
    Dated t' (a.follow w t.session turn) l' := by
  have hsendings : l'.sendings = l.sendings ++
      (Ledger.passed w turn.writer t.session turn.session).filterMap Passage.sending? := by
    rw [Ledger.sendings, hpassages, List.filterMap_append]
    rfl
  constructor
  case window =>
    rw [ht', hhandover.sendings_eq, hsendings]
    exact h.window.append_right _
  case resumed =>
    -- A writer that starts looks into the window as it was before the step.
    refine List.Sublist.trans ?_ (hsendings ▸ List.sublist_append_left _ _)
    rw [Course.follow]
    split
    · exact h.window
    · exact h.resumed

theorem step (h : Dated t a l) (hregular : t.Regular) (hstep : t.step move = some t') :
    Dated t' (a.note t move t') (l.note t move t') := by
  cases goes_of_step hstep with
  | arrive => exact ⟨h.window, List.nil_sublist _⟩
  | activate | close | adjust | leave => exact h.of_sublist (List.Sublist.refl _) rfl rfl
  | @offer m =>
    refine h.of_sublist ?_ rfl (l.passages_accept t.session m)
    rw [offer_window]
  | answer =>
    refine h.of_sublist ?_ rfl rfl
    rw [answer_window]
  | receive => exact h.of_sublist (t.sublist_receive _ _) rfl rfl
  | ack => exact h.of_sublist (Session.sublist_settle (t.session.window.removes_ack? _)) rfl rfl
  | abandon =>
    exact h.of_sublist (Session.sublist_settle (t.session.window.removes_abandon? _)) rfl rfl
  | complete =>
    exact h.of_sublist (Session.sublist_settle (t.session.window.removes_complete? _)) rfl rfl
  | write =>
    obtain ⟨x, w, turn, hx, hwriter, hturn, hacts, ht'⟩ := exists_turn?_of_write hstep
    have hw : t.writer? = some w := (writer?_of_tenant hx).trans hwriter
    have hw' : writer? { session := turn.session, tenant := some (x.after turn) } =
        some turn.writer := x.after_writer turn
    rw [ht']
    simp only [Course.note, Ledger.note, hturn, hw, hw']
    exact h.write (hregular.handover hw (Writer.traffic_of_acts hacts)) rfl rfl

end Dated

theorem ordered_dated_of_run {clientId : String} {capacity : Nat} {moves : List Move}
    {c : Chronicle} (h : run Chronicle.note moves (fresh clientId capacity, {}) = some (t, c)) :
    t.Ordered c.course ∧ t.Dated c.course c.ledger :=
  (run_induction (I := fun y : Tenancy × Chronicle =>
      y.1.Regular ∧ y.1.Ordered y.2.course ∧ y.1.Dated y.2.course y.2.ledger)
    (fun _ _ _ _ hstep ⟨hregular, hordered, hdated⟩ =>
      ⟨hregular.step hstep, hordered.step hregular hstep, hdated.step hregular hstep⟩) h
    ⟨.fresh clientId capacity, .of_free rfl, ⟨List.nil_sublist _, List.nil_sublist _⟩⟩).2

/-- Messages are delivered in order. A connection writes what the window held when its writer
started, the oldest first, before anything that is queued, and then what is queued, the longest
queued first. Its client gets the packets as they are written. Over all connections the messages
above QoS 0 enter the window in the order the outbox took them in, but for those too large for the
client and those that were lost; and the window keeps that order. -/
theorem ordered_of_run {clientId : String} {capacity : Nat} {moves : List Move} {c : Chronicle}
    (h : run Chronicle.note moves (fresh clientId capacity, {}) = some (t, c)) :
    (∀ x w, t.tenant = some x → x.writer = some w →
      (∃ resent later taken written,
        w.IsInOrder t.session.outbox.items c.course resent later taken written) ∧
      ∃ stream, stream <+: c.course.frames.flatten ∧
        c.course.sent <+: stream ++ c.course.farewell) ∧
    (c.course.resumed.map InFlight.sending).Sublist c.ledger.sendings ∧
    t.session.window.sendings.Sublist c.ledger.sendings ∧
    c.ledger.accepted = c.ledger.passages.map Passage.publication ++
      (t.hand ++ t.session.outbox.lasting) := by
  obtain ⟨hordered, hdated⟩ := ordered_dated_of_run h
  have htranscribed := transcribed_of_run
    (run_map (fun c : Chronicle => c.course.toTranscript)
      (fun t move t' c => c.course.toTranscript_note t move t') h)
  have hcustody := custody_of_run (run_map Chronicle.ledger (fun _ _ _ _ => rfl) h)
  refine ⟨fun x w hx hw => ?_, hdated.resumed, hdated.window, hcustody.order⟩
  have hwriter : t.tenant.map (·.writer) = some (some w) := by rw [hx, Option.map_some, hw]
  obtain ⟨resent, later, taken, written, hsequence⟩ := hordered.busy w hwriter
  exact ⟨⟨resent, later, taken, written, hsequence.toIsInOrder⟩,
    (htranscribed.emission w hwriter).exists_stream⟩

/-- Two messages are sent, and the client has one of them when its connection is taken over. It comes
back to a third message in the outbox. -/
def comeBackMoves : List Move :=
  [subscribing .exactlyOnce, .offer (letter 49 .exactlyOnce), .offer (letter 50 .atLeastOnce),
    .arrive { narrowLink with inFlightLimit := 3 }, .activate 16384] ++ writing 13 ++
  [.receive 1, .close .takenOver, .write 0 none .closeFirst, .write 0 none .itemFirst, .leave true,
    .offer (letter 51 .atLeastOnce), .arrive { narrowLink with inFlightLimit := 3 },
    .activate 16384] ++ writing 12

theorem ordered_of_run_comeBack :
    ∃ t x w c, run Chronicle.note comeBackMoves (fresh "a" 1000, {}) = some (t, c) ∧
      t.tenant = some x ∧ x.writer = some w ∧
      c.course.sent = [98, 2, 0, 1, 58, 6, 0, 1, 97, 0, 2, 50, 50, 6, 0, 1, 97, 0, 3, 51] ∧
      (∃ resent later taken written,
        w.IsInOrder t.session.outbox.items c.course resent later taken written) ∧
      c.ledger.accepted = c.ledger.passages.map Passage.publication ++
        (t.hand ++ t.session.outbox.lasting) := by
  have hrun : ((run Chronicle.note comeBackMoves (fresh "a" 1000, {})).bind fun y =>
      (y.1.tenant.bind (·.writer)).map fun _ => y.2.course.sent) =
        some [98, 2, 0, 1, 58, 6, 0, 1, 97, 0, 2, 50, 50, 6, 0, 1, 97, 0, 3, 51] := by
    decide +kernel
  obtain ⟨⟨t, c⟩, hrun, hwriter⟩ := Option.bind_eq_some_iff.1 hrun
  obtain ⟨w, hwriter, hsent⟩ := Option.map_eq_some_iff.1 hwriter
  obtain ⟨x, hx, hw⟩ := Option.bind_eq_some_iff.1 hwriter
  have hordered := ordered_of_run hrun
  exact ⟨t, x, w, c, hrun, hx, hw, hsent, (hordered.1 x w hx hw).1, hordered.2.2.2⟩

end Tenancy

end MqttBroker
