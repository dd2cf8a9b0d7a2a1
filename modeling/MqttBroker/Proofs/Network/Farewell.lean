import MqttBroker.Proofs.Network.Reasons
import MqttBroker.Proofs.Session.Framing
/-!
The end of a connection past its CONNACK, over every run of a network. The first reason for which
it is asked to close decides: it stays on record, and the DISCONNECT carries its code. A connection
that is wanted no more ends well, unless it meets a fault of its own before it sees that it has been
asked to close.
-/

namespace MqttBroker

namespace Connection

variable {now : Nat} {closeFirst : Bool} {look : Writer.Look} {b : Broker} {c : Connection}
  {turn : Turn} {β : Binding} {deadline : Option Nat} {w : Writer} {l : LeaseId}

theorem IsPast.lease_eq (h : c.IsPast l) (hw : c.writer? = some (β, w)) : β.lease = l := by
  cases h with
  | serving hphase hlease | draining hphase hlease =>
    rw [writer?, hphase] at hw
    cases hw
    exact hlease
  | ended hphase =>
    rw [writer?, hphase] at hw
    cases hw

/-- Past the CONNACK only the writer itself changes the writer. -/
theorem IsPast.writer_of_step (hpast : c.IsPast l) (h : c.step now closeFirst b = some turn)
    (hw : turn.connection.writer? = some (β, w)) : ∃ β, c.writer? = some (β, w) := by
  refine (Connection.writer_of_step h hw).resolve_right ?_
  rintro ⟨⟨rest, hgreeting⟩, -⟩
  cases hpast with
  | serving hphase | draining hphase | ended hphase => cases hphase.symm.trans hgreeting

/-- What the connection serves its client with, as long as it reads packets. -/
def serving? (c : Connection) : Option (Binding × Writer) :=
  match c.phase with
  | .serving binding _ writer => some (binding, writer)
  | _ => none

theorem phase_of_serving? (h : c.serving? = some (β, w)) :
    ∃ deadline, c.phase = .serving β deadline w := by
  unfold serving? at h
  split at h
  · next deadline _ hphase =>
    cases h
    exact ⟨deadline, hphase⟩
  · cases h

theorem writer?_of_serving? (h : c.serving? = some (β, w)) : c.writer? = some (β, w) := by
  obtain ⟨deadline, hphase⟩ := phase_of_serving? h
  rw [writer?, hphase]

/-- A connection comes to serve its client as its writer starts. -/
theorem starts_of_step (hnone : c.serving? = none) (h : c.step now closeFirst b = some turn)
    (hserving : turn.connection.serving? = some (β, w)) :
    w = .start β.link b.limits.maxUnflushedBytes := by
  -- A connection with a writer that does not serve is draining, and ends by its next step.
  rcases writer_of_step h (writer?_of_serving? hserving) with ⟨β', hbefore⟩ | ⟨-, hstarts⟩
  · cases hphase : c.phase with
    | serving =>
      rw [serving?, hphase] at hnone
      cases hnone
    | draining =>
      rw [step, hphase] at h
      obtain ⟨-, h⟩ := Option.ite_none_right_eq_some.1 h
      cases h
      cases hserving
    | _ =>
      rw [writer?, hphase] at hbefore
      cases hbefore
  · exact hstarts

theorem serving?_of_writeStep (hnone : c.serving? = none)
    (h : c.writeStep now look b = some turn) : turn.connection.serving? = none := by
  obtain ⟨outbound, w, heq⟩ := connection_of_writeStep h
  rw [heq, setWriter]
  dsimp only
  split
  · next hphase =>
    rw [serving?, hphase] at hnone
    cases hnone
  · rfl
  · exact hnone

/-- The writer at work, and the step it takes next. -/
def writerTurn? (now : Nat) (look : Writer.Look) (b : Broker) (c : Connection) :
    Option (Writer × Writer.Turn) := do
  let (β, w) ← c.writer?
  let env : Writer.Surroundings :=
    { now, room := c.outbound.room, reason := (b.lease β.lease).reason, look }
  let turn ← w.step env (b.session β.session)
  return (w, turn)

theorem writerTurn?_of_writeStep (h : c.writeStep now look b = some turn) :
    ∃ β w turn', c.writer? = some (β, w) ∧ c.writerTurn? now look b = some (w, turn') ∧
      Writer.Acts { now, room := c.outbound.room, reason := (b.lease β.lease).reason, look }
        (b.session β.session) w turn' ∧
      turn.connection.writer? = some (β, turn'.writer) := by
  obtain ⟨⟨β, w⟩, hwriter, h⟩ := Option.bind_eq_some_iff.1 h
  obtain ⟨turn', hturn', h⟩ := Option.bind_eq_some_iff.1 h
  cases h
  refine ⟨β, w, turn', hwriter, ?_, Writer.acts_of_step hturn', ?_⟩
  · simp only [writerTurn?, hwriter, hturn', Option.bind_eq_bind, Option.bind_some, Option.pure_def]
  · have houtbound : ({ c with outbound := transmit c.outbound turn' } : Connection).writer? =
        some (β, w) := hwriter
    exact writer?_setWriter houtbound turn'.writer

end Connection

namespace Network

/-- What the `i`-th connection serves its client with, as long as it reads packets. -/
def serving? (n : Network) (i : Nat) : Option (Binding × Writer) :=
  (n.connections[i]?).bind (·.serving?)

/-- In one move the `i`-th connection comes to serve its client, bound by `β`: its CONNACK is
out. -/
structure Begins (i : Nat) (β : Binding) (n n' : Network) : Prop where
  step : ∃ move, n.step move = some n'
  before : ∃ c, n.connections[i]? = some c ∧ c.serving? = none
  after : ∃ w, n'.serving? i = some (β, w)

/-- Notes what the writer of the `i`-th connection does in a move. -/
def note (i : Nat) (n : Network) (move : Move) (a : Transcript) : Transcript :=
  match move with
  | .write j now look =>
    if j = i then
      match (n.connections[i]?).bind (·.writerTurn? now look n.broker) with
      | some (w, turn) => a.follow w turn
      | none => a
    else a
  | _ => a

/-- Keeps the record of what the writer of the `i`-th connection writes in a run. -/
def record (i : Nat) : List Move → Network → Transcript → Transcript
  | [], _, a => a
  | move :: moves, n, a => match n.step move with
    | some n' => record i moves n' (note i n move a)
    | none => a

variable {limits : Limits} {n n' : Network} {move : Move} {moves : List Move} {i : Nat}
  {c : Connection} {β : Binding} {threshold : Nat} {a : Transcript}

theorem Begins.serving?_eq (h : Begins i β n n') :
    n'.serving? i = some (β, .start β.link n.broker.limits.maxUnflushedBytes) := by
  obtain ⟨move, hstep⟩ := h.step
  obtain ⟨c, hc, hnone⟩ := h.before
  obtain ⟨w, hserving⟩ := h.after
  rw [hserving]
  obtain ⟨c', hc', hserving⟩ := Option.bind_eq_some_iff.1 hserving
  cases meets_of_step hc hstep with
  | aside hsame hphase =>
    cases hsame.symm.trans hc'
    rw [Connection.serving?, hphase] at hserving
    cases hnone.symm.trans hserving
  | step hturn =>
    cases (connection_withTurn hc _).symm.trans hc'
    rw [Connection.starts_of_step hnone hturn hserving]
  | write hturn =>
    cases (connection_withTurn hc _).symm.trans hc'
    cases (Connection.serving?_of_writeStep hnone hturn).symm.trans hserving

theorem note_aside (h : ∀ now look, move ≠ .write i now look) :
    note i n move a = a := by
  cases move with
  | write j now look =>
    rw [note, if_neg]
    rintro rfl
    exact h now look rfl
  | _ => rfl

theorem note_write (hc : n.connections[i]? = some c) {now : Nat} {look : Writer.Look} {w : Writer}
    {turn : Writer.Turn} (hturn : c.writerTurn? now look n.broker = some (w, turn)) :
    note i n (.write i now look) a = a.follow w turn := by
  simp only [note, if_pos, hc, Option.bind_some, hturn]

/-- The DISCONNECT with which the broker parts from a client of that link. -/
def IsParting (link : Link) (reason? : Option CloseReason) (bytes : Bytes) : Prop :=
  ∃ reason code, reason? = some reason ∧ reason.disconnectCode? = some code ∧
    link.level.isV5 = true ∧ Packet.encode (.disconnect { code }) link.level = .ok bytes

theorem isParting_of_farewell (w : Writer) (reason? : Option CloseReason) :
    w.farewell reason? = [] ∨ IsParting w.link reason? (w.farewell reason?) := by
  unfold Writer.farewell
  split
  · next code hv5 hcode =>
    obtain ⟨reason, hreason, hcode⟩ := Option.bind_eq_some_iff.1 hcode
    cases hencode : Packet.encode (.disconnect { code }) w.link.level with
    | error => exact .inl rfl
    | ok bytes => exact .inr ⟨reason, code, hreason, hcode, hv5, hencode⟩
  · exact .inl rfl

theorem IsParting.kept {may : CloseReason → Prop} {b b' : Broker} {l : LeaseId} {link : Link}
    {bytes : Bytes} (h : IsParting link (b.lease l).reason bytes)
    (hupholds : Broker.Upholds may b b') : IsParting link (b'.lease l).reason bytes := by
  obtain ⟨reason, code, hreason, hcode⟩ := h
  exact ⟨reason, code, hupholds.kept l reason hreason, hcode⟩

/-- What the record says of the `i`-th connection, bound by `β`, since its writer started. -/
structure Speaks (i : Nat) (β : Binding) (threshold : Nat) (n : Network) (a : Transcript) :
    Prop where
  service : n.InService i β.lease
  waiting : ∀ id frame, .control frame ∈ (n.broker.session id).outbox.items → IsOrdinary frame
  writer : ∀ c, n.connections[i]? = some c → ∀ x ∈ c.writer?,
    x.2.link = β.link ∧ x.2.threshold = threshold ∧ x.2.Emission a
  frames : ∀ frame ∈ a.frames, IsOrdinary frame
  farewell : a.farewell = [] ∨
    IsParting β.link (n.broker.lease β.lease).reason a.farewell
  framed : IsFramed (a.frames ++ [a.farewell]) a.sent ∨ a.IsTorn (max threshold 1024)

namespace Speaks

/-- A move in which the writer does nothing. -/
theorem of_quiet (h : n.Speaks i β threshold a) (hstep : n.step move = some n')
    (hwriter : ∀ c', n'.connections[i]? = some c' → ∀ x ∈ c'.writer?,
      ∃ c β', n.connections[i]? = some c ∧ c.writer? = some (β', x.2)) :
    n'.Speaks i β threshold a where
  service := h.service.of_step hstep
  waiting id frame hmem :=
    ((upholds_of_step hstep).controls id frame hmem).elim (h.waiting id frame) fun hnew => hnew
  writer := by
    intro c' hc' x hx
    obtain ⟨c, β', hc, hw⟩ := hwriter c' hc' x hx
    exact h.writer c hc (β', x.2) hw
  frames := h.frames
  farewell := h.farewell.imp_right fun hparting => hparting.kept (upholds_of_step hstep)
  framed := h.framed

theorem write (h : n.Speaks i β threshold a) {now : Nat} {look : Writer.Look}
    {turn : Connection.Turn} (hc : n.connections[i]? = some c)
    (hturn : c.writeStep now look n.broker = some turn)
    (hstep : n.step (.write i now look) = some (n.withTurn i turn)) :
    (n.withTurn i turn).Speaks i β threshold (note i n (.write i now look) a) := by
  obtain ⟨β', w, turn', hwriter, hnext, hacts, hwriter'⟩ :=
    Connection.writerTurn?_of_writeStep hturn
  have hupholds := upholds_of_step hstep
  obtain ⟨hlink, hthreshold, hemission⟩ := h.writer c hc (β', w) hwriter
  have hemission' := Writer.emission_of_acts hemission hacts
  obtain ⟨c', hc', hpast⟩ := h.service.past
  cases hc.symm.trans hc'
  have hlease := hpast.lease_eq hwriter
  rw [note_write hc hnext]
  constructor
  case service => exact h.service.of_step hstep
  case waiting =>
    intro id frame hmem
    exact (hupholds.controls id frame hmem).elim (h.waiting id frame) fun hnew => hnew
  case writer =>
    intro c' hc' x hx
    cases (connection_withTurn hc turn).symm.trans hc'
    cases hwriter'.symm.trans hx
    exact ⟨hacts.link_eq.trans hlink, hacts.threshold_eq.trans hthreshold, hemission'⟩
  case frames =>
    intro frame hmem
    rcases List.mem_append.1 hmem with hold | hnew
    · exact h.frames frame hold
    · have htraffic := Writer.traffic_of_acts hacts
      exact Writer.encodes_of_begun htraffic (h.waiting β'.session) nofun nofun
        (Option.mem_toList.1 hnew)
  case farewell =>
    rcases Writer.farewell_follow hemission hacts with hsame | hnew
    · rw [hsame]
      exact h.farewell.imp_right fun hparting => hparting.kept hupholds
    · -- The reason it carries was on record when the writer closed, and has stayed there.
      have hlast := isParting_of_farewell w (n.broker.lease β'.lease).reason
      rw [← hnew, hlink, hlease] at hlast
      exact hlast.imp_right fun hparting => hparting.kept hupholds
  case framed =>
    rw [← hthreshold, ← hacts.threshold_eq]
    exact hemission'.framed.imp_right And.right

theorem of_step (h : n.Speaks i β threshold a) (hstep : n.step move = some n') :
    n'.Speaks i β threshold (note i n move a) := by
  obtain ⟨c, hc, hpast⟩ := h.service.past
  cases meets_of_step hc hstep with
  | @aside _ _ c₁ hc₁ hphase haside =>
    rw [note_aside haside]
    refine h.of_quiet hstep fun c' hc' x hx => ?_
    cases hc₁.symm.trans hc'
    rw [Connection.writer?, hphase] at hx
    exact ⟨c, x.1, hc, hx⟩
  | @step now closeFirst turn hturn =>
    rw [note_aside fun _ _ => Move.noConfusion]
    refine h.of_quiet hstep fun c' hc' x hx => ?_
    cases (connection_withTurn hc turn).symm.trans hc'
    obtain ⟨β', hw⟩ := hpast.writer_of_step hturn hx
    exact ⟨c, β', hc, hw⟩
  | write hturn => exact h.write hc hturn hstep

theorem of_run (h : n.Speaks i β threshold a) (hrun : run moves n = some n') :
    n'.Speaks i β threshold (record i moves n a) := by
  induction moves generalizing n a with
  | nil =>
    cases hrun
    exact h
  | cons move moves ih =>
    obtain ⟨n₁, hstep, hrun⟩ := Option.bind_eq_some_iff.1 hrun
    rw [record, hstep]
    exact ih (h.of_step hstep) hrun

/-- The record is empty as the writer starts. -/
theorem start {credentials : Option Authenticator} {uuids : Nat → BitVec 128}
    (hrun : run moves (Network.start limits credentials uuids) = some n)
    (hserving : n.serving? i = some (β, .start β.link threshold)) :
    n.Speaks i β threshold {} := by
  obtain ⟨c, hc, hserving⟩ := Option.bind_eq_some_iff.1 hserving
  obtain ⟨deadline, hphase⟩ := Connection.phase_of_serving? hserving
  have hsound := start_sound limits credentials uuids
  have hleased : n.IsLeased := isLeased_of_run hsound (fun _ _ hβ => by cases hβ) hrun
  constructor
  case service =>
    refine ⟨⟨c, hc, .serving hphase rfl⟩, hleased i β ?_, fun hresult => absurd ?_ hresult⟩
    · rw [binding?_eq_some hc, Connection.binding?, hphase]
      exact rfl
    · rw [result?_eq hc, Connection.result?_of_serving hphase]
  case waiting =>
    intro id frame hmem
    refine ((upholds_of_run hrun).controls id frame hmem).resolve_left fun hbefore => ?_
    exact List.not_mem_nil hbefore
  case writer =>
    intro c' hc' x hx
    cases hc.symm.trans hc'
    rw [Connection.writer?, hphase] at hx
    cases hx
    exact ⟨rfl, rfl, .start β.link threshold⟩
  case frames => exact fun _ hmem => absurd hmem List.not_mem_nil
  case farewell => exact .inl rfl
  case framed => exact (Writer.Emission.start β.link threshold).framed.imp_right And.right

end Speaks

/-- A connection has sent its CONNACK, and anything happens. The first reason for which it is
asked to close stays on record. It writes no DISCONNECT but a last one, to a client of 5.0 and
with the code of that reason. Nothing stands behind it, and whole packets before it, unless one
that is larger than the buffer was out in part. Where the connection is wanted no more and nobody
is at fault, it ends well, unless it meets a fault of its own in a step in which it does not look
at what it is asked. -/
theorem closes_of_run {credentials : Option Authenticator} {uuids : Nat → BitVec 128} {n₀ : Network}
    {moves' : List Move} (hrun : run moves (start limits credentials uuids) = some n₀)
    (hbegins : Begins i β n₀ n) (hrun' : run moves' n = some n') :
    (∀ m move m' reason, Passes moves' n m move m' →
      (m.broker.lease β.lease).reason = some reason →
        (n'.broker.lease β.lease).reason = some reason) ∧
      (∀ frame ∈ (record i moves' n {}).frames, IsOrdinary frame) ∧
      ((record i moves' n {}).farewell = [] ∨
        IsParting β.link (n'.broker.lease β.lease).reason (record i moves' n {}).farewell) ∧
      (IsFramed ((record i moves' n {}).frames ++ [(record i moves' n {}).farewell])
          (record i moves' n {}).sent ∨
        (record i moves' n {}).IsTorn (max limits.maxUnflushedBytes 1024)) ∧
      ∀ error reason, n'.result? i = some (.error error) →
        (n'.broker.lease β.lease).reason = some reason → reason.IsOrderly →
          ∃ m now m', Passes moves' n m (.step i now false) m' ∧
            (m.broker.lease β.lease).reason = some reason ∧ m.result? i = none ∧
              m'.result? i = some (.error error) := by
  -- The record begins where the connection has begun to serve, one move further.
  obtain ⟨move, hstep⟩ := hbegins.step
  have hreached : run (moves ++ [move]) (start limits credentials uuids) = some n := by
    rw [run_append, hrun, Option.bind_some, run, hstep]
    rfl
  have hserving := hbegins.serving?_eq
  rw [((start_sound limits credentials uuids).of_run hrun).limits_eq] at hserving
  have hspeaks := Speaks.start hreached hserving
  have hspeaks' := hspeaks.of_run hrun'
  refine ⟨?_, hspeaks'.frames, hspeaks'.farewell, hspeaks'.framed, ?_⟩
  · intro m move m' reason hpasses hreason
    obtain ⟨after, hafter⟩ := hpasses.exists_run hrun'
    have hnext := (upholds_of_step hpasses.step_eq).kept β.lease reason hreason
    exact (upholds_of_run hafter).kept β.lease reason hnext
  · intro error reason hresult hreason horderly
    obtain ⟨c, hc, hserving⟩ := Option.bind_eq_some_iff.1 hserving
    obtain ⟨deadline, hphase⟩ := Connection.phase_of_serving? hserving
    have hnone : n.result? i = none := by
      rw [result?_eq hc, Connection.result?_of_serving hphase]
    -- No error was there before: the connection was reading.
    refine (hspeaks.service.overlooks_of_run hrun' hresult hreason horderly).resolve_left ?_
    rintro ⟨-, hbefore⟩
    cases hnone.symm.trans hbefore

/-- A client of 5.0 connects, and its CONNACK is about to go out. -/
def greeting : List Move :=
  .accept 0 64 :: sending 0 [0x10, 14, 0, 4, 0x4d, 0x51, 0x54, 0x54, 5, 2, 0, 0, 0, 0, 1, 0x61]

/-- The client subscribes, and takes the SUBACK and eight bytes of a PUBLISH that is larger than the
buffer. The broker shuts down, which the writer sees. Then the client takes bytes again, and its
connection reads bytes that are no packet, with no look at what it is asked. -/
def overlooking : List Move :=
  sending 0 [0x82, 7, 0, 1, 0, 0, 1, 0x61, 0] ++ List.replicate 5 (.write 0 0 .itemFirst) ++
    [.client 0 { capacity := 64 } { capacity := 14 },
      .publish { topic := [0x61], payload := List.replicate 1100 0x78, qos := .atMostOnce }] ++
    List.replicate 4 (.write 0 0 .itemFirst) ++
    [.shutdown, .write 0 0 .itemFirst,
      .client 0 { capacity := 64, held := [0, 0] } { capacity := 64 },
      .step 0 0 false, .step 0 0 false] ++ List.replicate 3 (.write 0 0 .itemFirst) ++ [.step 0 0 false]

theorem overlooking_torn :
    ∃ n₀ n β n', run greeting (start { maxUnflushedBytes := 1 }) = some n₀ ∧
      Begins 0 β n₀ n ∧ run overlooking n = some n' ∧
      (n'.broker.lease β.lease).reason = some .serverShutdown ∧
      n'.result? 0 = some (.error (.malformedPacket (.invalidPacketType 0))) ∧
      ¬IsFramed ((record 0 overlooking n {}).frames ++ [(record 0 overlooking n {}).farewell])
        (record 0 overlooking n {}).sent := by
  have hend : ((run greeting (start { maxUnflushedBytes := 1 })).bind fun n₀ =>
      (n₀.connections[0]?).bind fun c => (n₀.step (.step 0 0 false)).bind fun n =>
        (n.serving? 0).bind fun x => (run overlooking n).map fun n' =>
          (c.serving?.isNone, (n'.broker.lease x.1.lease).reason, n'.result? 0,
            decide (IsFramed ((record 0 overlooking n {}).frames ++
              [(record 0 overlooking n {}).farewell]) (record 0 overlooking n {}).sent))) =
      some (true, some .serverShutdown,
        some (.error (.malformedPacket (.invalidPacketType 0))), false) := by
    decide +kernel
  obtain ⟨n₀, hn₀, hend⟩ := Option.bind_eq_some_iff.1 hend
  obtain ⟨c, hc, hend⟩ := Option.bind_eq_some_iff.1 hend
  obtain ⟨n, hstep, hend⟩ := Option.bind_eq_some_iff.1 hend
  obtain ⟨⟨β, w⟩, hserving, hend⟩ := Option.bind_eq_some_iff.1 hend
  obtain ⟨n', hn', hfacts⟩ := Option.map_eq_some_iff.1 hend
  simp only [Prod.mk.injEq, decide_eq_false_iff_not, Option.isNone_iff_eq_none] at hfacts
  obtain ⟨hnone, hreason, hresult, htorn⟩ := hfacts
  have hbegins : Begins 0 β n₀ n := ⟨⟨_, hstep⟩, ⟨c, hc, hnone⟩, ⟨w, hserving⟩⟩
  exact ⟨n₀, n, β, n', hn₀, hbegins, hn', hreason, hresult, htorn⟩

theorem closes_of_run_overlooking :
    ∃ n₀ n β n', run greeting (start { maxUnflushedBytes := 1 }) = some n₀ ∧
      Begins 0 β n₀ n ∧ run overlooking n = some n' ∧
      (record 0 overlooking n {}).IsTorn 1024 ∧
      IsParting β.link (some .serverShutdown) (record 0 overlooking n {}).farewell ∧
      ∃ m now m', Passes overlooking n m (.step 0 now false) m' ∧
        (m.broker.lease β.lease).reason = some .serverShutdown ∧ m.result? 0 = none ∧
          m'.result? 0 = some (.error (.malformedPacket (.invalidPacketType 0))) := by
  obtain ⟨n₀, n, β, n', hn₀, hbegins, hn', hreason, hresult, htorn⟩ := overlooking_torn
  obtain ⟨-, -, hfarewell, hframed, hoverlooks⟩ := closes_of_run hn₀ hbegins hn'
  have htorn := hframed.resolve_left htorn
  refine ⟨n₀, n, β, n', hn₀, hbegins, hn', htorn, ?_, hoverlooks _ _ hresult hreason (.inr rfl)⟩
  rw [← hreason]
  refine hfarewell.resolve_left fun hnone => ?_
  obtain ⟨_, _, _, tail, -, -, -, htail, hprefix, -⟩ := htorn
  rw [hnone] at hprefix
  exact htail (List.prefix_nil.1 hprefix)

/-- The DISCONNECT can stand behind a packet that is not complete, and a connection that is shut
down can end with an error of its own. -/
theorem not_closes_of_run :
    (¬∀ (limits : Limits) moves n₀ i β n moves' n',
      run moves (start limits) = some n₀ → Begins i β n₀ n → run moves' n = some n' →
        IsFramed ((record i moves' n {}).frames ++ [(record i moves' n {}).farewell])
          (record i moves' n {}).sent) ∧
      ¬∀ (limits : Limits) moves n₀ i β n moves' n' reason,
        run moves (start limits) = some n₀ → Begins i β n₀ n → run moves' n = some n' →
          (n'.broker.lease β.lease).reason = some reason → reason.IsOrderly →
            ∀ error, n'.result? i ≠ some (.error error) := by
  obtain ⟨n₀, n, β, n', hn₀, hbegins, hn', hreason, hresult, htorn⟩ := overlooking_torn
  constructor
  · intro hframed
    exact htorn (hframed _ _ _ _ _ _ _ _ hn₀ hbegins hn')
  · intro hok
    exact hok _ _ _ _ _ _ _ _ _ hn₀ hbegins hn' hreason (.inr rfl) _ hresult

end Network

end MqttBroker
