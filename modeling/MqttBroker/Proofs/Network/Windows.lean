import MqttBroker.Proofs.Broker.Windows
import MqttBroker.Proofs.Network.Effects
import MqttBroker.Proofs.Writer.Traffic
/-!
What a run of a network does to in-flight windows. A packet that is handled changes the window of
its client's session as the client's reply calls for, a writer puts a message in while there is room
for it, and nothing else makes a difference.
-/

namespace MqttBroker

namespace Connection

variable {now : Nat} {closeFirst : Bool} {look : Writer.Look} {b : Broker} {c : Connection}
  {turn : Turn}

/-- The writer of the connection, or the one it is to have, leaves an identifier for every message
in flight. -/
structure Servable (c : Connection) : Prop where
  greeting : ∀ β rest, c.phase = .greeting β rest → β.link.IsServable
  writing : ∀ x ∈ c.writer?, x.2.link.IsServable

theorem Servable.congr {c' : Connection} (h : c.Servable) (hsame : c'.phase = c.phase) :
    c'.Servable where
  greeting := by
    rw [hsame]
    exact h.greeting
  writing := by
    rw [writer?, hsame]
    exact h.writing

theorem Servable.of_ended {result : Result} (h : c.phase = .ended result) : c.Servable where
  greeting β rest hphase := by
    rw [h] at hphase
    cases hphase
  writing := by
    rw [writer?, h]
    rintro _ ⟨⟩

theorem Servable.of_binding? (h : c.binding? = none) : c.Servable where
  greeting β rest hphase := by
    rw [binding?, hphase] at h
    cases h
  writing x hx := by
    rw [binding?_of_writer? hx] at h
    cases h

theorem Servable.of_writer {β : Binding} {w : Writer} (hw : w.link.IsServable)
    (hwriter : c.writer? = some (β, w)) : c.Servable where
  greeting β' rest hphase := by
    rw [writer?, hphase] at hwriter
    cases hwriter
  writing x hx := by
    cases hwriter.symm.trans hx
    exact hw

theorem servable_bind (c : Connection) (b : Broker) (connect : Connect) (accepted : Accepted) :
    (c.bind b connect accepted).connection.Servable := by
  unfold bind
  dsimp only
  split
  · exact ⟨by rintro _ _ ⟨⟩; exact Link.isServable_negotiate .., by rintro _ ⟨⟩⟩
  · exact .of_ended rfl

theorem servable_handle {β : Binding} {w : Writer} (hw : w.link.IsServable) (c : Connection)
    (p : Packet) : (c.handle now b β w p).connection.Servable := by
  unfold handle
  dsimp only
  split <;> exact .of_writer hw rfl

theorem keeps_servable : Keeps Servable where
  client h := h.congr rfl
  step h hstep := by
    cases acts_of_step hstep with
    | outside _ hafter => exact .of_binding? hafter
    | bind => exact servable_bind ..
    | greet hphase =>
      refine ⟨?_, by rintro _ ⟨⟩⟩
      rintro _ _ ⟨⟩
      exact h.greeting _ _ hphase
    | activate hphase => exact .of_writer (h.greeting _ _ hphase) rfl
    | read _ _ hsame => exact h.congr hsame
    | @handle c' β deadline w p hphase =>
      exact servable_handle (h.writing (β, w) (by rw [writer?, hphase]; rfl)) c' p
    | @drain b' β deadline w result hphase =>
      exact .of_writer (h.writing (β, w) (by rw [writer?, hphase]; rfl)) rfl
    | conclude => exact .of_ended rfl
  writeStep {now look b c turn} h hstep := by
    obtain ⟨β, w, turn', hwriter, hacts, hwriter', -⟩ := writes_of_writeStep hstep
    exact .of_writer (hacts.link_eq ▸ h.writing _ hwriter) hwriter'

/-! ### Windows -/

/-- A step of the connection changes the window that a packet is handled for, and no other. -/
theorem windows_of_step (hfiled : b.Filed)
    (hseated : ∀ β ∈ c.binding?, β.session < b.sessions.length)
    (h : c.step now closeFirst b = some turn) :
    c.handles? closeFirst b = none ∧ turn.broker.windows = b.windows ∨
      ∃ β p, c.handles? closeFirst b = some (β, p) ∧ turn.broker.windows =
        Function.update b.windows β.session
          (p.acknowledge β.link.level.isV5 (b.windows β.session)) := by
  cases acts_of_step h with
  | outside hbefore _ _ hasks => exact .inl ⟨handles?_of_binding? hbefore, Broker.windows_asks hasks⟩
  | bind hconnect hasks =>
    have hcarries : Broker.Carries [] 0 [] b _ := Broker.carries_of_asks 0 hasks
    exact .inl ⟨handles?_of_binding? (binding?_of_connect? hconnect),
      (Broker.windows_bind (hcarries.filed hfiled) ..).trans (Broker.windows_asks hasks)⟩
  | greet hphase => exact .inl ⟨by rw [handles?, hphase], rfl⟩
  | activate hphase => exact .inl ⟨by rw [handles?, hphase], Broker.windows_updateSession rfl⟩
  | read _ hhandles => exact .inl ⟨hhandles, rfl⟩
  | @handle c' β deadline w p hphase hhandles =>
    have hbefore : c.binding? = some β := by rw [binding?, hphase]
    have hhandled := Handled.windows_onPacket (h := { broker := b, binding := β })
      (hseated β hbefore) p
    have hrecorded := fun result =>
      (Broker.windows_asks (asks_recordError _ (b.handle β p).binding result)).trans hhandled
    refine .inr ⟨β, p, hhandles, ?_⟩
    unfold handle
    dsimp only
    split
    · exact hhandled
    · exact hrecorded _
    · exact hrecorded _
  | drain _ hhandles hasks =>
    exact .inl ⟨hhandles,
      (Broker.windows_asks (asks_recordError ..)).trans (Broker.windows_asks hasks)⟩
  | @conclude β result _ hhandles =>
    exact .inl ⟨hhandles, (Broker.windows_release ..).trans
      (Broker.windows_asks (asks_recordError b β result))⟩

/-- A step of the writer puts a message into the window of its session while there is room, or
changes no window. -/
theorem windows_of_writeStep (hseated : ∀ β ∈ c.binding?, β.session < b.sessions.length)
    (h : c.writeStep now look b = some turn) :
    turn.broker.windows = b.windows ∨
      ∃ β w p, c.writer? = some (β, w) ∧ (b.windows β.session).size < w.link.inFlightLimit ∧
        turn.broker.windows =
          Function.update b.windows β.session ((b.windows β.session).insert p).1 := by
  obtain ⟨β, w, turn', hwriter, hacts, -, hasks⟩ := writes_of_writeStep h
  rw [Broker.windows_asks hasks]
  have hsame : turn'.session.window = (b.session β.session).window →
      (b.putSession β.session turn'.session).windows = b.windows :=
    fun hsame => Broker.windows_updateSession hsame
  cases Writer.traffic_of_acts hacts with
  | idle _ hwindow => exact .inl (hsame hwindow)
  | lookUp _ hsession | stop hsession | resend _ hsession | control _ _ hsession
  | transient _ _ hsession | drop _ _ hsession | hold _ _ hsession | giveBack _ _ hsession
  | forsake _ _ _ hsession =>
    exact .inl (hsame ((congrArg Session.window hsession).trans rfl))
  | @reserve p s' id _ hreserve hsession =>
    obtain ⟨hroom, rfl, -⟩ := Session.reserve?_eq_some hreserve
    refine .inr ⟨β, w, p, hwriter, hroom, ?_⟩
    rw [Broker.windows_putSession (hseated β (binding?_of_writer? hwriter)), hsession]
    rfl

end Connection

namespace Network

variable {limits : Limits} {n n' : Network} {move : Move} {moves : List Move} {id : SessionId}

/-- What a move can do to the windows of the sessions. -/
inductive Shifts (n : Network) : Move → Network → Prop where
  | nothing {move : Move} {n' : Network} (hwindows : n'.broker.windows = n.broker.windows) :
    Shifts n move n'
  | handles {move : Move} {n' : Network} {x : Handling} (hx : n.handling? move n' = some x)
    (hwindows : n'.broker.windows = Function.update n.broker.windows x.session
      (x.packet.acknowledge x.binding.link.level.isV5 (n.broker.windows x.session))) :
    Shifts n move n'
  | inserts {i now : Nat} {look : Writer.Look} {n' : Network} {c : Connection} {β : Binding}
    {w : Writer} {p : Publication} (hc : n.connections[i]? = some c)
    (hwriter : c.writer? = some (β, w))
    (hroom : (n.broker.windows β.session).size < w.link.inFlightLimit)
    (hwindows : n'.broker.windows = Function.update n.broker.windows β.session
      ((n.broker.windows β.session).insert p).1) : Shifts n (.write i now look) n'

theorem Sound.shifts_of_step (h : n.Sound limits) (hstep : n.step move = some n') :
    n.Shifts move n' := by
  cases move with
  | accept now capacity =>
    cases hstep
    exact .nothing rfl
  | client i inbound outbound =>
    obtain ⟨c, hc, rfl⟩ := Option.map_eq_some_iff.1 hstep
    exact .nothing rfl
  | step i now closeFirst =>
    obtain ⟨c, hc, hstep⟩ := Option.bind_eq_some_iff.1 hstep
    obtain ⟨turn, hturn, rfl⟩ := Option.map_eq_some_iff.1 hstep
    have hseated := fun β hβ => h.seated i β ((binding?_eq_some hc).trans hβ)
    rcases Connection.windows_of_step h.filed hseated hturn with ⟨-, hsame⟩ | ⟨β, p, hp, hwindows⟩
    · exact .nothing hsame
    · refine .handles (x := ⟨i, β, p, n.broker, turn.broker⟩) ?_ hwindows
      rw [handling?_step hc, hp]
      rfl
  | write i now look =>
    obtain ⟨c, hc, hstep⟩ := Option.bind_eq_some_iff.1 hstep
    obtain ⟨turn, hturn, rfl⟩ := Option.map_eq_some_iff.1 hstep
    have hseated := fun β hβ => h.seated i β ((binding?_eq_some hc).trans hβ)
    rcases Connection.windows_of_writeStep hseated hturn with hsame | ⟨β, w, p, hw, hroom, hwindows⟩
    · exact .nothing hsame
    · exact .inserts hc hw hroom hwindows
  | publish m =>
    cases hstep
    exact .nothing (n.broker.windows_dispatch m)
  | shutdown =>
    cases hstep
    exact .nothing n.broker.windows_shutdown

/-! ### Messages that stay -/

/-- A QoS 1 message in flight stays where it is, unless the packet that is handled takes it out. -/
theorem Sound.stays_in_window_of_step {e : InFlight} (h : n.Sound limits)
    (hstep : n.step move = some n') (he : e ∈ (n.broker.windows id).entries)
    (hqos : e.publication.qos = .atLeastOnce) :
    e ∈ (n'.broker.windows id).entries ∨ ∃ x, n.handling? move n' = some x ∧ x.session = id ∧
      x.packet.finishes x.binding.link.level.isV5 e.packetId := by
  cases h.shifts_of_step hstep with
  | nothing hwindows =>
    rw [hwindows]
    exact .inl he
  | @handles _ _ x hx hwindows =>
    by_cases hsession : x.session = id
    · by_cases hfinishes : x.packet.finishes x.binding.link.level.isV5 e.packetId
      · exact .inr ⟨x, hx, hsession, hfinishes⟩
      · subst hsession
        rw [hwindows, Function.update_self]
        exact .inl (Packet.mem_acknowledge he hqos hfinishes)
    · rw [hwindows, Function.update_of_ne (Ne.symm hsession)]
      exact .inl he
  | @inserts _ _ _ _ _ β w p _ _ _ hwindows =>
    by_cases hsession : β.session = id
    · subst hsession
      rw [hwindows, Function.update_self]
      exact .inl (List.mem_append_left _ he)
    · rw [hwindows, Function.update_of_ne (Ne.symm hsession)]
      exact .inl he

/-- A QoS 1 message in flight stays in its window, until its client sends a PUBACK for it, or at 5.0
a PUBREC for it that is a refusal. -/
theorem stays_in_window_of_run {e : InFlight} (h : n.Sound limits) (hrun : run moves n = some n')
    (he : e ∈ (n.broker.session id).window.entries) (hqos : e.publication.qos = .atLeastOnce) :
    e ∈ (n'.broker.session id).window.entries ∨ ∃ x ∈ handlings moves n, x.session = id ∧
      x.packet.finishes x.binding.link.level.isV5 e.packetId := by
  induction moves generalizing n with
  | nil =>
    cases hrun
    exact .inl he
  | cons move moves ih =>
    obtain ⟨n₁, hstep, hrun⟩ := Option.bind_eq_some_iff.1 hrun
    rw [handlings, hstep]
    dsimp only
    rcases h.stays_in_window_of_step hstep he hqos with hstays | ⟨x, hx, hsession, hfinishes⟩
    · refine (ih (h.of_step hstep) hrun hstays).imp_right ?_
      rintro ⟨x, hx, hsession, hfinishes⟩
      exact ⟨x, List.mem_append_right _ hx, hsession, hfinishes⟩
    · exact .inr ⟨x, List.mem_append_left _ (Option.mem_toList.2 hx), hsession, hfinishes⟩

/-- A 5.0 client subscribes to "a" at QoS 1, a message is published there, and the writer takes so
many steps. -/
def delivering (writes : Nat) : List Move :=
  .accept 0 64 ::
      sending 0 [0x10, 0x0e, 0, 4, 0x4d, 0x51, 0x54, 0x54, 5, 2, 0, 0, 0, 0, 1, 0x61, 0x82, 7, 0, 1,
        0, 0, 1, 0x61, 1] ++
    [.step 0 0 false, .step 0 0 false,
      .publish { topic := [0x61], payload := [0x31], qos := .atLeastOnce }] ++
    List.replicate writes (.write 0 0 .itemFirst)

/-- The client sends a PUBREC for identifier 1, with a reason of 0x80. -/
def refusing : List Move := sending 0 [0x50, 3, 0, 1, 0x80]

/-- The message in flight. -/
def delivered : InFlight where
  packetId := 1
  publication := { topic := [0x61], payload := [0x31], qos := .atLeastOnce }

theorem exists_refusing : ∃ n n', run (delivering 8) (start {}) = some n ∧
    run refusing n = some n' ∧ (n.broker.session 0).window.entries = [delivered] ∧
    (n'.broker.session 0).window.entries = [] ∧
    (handlings refusing n).map Handling.packet = [.pubRec (.withReason 1 0x80)] := by
  have hend : (run (delivering 8) (start {})).map (fun n =>
      ((n.broker.session 0).window.entries, (handlings refusing n).map Handling.packet,
        (run refusing n).map fun n' => (n'.broker.session 0).window.entries)) =
      some ([delivered], [.pubRec (.withReason 1 0x80)], some []) := by
    decide +kernel
  obtain ⟨n, hn, hfacts⟩ := Option.map_eq_some_iff.1 hend
  obtain ⟨hbefore, hfacts⟩ := Prod.mk.inj hfacts
  obtain ⟨hpackets, hafter⟩ := Prod.mk.inj hfacts
  obtain ⟨n', hn', hafter⟩ := Option.map_eq_some_iff.1 hafter
  exact ⟨n, n', hn, hn', hbefore, hafter, hpackets⟩

/-- The message is gone, and what has taken it out is the PUBREC. -/
theorem stays_in_window_of_run_refusing : ∃ n n', n.Sound {} ∧ run refusing n = some n' ∧
    delivered ∈ (n.broker.session 0).window.entries ∧
    delivered.publication.qos = .atLeastOnce ∧
    (n'.broker.session 0).window.entries = [] ∧ ∃ x ∈ handlings refusing n, x.session = 0 ∧
      x.packet.finishes x.binding.link.level.isV5 delivered.packetId := by
  obtain ⟨n, n', hn, hn', hbefore, hafter, -⟩ := exists_refusing
  have hsound := (start_sound {} none _).of_run hn
  have hmem : delivered ∈ (n.broker.session 0).window.entries := by
    rw [hbefore]
    exact List.mem_singleton_self _
  refine ⟨n, n', hsound, hn', hmem, rfl, hafter, ?_⟩
  refine (stays_in_window_of_run hsound hn' hmem rfl).resolve_left ?_
  rw [hafter]
  exact List.not_mem_nil

/-- It need not be a PUBACK that takes a QoS 1 message out. -/
theorem not_stays_until_pubAck : ¬ ∀ (limits : Limits) (n n' : Network) (moves : List Move)
    (id : SessionId) (e : InFlight), n.Sound limits → run moves n = some n' →
      e ∈ (n.broker.session id).window.entries → e.publication.qos = .atLeastOnce →
        e ∈ (n'.broker.session id).window.entries ∨ ∃ x ∈ handlings moves n, x.session = id ∧
          ∃ a, x.packet = .pubAck a ∧ a.packetId = e.packetId := by
  intro hall
  obtain ⟨n, n', hn, hn', hbefore, hafter, hpackets⟩ := exists_refusing
  have hmem : delivered ∈ (n.broker.session 0).window.entries := by
    rw [hbefore]
    exact List.mem_singleton_self _
  rcases hall {} n n' refusing 0 delivered ((start_sound {} none _).of_run hn) hn' hmem rfl with
    hstays | ⟨x, hx, -, a, ha, -⟩
  · rw [hafter] at hstays
    cases hstays
  · have hx : x.packet ∈ (handlings refusing n).map Handling.packet := List.mem_map_of_mem hx
    rw [hpackets, ha] at hx
    cases List.mem_singleton.1 hx

/-! ### Identifiers -/

/-- The windows of the sessions are ones that there can be, and writers leave an identifier for
every message in flight. -/
structure Numbers (limits : Limits) (n : Network) : Prop where
  sound : n.Sound limits
  servable : ∀ c ∈ n.connections, c.Servable
  reachable : ∀ id, (n.broker.windows id).Reachable

namespace Numbers

theorem size_le {i : Nat} {c : Connection} {β : Binding} {w : Writer} (h : n.Numbers limits)
    (hc : n.connections[i]? = some c) (hwriter : c.writer? = some (β, w)) {size : Nat}
    (hroom : size < w.link.inFlightLimit) : size ≤ 65534 := by
  have hservable := ((h.servable c (List.mem_of_getElem? hc)).writing _ hwriter).2
  exact Nat.le_of_lt_succ (Nat.lt_of_lt_of_le hroom hservable)

theorem of_step (h : n.Numbers limits) (hstep : n.step move = some n') : n'.Numbers limits where
  sound := h.sound.of_step hstep
  servable := forall_of_step Connection.keeps_servable
    (fun _ _ _ => ⟨by rintro _ _ ⟨⟩, by rintro _ ⟨⟩⟩) h.servable hstep
  reachable := by
    have hupdate : ∀ {id : SessionId} {w : Window}, w.Reachable →
        ∀ id', (Function.update n.broker.windows id w id').Reachable := by
      intro id w hw id'
      by_cases hid : id' = id
      · subst hid
        rwa [Function.update_self]
      · rw [Function.update_of_ne hid]
        exact h.reachable id'
    cases h.sound.shifts_of_step hstep with
    | nothing hwindows => exact hwindows ▸ h.reachable
    | handles _ hwindows => exact hwindows ▸ hupdate ((h.reachable _).acknowledge _ _)
    | inserts hc hwriter hroom hwindows =>
      exact hwindows ▸ hupdate ((h.reachable _).insert_of_size (h.size_le hc hwriter hroom) _)

end Numbers

theorem start_numbers (limits : Limits) (credentials : Option Authenticator)
    (uuids : Nat → BitVec 128) :
    (start limits credentials uuids).Numbers limits where
  sound := start_sound limits credentials uuids
  servable := by rintro _ ⟨⟩
  reachable _ := .empty

/-- A message comes into the window, which leaves an identifier for it, and the search for one
ends. -/
def Receives (w w' : Window) : Prop :=
  w.size ≤ 65534 ∧ ∃ p k, k ≤ w.size + 1 ∧
    Window.Searches w.holds w.nextId k (w.insert p).2 ∧ w' = (w.insert p).1

theorem Numbers.receives_of_step (h : n.Numbers limits) (hstep : n.step move = some n')
    (hgrows : (n.broker.windows id).size < (n'.broker.windows id).size) :
    Receives (n.broker.windows id) (n'.broker.windows id) := by
  cases h.sound.shifts_of_step hstep with
  | nothing hwindows =>
    rw [hwindows] at hgrows
    exact absurd hgrows (Nat.lt_irrefl _)
  | @handles _ _ x _ hwindows =>
    rw [hwindows] at hgrows
    by_cases hsession : id = x.session
    · subst hsession
      rw [Function.update_self] at hgrows
      exact absurd hgrows (Nat.not_lt.2 (Packet.size_acknowledge_le ..))
    · rw [Function.update_of_ne hsession] at hgrows
      exact absurd hgrows (Nat.lt_irrefl _)
  | @inserts _ _ _ _ _ β w p hc hwriter hroom hwindows =>
    by_cases hsession : id = β.session
    · subst hsession
      have hsize := h.size_le hc hwriter hroom
      obtain ⟨k, hk, hsearch, -⟩ :=
        (h.reachable β.session).allocates.ends hsize (n.broker.windows β.session).nextId p
      exact ⟨hsize, p, k, hk, hsearch, by rw [hwindows, Function.update_self]⟩
    · rw [hwindows, Function.update_of_ne hsession] at hgrows
      exact absurd hgrows (Nat.lt_irrefl _)

/-- Every window that there can be has its identifiers told apart and one for the next message. In a
run there are no others, as no writer has a limit above 65535, and whenever a message comes in the
search for its identifier ends. -/
theorem allocates_of_run {credentials : Option Authenticator} {uuids : Nat → BitVec 128}
    (hrun : run moves (start limits credentials uuids) = some n) :
    (∀ w : Window, w.Reachable → w.Allocates) ∧
      (∀ id, (n.broker.session id).window.Reachable) ∧
      (∀ c ∈ n.connections, ∀ x ∈ c.writer?, x.2.link.inFlightLimit ≤ 65535) ∧
      ∀ m move m' id, Passes moves (start limits credentials uuids) m move m' →
        (m.broker.session id).window.size < (m'.broker.session id).window.size →
          Receives (m.broker.session id).window (m'.broker.session id).window := by
  have hstart := start_numbers limits credentials uuids
  have hnumbers := kept_of_run Numbers.of_step hrun hstart
  refine ⟨fun _ => Window.Reachable.allocates, hnumbers.reachable, fun c hc x hx => ?_, ?_⟩
  · exact ((hnumbers.servable c hc).writing x hx).2
  · rintro m move m' id ⟨before, after, -, hbefore, hstep⟩ hgrows
    exact (kept_of_run Numbers.of_step hbefore hstart).receives_of_step hstep hgrows

/-- The message that is published gets its identifier. -/
theorem allocates_of_run_delivering : ∃ m move m',
    Passes (delivering 7) (start {}) m move m' ∧
      Receives (m.broker.session 0).window (m'.broker.session 0).window ∧
      (m'.broker.session 0).window.entries = [delivered] := by
  have hend : (run (delivering 6) (start {})).map (fun m =>
      ((m.broker.session 0).window.size, (m.step (.write 0 0 .itemFirst)).map fun m' =>
        (m'.broker.session 0).window.entries)) = some (0, some [delivered]) := by
    decide +kernel
  obtain ⟨m, hm, hfacts⟩ := Option.map_eq_some_iff.1 hend
  obtain ⟨hsize, hfacts⟩ := Prod.mk.inj hfacts
  obtain ⟨m', hm', hentries⟩ := Option.map_eq_some_iff.1 hfacts
  have hpasses : Passes (delivering 7) (start {}) m (.write 0 0 .itemFirst) m' :=
    ⟨delivering 6, [], rfl, hm, hm'⟩
  have hrun : run (delivering 7) (start {}) = some m' := by
    rw [show delivering 7 = delivering 6 ++ [.write 0 0 .itemFirst] from rfl, run_append, hm,
      Option.bind_some, run, hm']
    rfl
  refine ⟨m, _, m', hpasses, (allocates_of_run hrun).2.2.2 m _ m' 0 hpasses ?_, hentries⟩
  rw [hsize, Window.size, hentries]
  decide

end Network

end MqttBroker
