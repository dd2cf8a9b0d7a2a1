import MqttBroker.Proofs.Network.Intake
import MqttBroker.Proofs.Network.Ownership
import MqttBroker.Proofs.Network.Tenure
/-!
What a move of a network does to the identifiers that wait for PUBREL and to the wills: a connection
can enter a session, handle a packet for it, or part from it, and every other move leaves them as
they are. This holds of all runs, also of those in which a session has two connections.
-/

namespace MqttBroker

open Broker (Carries Dispatches Enters Frames Parts)

/-- From `b` to `b'` a packet of the connection bound by `β` is handled. -/
structure Broker.TakesIn (b : Broker) (β : Binding) (p : Packet) (b' : Broker) : Prop
    extends Frames [β.session] b b' where
  session : (b.handle β p).binding.session = β.session
  maxReceive : (b.handle β p).binding.link.maxReceive = β.link.maxReceive
  messages : (b.handle β p).messages =
    (p.takeIn β.link.maxReceive (b.session β.session).incoming).2
  dispatches : b.Filed → Dispatches β.session (b.handle β p).messages b b'
  pending : (b'.session β.session).incoming =
    (p.takeIn β.link.maxReceive (b.session β.session).incoming).1
  will : (b'.session β.session).will =
    if p.isGoodbye β.link.level.isV5 then none else (b.session β.session).will

namespace Connection

/-- What a step can do to the session of a connection, where `handled?` says which packet is
handled. -/
inductive Effect (b : Broker) (c : Connection) : Option (Binding × Packet) → Turn → Prop where
  | stays {turn : Turn} (hbinding : turn.connection.binding? = c.binding?)
    (hcarries : ∀ β ∈ c.binding?, Carries [] β.session [] b turn.broker)
    (hframes : Frames [] b turn.broker) : Effect b c none turn
  | enters {turn : Turn} {connect : Connect} {β : Binding} (hconnect : c.connect? = some connect)
    (hafter : turn.connection.binding? = some β) (henters : Enters b connect turn.broker β) :
    Effect b c none turn
  | handles {turn : Turn} {β : Binding} {p : Packet} (hbefore : c.binding? = some β)
    (hafter : turn.connection.binding? = some (b.handle β p).binding)
    (htakes : b.TakesIn β p turn.broker) : Effect b c (some (β, p)) turn
  | parts {turn : Turn} {β : Binding} {result : Result} (hbefore : c.binding? = some β)
    (hafter : turn.connection.phase = .ended result) (hparts : Parts b β turn.broker) :
    Effect b c none turn

variable {now : Nat} {closeFirst : Bool} {look : Writer.Look} {b b' : Broker} {c c' : Connection}
  {turn : Turn} {β : Binding}

theorem binding?_of_handles? {p : Packet} (h : c.handles? closeFirst b = some (β, p)) :
    c.binding? = some β := by
  unfold handles? at h
  split at h
  · next hphase =>
    obtain ⟨-, h⟩ := Option.ite_none_left_eq_some.1 h
    split at h
    · cases h
      rw [binding?, hphase]
    · cases h
  · cases h

theorem handles?_of_binding? (h : c.binding? = none) : c.handles? closeFirst b = none := by
  refine Option.eq_none_iff_forall_ne_some.2 fun x hx => ?_
  rw [binding?_of_handles? hx] at h
  cases h

theorem takesIn_of_handle (hseated : β.session < b.sessions.length) (p : Packet)
    (hasks : (b.handle β p).broker.Asks b') : b.TakesIn β p b' := by
  have htakes := Handled.takes_onPacket (h := { broker := b, binding := β }) hseated p
  have hsession : (b.handle β p).binding.session = β.session := htakes.session
  have hmessages : (b.handle β p).messages =
      (p.takeIn β.link.maxReceive (b.session β.session).incoming).2 := htakes.messages
  have hpending : ((b.handle β p).broker.session (b.handle β p).binding.session).incoming =
      (p.takeIn β.link.maxReceive (b.session β.session).incoming).1 := htakes.pending
  have hwill : ((b.handle β p).broker.session (b.handle β p).binding.session).will =
      if p.isGoodbye β.link.level.isV5 then none else (b.session β.session).will := htakes.will
  rw [hsession] at hpending hwill
  have hboth := htakes.carries.trans (Broker.carries_of_asks β.session hasks)
  have hsame := Broker.session_of_asks hasks β.session
  refine ⟨hboth.toFrames, hsession, htakes.maxReceive, hmessages, ?_, ?_, ?_⟩
  · rw [hmessages, ← List.append_nil (Prod.snd _)]
    exact hboth.dispatches
  · rw [hsame, hpending]
  · rw [hsame, hwill]

theorem effect_of_handle (hseated : β.session < b.sessions.length) {deadline : Option Nat}
    {w : Writer} (hphase : c.phase = .serving β deadline w) (c' : Connection) (p : Packet) :
    Effect b c (some (β, p)) (c'.handle now b β w p) := by
  have hbefore : c.binding? = some β := by rw [binding?, hphase]
  unfold handle
  dsimp only
  split
  · exact .handles hbefore rfl (takesIn_of_handle hseated p .rest)
  · exact .handles hbefore rfl (takesIn_of_handle hseated p .rest)
  · exact .handles hbefore rfl (takesIn_of_handle hseated p (.close .rest _ _))

namespace Effect

theorem of_asks (hbinding : turn.connection.binding? = c.binding?)
    (hasks : b.Asks turn.broker) : Effect b c none turn :=
  .stays hbinding (fun β _ => Broker.carries_of_asks β.session hasks)
    (Broker.carries_of_asks 0 hasks).toFrames

theorem of_carries (hbefore : c.binding? = some β)
    (hafter : turn.connection.binding? = c.binding?)
    (hcarries : Carries [] β.session [] b turn.broker) : Effect b c none turn :=
  .stays hafter (fun _ hβ => Option.some.inj (hbefore.symm.trans hβ) ▸ hcarries)
    hcarries.toFrames

end Effect

theorem effect_of_step (hfiled : b.Filed)
    (hseated : ∀ β ∈ c.binding?, β.session < b.sessions.length)
    (hnamed : ∀ accepted ∈ c.waiting?, accepted.IsNamed)
    (h : c.step now closeFirst b = some turn) : Effect b c (c.handles? closeFirst b) turn := by
  cases acts_of_step h with
  | outside hbefore hafter hwaiting hasks =>
    rw [handles?_of_binding? hbefore]
    exact .of_asks (hafter.trans hbefore.symm) hasks
  | @bind b' c' connect accepted hconnect hasks hadmitted =>
    rw [handles?_of_binding? (binding?_of_connect? hconnect)]
    have hframes : Frames [] b b' := (Broker.carries_of_asks 0 hasks).toFrames
    have haccepted : accepted.IsNamed := hadmitted.elim (fun h => hnamed _ h.1) And.left
    obtain ⟨b'', β, bytes, hbind, henters⟩ :=
      Broker.enters_of_bind (hframes.filed hfiled) haccepted c' connect
    rw [hbind]
    exact .enters hconnect rfl (henters.after hasks)
  | @greet c' β rest rest' hphase =>
    have hbefore : c.binding? = some β := by rw [binding?, hphase]
    have hhandles : c.handles? closeFirst b = none := by rw [handles?, hphase]
    rw [hhandles]
    exact .of_asks hbefore.symm .rest
  | @activate c' β rest hphase =>
    have hbefore : c.binding? = some β := by rw [binding?, hphase]
    have hhandles : c.handles? closeFirst b = none := by rw [handles?, hphase]
    rw [hhandles]
    have hcarries : Carries [] β.session [] b (b.updateSession β.session fun s =>
        { s with active := true }) := .of_session [] b β.session rfl fun _ => rfl
    exact .of_carries hbefore hbefore.symm hcarries
  | read hphase hhandles hsame =>
    rw [hhandles]
    exact .of_asks (binding?_congr hsame) .rest
  | @handle c' β deadline w p hphase hhandles =>
    have hbefore : c.binding? = some β := by rw [binding?, hphase]
    rw [hhandles]
    exact effect_of_handle (hseated β hbefore) hphase c' p
  | @drain b' β deadline w result hphase hhandles hasks =>
    have hbefore : c.binding? = some β := by rw [binding?, hphase]
    rw [hhandles]
    exact .of_carries hbefore hbefore.symm ((Broker.carries_of_asks β.session hasks).trans
      (Broker.carries_of_asks β.session (asks_recordError b' β result)))
  | @conclude β result hbefore hhandles hstopped =>
    rw [hhandles]
    exact .parts hbefore rfl (Broker.parts_of_conclude b β result)

/-- A step of a writer touches no session but the one its connection is bound to, and leaves alone
what is the session's own. -/
theorem carries_of_writeStep (h : c.writeStep now look b = some turn) :
    turn.connection.binding? = c.binding? ∧ turn.connection.waiting? = none ∧
      ∃ β, c.binding? = some β ∧ Carries [] β.session [] b turn.broker := by
  obtain ⟨β, w, turn', hwriter, hacts, hwriter', hasks⟩ := writes_of_writeStep h
  have hbefore := binding?_of_writer? hwriter
  refine ⟨(binding?_of_writer? hwriter').trans hbefore.symm, waiting?_of_writer? hwriter', β,
    hbefore, ?_⟩
  have hput : Carries [] β.session [] b (b.putSession β.session turn'.session) :=
    .of_session [] b β.session (hacts.session_congr Session.clientId fun _ _ _ _ => rfl)
      fun _ => hacts.session_congr Session.own fun _ _ _ _ => rfl
  exact hput.trans (Broker.carries_of_asks β.session hasks)

/-- Whatever happens to a connection, it does not lose the property. -/
structure Keeps (P : Connection → Prop) : Prop where
  client : ∀ {c : Connection} {inbound outbound : Pipe}, P c → P { c with inbound, outbound }
  step : ∀ {now : Nat} {closeFirst : Bool} {b : Broker} {c : Connection} {turn : Turn},
    P c → c.step now closeFirst b = some turn → P turn.connection
  writeStep : ∀ {now : Nat} {look : Writer.Look} {b : Broker} {c : Connection} {turn : Turn},
    P c → c.writeStep now look b = some turn → P turn.connection

theorem keeps_ended (result : Result) : Keeps (fun c => c.phase = .ended result) where
  client := id
  step hphase h := by
    rw [Connection.step, hphase] at h
    cases h
  writeStep hphase h := by
    rw [Connection.writeStep, writer?, hphase] at h
    cases h

theorem keeps_named : Keeps (fun c => ∀ accepted ∈ c.waiting?, accepted.IsNamed) where
  client := id
  step := isNamed_of_step
  writeStep _ h := by
    obtain ⟨-, hwaiting, -⟩ := carries_of_writeStep h
    rw [hwaiting]
    exact nofun

end Connection

/-- A packet that a connection of a network handled. -/
structure Handling where
  connection : Nat
  binding : Binding
  packet : Packet
  before : Broker
  after : Broker

namespace Handling

def session (x : Handling) : SessionId := x.binding.session

/-- The identifiers that wait for PUBREL when the packet comes. -/
def pending (x : Handling) : List UInt16 := (x.before.session x.session).incoming

/-- The identifiers that wait once it has been handled. -/
def left (x : Handling) : List UInt16 := (x.after.session x.session).incoming

/-- The messages that are dispatched for the packet. -/
def dispatched (x : Handling) : List Message := (x.before.handle x.binding x.packet).messages

end Handling

namespace Network

variable {limits : Limits} {n n' : Network} {move : Move} {i j : Nat} {c : Connection}

/-- The packet that the move from `n` to `n'` handles. -/
def handling? (n : Network) (move : Move) (n' : Network) : Option Handling :=
  match move with
  | .step i _ closeFirst =>
    (n.connections[i]?).bind fun c => (c.handles? closeFirst n.broker).map fun (binding, packet) =>
      { connection := i, binding, packet, before := n.broker, after := n'.broker }
  | _ => none

/-- The packets that are handled in a run, in order. -/
def handlings : List Move → Network → List Handling
  | [], _ => []
  | move :: moves, n => match n.step move with
    | some n' => (n.handling? move n').toList ++ handlings moves n'
    | none => []

/-- In the course of a run there is that move from `m` to `m'`. -/
def Passes (moves : List Move) (n m : Network) (move : Move) (m' : Network) : Prop :=
  ∃ before after, moves = before ++ move :: after ∧ run before n = some m ∧ m.step move = some m'

/-- What holds of every broker with its connections, however they came to be bound. -/
structure Sound (limits : Limits) (n : Network) : Prop where
  limits_eq : n.broker.limits = limits
  filed : n.broker.Filed
  seated : ∀ i, ∀ β ∈ n.binding? i, β.session < n.broker.sessions.length
  maxReceive : ∀ i, ∀ β ∈ n.binding? i, β.link.maxReceive = limits.receiveMaximum.toNat
  named : ∀ c ∈ n.connections, ∀ accepted ∈ c.waiting?, accepted.IsNamed

/-- What a move can do to the sessions of the connections. -/
inductive Affects (n : Network) : Move → Network → Prop where
  | nothing {move : Move} {n' : Network} (hhandling : n.handling? move n' = none)
    (hbindings : ∀ i, n'.binding? i = n.binding? i) (hframes : Frames [] n.broker n'.broker) :
    Affects n move n'
  | turns {i now : Nat} {closeFirst : Bool} {c : Connection} {turn : Connection.Turn}
    (hc : n.connections[i]? = some c)
    (heffect : Connection.Effect n.broker c (c.handles? closeFirst n.broker) turn) :
    Affects n (.step i now closeFirst) (n.withTurn i turn)

/-! ### One move -/

theorem handling?_step (hc : n.connections[i]? = some c) (now : Nat) (closeFirst : Bool)
    (n' : Network) : n.handling? (.step i now closeFirst) n' =
      (c.handles? closeFirst n.broker).map fun (binding, packet) =>
        { connection := i, binding, packet, before := n.broker, after := n'.broker } := by
  rw [handling?, hc]
  rfl

theorem binding?_of_handling {x : Handling} (hx : n.handling? move n' = some x) :
    n.binding? x.connection = some x.binding := by
  cases move with
  | step i now closeFirst =>
    obtain ⟨c, hc, hx⟩ := Option.bind_eq_some_iff.1 hx
    obtain ⟨⟨β, p⟩, hhandles, rfl⟩ := Option.map_eq_some_iff.1 hx
    exact (binding?_eq_some hc).trans (Connection.binding?_of_handles? hhandles)
  | accept | client | write | publish | shutdown => cases hx

theorem effect_of_step {now : Nat} {closeFirst : Bool} {turn : Connection.Turn}
    (h : n.Sound limits) (hc : n.connections[i]? = some c)
    (hturn : c.step now closeFirst n.broker = some turn) :
    Connection.Effect n.broker c (c.handles? closeFirst n.broker) turn :=
  Connection.effect_of_step h.filed (fun β hβ => h.seated i β ((binding?_eq_some hc).trans hβ))
    (h.named c (List.mem_of_getElem? hc)) hturn

theorem affects_of_step (h : n.Sound limits) (hstep : n.step move = some n') :
    n.Affects move n' := by
  cases move with
  | accept now capacity =>
    cases hstep
    exact .nothing rfl (n.binding?_accept now capacity) (.refl [] _)
  | client i inbound outbound =>
    obtain ⟨c, hc, rfl⟩ := Option.map_eq_some_iff.1 hstep
    let turn : Connection.Turn :=
      { broker := n.broker, connection := { c with inbound, outbound } }
    have hsame : ∀ j, (n.withTurn i turn).binding? j = n.binding? j :=
      binding?_withTurn_of_eq hc rfl
    exact .nothing rfl hsame (.refl [] _)
  | step i now closeFirst =>
    obtain ⟨c, hc, hstep⟩ := Option.bind_eq_some_iff.1 hstep
    obtain ⟨turn, hturn, rfl⟩ := Option.map_eq_some_iff.1 hstep
    exact .turns hc (effect_of_step h hc hturn)
  | write i now look =>
    obtain ⟨c, hc, hstep⟩ := Option.bind_eq_some_iff.1 hstep
    obtain ⟨turn, hturn, rfl⟩ := Option.map_eq_some_iff.1 hstep
    obtain ⟨hbinding, -, β, -, hcarries⟩ := Connection.carries_of_writeStep hturn
    exact .nothing rfl (binding?_withTurn_of_eq hc hbinding) hcarries.toFrames
  | publish m =>
    cases hstep
    exact .nothing rfl (fun _ => rfl) (.of_dispatch [] _ m)
  | shutdown =>
    cases hstep
    exact .nothing rfl (fun _ => rfl) (.of_shutdown [] _)

/-- A property that every connection has from the start and keeps. -/
theorem forall_of_step {P : Connection → Prop} (hkeeps : Connection.Keeps P)
    (haccept : ∀ limits now capacity, P (Connection.accept limits now capacity))
    (h : ∀ c ∈ n.connections, P c) (hstep : n.step move = some n') : ∀ c ∈ n'.connections, P c := by
  have hset : ∀ {i : Nat} {c' : Connection}, P c' → ∀ c ∈ n.connections.set i c', P c := by
    intro i c' hc' c hc
    rcases List.mem_or_eq_of_mem_set hc with hold | rfl
    · exact h c hold
    · exact hc'
  cases move with
  | accept now capacity =>
    cases hstep
    intro c hc
    rcases List.mem_append.1 hc with hold | hnew
    · exact h c hold
    · cases List.mem_singleton.1 hnew
      exact haccept _ now capacity
  | client i inbound outbound =>
    obtain ⟨c, hc, rfl⟩ := Option.map_eq_some_iff.1 hstep
    exact hset (hkeeps.client (h c (List.mem_of_getElem? hc)))
  | step i now closeFirst =>
    obtain ⟨c, hc, hstep⟩ := Option.bind_eq_some_iff.1 hstep
    obtain ⟨turn, hturn, rfl⟩ := Option.map_eq_some_iff.1 hstep
    exact hset (hkeeps.step (h c (List.mem_of_getElem? hc)) hturn)
  | write i now look =>
    obtain ⟨c, hc, hstep⟩ := Option.bind_eq_some_iff.1 hstep
    obtain ⟨turn, hturn, rfl⟩ := Option.map_eq_some_iff.1 hstep
    exact hset (hkeeps.writeStep (h c (List.mem_of_getElem? hc)) hturn)
  | publish | shutdown =>
    cases hstep
    exact h

theorem exists_of_step {P : Connection → Prop} (hkeeps : Connection.Keeps P)
    (h : ∃ c, n.connections[i]? = some c ∧ P c) (hstep : n.step move = some n') :
    ∃ c, n'.connections[i]? = some c ∧ P c := by
  obtain ⟨c, hc, hP⟩ := h
  have hi := (List.getElem?_eq_some_iff.1 hc).1
  -- What comes to be in place of a connection with the property has it too.
  have hset : ∀ {j : Nat} {c' c'' : Connection}, n.connections[j]? = some c' → (P c' → P c'') →
      ∃ c, (n.connections.set j c'')[i]? = some c ∧ P c := by
    intro j c' c'' hc' hkept
    by_cases hij : j = i
    · subst hij
      cases hc.symm.trans hc'
      exact ⟨c'', List.getElem?_set_self hi, hkept hP⟩
    · exact ⟨c, (List.getElem?_set_ne hij).trans hc, hP⟩
  cases move with
  | accept now capacity =>
    cases hstep
    exact ⟨c, (List.getElem?_append_left hi).trans hc, hP⟩
  | client j inbound outbound =>
    obtain ⟨c', hc', rfl⟩ := Option.map_eq_some_iff.1 hstep
    exact hset hc' hkeeps.client
  | step j now closeFirst =>
    obtain ⟨c', hc', hstep⟩ := Option.bind_eq_some_iff.1 hstep
    obtain ⟨turn, hturn, rfl⟩ := Option.map_eq_some_iff.1 hstep
    exact hset hc' fun hP => hkeeps.step hP hturn
  | write j now look =>
    obtain ⟨c', hc', hstep⟩ := Option.bind_eq_some_iff.1 hstep
    obtain ⟨turn, hturn, rfl⟩ := Option.map_eq_some_iff.1 hstep
    exact hset hc' fun hP => hkeeps.writeStep hP hturn
  | publish m =>
    cases hstep
    exact ⟨c, hc, hP⟩
  | shutdown =>
    cases hstep
    exact ⟨c, hc, hP⟩

/-! ### Runs -/

theorem exists_of_run {P : Connection → Prop} {moves : List Move} (hkeeps : Connection.Keeps P)
    (h : ∃ c, n.connections[i]? = some c ∧ P c) (hrun : run moves n = some n') :
    ∃ c, n'.connections[i]? = some c ∧ P c := kept_of_run (exists_of_step hkeeps) hrun h

theorem passes_of_mem_handlings {moves : List Move} {x : Handling} (hx : x ∈ handlings moves n) :
    ∃ m move m', Passes moves n m move m' ∧ m.handling? move m' = some x := by
  induction moves generalizing n with
  | nil => cases hx
  | cons move moves ih =>
    rw [handlings] at hx
    split at hx
    · next n₁ hstep =>
      rcases List.mem_append.1 hx with hnow | hlater
      · exact ⟨n, move, n₁, ⟨[], moves, rfl, rfl, hstep⟩, Option.mem_toList.1 hnow⟩
      · obtain ⟨m, later, m', ⟨before, after, rfl, hbefore, hlater⟩, hhandling⟩ := ih hlater
        refine ⟨m, later, m', ⟨move :: before, after, rfl, ?_, hlater⟩, hhandling⟩
        rw [run, hstep, Option.bind_some, hbefore]
    · cases hx

namespace Passes

variable {n₁ m m' : Network} {first : Move} {moves : List Move}

theorem step_eq (h : Passes moves n m move m') : m.step move = some m' := by
  obtain ⟨before, after, -, -, hstep⟩ := h
  exact hstep

/-- The run goes on from there. -/
theorem exists_run (h : Passes moves n m move m') (hrun : run moves n = some n') :
    ∃ after, run after m' = some n' := by
  obtain ⟨before, after, rfl, hbefore, hstep⟩ := h
  refine ⟨after, ?_⟩
  rwa [run_append, hbefore, Option.bind_some, run, hstep] at hrun

/-- It is there as well if the run goes on. -/
theorem append (h : Passes moves n m move m') (later : List Move) :
    Passes (moves ++ later) n m move m' := by
  obtain ⟨before, after, rfl, hbefore, hstep⟩ := h
  exact ⟨before, after ++ later, List.append_assoc .., hbefore, hstep⟩

theorem head (hstep : n.step first = some n₁) : Passes (first :: moves) n n first n₁ :=
  ⟨[], moves, rfl, rfl, hstep⟩

theorem tail (hstep : n.step first = some n₁) (h : Passes moves n₁ m move m') :
    Passes (first :: moves) n m move m' := by
  obtain ⟨before, after, rfl, hbefore, hlater⟩ := h
  refine ⟨first :: before, after, rfl, ?_, hlater⟩
  rw [run, hstep, Option.bind_some, hbefore]

theorem cases_cons (h : Passes (first :: moves) n m move m') :
    ∃ n₁, n.step first = some n₁ ∧
      (m = n ∧ move = first ∧ m' = n₁ ∨ Passes moves n₁ m move m') := by
  obtain ⟨before, after, heq, hbefore, hlast⟩ := h
  cases before with
  | nil =>
    cases heq
    cases hbefore
    exact ⟨m', hlast, .inl ⟨rfl, rfl, rfl⟩⟩
  | cons _ before =>
    cases heq
    obtain ⟨n₁, hstep, hbefore⟩ := Option.bind_eq_some_iff.1 hbefore
    exact ⟨n₁, hstep, .inr ⟨before, after, rfl, hbefore, hlast⟩⟩

end Passes

namespace Sound

/-- What one connection does is sound if it is so for that connection. -/
theorem of_turn {turn : Connection.Turn} (h : n.Sound limits) (hc : n.connections[i]? = some c)
    (hlimits : turn.broker.limits = n.broker.limits) (hfiled : turn.broker.Filed)
    (hsessions : n.broker.sessions.length ≤ turn.broker.sessions.length)
    (hbinding : ∀ β ∈ turn.connection.binding?, β.session < turn.broker.sessions.length ∧
      β.link.maxReceive = limits.receiveMaximum.toNat)
    (hnamed : ∀ c ∈ (n.withTurn i turn).connections, ∀ accepted ∈ c.waiting?, accepted.IsNamed) :
    (n.withTurn i turn).Sound limits := by
  refine ⟨hlimits.trans h.limits_eq, hfiled, fun j β hβ => ?_, fun j β hβ => ?_, hnamed⟩
  · rcases binding?_withTurn_cases hc hβ with ⟨-, hβ⟩ | ⟨-, hβ⟩
    · exact (hbinding β hβ).1
    · exact Nat.lt_of_lt_of_le (h.seated j β hβ) hsessions
  · rcases binding?_withTurn_cases hc hβ with ⟨-, hβ⟩ | ⟨-, hβ⟩
    · exact (hbinding β hβ).2
    · exact h.maxReceive j β hβ

theorem of_step (h : n.Sound limits) (hstep : n.step move = some n') : n'.Sound limits := by
  have hnamed := forall_of_step Connection.keeps_named (fun _ _ _ => nofun) h.named hstep
  cases affects_of_step h hstep with
  | nothing hhandling hbindings hframes =>
    refine ⟨hframes.limits.trans h.limits_eq, hframes.filed h.filed, fun i => ?_, fun i => ?_,
      hnamed⟩
    · rw [hbindings, hframes.sessions]
      exact h.seated i
    · rw [hbindings]
      exact h.maxReceive i
  | @turns i now closeFirst c turn hc heffect =>
    have hbound : ∀ β ∈ c.binding?, β.session < n.broker.sessions.length ∧
        β.link.maxReceive = limits.receiveMaximum.toNat := fun β hβ =>
      have hβ := (binding?_eq_some hc).trans hβ
      ⟨h.seated i β hβ, h.maxReceive i β hβ⟩
    generalize c.handles? closeFirst n.broker = handled? at heffect
    cases heffect with
    | stays hbinding hcarries hframes =>
      refine h.of_turn hc hframes.limits (hframes.filed h.filed)
        (Nat.le_of_eq hframes.sessions.symm) ?_ hnamed
      rw [hbinding, hframes.sessions]
      exact hbound
    | enters hconnect hafter henters =>
      refine h.of_turn hc henters.limits henters.filed henters.sessions ?_ hnamed
      intro β hβ
      cases hafter.symm.trans hβ
      exact ⟨henters.session, h.limits_eq ▸ henters.maxReceive⟩
    | handles hbefore hafter htakes =>
      refine h.of_turn hc htakes.limits (htakes.filed h.filed)
        (Nat.le_of_eq htakes.sessions.symm) ?_ hnamed
      intro β hβ
      cases hafter.symm.trans hβ
      rw [htakes.session, htakes.maxReceive, htakes.sessions]
      exact hbound _ hbefore
    | parts hbefore hafter hparts =>
      refine h.of_turn hc hparts.limits (hparts.filed h.filed)
        (Nat.le_of_eq hparts.sessions.symm) ?_ hnamed
      rw [Connection.binding?, hafter]
      rintro _ ⟨⟩

theorem of_run {moves : List Move} (h : n.Sound limits) (hrun : run moves n = some n') :
    n'.Sound limits := kept_of_run of_step hrun h

theorem of_passes {moves : List Move} {m m' : Network} (h : n.Sound limits)
    (hpasses : Passes moves n m move m') : m.Sound limits := by
  obtain ⟨before, after, -, hbefore, -⟩ := hpasses
  exact h.of_run hbefore

end Sound

theorem start_sound (limits : Limits) (credentials : Option Authenticator)
    (uuids : Nat → BitVec 128) :
    (start limits credentials uuids).Sound limits where
  limits_eq := rfl
  filed := ⟨List.nodup_nil, nofun, nofun⟩
  seated := by rintro _ _ ⟨⟩
  maxReceive := by rintro _ _ ⟨⟩
  named := by rintro _ ⟨⟩

end Network

end MqttBroker
