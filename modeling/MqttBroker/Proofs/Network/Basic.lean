import MqttBroker.Connection.Basic
import MqttBroker.Proofs.Broker.Registry
/-!
A broker with any number of connections. Between two points where a task waits any other task may
run, and what happens at the other ends of the streams is up to the clients.
-/

namespace MqttBroker

namespace Connection

/-- What the connection holds, from when it is bound until it has let go. -/
def binding? (c : Connection) : Option Binding :=
  match c.phase with
  | .greeting binding _ | .serving binding _ _ | .draining binding _ _ => some binding
  | _ => none

/-- What a connection is to be let in with once an earlier one has let go. -/
def waiting? (c : Connection) : Option Accepted :=
  match c.phase with
  | .takingOver _ accepted _ => some accepted
  | _ => none

end Connection

structure Network where
  broker : Broker
  connections : List Connection := []

namespace Network

/-- What happens at once. Of a turn of a task, `Broker.dispatch` and `Connection.release` are parts,
and that each runs without a break is assumed. Neither waits, but on several threads another task
can come in between: a dispatch that has found a session active can then queue its message behind
`Outbox.discardTransient`, so that a QoS 0 message is kept for the next connection. -/
inductive Move where
  /-- A client opens a connection with buffers of that capacity. -/
  | accept (now capacity : Nat)
  /-- A client writes, reads or goes away. -/
  | client (i : Nat) (inbound outbound : Pipe)
  /-- A connection's task runs until it waits again. -/
  | step (i now : Nat) (closeFirst : Bool)
  /-- The same for its writer. -/
  | write (i now : Nat) (look : Writer.Look)
  /-- The broker itself publishes a message. -/
  | publish (m : Message)
  | shutdown

/-- A broker that has just been started. -/
def start (limits : Limits) (credentials : Option Authenticator := none)
    (uuids : Nat → BitVec 128 := AssignedId.spread) : Network where
  broker := { limits, credentials, uuids }

def withTurn (n : Network) (i : Nat) (turn : Connection.Turn) : Network where
  broker := turn.broker
  connections := n.connections.set i turn.connection

/-- The outcome of a move, or `none` where it cannot be made. -/
def step (n : Network) : Move → Option Network
  | .accept now capacity =>
    some { n with
      connections := n.connections ++ [Connection.accept n.broker.limits now capacity] }
  | .client i inbound outbound =>
    (n.connections[i]?).map fun c =>
      { n with connections := n.connections.set i { c with inbound, outbound } }
  | .step i now closeFirst =>
    (n.connections[i]?).bind fun c => (c.step now closeFirst n.broker).map (n.withTurn i)
  | .write i now look =>
    (n.connections[i]?).bind fun c => (c.writeStep now look n.broker).map (n.withTurn i)
  | .publish m => some { n with broker := (n.broker.dispatch m).1 }
  | .shutdown => some { n with broker := n.broker.shutdown }

/-- Makes the moves one after the other. -/
def run : List Move → Network → Option Network
  | [], n => some n
  | move :: moves, n => (n.step move).bind (run moves)

theorem run_append (moves moves' : List Move) (n : Network) :
    run (moves ++ moves') n = (run moves n).bind (run moves') := by
  induction moves generalizing n with
  | nil => rfl
  | cons move moves ih =>
    rw [List.cons_append, run, run, Option.bind_assoc]
    exact Option.bind_congr fun n' _ => ih n'

/-- What every move keeps every run keeps. -/
theorem kept_of_run {P : Network → Prop} {n n' : Network} {moves : List Move}
    (hkept : ∀ {n n' : Network} {move : Move}, P n → n.step move = some n' → P n')
    (hrun : run moves n = some n') (h : P n) : P n' := by
  induction moves generalizing n with
  | nil =>
    cases hrun
    exact h
  | cons move moves ih =>
    obtain ⟨n₁, hstep, hrun⟩ := Option.bind_eq_some_iff.1 hrun
    exact ih hrun (hkept h hstep)

/-- What the `i`-th connection holds. -/
def binding? (n : Network) (i : Nat) : Option Binding := (n.connections[i]?).bind (·.binding?)

/-- Every connection that is bound owns the session its client id stands for, and no client id has
two of them. -/
structure Exclusive (n : Network) : Prop where
  registered : ∀ i, ∀ β ∈ n.binding? i, n.broker.lookup β.link.clientId = some β.session
  owned : ∀ i, ∀ β ∈ n.binding? i, (n.broker.session β.session).owner = some β.lease
  alone : ∀ i j, ∀ β ∈ n.binding? i, ∀ β' ∈ n.binding? j,
    β.link.clientId = β'.link.clientId → i = j

/-- A connection that waits for an earlier one to let go takes its next step only while the session
of its client id has no owner. -/
def IsTimely (n : Network) : Move → Prop
  | .step i _ _ => ∀ accepted ∈ (n.connections[i]?).bind (·.waiting?),
      n.broker.owner? accepted.clientId = none
  | _ => True

instance (n : Network) : (move : Move) → Decidable (n.IsTimely move)
  | .step .. => inferInstanceAs (Decidable (∀ accepted ∈ Option.bind _ _, _ = _))
  | .accept .. | .client .. | .write .. | .publish _ | .shutdown => .isTrue trivial

/-- Every move of the run is timely. -/
def AllTimely : List Move → Network → Prop
  | [], _ => True
  | move :: moves, n => n.IsTimely move ∧ ∀ n' ∈ n.step move, AllTimely moves n'

instance : (moves : List Move) → (n : Network) → Decidable (AllTimely moves n)
  | [], _ => .isTrue trivial
  | move :: moves, n =>
    have (n' : Network) : Decidable (AllTimely moves n') := instDecidableAllTimely moves n'
    inferInstanceAs (Decidable (n.IsTimely move ∧ ∀ n' ∈ n.step move, AllTimely moves n'))

/-- The `i`-th client sends bytes, and its connection takes them in and deals with them. -/
def sending (i : Nat) (bytes : Bytes) : List Move :=
  [.client i { capacity := 64, held := bytes } { capacity := 64 }, .step i 0 false, .step i 0 false]

/-- The writer of the `i`-th connection stops after that many steps, and the connection ends. -/
def leaving (i writes : Nat) : List Move :=
  List.replicate writes (.write i 0 .closeFirst) ++ [.step i 0 false]

end Network

end MqttBroker
