import MqttBroker.Message
/-!
The in-flight window: outbound messages above QoS 0 that the client has not finished acknowledging,
in the order they were sent.
-/

namespace MqttBroker

/-- How far a message's acknowledgement has come. -/
inductive Stage where
  /-- PUBLISH written; PUBACK or PUBREC outstanding. -/
  | sent
  /-- PUBREC received; PUBCOMP outstanding. -/
  | released
deriving DecidableEq

structure InFlight where
  packetId : UInt16
  stage : Stage := .sent
  publication : Publication
deriving DecidableEq

/-- What to send again when a session resumes. -/
inductive Redelivery where
  | publish (packetId : UInt16) (p : Publication)
  | release (packetId : UInt16)
deriving DecidableEq

structure Window where
  entries : List InFlight := []
  /-- The first identifier to try for the next message. -/
  nextId : UInt16 := 1
deriving DecidableEq

namespace Window

def size (w : Window) : Nat := w.entries.length

def isEmpty (w : Window) : Bool := w.entries.isEmpty

/-- The identifier after `id`; 0 is never used. -/
def successor (id : UInt16) : UInt16 := if id = 65535 then 1 else id + 1

def holds (w : Window) (id : UInt16) : Bool := w.entries.any (·.packetId = id)

/-- The first of `n` successive candidates that is not taken. -/
def freshFrom (taken : UInt16 → Bool) : Nat → UInt16 → UInt16
  | 0, id => id
  | n + 1, id => if taken id then freshFrom taken n (successor id) else id

/-- A free identifier; one more candidate than there are entries is enough to find it. -/
def freshId (w : Window) : UInt16 := freshFrom w.holds (w.entries.length + 1) w.nextId

/-- Takes a message in under a fresh identifier. -/
def insert (w : Window) (p : Publication) : Window × UInt16 :=
  let id := w.freshId
  ({ entries := w.entries ++ [{ packetId := id, publication := p }], nextId := successor id }, id)

/-- Is there an entry with this identifier, QoS and stage? -/
def has (w : Window) (id : UInt16) (qos : QoS) (stage : Stage) : Bool :=
  w.entries.any fun e => e.packetId = id && e.publication.qos = qos && e.stage = stage

/-- The place of the first such entry, or the place behind the last entry if there is none. -/
def position (w : Window) (id : UInt16) (qos : QoS) (stage : Stage) : Nat :=
  w.entries.findIdx fun e => e.packetId = id && e.publication.qos = qos && e.stage = stage

/-- Without the first entry that has the identifier and satisfies `p`. -/
def remove (w : Window) (id : UInt16) (p : InFlight → Bool) : Window :=
  { w with entries := w.entries.eraseP fun e => e.packetId = id && p e }

/-- PUBACK: a QoS 1 message is done. `none` if no such message is in flight. -/
def ack? (w : Window) (id : UInt16) : Option Window :=
  if w.has id .atLeastOnce .sent then
    some (w.remove id fun e => e.publication.qos = .atLeastOnce && e.stage = .sent)
  else none

def release (e : InFlight) : InFlight := { e with stage := .released }

/-- PUBREC: a QoS 2 message has arrived. Repeating it changes nothing. -/
def received? (w : Window) (id : UInt16) : Option Window :=
  if w.has id .exactlyOnce .released then some w
  else if w.has id .exactlyOnce .sent then
    some { w with entries := w.entries.modify (w.position id .exactlyOnce .sent) release }
  else none

/-- PUBCOMP: a released QoS 2 message is done. -/
def complete? (w : Window) (id : UInt16) : Option Window :=
  if w.has id .exactlyOnce .released then
    some (w.remove id fun e => e.publication.qos = .exactlyOnce && e.stage = .released)
  else none

/-- Drops a message the client refused, whatever its stage. -/
def abandon? (w : Window) (id : UInt16) : Option Window :=
  if w.holds id then some (w.remove id fun _ => true) else none

/-- Everything unfinished, oldest first; a PUBLISH is marked as repeated. -/
def redelivery (w : Window) : List Redelivery :=
  w.entries.map fun e => match e.stage with
    | .sent => .publish e.packetId { e.publication with dup := true }
    | .released => .release e.packetId

end Window

end MqttBroker
