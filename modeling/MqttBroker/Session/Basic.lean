import MqttBroker.Session.Closing
import MqttBroker.Session.Outbox
import MqttBroker.Session.Subscriptions
import MqttBroker.Session.Window
/-!
The broker's state for one client id. It outlives the connections that use it when the client asked
for that.
-/

namespace MqttBroker

abbrev SessionId := Nat

abbrev LeaseId := Nat

structure Session where
  clientId : String
  outbox : Outbox
  subscriptions : Subscriptions := {}
  window : Window := {}
  slotFreed : Signal := {}
  /-- Inbound QoS 2 identifiers between PUBLISH and PUBREL. -/
  incoming : List UInt16 := []
  will : Option Message := none
  active : Bool := false
  owner : Option LeaseId := none
deriving DecidableEq

/-- What became of a message offered to a session. -/
inductive Delivery where
  /-- Not subscribed, or not to be kept for an absent client. -/
  | skipped
  | queued
  /-- There was no room left. -/
  | full
deriving DecidableEq

namespace Session

def fresh (clientId : String) (capacity : Nat) : Session where
  clientId := clientId
  outbox := { capacity }

def enqueue? (s : Session) (item : Outgoing) : Option Session :=
  (s.outbox.enqueue? item).map fun outbox => { s with outbox }

/-- Queues a copy at the lower of the message's and the granted QoS. An inactive session keeps no
QoS 0 messages. -/
def offer (s : Session) (m : Message) : Session × Delivery :=
  match s.subscriptions.matchMax m.topic with
  | none => (s, .skipped)
  | some granted =>
    let qos := min m.qos granted
    if qos = .atMostOnce && !s.active then (s, .skipped)
    else match s.enqueue? (.publish (Publication.ofMessage m qos)) with
      | some s' => (s', .queued)
      | none => (s, .full)

/-- Takes a message into the in-flight window if fewer than `limit` are there. -/
def reserve? (s : Session) (limit : Nat) (p : Publication) : Option (Session × UInt16) :=
  if s.window.size < limit then
    let (window, id) := s.window.insert p
    some ({ s with window }, id)
  else none

/-- Installs the window an acknowledgement leaves, and wakes whoever waits for a slot. -/
def settle (s : Session) : Option Window → Session × Bool
  | some window => ({ s with window, slotFreed := s.slotFreed.notify }, true)
  | none => (s, false)

def ack (s : Session) (id : UInt16) : Session × Bool := s.settle (s.window.ack? id)

def complete (s : Session) (id : UInt16) : Session × Bool := s.settle (s.window.complete? id)

def abandon (s : Session) (id : UInt16) : Session × Bool := s.settle (s.window.abandon? id)

/-- A released message keeps its slot, so nobody is woken. -/
def received (s : Session) (id : UInt16) : Session × Bool :=
  match s.window.received? id with
  | some window => ({ s with window }, true)
  | none => (s, false)

/-- Takes the permit of a freed slot, if there is one. -/
def awaken? (s : Session) : Option Session :=
  s.slotFreed.take?.map fun slotFreed => { s with slotFreed }

def isPending (s : Session) (id : UInt16) : Bool := s.incoming.contains id

/-- Notes an inbound QoS 2 identifier; false if it is pending already. -/
def beginIncoming (s : Session) (id : UInt16) : Session × Bool :=
  if s.isPending id then (s, false) else ({ s with incoming := id :: s.incoming }, true)

/-- Forgets an inbound QoS 2 identifier; false if it was not pending. -/
def releaseIncoming (s : Session) (id : UInt16) : Session × Bool :=
  if s.isPending id then ({ s with incoming := s.incoming.filter (· != id) }, true) else (s, false)

def takeWill (s : Session) : Session × Option Message := ({ s with will := none }, s.will)

end Session

end MqttBroker
