import MqttBroker.Message
import MqttBroker.Session.Signal
/-!
The bounded queue between the sessions' publishers and the one task that writes to the client.
Adding an item and waking the writer are two operations, since another task may run between them.
-/

namespace MqttBroker

structure Outbox where
  items : List Outgoing := []
  capacity : Nat
  filled : Signal := {}
deriving DecidableEq

namespace Outbox

def size (o : Outbox) : Nat := o.items.length

def isEmpty (o : Outbox) : Bool := o.items.isEmpty

/-- Adds an item at the tail, unless the queue is full. -/
def push? (o : Outbox) (item : Outgoing) : Option Outbox :=
  if o.capacity ≤ o.items.length then none else some { o with items := o.items ++ [item] }

def notify (o : Outbox) : Outbox := { o with filled := o.filled.notify }

/-- Adds an item at the tail and wakes the writer; `none` when the queue is full. -/
def enqueue? (o : Outbox) (item : Outgoing) : Option Outbox := (o.push? item).map notify

/-- Puts an item at the head, whatever the capacity. -/
def putBack (o : Outbox) (item : Outgoing) : Outbox := { o with items := item :: o.items }

def requeue (o : Outbox) (item : Outgoing) : Outbox := (o.putBack item).notify

def next? (o : Outbox) : Option (Outgoing × Outbox) :=
  match o.items with
  | [] => none
  | item :: rest => some (item, { o with items := rest })

/-- Takes the writer's wake-up permit, if there is one. -/
def awaken? (o : Outbox) : Option Outbox :=
  o.filled.take?.map fun filled => { o with filled }

/-- Drops what no later connection can deliver: control packets and QoS 0 messages. -/
def discardTransient (o : Outbox) : Outbox := { o with items := o.items.filter Outgoing.isLasting }

end Outbox

end MqttBroker
