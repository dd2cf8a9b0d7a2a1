import MqttBroker.Protocol
import MqttBroker.Topic
/-! The filters a session is subscribed to, each with the QoS granted for it. -/

namespace MqttBroker

/-- A filter occurs at most once. -/
structure Subscriptions where
  entries : List (Bytes × QoS) := []
deriving DecidableEq

namespace Subscriptions

def get? (s : Subscriptions) (filter : Bytes) : Option QoS := s.entries.lookup filter

def erase (s : Subscriptions) (filter : Bytes) : Subscriptions :=
  ⟨s.entries.filter fun entry => entry.1 != filter⟩

def insert (s : Subscriptions) (filter : Bytes) (qos : QoS) : Subscriptions :=
  ⟨(filter, qos) :: (s.erase filter).entries⟩

/-- The QoS granted to a request: what it asks for, if its filter is valid. -/
def grant (request : Bytes × QoS) : Option QoS :=
  if Topic.isValidFilter request.1 then some request.2 else none

/-- Holds every request with a valid filter; a later one replaces an earlier one. -/
def subscribe (s : Subscriptions) (requests : List (Bytes × QoS)) : Subscriptions :=
  requests.foldl
    (fun s request => match grant request with
      | some qos => s.insert request.1 qos
      | none => s) s

/-- Gives up the filters in turn, and tells of each whether it was held. -/
def unsubscribe (s : Subscriptions) : List Bytes → Subscriptions × List Bool
  | [] => (s, [])
  | filter :: others =>
    let (s', found) := (s.erase filter).unsubscribe others
    (s', (s.get? filter).isSome :: found)

/-- Would a grant of `qos` be better than the best one so far? -/
def raises (best : Option QoS) (qos : QoS) : Bool := best.all fun b => b.rank < qos.rank

/-- Looks through the entries for a better grant than `best`. An entry that would not be better is
not compared with the topic, and nothing is better than QoS 2. -/
def search (topic : Bytes) (best : Option QoS) : List (Bytes × QoS) → Option QoS
  | [] => best
  | (filter, qos) :: entries =>
    if raises best qos && Topic.isMatch topic filter then
      if qos = .exactlyOnce then some qos else search topic (some qos) entries
    else search topic best entries

/-- The highest QoS among the filters that select the topic. -/
def matchMax (s : Subscriptions) (topic : Bytes) : Option QoS := search topic none s.entries

def size (s : Subscriptions) : Nat := s.entries.length

def isEmpty (s : Subscriptions) : Bool := s.entries.isEmpty

end Subscriptions

end MqttBroker
