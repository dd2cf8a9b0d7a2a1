import MqttBroker.Packet.Basic
/-! Messages as the broker routes them, and what waits in a session to be written. -/

namespace MqttBroker

/-- A published message apart from the packet it came in. -/
structure Message where
  topic : Bytes
  payload : Bytes
  qos : QoS
  retain : Bool := false
deriving DecidableEq

namespace Message

def ofPublish (p : Publish) : Message where
  topic := p.topic
  payload := p.payload
  qos := p.qos
  retain := p.retain

def ofWill (w : Will) : Message where
  topic := w.topic
  payload := w.payload
  qos := w.qos
  retain := w.retain

end Message

/-- A PUBLISH before it has a packet identifier. -/
structure Publication where
  topic : Bytes
  payload : Bytes
  qos : QoS
  retain : Bool := false
  dup : Bool := false
deriving DecidableEq

namespace Publication

/-- The copy of a message for a subscriber. -/
def ofMessage (m : Message) (qos : QoS) : Publication where
  topic := m.topic
  payload := m.payload
  qos := qos

def toPublish (p : Publication) (packetId : Option UInt16) : Publish where
  dup := p.dup
  qos := p.qos
  retain := p.retain
  topic := p.topic
  packetId := packetId
  payload := p.payload

end Publication

/-- A unit of a session's outgoing traffic. -/
inductive Outgoing where
  /-- The bytes of a control packet. -/
  | control (bytes : Bytes)
  | publish (p : Publication)
deriving DecidableEq

namespace Outgoing

/-- Does the item outlive the connection it was meant for? -/
def isLasting : Outgoing → Bool
  | control _ => false
  | publish p => p.qos != .atMostOnce

end Outgoing

end MqttBroker
