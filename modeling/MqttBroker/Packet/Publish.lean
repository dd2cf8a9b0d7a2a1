import MqttBroker.Packet.Element
/-! PUBLISH: an application message on its way. -/

namespace MqttBroker

structure Publish where
  dup : Bool := false
  qos : QoS
  retain : Bool := false
  topic : Bytes
  packetId : Option UInt16 := none
  properties : Properties := []
  payload : Bytes
deriving DecidableEq

namespace Publish

/-- The low nibble of the first byte. -/
def flags (p : Publish) : Nat := Flag.weight 3 p.dup + 2 * p.qos.rank + Flag.weight 0 p.retain

/-- A packet identifier is on the wire above QoS 0 only. -/
def idFields (p : Publish) : List Field :=
  if p.qos = .atMostOnce then [] else [.word (p.packetId.getD 0)]

def fields (v5 : Bool) (p : Publish) : List Field :=
  .binary p.topic :: (p.idFields ++ (Properties.fieldsAt v5 p.properties ++ [.raw p.payload]))

def size (v5 : Bool) (p : Publish) : Nat :=
  Field.prefixedSize p.topic + (if p.qos = .atMostOnce then 0 else 2)
    + Properties.sizeAt v5 p.properties + p.payload.length

def lacksId (p : Publish) : Bool := p.qos != .atMostOnce && p.packetId.isNone

def read {σ : Type} [Source σ] (flags : UInt8) (v5 : Bool) : FieldReader σ Publish := do
  let dup := Flag.test flags 3
  let qos ← FieldReader.qosOf (UInt8.ofNat (flags.toNat / 2 % 4))
  FieldReader.refuseIf (qos == .atMostOnce && dup) (.invalidFlags .publish flags)
  let topic ← FieldReader.topicName
  let packetId ← FieldReader.optional (qos != .atMostOnce) FieldReader.packetId
  let properties ← Properties.readAt v5
  let payload ← FieldReader.rest
  return { dup, qos, retain := Flag.test flags 0, topic, packetId, properties, payload }

end Publish

end MqttBroker
