import MqttBroker.Packet.Element
/-! The acknowledgements PUBACK, PUBREC, PUBREL and PUBCOMP, which share one layout. -/

namespace MqttBroker

structure Ack where
  packetId : UInt16
  tail : ReasonTail := {}
deriving DecidableEq

namespace Ack

def withReason (packetId : UInt16) (code : UInt8) : Ack := { packetId, tail := { code } }

def reason (a : Ack) : UInt8 := a.tail.code

def fields (v5 : Bool) (a : Ack) : List Field := .word a.packetId :: a.tail.fieldsAt v5

def size (v5 : Bool) (a : Ack) : Nat := 2 + a.tail.sizeAt v5

def read {σ : Type} [Source σ] (v5 : Bool) : FieldReader σ Ack := do
  let packetId ← FieldReader.packetId
  let tail ← ReasonTail.readAt v5
  return { packetId, tail }

end Ack

end MqttBroker
