import MqttBroker.Packet.Element
/-! SUBSCRIBE and UNSUBSCRIBE with their answers. -/

namespace MqttBroker

/-- What a subscriber asks for besides the filter; below 5.0 only the QoS. -/
structure SubscriptionOptions where
  qos : QoS
  noLocal : Bool := false
  retainAsPublished : Bool := false
  retainHandling : UInt8 := 0
deriving DecidableEq

namespace SubscriptionOptions

def toByte (v5 : Bool) (o : SubscriptionOptions) : UInt8 :=
  if v5 then
    UInt8.ofNat (o.qos.rank + Flag.weight 2 o.noLocal + Flag.weight 3 o.retainAsPublished
      + 16 * (o.retainHandling.toNat % 4))
  else o.qos.code

/-- Bits the level has no use for must be clear, and there is no fourth retain handling. -/
def ofByte {σ : Type} [Source σ] (v5 : Bool) (b : UInt8) : FieldReader σ SubscriptionOptions := do
  let spare := if v5 then 64 ≤ b.toNat else 4 ≤ b.toNat
  FieldReader.refuseIf (spare || b.toNat / 16 % 4 == 3) (.invalidSubscriptionOptions b)
  let qos ← FieldReader.qosOf (UInt8.ofNat (b.toNat % 4))
  return { qos, noLocal := Flag.test b 2, retainAsPublished := Flag.test b 3,
           retainHandling := UInt8.ofNat (b.toNat / 16 % 4) }

end SubscriptionOptions

structure Subscribe where
  packetId : UInt16
  properties : Properties := []
  filters : List (Bytes × SubscriptionOptions)
deriving DecidableEq

/-- One return code per filter of the SUBSCRIBE. -/
structure SubAck where
  packetId : UInt16
  properties : Properties := []
  returnCodes : Bytes
deriving DecidableEq

structure Unsubscribe where
  packetId : UInt16
  properties : Properties := []
  filters : List Bytes
deriving DecidableEq

/-- One reason code per filter of the UNSUBSCRIBE; below 5.0 none is written. -/
structure UnsubAck where
  packetId : UInt16
  properties : Properties := []
  reasonCodes : Bytes
deriving DecidableEq

namespace Subscribe

def fields (v5 : Bool) (s : Subscribe) : List Field :=
  .word s.packetId :: Properties.fieldsAt v5 s.properties
    ++ s.filters.flatMap fun (filter, options) => [.binary filter, .byte (options.toByte v5)]

def size (v5 : Bool) (s : Subscribe) : Nat :=
  2 + Properties.sizeAt v5 s.properties
    + Field.sumOver (fun f => Field.prefixedSize f.1 + 1) s.filters

def readFilter {σ : Type} [Source σ] (v5 : Bool) : FieldReader σ (Bytes × SubscriptionOptions) := do
  let filter ← FieldReader.utf8
  let b ← FieldReader.byte
  let options ← SubscriptionOptions.ofByte v5 b
  return (filter, options)

def read {σ : Type} [Source σ] (v5 : Bool) : FieldReader σ Subscribe := do
  let packetId ← FieldReader.packetId
  let properties ← Properties.readAt v5
  let filters ← FieldReader.many (readFilter v5)
  FieldReader.refuseIf filters.isEmpty (.emptyFilterList .subscribe)
  return { packetId, properties, filters }

end Subscribe

namespace SubAck

def fields (v5 : Bool) (s : SubAck) : List Field :=
  .word s.packetId :: Properties.fieldsAt v5 s.properties ++ [.raw s.returnCodes]

def size (v5 : Bool) (s : SubAck) : Nat :=
  2 + Properties.sizeAt v5 s.properties + s.returnCodes.length

def read {σ : Type} [Source σ] (v5 : Bool) : FieldReader σ SubAck := do
  let packetId ← FieldReader.packetId
  let properties ← Properties.readAt v5
  let returnCodes ← FieldReader.rest
  return { packetId, properties, returnCodes }

end SubAck

namespace Unsubscribe

def fields (v5 : Bool) (u : Unsubscribe) : List Field :=
  .word u.packetId :: Properties.fieldsAt v5 u.properties ++ u.filters.map Field.binary

def size (v5 : Bool) (u : Unsubscribe) : Nat :=
  2 + Properties.sizeAt v5 u.properties + Field.sumOver Field.prefixedSize u.filters

def read {σ : Type} [Source σ] (v5 : Bool) : FieldReader σ Unsubscribe := do
  let packetId ← FieldReader.packetId
  let properties ← Properties.readAt v5
  let filters ← FieldReader.many FieldReader.utf8
  FieldReader.refuseIf filters.isEmpty (.emptyFilterList .unsubscribe)
  return { packetId, properties, filters }

end Unsubscribe

namespace UnsubAck

def fields (v5 : Bool) (u : UnsubAck) : List Field :=
  .word u.packetId :: if v5 then Properties.fields u.properties ++ [.raw u.reasonCodes] else []

def size (v5 : Bool) (u : UnsubAck) : Nat :=
  if v5 then 2 + Properties.size u.properties + u.reasonCodes.length else 2

def read {σ : Type} [Source σ] (v5 : Bool) : FieldReader σ UnsubAck := do
  let packetId ← FieldReader.packetId
  if v5 then
    let properties ← Properties.read
    let reasonCodes ← FieldReader.rest
    return { packetId, properties, reasonCodes }
  else return { packetId, reasonCodes := [] }

end UnsubAck

end MqttBroker
