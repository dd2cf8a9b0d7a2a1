import MqttBroker.Property
/-! Elements that several packet bodies share: flags, packet identifiers, topic names and the reason
tail of acknowledgements. -/

namespace MqttBroker

namespace Flag

/-- Bit `i` of a byte. -/
def test (b : UInt8) (i : Nat) : Bool := b.toNat.testBit i

/-- What bit `i` adds to a byte. -/
def weight (i : Nat) (set : Bool) : Nat := if set then Nat.pow 2 i else 0

end Flag

namespace FieldReader

variable {σ : Type} [Source σ]

/-- Reads only when the element is announced. -/
def optional {α : Type} (present : Bool) (r : FieldReader σ α) : FieldReader σ (Option α) :=
  if present then some <$> r else pure none

def qosOf (value : UInt8) : FieldReader σ QoS :=
  match QoS.ofCode? value with
  | some qos => pure qos
  | none => throw (.invalidQoS value)

def packetId : FieldReader σ UInt16 := do
  let id ← word
  refuseIf (id == 0) .zeroPacketId
  return id

/-- A topic name has no `+` and no `#`, which belong to filters. -/
def isWildcard (b : UInt8) : Bool := b == 0x2B || b == 0x23

def topicName : FieldReader σ Bytes := do
  let topic ← utf8
  refuseIf (topic.any isWildcard) .wildcardInTopicName
  return topic

end FieldReader

/-- The reason code and properties that end an acknowledgement, a DISCONNECT or an AUTH. -/
structure ReasonTail where
  code : UInt8 := 0
  properties : Properties := []
deriving DecidableEq

namespace ReasonTail

def isDefault (tail : ReasonTail) : Bool := tail.code == 0 && tail.properties.isEmpty

/-- A tail of default values is left off, and so are empty properties. -/
def fields (tail : ReasonTail) : List Field :=
  if tail.isDefault then []
  else .byte tail.code :: if tail.properties.isEmpty then [] else Properties.fields tail.properties

theorem fields_of_ne_zero {code : UInt8} (h : code ≠ 0) :
    fields { code } = [.byte code] := by
  simp [fields, isDefault, h]

theorem fields_of_ne_nil {code : UInt8} {properties : Properties} (h : properties ≠ []) :
    fields { code, properties } = .byte code :: Properties.fields properties := by
  simp [fields, isDefault, h]

def size (tail : ReasonTail) : Nat :=
  match tail.code == 0, tail.properties.isEmpty with
  | true, true => 0
  | false, true => 1
  | _, false => 1 + Properties.size tail.properties

/-- Below 5.0 there is no tail. -/
def fieldsAt (v5 : Bool) (tail : ReasonTail) : List Field := if v5 then tail.fields else []

def sizeAt (v5 : Bool) (tail : ReasonTail) : Nat := if v5 then tail.size else 0

variable {σ : Type} [Source σ]

def read : FieldReader σ ReasonTail :=
  FieldReader.unlessAtEnd {} do
    let code ← FieldReader.byte
    FieldReader.unlessAtEnd { code } do
      let properties ← Properties.read
      return { code, properties }

def readAt (v5 : Bool) : FieldReader σ ReasonTail := if v5 then read else pure {}

end ReasonTail

end MqttBroker
