import MqttBroker.Wire.Field
import MqttBroker.Wire.FieldReader
/-!
Property lists of the 5.0 level. Each property has an identifier and a shape that fixes how its
value is written; a list keeps the order of its properties and allows repetition.
-/

namespace MqttBroker

/-- The shapes a property's value can have on the wire. -/
inductive Shape where
  | byte
  | word
  | long
  | varint
  | text
  | binary
  | textPair
deriving DecidableEq

namespace Shape

abbrev Value : Shape → Type
  | byte => UInt8
  | word => UInt16
  | long => UInt32
  | varint => Nat
  | text => String
  | binary => Bytes
  | textPair => String × String

instance : (shape : Shape) → DecidableEq shape.Value
  | byte => inferInstanceAs (DecidableEq UInt8)
  | word => inferInstanceAs (DecidableEq UInt16)
  | long => inferInstanceAs (DecidableEq UInt32)
  | varint => inferInstanceAs (DecidableEq Nat)
  | text => inferInstanceAs (DecidableEq String)
  | binary => inferInstanceAs (DecidableEq Bytes)
  | textPair => inferInstanceAs (DecidableEq (String × String))

def fields : (shape : Shape) → shape.Value → List Field
  | byte, v => [.byte v]
  | word, v => [.word v]
  | long, v => [.long v]
  | varint, v => [.varint v]
  | text, v => [.binary (Bytes.ofText v)]
  | binary, v => [.binary v]
  | textPair, v => [.binary (Bytes.ofText v.1), .binary (Bytes.ofText v.2)]

/-- How many bytes a value takes. -/
def size : (shape : Shape) → shape.Value → Nat
  | byte, _ => 1
  | word, _ => 2
  | long, _ => 4
  | varint, v => Varint.size v
  | text, v => Field.prefixedSize (Bytes.ofText v)
  | binary, v => Field.prefixedSize v
  | textPair, v =>
    Field.prefixedSize (Bytes.ofText v.1) + Field.prefixedSize (Bytes.ofText v.2)

def read {σ : Type} [Source σ] : (shape : Shape) → FieldReader σ shape.Value
  | byte => FieldReader.byte
  | word => FieldReader.word
  | long => FieldReader.long
  | varint => FieldReader.varint
  | text => FieldReader.text
  | binary => FieldReader.binary
  | textPair => do
    let key ← FieldReader.text
    let value ← FieldReader.text
    return (key, value)

end Shape

inductive PropertyName where
  | payloadFormatIndicator
  | messageExpiryInterval
  | contentType
  | responseTopic
  | correlationData
  | subscriptionIdentifier
  | sessionExpiryInterval
  | assignedClientIdentifier
  | serverKeepAlive
  | authenticationMethod
  | authenticationData
  | requestProblemInformation
  | willDelayInterval
  | requestResponseInformation
  | responseInformation
  | serverReference
  | reasonString
  | receiveMaximum
  | topicAliasMaximum
  | topicAlias
  | maximumQoS
  | retainAvailable
  | userProperty
  | maximumPacketSize
  | wildcardSubscriptionAvailable
  | subscriptionIdentifierAvailable
  | sharedSubscriptionAvailable
deriving DecidableEq

namespace PropertyName

def id : PropertyName → Nat
  | payloadFormatIndicator => 0x01
  | messageExpiryInterval => 0x02
  | contentType => 0x03
  | responseTopic => 0x08
  | correlationData => 0x09
  | subscriptionIdentifier => 0x0B
  | sessionExpiryInterval => 0x11
  | assignedClientIdentifier => 0x12
  | serverKeepAlive => 0x13
  | authenticationMethod => 0x15
  | authenticationData => 0x16
  | requestProblemInformation => 0x17
  | willDelayInterval => 0x18
  | requestResponseInformation => 0x19
  | responseInformation => 0x1A
  | serverReference => 0x1C
  | reasonString => 0x1F
  | receiveMaximum => 0x21
  | topicAliasMaximum => 0x22
  | topicAlias => 0x23
  | maximumQoS => 0x24
  | retainAvailable => 0x25
  | userProperty => 0x26
  | maximumPacketSize => 0x27
  | wildcardSubscriptionAvailable => 0x28
  | subscriptionIdentifierAvailable => 0x29
  | sharedSubscriptionAvailable => 0x2A

/-- Every property, by ascending identifier. -/
def all : List PropertyName :=
  [payloadFormatIndicator, messageExpiryInterval, contentType, responseTopic, correlationData,
    subscriptionIdentifier, sessionExpiryInterval, assignedClientIdentifier, serverKeepAlive,
    authenticationMethod, authenticationData, requestProblemInformation, willDelayInterval,
    requestResponseInformation, responseInformation, serverReference, reasonString, receiveMaximum,
    topicAliasMaximum, topicAlias, maximumQoS, retainAvailable, userProperty, maximumPacketSize,
    wildcardSubscriptionAvailable, subscriptionIdentifierAvailable, sharedSubscriptionAvailable]

def ofId? (id : Nat) : Option PropertyName := all.find? fun name => name.id == id

/-- The property's name in the specification, without its blanks. -/
def label : PropertyName → String
  | payloadFormatIndicator => "PayloadFormatIndicator"
  | messageExpiryInterval => "MessageExpiryInterval"
  | contentType => "ContentType"
  | responseTopic => "ResponseTopic"
  | correlationData => "CorrelationData"
  | subscriptionIdentifier => "SubscriptionIdentifier"
  | sessionExpiryInterval => "SessionExpiryInterval"
  | assignedClientIdentifier => "AssignedClientIdentifier"
  | serverKeepAlive => "ServerKeepAlive"
  | authenticationMethod => "AuthenticationMethod"
  | authenticationData => "AuthenticationData"
  | requestProblemInformation => "RequestProblemInformation"
  | willDelayInterval => "WillDelayInterval"
  | requestResponseInformation => "RequestResponseInformation"
  | responseInformation => "ResponseInformation"
  | serverReference => "ServerReference"
  | reasonString => "ReasonString"
  | receiveMaximum => "ReceiveMaximum"
  | topicAliasMaximum => "TopicAliasMaximum"
  | topicAlias => "TopicAlias"
  | maximumQoS => "MaximumQoS"
  | retainAvailable => "RetainAvailable"
  | userProperty => "UserProperty"
  | maximumPacketSize => "MaximumPacketSize"
  | wildcardSubscriptionAvailable => "WildcardSubscriptionAvailable"
  | subscriptionIdentifierAvailable => "SubscriptionIdentifierAvailable"
  | sharedSubscriptionAvailable => "SharedSubscriptionAvailable"

def ofLabel? (label : String) : Option PropertyName := all.find? fun name => name.label == label

def shape : PropertyName → Shape
  | payloadFormatIndicator | requestProblemInformation | requestResponseInformation | maximumQoS
  | retainAvailable | wildcardSubscriptionAvailable | subscriptionIdentifierAvailable
  | sharedSubscriptionAvailable => .byte
  | serverKeepAlive | receiveMaximum | topicAliasMaximum | topicAlias => .word
  | messageExpiryInterval | sessionExpiryInterval | willDelayInterval | maximumPacketSize => .long
  | subscriptionIdentifier => .varint
  | contentType | responseTopic | assignedClientIdentifier | authenticationMethod
  | responseInformation | serverReference | reasonString => .text
  | correlationData | authenticationData => .binary
  | userProperty => .textPair

theorem ofId?_id (name : PropertyName) : ofId? name.id = some name := by cases name <;> rfl

theorem ofLabel?_label (name : PropertyName) : ofLabel? name.label = some name := by
  cases name <;> rfl

theorem id_of_ofId? {n : Nat} {name : PropertyName} (h : ofId? n = some name) : name.id = n := by
  simpa using List.find?_some h

end PropertyName

structure Property where
  name : PropertyName
  value : name.shape.Value
deriving DecidableEq

abbrev Properties := List Property

namespace Property

/-- The identifier as a variable byte integer, then the value. -/
def fields (p : Property) : List Field := .varint p.name.id :: p.name.shape.fields p.value

/-- Every identifier takes one byte. -/
def size (p : Property) : Nat := 1 + p.name.shape.size p.value

def read {σ : Type} [Source σ] : FieldReader σ Property := do
  let id ← FieldReader.varint
  match PropertyName.ofId? id with
  | none => throw (.invalidPropertyId id)
  | some name =>
    let value ← name.shape.read
    return ⟨name, value⟩

end Property

namespace Properties

/-- The fields of a list without its length. -/
def body (ps : Properties) : List Field := ps.flatMap Property.fields

/-- The length of a list in bytes. It is written first, so it is worked out from the properties. -/
def bodySize (ps : Properties) : Nat := Field.sumOver Property.size ps

/-- A list behind its length in bytes. -/
def fields (ps : Properties) : List Field := .varint (bodySize ps) :: body ps

def size (ps : Properties) : Nat := Varint.size (bodySize ps) + bodySize ps

/-- Packets carry property lists at 5.0 only. -/
def fieldsAt (v5 : Bool) (ps : Properties) : List Field := if v5 then fields ps else []

def sizeAt (v5 : Bool) (ps : Properties) : Nat := if v5 then size ps else 0

def read {σ : Type} [Source σ] : FieldReader σ Properties := do
  let size ← FieldReader.varint
  FieldReader.within size (FieldReader.many Property.read)

def readAt {σ : Type} [Source σ] (v5 : Bool) : FieldReader σ Properties :=
  if v5 then read else pure []

def sessionExpiryInterval? (ps : Properties) : Option UInt32 :=
  ps.findSome? fun
    | ⟨.sessionExpiryInterval, v⟩ => some v
    | _ => none

def receiveMaximum? (ps : Properties) : Option UInt16 :=
  ps.findSome? fun
    | ⟨.receiveMaximum, v⟩ => some v
    | _ => none

def maximumPacketSize? (ps : Properties) : Option UInt32 :=
  ps.findSome? fun
    | ⟨.maximumPacketSize, v⟩ => some v
    | _ => none

def assignedClientIdentifier? (ps : Properties) : Option String :=
  ps.findSome? fun
    | ⟨.assignedClientIdentifier, v⟩ => some v
    | _ => none

def reasonString? (ps : Properties) : Option String :=
  ps.findSome? fun
    | ⟨.reasonString, v⟩ => some v
    | _ => none

def userProperties (ps : Properties) : List (String × String) :=
  ps.filterMap fun
    | ⟨.userProperty, v⟩ => some v
    | _ => none

end Properties

end MqttBroker
