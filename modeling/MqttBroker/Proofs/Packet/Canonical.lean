import Mathlib.Tactic.MkIffOfInductiveProp
import MqttBroker.Packet.Basic
/-!
Canonical packets: those that carry nothing their level has no field for, and nothing that the wire
has no room for or a reader refuses.
-/

namespace MqttBroker

namespace Bytes

/-- Fits behind a two-byte length. -/
def Fits (b : Bytes) : Prop := b.length ≤ Field.binaryLimit

instance (b : Bytes) : Decidable b.Fits := inferInstanceAs (Decidable (_ ≤ _))

@[mk_iff]
structure IsTextField (b : Bytes) : Prop where
  fits : b.Fits
  isText : b.isText = true

instance (b : Bytes) : Decidable b.IsTextField := decidable_of_iff' _ (isTextField_iff b)

@[mk_iff]
structure IsTopicField (b : Bytes) : Prop extends b.IsTextField where
  plus_not_mem : 0x2B ∉ b
  hash_not_mem : 0x23 ∉ b

instance (b : Bytes) : Decidable b.IsTopicField := decidable_of_iff' _ (isTopicField_iff b)

end Bytes

def Shape.Fits : (shape : Shape) → shape.Value → Prop
  | .byte, _ | .word, _ | .long, _ => True
  | .varint, v => v ≤ Varint.limit
  | .text, v => (Bytes.ofText v).Fits
  | .binary, v => Bytes.Fits v
  | .textPair, v => (Bytes.ofText v.1).Fits ∧ (Bytes.ofText v.2).Fits

instance : (shape : Shape) → (v : shape.Value) → Decidable (shape.Fits v)
  | .byte, _ | .word, _ | .long, _ => .isTrue trivial
  | .varint, v => inferInstanceAs (Decidable (v ≤ Varint.limit))
  | .text, v => inferInstanceAs (Decidable (Bytes.ofText v).Fits)
  | .binary, v => inferInstanceAs (Decidable (Bytes.Fits v))
  | .textPair, v => inferInstanceAs (Decidable ((Bytes.ofText v.1).Fits ∧ (Bytes.ofText v.2).Fits))

def Property.Fits (p : Property) : Prop := p.name.shape.Fits p.value

instance (p : Property) : Decidable p.Fits := inferInstanceAs (Decidable (Shape.Fits _ _))

/-- Below 5.0 there are no properties. -/
@[mk_iff]
structure Properties.Canonical (v5 : Bool) (ps : Properties) : Prop where
  fits : ∀ p ∈ ps, p.Fits
  eq_nil : v5 = false → ps = []

instance (v5 : Bool) (ps : Properties) : Decidable (ps.Canonical v5) :=
  decidable_of_iff' _ (Properties.canonical_iff v5 ps)

@[mk_iff]
structure ReasonTail.Canonical (v5 : Bool) (tail : ReasonTail) : Prop where
  code_eq_zero : v5 = false → tail.code = 0
  properties : Properties.Canonical v5 tail.properties

instance (v5 : Bool) (tail : ReasonTail) : Decidable (tail.Canonical v5) :=
  decidable_of_iff' _ (ReasonTail.canonical_iff v5 tail)

@[mk_iff]
structure Will.Canonical (v5 : Bool) (w : Will) : Prop where
  topic : w.topic.IsTopicField
  payload : w.payload.Fits
  properties : Properties.Canonical v5 w.properties

instance (v5 : Bool) (w : Will) : Decidable (w.Canonical v5) :=
  decidable_of_iff' _ (Will.canonical_iff v5 w)

@[mk_iff]
structure Connect.Canonical (c : Connect) : Prop where
  protocolName : c.protocolName.IsTextField
  properties : Properties.Canonical c.isV5 c.properties
  clientId : c.clientId.IsTextField
  will : ∀ w ∈ c.will, w.Canonical c.isV5
  username : ∀ u ∈ c.username, u.IsTextField
  password : ∀ s ∈ c.password, s.Fits
  username_isSome : c.isV5 = false → c.password.isSome → c.username.isSome

instance (c : Connect) : Decidable c.Canonical := decidable_of_iff' _ (Connect.canonical_iff c)

@[mk_iff]
structure Publish.Canonical (v5 : Bool) (p : Publish) : Prop where
  topic : p.topic.IsTopicField
  packetId_eq_none_iff : p.packetId = none ↔ p.qos = .atMostOnce
  packetId_ne_zero : p.packetId ≠ some 0
  qos_of_dup : p.dup = true → p.qos ≠ .atMostOnce
  properties : Properties.Canonical v5 p.properties

instance (v5 : Bool) (p : Publish) : Decidable (p.Canonical v5) :=
  decidable_of_iff' _ (Publish.canonical_iff v5 p)

theorem Publish.Canonical.isSome_packetId {v5 : Bool} {p : Publish} (h : p.Canonical v5) :
    p.packetId.isSome = (p.qos != .atMostOnce) := by
  have hnone := h.packetId_eq_none_iff
  cases hid : p.packetId <;> simp_all

theorem Publish.idFields_eq {p : Publish} (h : p.packetId.isSome = (p.qos != .atMostOnce)) :
    p.idFields = p.packetId.elim [] fun id => [.word id] := by
  cases hid : p.packetId <;> simp_all [idFields]

@[mk_iff]
structure Ack.Canonical (v5 : Bool) (a : Ack) : Prop where
  packetId_ne_zero : a.packetId ≠ 0
  tail : a.tail.Canonical v5

instance (v5 : Bool) (a : Ack) : Decidable (a.Canonical v5) :=
  decidable_of_iff' _ (Ack.canonical_iff v5 a)

/-- Below 5.0 only the QoS is asked for. -/
@[mk_iff]
structure SubscriptionOptions.Canonical (v5 : Bool) (o : SubscriptionOptions) : Prop where
  retainHandling_le : o.retainHandling ≤ 2
  eq_qos : v5 = false → o = { qos := o.qos }

instance (v5 : Bool) (o : SubscriptionOptions) : Decidable (o.Canonical v5) :=
  decidable_of_iff' _ (SubscriptionOptions.canonical_iff v5 o)

@[mk_iff]
structure Subscribe.Canonical (v5 : Bool) (s : Subscribe) : Prop where
  packetId_ne_zero : s.packetId ≠ 0
  properties : Properties.Canonical v5 s.properties
  filters_ne_nil : s.filters ≠ []
  filters : ∀ f ∈ s.filters, f.1.IsTextField ∧ f.2.Canonical v5

instance (v5 : Bool) (s : Subscribe) : Decidable (s.Canonical v5) :=
  decidable_of_iff' _ (Subscribe.canonical_iff v5 s)

@[mk_iff]
structure SubAck.Canonical (v5 : Bool) (s : SubAck) : Prop where
  packetId_ne_zero : s.packetId ≠ 0
  properties : Properties.Canonical v5 s.properties

instance (v5 : Bool) (s : SubAck) : Decidable (s.Canonical v5) :=
  decidable_of_iff' _ (SubAck.canonical_iff v5 s)

@[mk_iff]
structure Unsubscribe.Canonical (v5 : Bool) (u : Unsubscribe) : Prop where
  packetId_ne_zero : u.packetId ≠ 0
  properties : Properties.Canonical v5 u.properties
  filters_ne_nil : u.filters ≠ []
  filters : ∀ f ∈ u.filters, f.IsTextField

instance (v5 : Bool) (u : Unsubscribe) : Decidable (u.Canonical v5) :=
  decidable_of_iff' _ (Unsubscribe.canonical_iff v5 u)

@[mk_iff]
structure UnsubAck.Canonical (v5 : Bool) (u : UnsubAck) : Prop where
  packetId_ne_zero : u.packetId ≠ 0
  properties : Properties.Canonical v5 u.properties
  reasonCodes_eq_nil : v5 = false → u.reasonCodes = []

instance (v5 : Bool) (u : UnsubAck) : Decidable (u.Canonical v5) :=
  decidable_of_iff' _ (UnsubAck.canonical_iff v5 u)

namespace Packet

/-- A CONNECT is judged by its own level byte, and only 5.0 has AUTH. -/
def BodyCanonical (level : Level) : Packet → Prop
  | connect c => c.Canonical
  | connAck c => Properties.Canonical level.isV5 c.properties
  | publish p => p.Canonical level.isV5
  | pubAck a | pubRec a | pubRel a | pubComp a => a.Canonical level.isV5
  | subscribe s => s.Canonical level.isV5
  | subAck s => s.Canonical level.isV5
  | unsubscribe u => u.Canonical level.isV5
  | unsubAck u => u.Canonical level.isV5
  | pingReq | pingResp => True
  | disconnect tail => tail.Canonical level.isV5
  | auth tail => level = .v5 ∧ tail.Canonical true

instance (level : Level) : (p : Packet) → Decidable (p.BodyCanonical level)
  | connect c => inferInstanceAs (Decidable c.Canonical)
  | connAck c => inferInstanceAs (Decidable (Properties.Canonical level.isV5 c.properties))
  | publish p => inferInstanceAs (Decidable (p.Canonical level.isV5))
  | pubAck a | pubRec a | pubRel a | pubComp a =>
    inferInstanceAs (Decidable (a.Canonical level.isV5))
  | subscribe s => inferInstanceAs (Decidable (s.Canonical level.isV5))
  | subAck s => inferInstanceAs (Decidable (s.Canonical level.isV5))
  | unsubscribe u => inferInstanceAs (Decidable (u.Canonical level.isV5))
  | unsubAck u => inferInstanceAs (Decidable (u.Canonical level.isV5))
  | pingReq | pingResp => .isTrue trivial
  | disconnect tail => inferInstanceAs (Decidable (tail.Canonical level.isV5))
  | auth tail => inferInstanceAs (Decidable (level = .v5 ∧ tail.Canonical true))

@[mk_iff]
structure Canonical (level : Level) (p : Packet) : Prop where
  body : p.BodyCanonical level
  remainingLength_le : p.remainingLength level ≤ Varint.limit

instance (level : Level) (p : Packet) : Decidable (p.Canonical level) :=
  decidable_of_iff' _ (canonical_iff level p)

end Packet

end MqttBroker
