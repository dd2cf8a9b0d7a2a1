import MqttBroker.Packet.Basic
/-!
Sizes that are worked out from a packet before anything of it is written. Each of them is the size
of the fields that are written.
-/

namespace MqttBroker

namespace Field

theorem totalSize_append (fs gs : List Field) :
    totalSize (fs ++ gs) = totalSize fs + totalSize gs := by
  induction fs with
  | nil => simp [totalSize]
  | cons f fs ih => simp [totalSize, ih, Nat.add_assoc]

theorem totalSize_flatMap {α : Type} (F : α → List Field) (as : List α) :
    totalSize (as.flatMap F) = sumOver (fun a => totalSize (F a)) as := by
  induction as with
  | nil => rfl
  | cons a as ih => rw [List.flatMap_cons, totalSize_append, ih, sumOver]

end Field

theorem Shape.size_eq (shape : Shape) (v : shape.Value) :
    shape.size v = Field.totalSize (shape.fields v) := by
  cases shape <;> rfl

theorem PropertyName.size_id (name : PropertyName) : Varint.size name.id = 1 := by
  cases name <;> rfl

theorem Property.size_eq (p : Property) : p.size = Field.totalSize p.fields := by
  rw [size, fields, Field.totalSize, Field.size, p.name.size_id, p.name.shape.size_eq]

namespace Properties

theorem bodySize_eq (ps : Properties) : bodySize ps = Field.totalSize (body ps) := by
  rw [bodySize, body, Field.totalSize_flatMap]
  exact congrArg (Field.sumOver · ps) (funext Property.size_eq)

theorem fields_eq (ps : Properties) :
    fields ps = .varint (Field.totalSize (body ps)) :: body ps := by
  rw [fields, bodySize_eq]

theorem size_eq (ps : Properties) : size ps = Field.totalSize (fields ps) := by
  rw [size, fields, Field.totalSize, Field.size, ← bodySize_eq]

theorem sizeAt_eq (v5 : Bool) (ps : Properties) :
    sizeAt v5 ps = Field.totalSize (fieldsAt v5 ps) := by
  cases v5 with
  | true => exact size_eq ps
  | false => rfl

end Properties

namespace ReasonTail

theorem size_eq (tail : ReasonTail) : tail.size = Field.totalSize tail.fields := by
  rw [size, fields, isDefault]
  cases tail.code == 0 <;> cases tail.properties.isEmpty
  all_goals simp only [Bool.and_true, Bool.and_false, if_true, if_false, Bool.false_eq_true,
    Field.totalSize, Field.size, Properties.size_eq]

theorem sizeAt_eq (v5 : Bool) (tail : ReasonTail) :
    tail.sizeAt v5 = Field.totalSize (tail.fieldsAt v5) := by
  cases v5 with
  | true => exact tail.size_eq
  | false => rfl

end ReasonTail

/-- The size of what is there only if `o` is. -/
theorem Field.totalSize_elim {α : Type} (o : Option α) (F : α → List Field) :
    totalSize (o.elim [] F) = o.elim 0 fun a => totalSize (F a) := by
  cases o <;> rfl

theorem Will.size_eq (v5 : Bool) (w : Will) : w.size v5 = Field.totalSize (w.fields v5) := by
  rw [size, fields, Field.totalSize_append, Properties.sizeAt_eq, Nat.add_assoc]
  rfl

theorem Connect.size_eq (c : Connect) : c.size = Field.totalSize c.fields := by
  have hwill : Will.size c.isV5 = fun w => Field.totalSize (w.fields c.isV5) :=
    funext fun w => w.size_eq c.isV5
  have hprefixed : Field.prefixedSize = fun content => Field.totalSize [.binary content] := rfl
  simp only [size, fields, hwill, hprefixed, Properties.sizeAt_eq, Field.totalSize,
    Field.totalSize_append, Field.totalSize_elim, Field.size]
  omega

theorem ConnAck.size_eq (v5 : Bool) (c : ConnAck) : c.size v5 = Field.totalSize (c.fields v5) := by
  rw [size, Properties.sizeAt_eq]
  simp only [fields, Field.totalSize, Field.size]
  omega

theorem Publish.size_eq (v5 : Bool) (p : Publish) : p.size v5 = Field.totalSize (p.fields v5) := by
  have hid : (if p.qos = .atMostOnce then 0 else 2) = Field.totalSize p.idFields := by
    rw [idFields]
    split <;> rfl
  simp only [size, fields, hid, Properties.sizeAt_eq, Field.totalSize, Field.totalSize_append,
    Field.size, Field.prefixedSize]
  omega

theorem Ack.size_eq (v5 : Bool) (a : Ack) : a.size v5 = Field.totalSize (a.fields v5) := by
  rw [size, a.tail.sizeAt_eq]
  rfl

theorem Subscribe.size_eq (v5 : Bool) (s : Subscribe) :
    s.size v5 = Field.totalSize (s.fields v5) := by
  have hfilters : Field.totalSize
      (s.filters.flatMap fun f => [.binary f.1, .byte (f.2.toByte v5)]) =
        Field.sumOver (fun f => Field.prefixedSize f.1 + 1) s.filters := Field.totalSize_flatMap ..
  have hfields : s.fields v5 = .word s.packetId :: Properties.fieldsAt v5 s.properties
      ++ s.filters.flatMap fun f => [.binary f.1, .byte (f.2.toByte v5)] := rfl
  simp only [size, hfields, hfilters, Properties.sizeAt_eq, List.cons_append, Field.totalSize,
    Field.totalSize_append, Field.size]
  omega

theorem SubAck.size_eq (v5 : Bool) (s : SubAck) : s.size v5 = Field.totalSize (s.fields v5) := by
  simp only [size, fields, Properties.sizeAt_eq, List.cons_append, Field.totalSize,
    Field.totalSize_append, Field.size]
  omega

theorem Unsubscribe.size_eq (v5 : Bool) (u : Unsubscribe) :
    u.size v5 = Field.totalSize (u.fields v5) := by
  have hfilters : Field.totalSize (u.filters.map Field.binary) =
      Field.sumOver Field.prefixedSize u.filters := by
    rw [List.map_eq_flatMap, Field.totalSize_flatMap]
    rfl
  simp only [size, fields, hfilters, Properties.sizeAt_eq, List.cons_append, Field.totalSize,
    Field.totalSize_append, Field.size]
  omega

theorem UnsubAck.size_eq (v5 : Bool) (u : UnsubAck) :
    u.size v5 = Field.totalSize (u.fields v5) := by
  cases v5 with
  | true =>
    simp only [size, fields, Properties.size_eq, if_true, Field.totalSize, Field.totalSize_append,
      Field.size]
    omega
  | false => rfl

theorem Packet.remainingLength_eq (p : Packet) (level : Level) :
    p.remainingLength level = Field.totalSize (p.body level) := by
  cases p with
  | connect c => exact c.size_eq
  | connAck c => exact c.size_eq _
  | publish p => exact p.size_eq _
  | pubAck a | pubRec a | pubRel a | pubComp a => exact a.size_eq _
  | subscribe s => exact s.size_eq _
  | subAck s => exact s.size_eq _
  | unsubscribe u => exact u.size_eq _
  | unsubAck u => exact u.size_eq _
  | pingReq | pingResp => rfl
  | disconnect tail => exact tail.sizeAt_eq _
  | auth tail => exact tail.size_eq

end MqttBroker
