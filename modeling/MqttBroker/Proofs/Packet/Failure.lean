import MqttBroker.Proofs.Packet.Trimmed
import MqttBroker.Proofs.Packet.Written
/-!
When a packet cannot be written. Only bytes behind a two-byte length and subscription identifiers
have a bound of their own; the first of them beyond its bound is what the error names. The rest of a
body can be written whenever the body is not too large as a whole.
-/

namespace MqttBroker

/-- What has a bound of its own on the wire. -/
inductive Limited where
  /-- Bytes behind a two-byte length. -/
  | prefixed (content : Bytes)
  | subscriptionIdentifier (value : Nat)
deriving DecidableEq

namespace Limited

def fault? : Limited → Option EncodeError
  | prefixed content => if content.length ≤ 65535 then none else some (.fieldTooLong content.length)
  | subscriptionIdentifier value => if value ≤ 268435455 then none else some (.packetTooLarge value)

end Limited

/-- The only number of varying length among the properties is the subscription identifier. -/
def Shape.limited : (shape : Shape) → shape.Value → List Limited
  | .byte, _ | .word, _ | .long, _ => []
  | .varint, v => [.subscriptionIdentifier v]
  | .text, v => [.prefixed (Bytes.ofText v)]
  | .binary, v => [.prefixed v]
  | .textPair, v => [.prefixed (Bytes.ofText v.1), .prefixed (Bytes.ofText v.2)]

def Property.limited (p : Property) : List Limited := p.name.shape.limited p.value

def Properties.limitedAt (v5 : Bool) (ps : Properties) : List Limited :=
  if v5 then ps.flatMap Property.limited else []

namespace Packet

/-- What has a bound of its own among the fields that the packet has on the wire, in their order. -/
def limited (level : Level) : Packet → List Limited
  | connect c =>
    .prefixed c.protocolName :: (Properties.limitedAt c.isV5 c.properties
      ++ .prefixed c.clientId :: ((c.will.elim [] fun w => Properties.limitedAt c.isV5 w.properties
        ++ [.prefixed w.topic, .prefixed w.payload])
      ++ (c.username.elim [] (fun name => [.prefixed name])
      ++ c.password.elim [] fun secret => [.prefixed secret])))
  | connAck c => Properties.limitedAt level.isV5 c.properties
  | publish p => .prefixed p.topic :: Properties.limitedAt level.isV5 p.properties
  | pubAck a | pubRec a | pubRel a | pubComp a => Properties.limitedAt level.isV5 a.tail.properties
  | subscribe s =>
    Properties.limitedAt level.isV5 s.properties
      ++ s.filters.map fun (filter, _) => .prefixed filter
  | subAck s => Properties.limitedAt level.isV5 s.properties
  | unsubscribe u => Properties.limitedAt level.isV5 u.properties ++ u.filters.map .prefixed
  | unsubAck u => Properties.limitedAt level.isV5 u.properties
  | pingReq | pingResp => []
  | disconnect tail => Properties.limitedAt level.isV5 tail.properties
  | auth tail => Properties.limitedAt true tail.properties

/-- Why the packet cannot be written: its size comes first, then a missing identifier, then the
first field beyond its bound. -/
def failure? (p : Packet) (level : Level) : Option EncodeError :=
  if 268435455 < p.remainingLength level then some (.packetTooLarge (p.remainingLength level))
  else if p.lacksId then some .missingPacketId
  else (p.limited level).findSome? Limited.fault?

end Packet

namespace Field

/-- What hinders the fields from being written. -/
def hindrance? (fs : List Field) : Option EncodeError :=
  match writeAll fs with
  | .ok _ => none
  | .error e => some e

theorem hindrance?_cons (f : Field) (fs : List Field) :
    hindrance? (f :: fs) = (hindrance? [f]).or (hindrance? fs) := by
  simp only [hindrance?, writeAll]
  rcases f.write with e | head <;> rcases writeAll fs with e' | tail <;> rfl

theorem hindrance?_append (fs gs : List Field) :
    hindrance? (fs ++ gs) = (hindrance? fs).or (hindrance? gs) := by
  induction fs with
  | nil => rfl
  | cons f fs ih =>
    rw [List.cons_append, hindrance?_cons, ih, hindrance?_cons f fs, Option.or_assoc]

theorem hindrance?_singleton_of_ok {f : Field} {w : Bytes} (h : f.write = .ok w) :
    hindrance? [f] = none := by
  rw [hindrance?, writeAll, h]
  rfl

theorem hindrance?_singleton_of_error {f : Field} {e : EncodeError} (h : f.write = .error e) :
    hindrance? [f] = some e := by
  rw [hindrance?, writeAll, h]
  rfl

/-- Fields that fit into a packet are hindered by the first of `ls` that is beyond its bound, and by
nothing else. -/
def HinderedBy (ls : List Limited) (fs : List Field) : Prop :=
  totalSize fs ≤ Varint.limit → hindrance? fs = ls.findSome? Limited.fault?

variable {f : Field} {fs gs : List Field} {ls ms : List Limited} {n : Nat}

namespace HinderedBy

theorem append (hfs : HinderedBy ls fs) (hgs : HinderedBy ms gs) :
    HinderedBy (ls ++ ms) (fs ++ gs) := by
  intro hsize
  rw [totalSize_append] at hsize
  rw [hindrance?_append, hfs (by omega), hgs (by omega), List.findSome?_append]

theorem nil : HinderedBy [] [] := fun _ => rfl

theorem free {w : Bytes} (hf : f.write = .ok w) (hfs : HinderedBy ls fs) :
    HinderedBy ls (f :: fs) := by
  intro hsize
  rw [totalSize] at hsize
  rw [hindrance?_cons, hindrance?_singleton_of_ok hf, Option.none_or, hfs (by omega)]

theorem append_free (hfs : HinderedBy ls fs) (hgs : HinderedBy [] gs) :
    HinderedBy ls (fs ++ gs) := by
  simpa using hfs.append hgs

theorem raw (content : Bytes) : HinderedBy [] [.raw content] := .free rfl .nil

theorem single {l : Limited} {w : Bytes} {e : EncodeError} {c : Prop} [Decidable c]
    (hwrite : f.write = if c then .ok w else .error e)
    (hfault : l.fault? = if c then none else some e) : HinderedBy [l] [f] := by
  intro _
  rw [List.findSome?_singleton, hfault]
  by_cases hc : c
  · rw [if_pos hc] at hwrite ⊢
    exact hindrance?_singleton_of_ok hwrite
  · rw [if_neg hc] at hwrite ⊢
    exact hindrance?_singleton_of_error hwrite

theorem subscriptionIdentifier (n : Nat) : HinderedBy [.subscriptionIdentifier n] [.varint n] :=
  .single rfl rfl

theorem binary (content : Bytes) (hfs : HinderedBy ls fs) :
    HinderedBy (.prefixed content :: ls) (.binary content :: fs) :=
  have hone : HinderedBy [.prefixed content] [.binary content] := .single rfl rfl
  hone.append hfs

theorem flatMap {α : Type} {F : α → List Field} {L : α → List Limited} (as : List α)
    (h : ∀ a, HinderedBy (L a) (F a)) : HinderedBy (as.flatMap L) (as.flatMap F) := by
  induction as with
  | nil => exact .nil
  | cons a as ih => exact (h a).append ih

theorem elim {α : Type} {F : α → List Field} {L : α → List Limited} (o : Option α)
    (h : ∀ a, HinderedBy (L a) (F a)) : HinderedBy (o.elim [] L) (o.elim [] F) := by
  cases o with
  | none => exact .nil
  | some a => exact h a

end HinderedBy

end Field

open MqttBroker.Field (HinderedBy)

theorem Shape.hinderedBy : ∀ (shape : Shape) (v : shape.Value),
    HinderedBy (shape.limited v) (shape.fields v)
  | .byte, _ | .word, _ | .long, _ => .free rfl .nil
  | .varint, v => .subscriptionIdentifier v
  | .text, _ | .binary, _ => .binary _ .nil
  | .textPair, _ => .binary _ (.binary _ .nil)

theorem Property.hinderedBy (p : Property) : HinderedBy p.limited p.fields := by
  have hid : p.name.id ≤ Varint.limit := by cases p.name <;> decide
  exact .free (Field.write_varint_eq_ok.2 ⟨hid, rfl⟩) (p.name.shape.hinderedBy p.value)

namespace Properties

/-- The length of a list that fits can be written. -/
theorem hinderedBy_fields (ps : Properties) :
    HinderedBy (ps.flatMap Property.limited) (fields ps) := by
  intro hsize
  have hbody : bodySize ps ≤ Varint.limit := by
    rw [fields_eq, Field.totalSize] at hsize
    rw [bodySize_eq]
    omega
  have hps : HinderedBy (ps.flatMap Property.limited) (body ps) := .flatMap ps Property.hinderedBy
  exact hps.free (Field.write_varint_eq_ok.2 ⟨hbody, rfl⟩) hsize

theorem hinderedBy_fieldsAt (v5 : Bool) (ps : Properties) :
    HinderedBy (limitedAt v5 ps) (fieldsAt v5 ps) := by
  cases v5 with
  | true => exact hinderedBy_fields ps
  | false => exact .nil

end Properties

namespace ReasonTail

theorem hinderedBy_fields (tail : ReasonTail) :
    HinderedBy (Properties.limitedAt true tail.properties) tail.fields := by
  obtain ⟨code, properties⟩ := tail
  rw [fields, isDefault]
  cases properties with
  | nil =>
    cases code == 0 with
    | true => exact .nil
    | false => exact .free rfl .nil
  | cons p ps =>
    rw [List.isEmpty_cons, Bool.and_false]
    exact .free rfl (Properties.hinderedBy_fields (p :: ps))

theorem hinderedBy_fieldsAt (v5 : Bool) (tail : ReasonTail) :
    HinderedBy (Properties.limitedAt v5 tail.properties) (tail.fieldsAt v5) := by
  cases v5 with
  | true => exact tail.hinderedBy_fields
  | false => exact .nil

end ReasonTail

theorem Will.hinderedBy (v5 : Bool) (w : Will) :
    HinderedBy (Properties.limitedAt v5 w.properties ++ [.prefixed w.topic, .prefixed w.payload])
      (w.fields v5) :=
  (Properties.hinderedBy_fieldsAt v5 w.properties).append (.binary _ (.binary _ .nil))

theorem Connect.hinderedBy (c : Connect) (level : Level) :
    HinderedBy ((Packet.connect c).limited level) c.fields := by
  have hwill := HinderedBy.elim c.will (Will.hinderedBy c.isV5)
  have husername : HinderedBy (c.username.elim [] fun name => [.prefixed name])
      (c.username.elim [] fun name => [.binary name]) := .elim _ fun name => .binary name .nil
  have hpassword : HinderedBy (c.password.elim [] fun secret => [.prefixed secret])
      (c.password.elim [] fun secret => [.binary secret]) :=
    .elim _ fun secret => .binary secret .nil
  have hproperties := Properties.hinderedBy_fieldsAt c.isV5 c.properties
  refine .binary _ (.free rfl (.free rfl (.free rfl ?_)))
  exact hproperties.append (.binary _ (hwill.append (husername.append hpassword)))

namespace Packet

theorem hinderedBy_body (p : Packet) (level : Level) :
    HinderedBy (p.limited level) (p.body level) := by
  have hproperties := Properties.hinderedBy_fieldsAt level.isV5
  cases p with
  | connect c => exact c.hinderedBy level
  | connAck c => exact .free rfl (.free rfl (hproperties _))
  | publish p =>
    have hid : HinderedBy [] p.idFields := by
      rw [Publish.idFields]
      split
      · exact .nil
      · exact .free rfl .nil
    exact .binary _ (hid.append ((hproperties _).append_free (.raw _)))
  | pubAck a | pubRec a | pubRel a | pubComp a => exact .free rfl (a.tail.hinderedBy_fieldsAt _)
  | subscribe s =>
    have hfilters := HinderedBy.flatMap (L := fun f => [.prefixed f.1])
      (F := fun f => [.binary f.1, .byte (f.2.toByte level.isV5)]) s.filters
      fun f => .binary f.1 (.free rfl .nil)
    rw [← List.map_eq_flatMap] at hfilters
    exact .free rfl ((hproperties _).append hfilters)
  | subAck s => exact .free rfl ((hproperties _).append_free (.raw _))
  | unsubscribe u =>
    have hfilters := HinderedBy.flatMap (L := fun f => [.prefixed f]) (F := fun f => [.binary f])
      u.filters fun f => .binary f .nil
    rw [← List.map_eq_flatMap, ← List.map_eq_flatMap] at hfilters
    exact .free rfl ((hproperties _).append hfilters)
  | unsubAck u =>
    rw [body, limited, UnsubAck.fields]
    cases level.isV5 with
    | true => exact .free rfl ((u.properties.hinderedBy_fieldsAt true).append_free (.raw _))
    | false => exact .free rfl .nil
  | pingReq | pingResp => exact .nil
  | disconnect tail => exact tail.hinderedBy_fieldsAt _
  | auth tail => exact tail.hinderedBy_fields

variable {p : Packet} {level : Level} {e : EncodeError}

theorem encode_of_large (h : Varint.limit < p.remainingLength level) :
    p.encode level = .error (.packetTooLarge (p.remainingLength level)) := by
  rw [encode, appendTo, if_pos h]
  rfl

theorem encode_of_lacksId (hle : p.remainingLength level ≤ Varint.limit) (hid : p.lacksId = true) :
    p.encode level = .error .missingPacketId := by
  rw [encode, appendTo, if_neg (Nat.not_lt.2 hle), hid]
  rfl

theorem encode_of_writeAll (hle : p.remainingLength level ≤ Varint.limit) (hid : p.lacksId = false)
    (hwrite : Field.writeAll (p.body level) = .error e) : p.encode level = .error e := by
  rw [encode, appendTo, if_neg (Nat.not_lt.2 hle), hid, hwrite]
  rfl

/-- A packet is not written for the reason that `failure?` gives, and is written if there is none.
What the level leaves off the wire makes no difference. -/
theorem encode_fails_exactly (p : Packet) (level : Level) :
    (match p.failure? level with
      | some e => p.encode level = .error e
      | none => ∃ w, p.encode level = .ok w) ∧
      (p.trim level).encode level = p.encode level := by
  refine ⟨?_, p.encode_trim level⟩
  rw [failure?]
  by_cases hlarge : 268435455 < p.remainingLength level
  · rw [if_pos hlarge]
    exact encode_of_large hlarge
  rw [if_neg hlarge]
  have hle : p.remainingLength level ≤ Varint.limit := Nat.not_lt.1 hlarge
  cases hid : p.lacksId with
  | true => exact encode_of_lacksId hle hid
  | false =>
    rw [if_neg Bool.false_ne_true, ← p.hinderedBy_body level (p.remainingLength_eq level ▸ hle),
      Field.hindrance?]
    rcases hwrite : Field.writeAll (p.body level) with e | content
    · exact encode_of_writeAll hle hid hwrite
    · rw [p.remainingLength_eq, ← Field.length_writeAll hwrite] at hle
      exact ⟨_, encode_eq_ok.2 ⟨content, hwrite, hle, hid, rfl⟩⟩

/-- A subscription identifier that 5.0 has no room for and 3.1.1 does not write. -/
example :
    let p := publish
      { qos := .atMostOnce, topic := [0x74],
        properties := [⟨.subscriptionIdentifier, (268435456 : Nat)⟩], payload := [] }
    p.failure? .v5 = some (.packetTooLarge 268435456) ∧ p.failure? .v311 = none := by
  decide

end Packet

end MqttBroker
