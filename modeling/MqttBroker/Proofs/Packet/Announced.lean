import MqttBroker.Proofs.Packet.Frame
import MqttBroker.Proofs.Packet.Written
/-!
The lengths that a written packet announces. They were worked out from the packet before any byte of
it was there, and are the numbers of the bytes that came behind them.
-/

namespace MqttBroker

namespace Field

/-- `w` is written for the fields, and the property lists `pss` are what they hold of such lists.
The number in front of a list is the number of the bytes that its properties have taken. -/
inductive Announced : List Field → List Properties → Bytes → Prop
  | nil : Announced [] [] []
  | field {f : Field} {fs : List Field} {pss : List Properties} {v w : Bytes} (hf : f.write = .ok v)
    (hfs : Announced fs pss w) : Announced (f :: fs) pss (v ++ w)
  | list {ps : Properties} {fs : List Field} {pss : List Properties} {v w : Bytes}
    (hps : writeAll ps.body = .ok v) (hfs : Announced fs pss w) :
    Announced (ps.fields ++ fs) (ps :: pss) (Varint.encode v.length ++ v ++ w)

/-- Whenever the fields can be written, the property lists in them have their length in front. -/
def Announces (fs : List Field) (pss : List Properties) : Prop :=
  ∀ w, writeAll fs = .ok w → Announced fs pss w

variable {fs gs : List Field} {pss qss : List Properties} {v w : Bytes}

theorem Announced.append (hfs : Announced fs pss v) (hgs : Announced gs qss w) :
    Announced (fs ++ gs) (pss ++ qss) (v ++ w) := by
  induction hfs with
  | nil => exact hgs
  | field hf _ ih =>
    rw [List.append_assoc]
    exact .field hf ih
  | list hps _ ih =>
    rw [List.append_assoc, List.append_assoc]
    exact .list hps ih

namespace Announces

theorem append (hfs : Announces fs pss) (hgs : Announces gs qss) :
    Announces (fs ++ gs) (pss ++ qss) := by
  intro w hw
  obtain ⟨front, back, hfront, hback, rfl⟩ := writeAll_append_eq_ok.1 hw
  exact (hfs front hfront).append (hgs back hback)

theorem cons (f : Field) (hfs : Announces fs pss) : Announces (f :: fs) pss := by
  intro w hw
  obtain ⟨head, tail, hhead, htail, rfl⟩ := writeAll_cons_eq_ok.1 hw
  exact .field hhead (hfs tail htail)

/-- Fields without property lists. -/
theorem plain (fs : List Field) : Announces fs [] := by
  induction fs with
  | nil =>
    rintro w ⟨⟩
    exact .nil
  | cons f fs ih => exact ih.cons f

theorem elim {α : Type} {F : α → List Field} {L : α → List Properties} (o : Option α)
    (h : ∀ a, Announces (F a) (L a)) : Announces (o.elim [] F) (o.elim [] L) := by
  cases o with
  | none => exact plain []
  | some a => exact h a

end Announces

end Field

open MqttBroker.Field (Announces)

namespace Properties

/-- The length is worked out from the properties, and is that of what is written for them. -/
theorem announces_fields (ps : Properties) : Announces (fields ps) [ps] := by
  intro w hw
  obtain ⟨length, content, hlength, hcontent, rfl⟩ := Field.writeAll_cons_eq_ok.1 hw
  obtain ⟨-, rfl⟩ := Field.write_varint_eq_ok.1 hlength
  rw [bodySize_eq, ← Field.length_writeAll hcontent]
  simpa using Field.Announced.list hcontent .nil

def listsAt (v5 : Bool) (ps : Properties) : List Properties := if v5 then [ps] else []

theorem announces_fieldsAt (v5 : Bool) (ps : Properties) :
    Announces (fieldsAt v5 ps) (listsAt v5 ps) := by
  cases v5 with
  | true => exact announces_fields ps
  | false => exact .plain []

theorem announces_fieldsAt_append (v5 : Bool) (ps : Properties) (fs : List Field) :
    Announces (fieldsAt v5 ps ++ fs) (listsAt v5 ps) := by
  simpa using (announces_fieldsAt v5 ps).append (.plain fs)

end Properties

namespace ReasonTail

/-- A tail without properties ends before the list. -/
def lists (tail : ReasonTail) : List Properties :=
  if tail.properties.isEmpty then [] else [tail.properties]

def listsAt (v5 : Bool) (tail : ReasonTail) : List Properties := if v5 then tail.lists else []

theorem announces_fields (tail : ReasonTail) : Announces tail.fields tail.lists := by
  obtain ⟨code, properties⟩ := tail
  rw [fields, lists, isDefault]
  cases properties with
  | nil =>
    exact .plain _
  | cons p ps =>
    rw [List.isEmpty_cons, Bool.and_false]
    exact (Properties.announces_fields (p :: ps)).cons _

theorem announces_fieldsAt (v5 : Bool) (tail : ReasonTail) :
    Announces (tail.fieldsAt v5) (tail.listsAt v5) := by
  cases v5 with
  | true => exact tail.announces_fields
  | false => exact .plain []

end ReasonTail

namespace Packet

/-- The property lists that a packet has on the wire, in their order. A CONNECT has that of its will
too, and goes by its own level. -/
def lists (level : Level) : Packet → List Properties
  | connect c =>
    Properties.listsAt c.isV5 c.properties
      ++ c.will.elim [] fun w => Properties.listsAt c.isV5 w.properties
  | connAck c => Properties.listsAt level.isV5 c.properties
  | publish p => Properties.listsAt level.isV5 p.properties
  | pubAck a | pubRec a | pubRel a | pubComp a => a.tail.listsAt level.isV5
  | subscribe s => Properties.listsAt level.isV5 s.properties
  | subAck s => Properties.listsAt level.isV5 s.properties
  | unsubscribe u => Properties.listsAt level.isV5 u.properties
  | unsubAck u => Properties.listsAt level.isV5 u.properties
  | pingReq | pingResp => []
  | disconnect tail => tail.listsAt level.isV5
  | auth tail => tail.lists

theorem announces_connect (c : Connect) (level : Level) :
    Announces c.fields ((connect c).lists level) := by
  have hwill : Announces (c.will.elim [] (Will.fields c.isV5))
      (c.will.elim [] fun w => Properties.listsAt c.isV5 w.properties) :=
    .elim c.will fun w => Properties.announces_fieldsAt_append c.isV5 w.properties _
  have hbehind := (hwill.append (.plain (c.username.elim [] (fun name => [.binary name])
    ++ c.password.elim [] fun secret => [.binary secret]))).cons (.binary c.clientId)
  rw [List.append_nil] at hbehind
  exact (((((Properties.announces_fieldsAt _ _).append hbehind).cons _).cons _).cons _).cons _

theorem announces_body (p : Packet) (level : Level) : Announces (p.body level) (p.lists level) := by
  cases p with
  | connect c => exact announces_connect c level
  | connAck c => exact ((Properties.announces_fieldsAt _ _).cons _).cons _
  | publish p =>
    exact ((Announces.plain p.idFields).append (Properties.announces_fieldsAt_append _ _ _)).cons _
  | pubAck a | pubRec a | pubRel a | pubComp a => exact (a.tail.announces_fieldsAt _).cons _
  | subscribe s => exact (Properties.announces_fieldsAt_append _ _ _).cons _
  | subAck s => exact (Properties.announces_fieldsAt_append _ _ _).cons _
  | unsubscribe u => exact (Properties.announces_fieldsAt_append _ _ _).cons _
  | unsubAck u =>
    rw [body, lists, UnsubAck.fields]
    cases level.isV5 with
    | true => exact (Properties.announces_fieldsAt_append true _ _).cons _
    | false => exact .plain _
  | pingReq | pingResp => exact .plain _
  | disconnect tail => exact tail.announces_fieldsAt _
  | auth tail => exact tail.announces_fields

/-- What comes behind `out` is as many bytes as `appendTo` counts and as were foreseen. Its header
announces what is behind the header, and every property list has its length in front. -/
theorem appendTo_exact (out : Bytes) (p : Packet) (level : Level) (bytes : Bytes) (count : Nat)
    (h : p.appendTo out level = .ok (bytes, count)) :
    ∃ added header content,
      bytes = out ++ added ∧ added.length = count ∧ count = p.encodedLength level ∧
        p.encode level = .ok added ∧ Header.read? added = .ok (some (header, content)) ∧
        header.remaining = p.remainingLength level ∧ header.remaining = content.length ∧
        Field.Announced (p.body level) (p.lists level) content := by
  obtain ⟨content, hcontent, hlimit, hid, hbytes, hcount⟩ := appendTo_eq_ok.1 h
  have hencode := encode_eq_ok.2 ⟨content, hcontent, hlimit, hid, rfl⟩
  have hlength := length_of_encode hencode
  have hremaining : content.length = p.remainingLength level := by
    rw [p.remainingLength_eq, Field.length_writeAll hcontent]
  have hadded : (p.firstByte :: (Varint.encode content.length ++ content)).length = count := by
    rw [hcount, List.length_cons, List.length_append]
    omega
  refine ⟨_, ⟨p.firstByte, content.length, 1 + (Varint.encode content.length).length⟩, content,
    hbytes, hadded, hadded.symm.trans hlength, hencode, ?_, hremaining, rfl,
    p.announces_body level content hcontent⟩
  exact Header.read?_eq_some_iff.2 ⟨_, rfl, p.le_firstByte, Varint.digits_encode hlimit,
    Varint.length_encode_le hlimit, rfl⟩

/-- A PUBLISH with a topic alias behind a PINGREQ. -/
theorem appendTo_exact_publish :
    let p := publish
      { qos := .atLeastOnce, topic := [0x74], packetId := some 7,
        properties := [⟨.topicAlias, (3 : UInt16)⟩], payload := [0x61] }
    p.appendTo [0xC0, 0x00] .v5 =
        .ok ([0xC0, 0x00, 0x32, 0x0A, 0x00, 0x01, 0x74, 0x00, 0x07, 0x03, 0x23, 0x00, 0x03, 0x61],
          12) ∧
      p.encodedLength .v5 = 12 ∧
      ∃ content, content.length = 10 ∧
        Field.Announced (p.body .v5) [[⟨.topicAlias, (3 : UInt16)⟩]] content := by
  intro p
  have happend : p.appendTo [0xC0, 0x00] .v5 =
      .ok ([0xC0, 0x00, 0x32, 0x0A, 0x00, 0x01, 0x74, 0x00, 0x07, 0x03, 0x23, 0x00, 0x03, 0x61],
        12) := by
    rfl
  obtain ⟨-, header, content, -, -, hcount, -, -, hheader, hlength, hlists⟩ :=
    appendTo_exact _ _ _ _ _ happend
  exact ⟨happend, hcount.symm, content, hlength.symm.trans hheader, hlists⟩

end Packet

end MqttBroker
