import MqttBroker.Proofs.Packet.Frame
import MqttBroker.Proofs.Packet.Written
/-!
What a client owes for a packet of the broker, and how it reads that off the packet's bytes: the
header tells the kind and the QoS, and the identifier is found without reading the rest.
-/

namespace MqttBroker

/-- What a client sends in answer to a PUBLISH above QoS 0 or to a PUBREL. -/
inductive Answer where
  | pubAck (id : UInt16)
  | pubRec (id : UInt16)
  | pubComp (id : UInt16)
deriving DecidableEq

def Packet.answer? : Packet → Option Answer
  | publish p => match p.qos, p.packetId with
    | .atLeastOnce, some id => some (.pubAck id)
    | .exactlyOnce, some id => some (.pubRec id)
    | _, _ => none
  | pubRel a => some (.pubComp a.packetId)
  | _ => none

namespace Answer

/-- The packet identifier behind a topic. -/
def behindTopic : FieldReader Bytes UInt16 := FieldReader.binary >>= fun _ => FieldReader.word

def read (r : FieldReader Bytes UInt16) (content : Bytes) : Option UInt16 :=
  (r content).toOption.map (·.1)

/-- The answer to the packet with these bytes, if it calls for one. -/
def toFrame (frame : Bytes) : Option Answer :=
  match Header.read? frame with
  | .ok (some (h, content)) => match h.kindCode, h.flags.toNat / 2 % 4 with
    | 3, 1 => (read behindTopic content).map pubAck
    | 3, 2 => (read behindTopic content).map pubRec
    | 6, _ => (read FieldReader.word content).map pubComp
    | _, _ => none
  | _ => none

theorem read_eq_some {r : FieldReader Bytes UInt16} {content left : Bytes} {id : UInt16}
    (h : r content = .ok (id, left)) : read r content = some id := by
  rw [read, h]
  rfl

theorem read?_encode {p : Packet} {level : Level} {frame : Bytes}
    (h : p.encode level = .ok frame) :
    ∃ header content, Header.read? frame = .ok (some (header, content)) ∧
      header.kindCode = p.kind.code ∧ header.flags.toNat = p.flags ∧
      Field.writeAll (p.body level) = .ok content ∧ p.lacksId = false := by
  obtain ⟨content, hcontent, hlimit, hid, rfl⟩ := Packet.encode_eq_ok.1 h
  have hflags := p.flags_lt
  have hfirst := p.toNat_firstByte
  refine ⟨⟨p.firstByte, content.length, 1 + (Varint.encode content.length).length⟩, content,
    Header.read?_eq_some_iff.2 ⟨_, rfl, p.le_firstByte, Varint.digits_encode hlimit,
      Varint.length_encode_le hlimit, rfl⟩, ?_, ?_, hcontent, hid⟩
  · change p.firstByte.toNat / 16 = _
    omega
  · change (UInt8.ofNat (p.firstByte.toNat % 16)).toNat = _
    rw [UInt8.toNat_ofNat']
    omega

theorem behindTopic_publish {p : Publish} {level : Level} {content : Bytes} {id : UInt16}
    (h : Field.writeAll (p.fields level.isV5) = .ok content) (hqos : p.qos ≠ .atMostOnce)
    (hid : p.packetId = some id) : read behindTopic content = some id := by
  unfold Publish.fields Publish.idFields at h
  rw [if_neg hqos, hid] at h
  obtain ⟨topic, behind, htopic, hbehind, rfl⟩ := Field.writeAll_cons_eq_ok.1 h
  obtain ⟨hfits, rfl⟩ := Field.write_binary_eq_ok.1 htopic
  obtain ⟨word, rest, hword, -, rfl⟩ := Field.writeAll_cons_eq_ok.1 hbehind
  cases hword
  have hread : behindTopic (Field.wordBytes (UInt16.ofNat p.topic.length) ++ p.topic ++
      (Field.wordBytes id ++ rest)) = .ok (id, rest) :=
    FieldReader.bind_eq_ok.2 ⟨p.topic, Field.wordBytes id ++ rest,
      FieldReader.binary_eq_ok.2 ⟨hfits, rfl⟩, FieldReader.word_eq_ok.2 rfl⟩
  exact read_eq_some hread

/-- The bytes of a packet tell what the packet calls for. -/
theorem toFrame_encode {p : Packet} {level : Level} {frame : Bytes}
    (h : p.encode level = .ok frame) : toFrame frame = p.answer? := by
  obtain ⟨header, content, hread, hkind, hflags, hcontent, hid⟩ := read?_encode h
  rw [toFrame, hread]
  simp only [hkind, hflags]
  cases p with
  | publish p =>
    have hqos : p.flags / 2 % 4 = p.qos.rank := by
      unfold Publish.flags
      cases p.dup <;> cases p.qos <;> cases p.retain <;> rfl
    simp only [Packet.kind, Kind.code, Packet.flags, Packet.answer?, hqos]
    cases hrank : p.qos with
    | atMostOnce => rfl
    | atLeastOnce | exactlyOnce =>
      cases hpacketId : p.packetId with
      | none => simp [Packet.lacksId, Publish.lacksId, hrank, hpacketId] at hid
      | some id =>
        have hread := behindTopic_publish hcontent (by rw [hrank]; decide) hpacketId
        simp only [QoS.rank, hread, Option.map_some]
  | pubRel a =>
    obtain ⟨word, rest, hword, -, rfl⟩ := Field.writeAll_cons_eq_ok.1 hcontent
    cases hword
    have hread := read_eq_some (FieldReader.word_eq_ok.2
      (rfl : Field.wordBytes a.packetId ++ rest = Field.wordBytes a.packetId ++ rest))
    simp only [Packet.kind, Kind.code, Packet.answer?, hread, Option.map_some]
  | _ => rfl

end Answer

end MqttBroker
