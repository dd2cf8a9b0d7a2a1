import MqttBroker.Proofs.Packet.Accepted
import MqttBroker.Proofs.Packet.Segmentation
import MqttBroker.Proofs.Packet.WrittenBody
/-!
Encoding and decoding as inverses of each other. A canonical packet comes back from its bytes, and
no other packet does; accepted bytes come back from their packet unless they hold a redundancy.
-/

namespace MqttBroker

namespace Packet

open FieldReader

variable {p : Packet} {level : Level} {limit n : Nat} {b left w : Bytes}

theorem lacksId_eq_false (h : p.BodyCanonical level) : p.lacksId = false := by
  cases p with
  | publish p =>
    have hsome := Publish.Canonical.isSome_packetId h
    simp only [lacksId, Publish.lacksId]
    rw [← hsome]
    cases p.packetId <;> rfl
  | _ => rfl

theorem checkFlags_flags (p : Packet) : checkFlags p.kind (UInt8.ofNat p.flags) = .ok () := by
  cases p <;> rfl

theorem Canonical.totalSize_body_le (h : p.Canonical level) :
    Field.totalSize (p.body level) ≤ Varint.limit :=
  p.remainingLength_eq level ▸ h.remainingLength_le

theorem Canonical.exists_encoded (h : p.Canonical level) : ∃ w, p.encode level = .ok w := by
  obtain ⟨content, hcontent, -⟩ := readBody_reads h.body h.totalSize_body_le
  have hlimit := h.totalSize_body_le
  rw [← Field.length_writeAll hcontent] at hlimit
  exact ⟨_, encode_eq_ok.2 ⟨content, hcontent, hlimit, lacksId_eq_false h.body, rfl⟩⟩

theorem decodeFrom_of_encode (h : p.BodyCanonical level) (hw : p.encode level = .ok w)
    (rest : Bytes) (limit : Nat) :
    decodeFrom (w ++ rest) level limit =
      if p.encodedLength level ≤ limit then .ok (some (p, p.encodedLength level))
      else .error (.packetTooLarge (p.encodedLength level) limit) := by
  have hlength := length_of_encode hw
  obtain ⟨content, hcontent, hlimit, -, rfl⟩ := encode_eq_ok.1 hw
  have hsize : Field.totalSize (p.body level) ≤ Varint.limit := by
    rwa [Field.length_writeAll hcontent] at hlimit
  obtain ⟨content', hcontent', hbody⟩ := readBody_reads h hsize
  obtain rfl : content' = content := Except.ok.inj (hcontent'.symm.trans hcontent)
  let header : Header :=
    ⟨p.firstByte, content'.length, 1 + (Varint.encode content'.length).length⟩
  have hread : Header.read? (p.firstByte :: (Varint.encode content'.length ++ content') ++ rest) =
      .ok (some (header, content' ++ rest)) := by
    exact Header.read?_eq_some_iff.2 ⟨_, by simp [header], p.le_firstByte,
      Varint.digits_encode hlimit, Varint.length_encode_le hlimit, rfl⟩
  have htotal : header.size + header.remaining = p.encodedLength level := by
    rw [← hlength]
    simp only [header, List.length_cons, List.length_append]
    omega
  obtain ⟨hkind, hflags⟩ := first_eq_firstByte_iff.1 (rfl : header.first = p.firstByte)
  split
  · next hle =>
    refine decodeFrom_eq_some_iff.2 ⟨header, _, p.kind, hread, ?_, ?_, ?_⟩
    · exact Header.accept_eq_ok.2 ⟨htotal.symm, hle, hkind, hflags ▸ p.checkFlags_flags⟩
    · simp [header]
    · rw [hflags, List.take_left' rfl, hbody]
  · next hgt =>
    -- Too large a packet is refused by its header, before its kind is looked at.
    rw [← htotal] at hgt ⊢
    rw [decodeFrom_of_header hread, Header.accept, Header.total, if_pos (Nat.not_le.1 hgt)]
    rfl

theorem spelling_of_decodeFrom (h : decodeFrom b level limit = .ok (some (p, n))) :
    p.BodyCanonical level ∧ ∃ k, p.Spelling level k (b.take n) := by
  obtain ⟨header, left, kind, hread, haccept, hle, hbody⟩ := decodeFrom_eq_some_iff.1 h
  obtain ⟨rfl, -, hkind, hcheck⟩ := Header.accept_eq_ok.1 haccept
  obtain ⟨⟨rfl, hflags⟩, hcanonical, i, fs, hlayout, j, content, hcontent, hfields⟩ :=
    inFront_of_readBody header.flags_lt hcheck hbody
  rw [List.append_nil] at hcontent
  have hlength : header.remaining = content.length := by
    rw [← hcontent, List.length_take_of_le hle]
  obtain ⟨w, rfl, -, hdigits, hw, hsize⟩ := Header.read?_eq_some_iff.1 hread
  obtain ⟨k, hdigits⟩ := hdigits.spelling hw
  have htake : (header.first :: (w ++ left)).take (header.size + header.remaining) =
      p.firstByte :: (w ++ content) := by
    rw [first_eq_firstByte_iff.2 ⟨hkind, hflags.symm⟩, hsize, Nat.add_assoc, Nat.add_comm,
      List.take_succ_cons, List.take_length_add_append, hcontent]
  rw [hlength] at hdigits
  rw [htake]
  exact ⟨hcanonical, _, .frame hlayout hfields hdigits⟩

/-- A canonical packet is written in the announced size and read back whatever follows it, within
the limit. No other packet is read back. -/
theorem decode_encode (p : Packet) (level : Level) (rest : Bytes) (limit : Nat) :
    (p.Canonical level →
      ∃ bytes, p.encode level = .ok bytes ∧ bytes.length = p.encodedLength level ∧
        decode [bytes ++ rest] level limit =
          if p.encodedLength level ≤ limit then .ok (some (p, p.encodedLength level))
          else .error (.packetTooLarge (p.encodedLength level) limit)) ∧
    ∀ bytes n, p.encode level = .ok bytes →
      decode [bytes ++ rest] level limit = .ok (some (p, n)) → p.Canonical level := by
  simp only [decode_eq_decodeFrom, List.flatten_singleton]
  constructor
  · intro h
    obtain ⟨bytes, hbytes⟩ := h.exists_encoded
    exact ⟨bytes, hbytes, length_of_encode hbytes, decodeFrom_of_encode h.body hbytes rest limit⟩
  · intro bytes n hbytes hdecode
    obtain ⟨content, hcontent, hlimit, -⟩ := encode_eq_ok.1 hbytes
    rw [Field.length_writeAll hcontent, ← p.remainingLength_eq] at hlimit
    exact ⟨(spelling_of_decodeFrom hdecode).1, hlimit⟩

/-- A SUBSCRIBE to `a/#`, with the start of a PINGREQ behind it. -/
theorem decode_encode_subscribe :
    decode [[0x82, 0x08, 0x00, 0x09, 0x00, 0x03, 0x61, 0x2F, 0x23, 0x01] ++ [0xC0]] .v311 10 =
      .ok (some (subscribe
        { packetId := 9, filters := [([0x61, 0x2F, 0x23], { qos := .atLeastOnce })] }, 10)) := by
  let p := subscribe { packetId := 9, filters := [([0x61, 0x2F, 0x23], { qos := .atLeastOnce })] }
  obtain ⟨hback, -⟩ := decode_encode p .v311 [0xC0] 10
  obtain ⟨bytes, hbytes, -, hdecode⟩ := hback (by decide)
  cases hbytes
  exact hdecode

/-- What was read is written again at least one byte shorter for each of its `k` redundancies.
Without any it comes back byte for byte. -/
theorem encode_decode (b : Bytes) (level : Level) (limit : Nat) (p : Packet) (n : Nat)
    (h : decode [b] level limit = .ok (some (p, n))) :
    ∃ bytes k, p.encode level = .ok bytes ∧ bytes.length = p.encodedLength level ∧
      p.encodedLength level + k ≤ n ∧
      decode [bytes] level limit = .ok (some (p, p.encodedLength level)) ∧
      (bytes = b.take n ↔ p.encodedLength level = n) ∧
      p.Spelling level k (b.take n) ∧ (bytes = b.take n ↔ k = 0) := by
  simp only [decode_eq_decodeFrom, List.flatten_singleton] at h ⊢
  obtain ⟨hcanonical, k, hspelling⟩ := spelling_of_decodeFrom h
  obtain ⟨bytes, hbytes, hle, heq⟩ := hspelling.exists_encoded (lacksId_eq_false hcanonical)
  have htake : (b.take n).length = n := List.length_take_of_le (le_length_of_decodeFrom h)
  have hlength := length_of_encode hbytes
  rw [htake, hlength] at hle
  have hlimit := le_limit_of_decodeFrom h
  have hback := decodeFrom_of_encode hcanonical hbytes [] limit
  rw [List.append_nil, if_pos (by omega)] at hback
  refine ⟨bytes, k, hbytes, hlength, hle, hback, ?_, hspelling, ?_, heq⟩
  · constructor
    · rintro rfl
      rw [← hlength, htake]
    · exact fun hn => heq (by omega)
  · rintro rfl
    omega

/-- A PUBACK with an over-long length and an explicit zero reason code. -/
theorem encode_decode_pubAck :
    ∃ k, 0 < k ∧ (pubAck { packetId := 7 }).encode .v5 = .ok [0x40, 0x02, 0x00, 0x07] ∧
      4 + k ≤ 6 ∧
      (pubAck { packetId := 7 }).Spelling .v5 k [0x40, 0x83, 0x00, 0x00, 0x07, 0x00] := by
  obtain ⟨bytes, k, hbytes, -, hle, -, -, hspelling, hiff⟩ :=
    encode_decode [0x40, 0x83, 0x00, 0x00, 0x07, 0x00] .v5 6 (pubAck { packetId := 7 }) 6 (by rfl)
  cases hbytes
  exact ⟨k, Nat.pos_of_ne_zero (mt hiff.2 (by decide)), rfl, hle, hspelling⟩

end Packet

end MqttBroker
