import MqttBroker.Proofs.Packet.Segmentation
import MqttBroker.Proofs.Packet.Written
/-!
A number in base 128 has one writer and two readers, one for the remaining length of a packet and
one for the fields of its body. Whatever bytes there are, in one piece or in several, the two readers
find the same in them; and what the writer writes they read back.
-/

namespace MqttBroker

theorem Cursor.truncated_of_byte (c : Cursor) (e : DecodeError) (h : Source.byte c = .error e) :
    e = .truncated := by
  have hbyte := c.byte_content
  change (Source.byte c).map _ = _ at hbyte
  rw [h] at hbyte
  exact Source.truncated_of_byte c.content e hbyte.symm

namespace Varint

variable {σ : Type} {content : σ → Bytes}

/-- What both readers find in the bytes `b`: the same number and the same place behind it, or that
the digits have not ended after four of them, or that the bytes have ended before the digits. -/
inductive Findings (content : σ → Bytes) (b : Bytes) :
    Except DecodeError (Nat × σ) → Except DecodeError (Option (Nat × Nat × σ)) → Prop where
  | number {n : Nat} {w : Bytes} {left : σ} (hb : b = w ++ content left) (hw : Digits n w)
    (hlength : w.length ≤ 4) (hn : n ≤ limit) :
    Findings content b (.ok (n, left)) (.ok (some (n, 1 + w.length, left)))
  | endless (hlength : 4 ≤ b.length) (hmore : ∀ x ∈ b.take 4, 128 ≤ x) :
    Findings content b (.error .malformedRemainingLength) (.error .malformedRemainingLength)
  | short (hlength : b.length < 4) (hmore : ∀ x ∈ b, 128 ≤ x) :
    Findings content b (.error .truncated) (.ok none)

variable [Source σ]

/-- The two readers on sources with the bytes that `content` tells. A remaining length stands behind
the type byte of its packet, which counts as one of the bytes it has taken. -/
structure ReadAlike (content : σ → Bytes) : Prop where
  back : ∀ n ≤ limit, ∀ s x, content s = encode n ++ x →
    ∃ left, content left = x ∧ FieldReader.varint s = .ok (n, left) ∧
      Header.readLength 4 1 0 1 s = .ok (some (n, 1 + size n, left))
  shortest : ∀ n s left, FieldReader.varint s = .ok (n, left) →
    size n + (content left).length ≤ (content s).length
  alike : ∀ s, Findings content (content s) (FieldReader.varint s) (Header.readLength 4 1 0 1 s)

theorem Digits.size_le {n : Nat} {w : Bytes} (h : Digits n w) (hw : w.length ≤ 4) :
    size n ≤ w.length := by
  rw [← length_encode (h.le_limit hw)]
  exact (h.shortest hw).1

/-! ### Sources that give the bytes of their content -/

section

variable (hbyte : ∀ (s : σ) e, Source.byte s = .error e → e = .truncated)
  (hcontent : ∀ s : σ, (Header.readLength 4 1 0 1 s).map
      (Option.map fun found => (found.1, found.2.1, content found.2.2)) =
    Header.readLength 4 1 0 1 (content s))

include hbyte hcontent

/-- One reader is the other one told differently, so that the outcomes of one are enough. -/
theorem findings_of_content (s : σ) :
    Findings content (content s) (FieldReader.varint s) (Header.readLength 4 1 0 1 s) := by
  have hs := hcontent s
  rw [FieldReader.varint_eq hbyte 1]
  generalize Header.readLength 4 1 0 1 s = r at hs ⊢
  rcases r with e | _ | ⟨n, size, left⟩
  · obtain ⟨rfl, hlength, hmore⟩ := Header.readLength_eq_error_iff.1 hs.symm
    exact .endless hlength hmore
  · obtain ⟨hlength, hmore⟩ := Header.readLength_eq_none_iff.1 hs.symm
    exact .short hlength hmore
  · obtain ⟨m, w, hb, hm, hw, hn, rfl⟩ := Header.readLength_eq_some_iff.1 hs.symm
    obtain rfl : n = m := by simpa using hn
    exact .number hb hm hw (hm.le_limit hw)

theorem reads_encode_of_content {n : Nat} (hn : n ≤ limit) {s : σ} {x : Bytes}
    (hx : content s = encode n ++ x) :
    ∃ left, content left = x ∧ FieldReader.varint s = .ok (n, left) ∧
      Header.readLength 4 1 0 1 s = .ok (some (n, 1 + size n, left)) := by
  have hwritten : Header.readLength 4 1 0 1 (encode n ++ x) = .ok (some (n, 1 + size n, x)) :=
    Header.readLength_eq_some_iff.2 ⟨n, encode n, rfl, digits_encode hn, length_encode_le hn,
      by omega, by rw [length_encode hn]⟩
  have hs := hcontent s
  rw [hx, hwritten] at hs
  rw [FieldReader.varint_eq hbyte 1]
  generalize Header.readLength 4 1 0 1 s = r at hs ⊢
  rcases r with e | _ | ⟨m, k, left⟩
  · cases hs
  · cases hs
  · obtain ⟨rfl, rfl, hleft⟩ : m = n ∧ k = 1 + size n ∧ content left = x := by
      simpa [Except.map] using hs
    exact ⟨left, hleft, rfl, rfl⟩

theorem size_le_of_content {n : Nat} {s left : σ} (h : FieldReader.varint s = .ok (n, left)) :
    size n + (content left).length ≤ (content s).length := by
  have hfindings := findings_of_content hbyte hcontent s
  rw [h] at hfindings
  generalize Header.readLength 4 1 0 1 s = r at hfindings
  cases hfindings with
  | number hb hw hlength =>
    rw [hb, List.length_append]
    exact Nat.add_le_add_right (hw.size_le hlength) _

theorem readAlike_of_content : ReadAlike content where
  back _ hn _ _ := reads_encode_of_content hbyte hcontent hn
  shortest _ _ _ := size_le_of_content hbyte hcontent
  alike := findings_of_content hbyte hcontent

end

/-- A number up to the limit is written in as many bytes as its size says, and none of its forms is
shorter. Both readers read it back, whatever follows it; and on any bytes they find the same number
in at most four of them, or both that there is none. -/
theorem encode_read_alike :
    (∀ n ≤ limit, (Field.varint n).write = .ok (encode n) ∧ (encode n).length = size n) ∧
      ReadAlike Cursor.content ∧ ReadAlike (id : Bytes → Bytes) := by
  refine ⟨fun n hn => ⟨Field.write_varint_eq_ok.2 ⟨hn, rfl⟩, length_encode hn⟩, ?_, ?_⟩
  · exact readAlike_of_content Cursor.truncated_of_byte (Header.readLength_content 4 1 0 1)
  · refine readAlike_of_content Source.truncated_of_byte fun b => ?_
    change _ = Header.readLength 4 1 0 1 b
    rcases Header.readLength 4 1 0 1 b with e | _ | found <;> rfl

/-- The first number of three digits, over three segments, with a byte behind it. -/
theorem encode_read_alike_cut :
    16384 ≤ limit ∧ encode 16384 = [128, 128, 1] ∧
      ∃ left : Cursor, left.content = [7] ∧
        FieldReader.varint (Cursor.start [[128], [], [128, 1, 7]]) = .ok (16384, left) ∧
        Header.readLength 4 1 0 1 (Cursor.start [[128], [], [128, 1, 7]]) =
          .ok (some (16384, 4, left)) :=
  ⟨by decide, by decide, encode_read_alike.2.1.back 16384 (by decide) _ [7] (by decide)⟩

end Varint

end MqttBroker
