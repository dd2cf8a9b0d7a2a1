import Mathlib.Data.String.Basic
import MqttBroker.Broker.Basic
import MqttBroker.Proofs.Packet.RoundTrip
import MqttBroker.Proofs.Packet.Varint
/-! An accepted CONNECT can always be answered: no client id the broker makes up is too long. -/

namespace MqttBroker

theorem Bytes.length_ofText (text : String) : (ofText text).length = text.utf8ByteSize := rfl

theorem utf8Len_le (chars : List Char) : String.utf8Len chars ≤ 4 * chars.length := by
  induction chars with
  | nil => exact Nat.le_refl _
  | cons c chars ih =>
    rw [String.utf8Len_cons, List.length_cons]
    have hsize := Char.utf8Size_le_four c
    omega

theorem utf8ByteSize_paddedDigits_le {base width n : Nat} (hbase : 1 < base) (hwidth : 0 < width)
    (hn : n < base ^ width) : (paddedDigits base width n).utf8ByteSize ≤ 4 * width := by
  have hdigits := (Nat.length_toDigits_le_iff hbase hwidth).2 hn
  rw [paddedDigits, String.utf8ByteSize_ofList]
  refine (utf8Len_le _).trans ?_
  rw [List.length_append, List.length_replicate]
  omega

namespace AssignedId

theorem fits_ofUuid (uuid : BitVec 128) : (Bytes.ofText (ofUuid uuid)).Fits := by
  have hdigits : (paddedDigits 16 32 uuid.toNat).utf8ByteSize ≤ 4 * 32 :=
    utf8ByteSize_paddedDigits_le (by decide) (by decide) uuid.isLt
  rw [Bytes.Fits, Bytes.length_ofText, ofUuid, String.utf8ByteSize_append]
  exact (Nat.add_le_add_left hdigits _).trans (by decide)

end AssignedId

/-! ### The room that properties take -/

theorem Shape.totalSize_fields_le {shape : Shape} {v : shape.Value} (h : shape.Fits v) :
    Field.totalSize (shape.fields v) ≤ 131074 := by
  cases shape with
  | byte | word | long => exact Nat.le_of_ble_eq_true rfl
  | varint => exact (Varint.size_le_four v).trans (by decide)
  | text | binary =>
    have hlength : Field.totalSize (Shape.fields _ v) ≤ 2 + 65535 := Nat.add_le_add_left h 2
    exact hlength.trans (by decide)
  | textPair =>
    have hlength : Field.totalSize (Shape.fields _ v) ≤ 2 + 65535 + (2 + 65535) :=
      Nat.add_le_add (Nat.add_le_add_left h.1 2) (Nat.add_le_add_left h.2 2)
    exact hlength

theorem Properties.totalSize_body_le {ps : Properties} (h : ∀ p ∈ ps, p.Fits) :
    Field.totalSize (body ps) ≤ 131078 * ps.length := by
  induction ps with
  | nil => exact Nat.le_refl _
  | cons p ps ih =>
    have hrest := ih fun q hq => h q (List.mem_cons_of_mem _ hq)
    have hvalue := Shape.totalSize_fields_le (h p (List.mem_cons_self ..))
    have hid := Varint.size_le_four p.name.id
    have hsplit : Field.totalSize (body (p :: ps)) = Varint.size p.name.id +
        Field.totalSize (p.name.shape.fields p.value) + Field.totalSize (body ps) := by
      rw [body, List.flatMap_cons, Field.totalSize_append]
      rfl
    rw [hsplit, List.length_cons]
    omega

/-- A client id that was left to the broker is one the broker makes. -/
def Accepted.IsNamed (a : Accepted) : Prop :=
  a.assigned = true → ∃ uuid, a.clientId = AssignedId.ofUuid uuid

namespace Admission

variable {limits : Limits} {credentials : Option Authenticator} {made : String} {c : Connect}
  {a : Accepted}

theorem clientId_of_assigned {level : Level} {clientId : String}
    (h : Admission.clientId level made c = .ok (clientId, true)) : clientId = made := by
  unfold Admission.clientId at h
  split at h
  · cases h
  · split at h
    · split at h
      · cases h
        rfl
      · split at h
        · cases h
          rfl
        · cases h
      · cases h
    · split at h
      · split at h <;> cases h
      · cases h

theorem isNamed_of_check {uuid : BitVec 128}
    (h : check limits credentials (AssignedId.ofUuid uuid) c = .ok a) : a.IsNamed := by
  intro hassigned
  unfold check at h
  obtain ⟨level, -, h⟩ := Except.bind_eq_ok.1 h
  obtain ⟨⟨clientId, assigned⟩, hid, h⟩ := Except.bind_eq_ok.1 h
  have ha : a = { level, clientId, assigned } := by
    dsimp only at h
    split at h
    · split at h <;> cases h
      rfl
    · cases h
      rfl
  subst ha
  cases hassigned
  exact ⟨uuid, clientId_of_assigned hid⟩

/-- The CONNACK for an accepted CONNECT has a place for all it says. -/
theorem canonical_connAck (h : a.IsNamed) (limits : Limits) (present : Bool) :
    (Packet.connAck (connAck limits a present)).Canonical a.level := by
  have hname : a.assigned = true → (Bytes.ofText a.clientId).length ≤ 65535 := by
    intro hassigned
    obtain ⟨uuid, huuid⟩ := h hassigned
    exact huuid ▸ AssignedId.fits_ofUuid uuid
  have hfits : ∀ p ∈ (connAck limits a present).properties, p.Fits := by
    intro p hp
    rw [connAck] at hp
    dsimp only at hp
    split at hp
    · rcases List.mem_append.1 hp with hassigned | hbroker
      · split at hassigned
        · next htrue =>
          cases List.mem_singleton.1 hassigned
          exact hname htrue
        · cases hassigned
      · simp only [List.mem_cons, List.not_mem_nil, or_false] at hbroker
        rcases hbroker with rfl | rfl | rfl | rfl <;> exact trivial
    · cases hp
  have hlength : (connAck limits a present).properties.length ≤ 5 := by
    rw [connAck]
    dsimp only
    split
    · split <;> exact Nat.le_of_ble_eq_true rfl
    · exact Nat.zero_le _
  have hbody := Properties.totalSize_body_le hfits
  refine ⟨⟨hfits, ?_⟩, ?_⟩
  · intro hv5
    rw [connAck, hv5]
    rfl
  · have hsize := Varint.size_le_four (Field.totalSize (connAck limits a present).properties.body)
    have hlist : Properties.sizeAt a.level.isV5 (connAck limits a present).properties ≤
        4 + 131078 * 5 := by
      unfold Properties.sizeAt
      split
      · rw [Properties.size, Properties.bodySize_eq]
        refine (Nat.add_le_add hsize hbody).trans ?_
        omega
      · exact Nat.zero_le _
    have hlimit : 2 + (4 + 131078 * 5) ≤ Varint.limit := by decide
    exact (Nat.add_le_add_left hlist 2).trans hlimit

end Admission

end MqttBroker
