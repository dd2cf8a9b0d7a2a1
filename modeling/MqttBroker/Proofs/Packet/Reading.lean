import MqttBroker.Proofs.Packet.Varint
/-! What the readers of single fields find in plain bytes, and exactly when. -/

theorem Except.bind_eq_ok {ε α β : Type} {x : Except ε α} {f : α → Except ε β} {v : β} :
    (x >>= f) = .ok v ↔ ∃ a, x = .ok a ∧ f a = .ok v := by
  rcases x with e | a
  · exact ⟨nofun, nofun⟩
  · exact ⟨fun h => ⟨a, rfl, h⟩, fun ⟨_, ha, h⟩ => by cases ha; exact h⟩

namespace MqttBroker

namespace Field

/-- `UInt16.ofNat` takes the two bytes of a word back to it. -/
theorem ofNat_wordBytes (v : UInt16) :
    UInt16.ofNat ((UInt8.ofNat (v.toNat / 256)).toNat * 256 + (UInt8.ofNat v.toNat).toNat) = v := by
  apply UInt16.toNat_inj.1
  have := v.toNat_lt
  rw [UInt16.toNat_ofNat', UInt8.toNat_ofNat', UInt8.toNat_ofNat']
  omega

theorem wordBytes_ofNat (hi lo : UInt8) :
    wordBytes (UInt16.ofNat (hi.toNat * 256 + lo.toNat)) = [hi, lo] := by
  have hhi := hi.toNat_lt
  have hlo := lo.toNat_lt
  have h : (UInt16.ofNat (hi.toNat * 256 + lo.toNat)).toNat = hi.toNat * 256 + lo.toNat := by
    rw [UInt16.toNat_ofNat']
    omega
  rw [wordBytes, h, List.cons.injEq, List.cons.injEq]
  refine ⟨UInt8.toNat_inj.1 ?_, UInt8.toNat_inj.1 ?_, rfl⟩ <;> rw [UInt8.toNat_ofNat'] <;> omega

theorem longBytes_eq (v : UInt32) :
    longBytes v =
      wordBytes (UInt16.ofNat (v.toNat / 65536)) ++ wordBytes (UInt16.ofNat v.toNat) := by
  have := v.toNat_lt
  simp only [longBytes, wordBytes, UInt16.toNat_ofNat', List.cons_append, List.nil_append,
    List.cons.injEq, and_true]
  refine ⟨?_, ?_, ?_, ?_⟩ <;> apply UInt8.toNat_inj.1 <;> simp only [UInt8.toNat_ofNat'] <;> omega

theorem ofNat_longBytes (v : UInt32) :
    UInt32.ofNat ((UInt16.ofNat (v.toNat / 65536)).toNat * 65536 + (UInt16.ofNat v.toNat).toNat)
      = v := by
  apply UInt32.toNat_inj.1
  have := v.toNat_lt
  rw [UInt32.toNat_ofNat', UInt16.toNat_ofNat', UInt16.toNat_ofNat']
  omega

theorem longBytes_ofNat (hi lo : UInt16) :
    longBytes (UInt32.ofNat (hi.toNat * 65536 + lo.toNat)) = wordBytes hi ++ wordBytes lo := by
  have hhi := hi.toNat_lt
  have hlo := lo.toNat_lt
  have h : (UInt32.ofNat (hi.toNat * 65536 + lo.toNat)).toNat = hi.toNat * 65536 + lo.toNat := by
    rw [UInt32.toNat_ofNat']
    omega
  rw [longBytes_eq, h]
  congr 2 <;> apply UInt16.toNat_inj.1 <;> rw [UInt16.toNat_ofNat'] <;> omega

end Field

namespace FieldReader

variable {α β : Type} {b left : Bytes}

theorem bind_eq_ok {r : FieldReader Bytes α} {f : α → FieldReader Bytes β} {v : β} :
    (r >>= f) b = .ok (v, left) ↔ ∃ a mid, r b = .ok (a, mid) ∧ f a mid = .ok (v, left) :=
  Except.bind_eq_ok.trans Prod.exists

theorem map_eq_ok {r : FieldReader Bytes α} {f : α → β} {v : β} :
    (f <$> r) b = .ok (v, left) ↔ ∃ a, r b = .ok (a, left) ∧ f a = v := by
  rw [map_eq_pure_bind, bind_eq_ok]
  constructor
  · rintro ⟨a, mid, h, hpure⟩
    cases hpure
    exact ⟨a, h, rfl⟩
  · rintro ⟨a, h, rfl⟩
    exact ⟨a, left, h, rfl⟩

theorem pure_eq_ok {a v : α} :
    (pure a : FieldReader Bytes α) b = .ok (v, left) ↔ a = v ∧ b = left := by
  change Except.ok (a, b) = Except.ok (v, left) ↔ _
  rw [Except.ok.injEq, Prod.mk.injEq]

theorem refuseIf_eq_ok {bad : Bool} {e : DecodeError} {u : Unit} :
    refuseIf bad e b = .ok (u, left) ↔ bad = false ∧ b = left := by
  cases bad with
  | false => simp [refuseIf, pure_eq_ok]
  | true => exact ⟨nofun, fun h => nomatch h.1⟩

theorem byte_eq_ok {v : UInt8} : byte b = .ok (v, left) ↔ b = v :: left := by
  cases b with
  | nil => exact ⟨nofun, nofun⟩
  | cons x rest =>
    change Except.ok (x, rest) = Except.ok (v, left) ↔ _
    simp

theorem take_eq_ok {n : Nat} {v : Bytes} :
    take n b = .ok (v, left) ↔ b = v ++ left ∧ v.length = n := by
  constructor
  · intro h
    rcases Nat.lt_or_ge b.length n with hlt | hle
    · rw [take, Source.take_of_lt hlt] at h
      cases h
    · rw [take, Source.take_of_le hle] at h
      cases h
      exact ⟨(List.take_append_drop n b).symm, List.length_take_of_le hle⟩
  · rintro ⟨rfl, rfl⟩
    rw [take, Source.take_of_le (by simp), List.take_left, List.drop_left]

theorem rest_eq_ok {v : Bytes} : rest b = .ok (v, left) ↔ v = b ∧ left = [] := by
  change take b.length b = _ ↔ _
  rw [take_eq_ok]
  constructor
  · rintro ⟨rfl, hlen⟩
    have : left = [] := List.length_eq_zero_iff.1 (by simpa using hlen)
    simp [this]
  · rintro ⟨rfl, rfl⟩
    simp

theorem unlessAtEnd_eq_ok {r : FieldReader Bytes α} {a v : α} :
    unlessAtEnd a r b = .ok (v, left) ↔
      (b = [] ∧ a = v ∧ b = left) ∨ (b ≠ [] ∧ r b = .ok (v, left)) := by
  change (if b.length = 0 then pure a else r) b = _ ↔ _
  split
  · next hnil => simp [List.length_eq_zero_iff.1 hnil, pure_eq_ok]
  · next hsome => simp [mt List.length_eq_zero_iff.2 hsome]

theorem word_eq_ok {v : UInt16} : word b = .ok (v, left) ↔ b = Field.wordBytes v ++ left := by
  simp only [word, bind_eq_ok, byte_eq_ok, pure_eq_ok]
  constructor
  · rintro ⟨hi, _, rfl, lo, _, rfl, rfl, rfl⟩
    rw [Field.wordBytes_ofNat]
    rfl
  · rintro rfl
    exact ⟨_, _, rfl, _, _, rfl, Field.ofNat_wordBytes v, rfl⟩

theorem long_eq_ok {v : UInt32} : long b = .ok (v, left) ↔ b = Field.longBytes v ++ left := by
  simp only [long, bind_eq_ok, word_eq_ok, pure_eq_ok]
  constructor
  · rintro ⟨hi, _, rfl, lo, _, rfl, rfl, rfl⟩
    rw [Field.longBytes_ofNat, List.append_assoc]
  · rintro rfl
    rw [Field.longBytes_eq, List.append_assoc]
    exact ⟨_, _, rfl, _, _, rfl, Field.ofNat_longBytes v, rfl⟩

theorem varint_eq_ok {n : Nat} :
    varint b = .ok (n, left) ↔ ∃ w, b = w ++ left ∧ Varint.Digits n w ∧ w.length ≤ 4 := by
  rw [varint_eq Source.truncated_of_byte 0, ofLength_eq_ok]
  constructor
  · rintro ⟨size, h⟩
    obtain ⟨m, w, rfl, hm, hw, hn, -⟩ := Header.readLength_eq_some_iff.1 h
    obtain rfl : n = m := by simpa using hn
    exact ⟨w, rfl, hm, hw⟩
  · rintro ⟨w, rfl, hn, hw⟩
    exact ⟨_, Header.readLength_eq_some_iff.2 ⟨n, w, rfl, hn, hw, by omega, rfl⟩⟩

theorem binary_eq_ok {v : Bytes} :
    binary b = .ok (v, left) ↔
      v.length ≤ Field.binaryLimit ∧ b = Field.wordBytes (UInt16.ofNat v.length) ++ v ++ left := by
  simp only [binary, bind_eq_ok, word_eq_ok, take_eq_ok]
  constructor
  · rintro ⟨n, _, rfl, rfl, hn⟩
    -- A word announces no more than the limit, and no two words announce the same.
    have hlt := n.toNat_lt
    have hlen : UInt16.ofNat v.length = n := by rw [hn, UInt16.ofNat_toNat]
    rw [hlen, List.append_assoc]
    refine ⟨?_, rfl⟩
    unfold Field.binaryLimit
    omega
  · rintro ⟨hle, rfl⟩
    refine ⟨_, _, by rw [List.append_assoc], rfl, ?_⟩
    unfold Field.binaryLimit at hle
    rw [UInt16.toNat_ofNat']
    omega

theorem utf8_eq_ok {v : Bytes} :
    utf8 b = .ok (v, left) ↔ binary b = .ok (v, left) ∧ v.isText = true := by
  simp only [utf8, bind_eq_ok, refuseIf_eq_ok, pure_eq_ok]
  constructor
  · rintro ⟨raw, _, h, _, _, ⟨htext, rfl⟩, rfl, rfl⟩
    exact ⟨h, by simpa using htext⟩
  · rintro ⟨h, htext⟩
    exact ⟨v, left, h, (), left, ⟨by simp [htext], rfl⟩, rfl, rfl⟩

theorem text_eq_ok {v : String} :
    text b = .ok (v, left) ↔ binary b = .ok (Bytes.ofText v, left) := by
  simp only [text, bind_eq_ok]
  constructor
  · rintro ⟨raw, _, h, hraw⟩
    cases hs : raw.toText? with
    | none => simp only [hs] at hraw; cases hraw
    | some s =>
      simp only [hs] at hraw
      obtain ⟨rfl, rfl⟩ := pure_eq_ok.1 hraw
      rwa [Bytes.ofText_of_toText? hs]
  · intro h
    refine ⟨_, _, h, ?_⟩
    rw [Bytes.toText?_ofText]
    rfl

theorem packetId_eq_ok {v : UInt16} :
    packetId b = .ok (v, left) ↔ word b = .ok (v, left) ∧ v ≠ 0 := by
  simp only [packetId, bind_eq_ok, refuseIf_eq_ok, pure_eq_ok]
  constructor
  · rintro ⟨id, _, h, _, _, ⟨hid, rfl⟩, rfl, rfl⟩
    exact ⟨h, by simpa using hid⟩
  · rintro ⟨h, hid⟩
    exact ⟨v, left, h, (), left, ⟨by simpa using hid, rfl⟩, rfl, rfl⟩

theorem topicName_eq_ok {v : Bytes} :
    topicName b = .ok (v, left) ↔ utf8 b = .ok (v, left) ∧ v.any isWildcard = false := by
  simp only [topicName, bind_eq_ok, refuseIf_eq_ok, pure_eq_ok]
  constructor
  · rintro ⟨topic, _, h, _, _, ⟨htopic, rfl⟩, rfl, rfl⟩
    exact ⟨h, htopic⟩
  · rintro ⟨h, htopic⟩
    exact ⟨v, left, h, (), left, ⟨htopic, rfl⟩, rfl, rfl⟩

theorem qosOf_eq_ok {value : UInt8} {v : QoS} :
    qosOf value b = .ok (v, left) ↔ QoS.ofCode? value = some v ∧ b = left := by
  unfold qosOf
  cases QoS.ofCode? value with
  | none => exact ⟨nofun, nofun⟩
  | some qos => simp [pure_eq_ok]

theorem within_eq_ok {n : Nat} {r : FieldReader Bytes α} {v : α} :
    within n r b = .ok (v, left) ↔
      ∃ w spare, b = w ++ left ∧ w.length = n ∧ r w = .ok (v, spare) := by
  change (take n b >>= fun p => r (b.take n) >>= fun q => .ok (q.1, p.2)) = _ ↔ _
  simp only [Except.bind_eq_ok, Prod.exists, take_eq_ok, Except.ok.injEq, Prod.mk.injEq]
  constructor
  · rintro ⟨w, _, ⟨rfl, rfl⟩, _, spare, hr, rfl, rfl⟩
    rw [List.take_left] at hr
    exact ⟨w, spare, rfl, rfl, hr⟩
  · rintro ⟨w, spare, rfl, rfl, hr⟩
    refine ⟨w, left, ⟨rfl, rfl⟩, v, spare, ?_, rfl, rfl⟩
    rwa [List.take_left]

end FieldReader

end MqttBroker
