import Mathlib.Algebra.Group.Nat.Defs
import MqttBroker.Packet.Decode
/-!
Numbers in base 128. A number has many written forms, since high digits may be zero; the encoder
writes the shortest. One reader adds up the digits by their weights, the other one puts their bits
together, and they find the same.
-/

namespace MqttBroker

namespace Varint

/-- `w` is a form of `n`: digits in base 128, the least significant first, each but the last with
the continuation bit. -/
inductive Digits : Nat → Bytes → Prop
  | last {b : UInt8} (hb : b < 128) : Digits b.toNat [b]
  | more {b : UInt8} {n : Nat} {w : Bytes} (hb : ¬b < 128) (hw : Digits n w) :
    Digits (b.toNat % 128 + 128 * n) (b :: w)

theorem Digits.ne_nil {n : Nat} {w : Bytes} (h : Digits n w) : w ≠ [] := by
  cases h <;> simp

theorem Digits.lt_pow {n : Nat} {w : Bytes} (h : Digits n w) : n < 128 ^ w.length := by
  induction h with
  | last hb => simpa [UInt8.lt_iff_toNat_lt] using hb
  | more hb hw ih =>
    rw [List.length_cons, Nat.pow_succ]
    omega

theorem Digits.le_limit {n : Nat} {w : Bytes} (h : Digits n w) (hw : w.length ≤ 4) :
    n ≤ limit := by
  have := h.lt_pow
  have := Nat.pow_le_pow_right (n := 128) (by decide) hw
  have : 128 ^ 4 = limit + 1 := rfl
  omega

theorem digits_digits {rounds n : Nat} (hn : n < 128 ^ rounds) (hrounds : rounds ≠ 0) :
    Digits n (digits rounds n) := by
  induction rounds generalizing n with
  | zero => contradiction
  | succ rounds ih =>
    rw [digits]
    split
    · next hlt =>
      have : (UInt8.ofNat n).toNat = n := by rw [UInt8.toNat_ofNat']; omega
      have h := Digits.last (b := UInt8.ofNat n) (by rw [UInt8.lt_iff_toNat_lt, this]; exact hlt)
      rwa [this] at h
    · next hge =>
      -- The digit keeps the low seven bits; the quotient has one digit less.
      have hb : (UInt8.ofNat (n % 128 + 128)).toNat = n % 128 + 128 := by
        rw [UInt8.toNat_ofNat']; omega
      have hdiv : n / 128 < 128 ^ rounds := by
        rw [Nat.pow_succ] at hn
        omega
      have hrounds : rounds ≠ 0 := by
        rintro rfl
        simp at hdiv
        omega
      have h := Digits.more (b := UInt8.ofNat (n % 128 + 128))
        (by rw [UInt8.lt_iff_toNat_lt, hb]; simp) (ih hdiv hrounds)
      have hn : (n % 128 + 128) % 128 + 128 * (n / 128) = n := by omega
      rwa [hb, hn] at h

/-- No form is shorter than the written one, and none else is as short. -/
theorem Digits.shortest {rounds n : Nat} {w : Bytes} (h : Digits n w) (hw : w.length ≤ rounds) :
    (digits rounds n).length ≤ w.length ∧
      ((digits rounds n).length = w.length → digits rounds n = w) := by
  induction h generalizing rounds with
  | @last b hb =>
    obtain ⟨rounds, rfl⟩ := Nat.exists_eq_succ_of_ne_zero (n := rounds) (by simp at hw; omega)
    have : b.toNat < 128 := by simpa [UInt8.lt_iff_toNat_lt] using hb
    simp [digits, this]
  | @more b n w hb hw' ih =>
    obtain ⟨rounds, rfl⟩ := Nat.exists_eq_succ_of_ne_zero (n := rounds) (by simp at hw; omega)
    have hb : 128 ≤ b.toNat := by simpa [UInt8.lt_iff_toNat_lt] using hb
    have hlt := b.toNat_lt
    rw [digits]
    split
    · -- High digits are all zero: one written digit against two or more.
      have := List.length_pos_iff.2 hw'.ne_nil
      simp only [List.length_cons, List.length_nil]
      omega
    · have hdiv : (b.toNat % 128 + 128 * n) / 128 = n := by omega
      have hmod : (b.toNat % 128 + 128 * n) % 128 + 128 = b.toNat := by omega
      have hw : w.length ≤ rounds := by simpa using hw
      obtain ⟨hle, heq⟩ := ih hw
      rw [hdiv, hmod, UInt8.ofNat_toNat, List.length_cons, List.length_cons]
      exact ⟨by omega, fun h => by rw [heq (by omega)]⟩

theorem digits_encode {n : Nat} (hn : n ≤ limit) : Digits n (encode n) :=
  digits_digits (by have : 128 ^ 4 = limit + 1 := rfl; omega) (by decide)

theorem length_encode {n : Nat} (hn : n ≤ limit) : (encode n).length = size n := by
  unfold limit at hn
  simp only [encode, digits, size]
  repeat' split
  all_goals simp only [List.length_cons, List.length_nil] <;> omega

theorem size_pos (n : Nat) : 0 < size n := by
  unfold size
  repeat' split
  all_goals omega

theorem size_le_four (n : Nat) : size n ≤ 4 := by
  unfold size
  repeat' split
  all_goals omega

theorem length_encode_le {n : Nat} (hn : n ≤ limit) : (encode n).length ≤ 4 := by
  rw [length_encode hn]
  exact size_le_four n

theorem size_mono {m n : Nat} (h : m ≤ n) : size m ≤ size n := by
  unfold size
  repeat' split
  all_goals omega

end Varint

/-! ### The remaining length -/

namespace Header

variable {b left : Bytes} {rounds place value used n size : Nat}

/-- A digit taken off the front makes the ones behind it count 128 times as much. -/
theorem add_digit (value digit place m : Nat) :
    value + digit * place + place * 128 * m = value + place * (digit + 128 * m) := by
  rw [Nat.mul_add, Nat.mul_comm place digit, ← Nat.mul_assoc, Nat.add_assoc]

theorem readLength_eq_some_iff :
    readLength rounds place value used b = .ok (some (n, size, left)) ↔
      ∃ m w, b = w ++ left ∧ Varint.Digits m w ∧ w.length ≤ rounds ∧ n = value + place * m ∧
        size = used + w.length := by
  -- The accumulator starts anywhere, so both inductions are on what is still to come.
  constructor
  · intro h
    induction rounds generalizing place value used b with
    | zero => cases h
    | succ rounds ih =>
      cases b with
      | nil => cases h
      | cons x rest =>
        simp only [readLength, Source.byte_cons] at h
        split at h
        · next hlt =>
          cases h
          have hx : x.toNat % 128 = x.toNat := Nat.mod_eq_of_lt (UInt8.lt_iff_toNat_lt.1 hlt)
          exact ⟨x.toNat, [x], rfl, .last hlt, by simp, by rw [hx, Nat.mul_comm], rfl⟩
        · next hge =>
          obtain ⟨m, w, rfl, hm, hw, rfl, rfl⟩ := ih h
          refine ⟨_, x :: w, rfl, .more hge hm, by simpa using hw, add_digit .., ?_⟩
          rw [List.length_cons]
          omega
  · rintro ⟨m, w, rfl, hm, hw, rfl, rfl⟩
    induction hm generalizing rounds place value used with
    | @last x hlt =>
      obtain ⟨rounds, rfl⟩ := Nat.exists_eq_succ_of_ne_zero (n := rounds) (by simp at hw; omega)
      have hx : x.toNat % 128 = x.toNat := Nat.mod_eq_of_lt (UInt8.lt_iff_toNat_lt.1 hlt)
      simp [readLength, hlt, hx, Nat.mul_comm]
    | @more x m w hge hm ih =>
      obtain ⟨rounds, rfl⟩ := Nat.exists_eq_succ_of_ne_zero (n := rounds) (by simp at hw; omega)
      simp only [readLength, List.cons_append, Source.byte_cons, if_neg hge]
      rw [ih (by simpa using hw)]
      have hused : used + 1 + w.length = used + (x :: w).length := by
        rw [List.length_cons]
        omega
      rw [add_digit, hused]

/-- The digits go on for as long as there are bytes. -/
theorem readLength_eq_none_iff :
    readLength rounds place value used b = .ok none ↔
      b.length < rounds ∧ ∀ x ∈ b, 128 ≤ x := by
  induction rounds generalizing place value used b with
  | zero => simp [readLength]
  | succ rounds ih =>
    cases b with
    | nil => simp [readLength]
    | cons x rest =>
      simp only [readLength, Source.byte_cons, List.length_cons, Nat.add_lt_add_iff_right,
        List.forall_mem_cons]
      split
      · next hlt => simp [UInt8.not_le.2 hlt]
      · next hge => rw [ih, and_iff_right (UInt8.not_lt.1 hge)]

/-- The digits go on for as long as the reader looks. -/
theorem readLength_eq_error_iff {e : DecodeError} :
    readLength rounds place value used b = .error e ↔
      e = .malformedRemainingLength ∧ rounds ≤ b.length ∧ ∀ x ∈ b.take rounds, 128 ≤ x := by
  induction rounds generalizing place value used b with
  | zero => simp [readLength, eq_comm]
  | succ rounds ih =>
    cases b with
    | nil => simp [readLength]
    | cons x rest =>
      simp only [readLength, Source.byte_cons, List.length_cons, Nat.add_le_add_iff_right,
        List.take_succ_cons, List.forall_mem_cons]
      split
      · next hlt => simp [UInt8.not_le.2 hlt]
      · next hge => rw [ih, and_iff_right (UInt8.not_lt.1 hge)]

end Header

/-! ### The number as a field -/

theorem Source.truncated_of_byte (b : Bytes) (e : DecodeError) (h : Source.byte b = .error e) :
    e = .truncated := by
  cases b with
  | nil =>
    cases h
    rfl
  | cons => cases h

namespace FieldReader

variable {σ : Type}

/-- What the reader of a remaining length finds, as a reader of fields tells it: running out of
bytes is an error, and how many were taken is not told. -/
def ofLength : Except DecodeError (Option (Nat × Nat × σ)) → Except DecodeError (Nat × σ)
  | .ok (some (n, _, left)) => .ok (n, left)
  | .ok none => .error .truncated
  | .error e => .error e

theorem ofLength_eq_ok {r : Except DecodeError (Option (Nat × Nat × σ))} {n : Nat} {left : σ} :
    ofLength r = .ok (n, left) ↔ ∃ size, r = .ok (some (n, size, left)) := by
  rcases r with e | _ | ⟨m, size, left'⟩
  · exact ⟨nofun, nofun⟩
  · exact ⟨nofun, nofun⟩
  · simp [ofLength]

variable [Source σ]

theorem and_0x80_eq_zero_iff (b : UInt8) : b &&& 0x80 = 0 ↔ b < 128 := by
  have hbits : ∀ x : BitVec 8, x &&& 0x80 = 0 ↔ x < 128 := by decide
  rw [← UInt8.toBitVec_inj, UInt8.lt_iff_toBitVec_lt]
  exact hbits b.toBitVec

/-- Bits above those of `value` add up with it. -/
theorem toNat_or_digit {shift value : UInt32} (b : UInt8) (hshift : shift.toNat ≤ 21)
    (hvalue : value.toNat < 2 ^ shift.toNat) :
    (value ||| (b &&& 0x7F).toUInt32 <<< shift).toNat =
      value.toNat + b.toNat % 128 * 2 ^ shift.toNat := by
  have hdigit : (b &&& 0x7F).toUInt32.toNat = b.toNat % 128 := by
    rw [UInt8.toNat_toUInt32, UInt8.toNat_and]
    exact Nat.and_two_pow_sub_one_eq_mod b.toNat 7
  -- Seven bits go up by 21 at most, so that none is shifted out.
  have hfits : b.toNat % 128 * 2 ^ shift.toNat < 2 ^ 32 := by
    have hplace : 2 ^ shift.toNat ≤ 2 ^ 21 := Nat.pow_le_pow_right (by decide) hshift
    calc b.toNat % 128 * 2 ^ shift.toNat ≤ 127 * 2 ^ 21 := Nat.mul_le_mul (by omega) hplace
      _ < 2 ^ 32 := by decide
  have hmod : shift.toNat % 32 = shift.toNat := Nat.mod_eq_of_lt (by omega)
  rw [UInt32.toNat_or, UInt32.toNat_shiftLeft, hdigit, hmod, Nat.shiftLeft_eq,
    Nat.mod_eq_of_lt hfits, Nat.or_comm, Nat.mul_comm, ← Nat.two_pow_add_eq_or_of_lt hvalue,
    Nat.add_comm]

theorem varintFrom_succ (rounds : Nat) (shift value : UInt32) (s : σ) :
    varintFrom (rounds + 1) shift value s = match Source.byte s with
      | .error e => .error e
      | .ok (b, left) =>
        let value := value ||| (b &&& 0x7F).toUInt32 <<< shift
        if b < 128 then .ok (value.toNat, left) else varintFrom rounds (shift + 7) value left := by
  simp only [← and_0x80_eq_zero_iff]
  show (Source.byte s >>= fun p => _) = _
  rcases Source.byte s with e | ⟨b, left⟩
  · rfl
  · show (if b &&& 0x80 = 0 then _ else _ : FieldReader σ Nat) left = _
    dsimp only
    split <;> rfl

/-- Digits put together by their bits make the number that they make by their weights. -/
theorem varintFrom_eq (hbyte : ∀ (s : σ) e, Source.byte s = .error e → e = .truncated)
    {rounds : Nat} {shift value : UInt32} (hshift : shift.toNat + 7 * rounds ≤ 28)
    (hvalue : value.toNat < 2 ^ shift.toNat) (used : Nat) (s : σ) :
    varintFrom rounds shift value s =
      ofLength (Header.readLength rounds (2 ^ shift.toNat) value.toNat used s) := by
  induction rounds generalizing shift value used s with
  | zero => rfl
  | succ rounds ih =>
    rw [varintFrom_succ, Header.readLength]
    rcases hs : Source.byte s with e | ⟨b, left⟩
    · rw [hbyte s e hs]
      rfl
    · have hdigit := toNat_or_digit b (by omega) hvalue
      dsimp only
      rw [← hdigit]
      split
      · rfl
      · have hnext : (shift + 7).toNat = shift.toNat + 7 := by
          rw [UInt32.toNat_add]
          exact Nat.mod_eq_of_lt (by simp; omega)
        have hplace : 2 ^ shift.toNat * 128 = 2 ^ (shift + 7).toNat := by
          rw [hnext, Nat.pow_add]
        rw [hplace]
        refine ih (by omega) ?_ (used + 1) left
        rw [hdigit, hnext, Nat.pow_add]
        have : b.toNat % 128 * 2 ^ shift.toNat ≤ 127 * 2 ^ shift.toNat :=
          Nat.mul_le_mul_right _ (by omega)
        omega

theorem varint_eq (hbyte : ∀ (s : σ) e, Source.byte s = .error e → e = .truncated) (used : Nat)
    (s : σ) : varint s = ofLength (Header.readLength 4 1 0 used s) :=
  varintFrom_eq hbyte (by decide) (by decide) used s

end FieldReader

end MqttBroker
