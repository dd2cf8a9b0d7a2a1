import MqttBroker.Proofs.Packet.Reading
/-!
The frame of a packet in plain bytes: its first byte, the digits of the remaining length, and as
many bytes of body as they announce.
-/

namespace MqttBroker

namespace Header

variable {b left : Bytes} {rounds place value used n size : Nat}

theorem readLength_append_of_error {e : DecodeError} (x : Bytes)
    (h : readLength rounds place value used b = .error e) :
    readLength rounds place value used (b ++ x) = .error e := by
  obtain ⟨he, hlength, hmore⟩ := readLength_eq_error_iff.1 h
  refine readLength_eq_error_iff.2 ⟨he, ?_, ?_⟩
  · rw [List.length_append]
    omega
  · rwa [List.take_append_of_le_length hlength]

/-- Digits that stop short of the last one ask for more. -/
theorem readLength_take {m k : Nat} {w : Bytes} (hm : Varint.Digits m w) (hw : w.length ≤ rounds)
    (hk : k < w.length) : readLength rounds place value used (w.take k) = .ok none := by
  induction hm generalizing rounds place value used k with
  | @last x hlt =>
    obtain ⟨rounds, rfl⟩ := Nat.exists_eq_succ_of_ne_zero (n := rounds) (by simp at hw; omega)
    obtain rfl : k = 0 := by simpa using hk
    rfl
  | @more x m w hge hm ih =>
    obtain ⟨rounds, rfl⟩ := Nat.exists_eq_succ_of_ne_zero (n := rounds) (by simp at hw; omega)
    cases k with
    | zero => rfl
    | succ k =>
      simp only [readLength, List.take_succ_cons, Source.byte_cons, if_neg hge]
      exact ih (by simpa using hw) (by simpa using hk)

theorem read?_cons {first : UInt8} (hfirst : 16 ≤ first) :
    read? (first :: b) = (readLength 4 1 0 1 b).map
      (Option.map fun found => (⟨first, found.1, found.2.1⟩, found.2.2)) := by
  simp only [read?, Source.byte_cons, if_neg (UInt8.not_lt.2 hfirst)]
  rcases readLength 4 1 0 1 b with e | (_ | found) <;> rfl

theorem read?_cons_of_lt {first : UInt8} (hfirst : first < 16) :
    read? (first :: b) = .error (.invalidPacketType 0) := by
  simp only [read?, Source.byte_cons, if_pos hfirst]

theorem read?_eq_some_iff {h : Header} :
    read? b = .ok (some (h, left)) ↔
      ∃ w, b = h.first :: (w ++ left) ∧ 16 ≤ h.first ∧ Varint.Digits h.remaining w ∧
        w.length ≤ 4 ∧ h.size = 1 + w.length := by
  obtain ⟨first, remaining, size⟩ := h
  constructor
  · intro hread
    cases b with
    | nil => cases hread
    | cons x rest =>
      rcases UInt8.lt_or_le x 16 with hx | hx
      · rw [read?_cons_of_lt hx] at hread
        cases hread
      · rw [read?_cons hx] at hread
        rcases hfound : readLength 4 1 0 1 rest with e | (_ | ⟨remaining, size, left⟩)
        all_goals rw [hfound] at hread; cases hread
        obtain ⟨m, w, rfl, hm, hw, hremaining, hsize⟩ := readLength_eq_some_iff.1 hfound
        obtain rfl : remaining = m := by simpa using hremaining
        exact ⟨w, rfl, hx, hm, hw, hsize⟩
  · rintro ⟨w, rfl, hfirst, hm, hw, rfl⟩
    have hvalue : remaining = 0 + 1 * remaining := by omega
    rw [read?_cons hfirst, readLength_eq_some_iff.2 ⟨remaining, w, rfl, hm, hw, hvalue, rfl⟩]
    rfl

theorem read?_append_of_error {e : DecodeError} (x : Bytes) (h : read? b = .error e) :
    read? (b ++ x) = .error e := by
  cases b with
  | nil => cases h
  | cons y rest =>
    rw [List.cons_append]
    rcases UInt8.lt_or_le y 16 with hy | hy
    · rwa [read?_cons_of_lt hy] at h ⊢
    · rw [read?_cons hy] at h ⊢
      rcases hfound : readLength 4 1 0 1 rest with e' | (_ | found) <;> rw [hfound] at h <;> cases h
      rw [readLength_append_of_error x hfound]
      rfl

theorem read?_append_of_some {h : Header} (x : Bytes) (hread : read? b = .ok (some (h, left))) :
    read? (b ++ x) = .ok (some (h, left ++ x)) := by
  obtain ⟨w, rfl, hrest⟩ := read?_eq_some_iff.1 hread
  exact read?_eq_some_iff.2 ⟨w, by simp, hrest⟩

/-- What is short of the whole header asks for more. -/
theorem read?_take {h : Header} {k : Nat} (hread : read? b = .ok (some (h, left)))
    (hk : k < h.size) : read? (b.take k) = .ok none := by
  obtain ⟨w, rfl, hfirst, hm, hw, hsize⟩ := read?_eq_some_iff.1 hread
  cases k with
  | zero => rfl
  | succ k =>
    have hk : k < w.length := by omega
    rw [List.take_succ_cons, read?_cons hfirst, List.take_append_of_le_length (Nat.le_of_lt hk),
      readLength_take hm hw hk]
    rfl

theorem read?_take_of_le {h : Header} {k : Nat} (hread : read? b = .ok (some (h, left)))
    (hk : h.size ≤ k) : read? (b.take k) = .ok (some (h, left.take (k - h.size))) := by
  obtain ⟨w, rfl, hfirst, hm, hw, hsize⟩ := read?_eq_some_iff.1 hread
  refine read?_eq_some_iff.2 ⟨w, ?_, hfirst, hm, hw, hsize⟩
  obtain ⟨k, rfl⟩ := Nat.exists_eq_add_of_le hk
  rw [Nat.add_sub_cancel_left, hsize, Nat.add_assoc, Nat.add_comm, List.take_succ_cons,
    List.take_length_add_append]

theorem length_of_read? {h : Header} (hread : read? b = .ok (some (h, left))) :
    b.length = h.size + left.length := by
  obtain ⟨w, rfl, -, -, -, hsize⟩ := read?_eq_some_iff.1 hread
  rw [List.length_cons, List.length_append]
  omega

/-- What a complete header decides by itself: the size of the packet and its kind. -/
def accept (h : Header) (limit : Nat) : Except DecodeError (Nat × Kind) := do
  let size ← h.total limit
  let kind ← h.kind
  Packet.checkFlags kind h.flags
  return (size, kind)

theorem total_eq_ok {h : Header} {limit : Nat} :
    h.total limit = .ok n ↔ n = h.size + h.remaining ∧ n ≤ limit := by
  rw [total]
  split
  · exact ⟨nofun, fun ⟨hn, hle⟩ => by omega⟩
  · rw [Except.ok.injEq]
    omega

theorem accept_eq_ok {h : Header} {limit : Nat} {kind : Kind} :
    h.accept limit = .ok (n, kind) ↔
      n = h.size + h.remaining ∧ n ≤ limit ∧ h.kind = .ok kind ∧
        Packet.checkFlags kind h.flags = .ok () := by
  simp only [accept, Except.bind_eq_ok]
  constructor
  · rintro ⟨_, htotal, _, hkind, _, hflags, hpure⟩
    cases hpure
    obtain ⟨hn, hlimit⟩ := total_eq_ok.1 htotal
    exact ⟨hn, hlimit, hkind, hflags⟩
  · rintro ⟨hn, hlimit, hkind, hflags⟩
    exact ⟨n, total_eq_ok.2 ⟨hn, hlimit⟩, kind, hkind, (), hflags, rfl⟩

theorem flags_lt (h : Header) : h.flags < 16 := by
  rw [UInt8.lt_iff_toNat_lt, flags, UInt8.toNat_ofNat']
  change _ < 16
  omega

end Header

namespace Packet

variable {b left : Bytes} {level : Level} {limit n : Nat} {p : Packet} {h : Header}

theorem decodeFrom_of_header_error {e : DecodeError} (hread : Header.read? b = .error e) :
    decodeFrom b level limit = .error e := by
  rw [decodeFrom, hread]
  rfl

theorem decodeFrom_of_header_none (hread : Header.read? b = .ok none) :
    decodeFrom b level limit = .ok none := by
  rw [decodeFrom, hread]
  rfl

theorem decodeFrom_of_header (hread : Header.read? b = .ok (some (h, left))) :
    decodeFrom b level limit = (do
      let (size, kind) ← h.accept limit
      if left.length < h.remaining then return none
      else
        let (packet, spare) ← readBody kind h.flags level (left.take h.remaining)
        if spare.length = 0 then return some (packet, size)
        else throw (.trailingBytes spare.length)) := by
  rw [decodeFrom, hread]
  simp only [Header.accept, bind_assoc]
  rfl

theorem decodeFrom_eq_some_iff :
    decodeFrom b level limit = .ok (some (p, n)) ↔
      ∃ h left kind, Header.read? b = .ok (some (h, left)) ∧ h.accept limit = .ok (n, kind) ∧
        h.remaining ≤ left.length ∧
        readBody kind h.flags level (left.take h.remaining) = .ok (p, []) := by
  constructor
  · intro hdecode
    rcases hread : Header.read? b with e | (_ | ⟨h, left⟩)
    · rw [decodeFrom_of_header_error hread] at hdecode
      cases hdecode
    · rw [decodeFrom_of_header_none hread] at hdecode
      cases hdecode
    rw [decodeFrom_of_header hread] at hdecode
    obtain ⟨⟨size, kind⟩, haccept, hdecode⟩ := Except.bind_eq_ok.1 hdecode
    dsimp only at hdecode
    split at hdecode
    · cases hdecode
    · next hle =>
      obtain ⟨⟨packet, spare⟩, hbody, hdecode⟩ := Except.bind_eq_ok.1 hdecode
      dsimp only at hdecode
      split at hdecode
      · next hspare =>
        cases hdecode
        rw [List.length_eq_zero_iff.1 hspare] at hbody
        exact ⟨h, left, kind, rfl, haccept, Nat.not_lt.1 hle, hbody⟩
      · cases hdecode
  · rintro ⟨h, left, kind, hread, haccept, hle, hbody⟩
    rw [decodeFrom_of_header hread, haccept]
    refine (if_neg (Nat.not_lt.2 hle)).trans ?_
    exact Except.bind_eq_ok.2 ⟨_, hbody, rfl⟩

theorem le_length_of_decodeFrom (hdecode : decodeFrom b level limit = .ok (some (p, n))) :
    n ≤ b.length := by
  obtain ⟨h, left, kind, hread, haccept, hle, -⟩ := decodeFrom_eq_some_iff.1 hdecode
  obtain ⟨rfl, -⟩ := Header.accept_eq_ok.1 haccept
  have := Header.length_of_read? hread
  omega

theorem le_limit_of_decodeFrom (hdecode : decodeFrom b level limit = .ok (some (p, n))) :
    n ≤ limit := by
  obtain ⟨h, left, kind, -, haccept, -⟩ := decodeFrom_eq_some_iff.1 hdecode
  exact (Header.accept_eq_ok.1 haccept).2.1

theorem checkFlags_eq_ok {kind : Kind} {flags : UInt8} :
    checkFlags kind flags = .ok () ↔ ∀ expected ∈ kind.fixedFlags?, flags = expected := by
  unfold checkFlags
  cases kind.fixedFlags? with
  | none => simp
  | some expected =>
    by_cases h : flags = expected <;> simp [h]

theorem flags_lt (p : Packet) : p.flags < 16 := by
  cases p with
  | publish p =>
    simp only [flags, Publish.flags]
    cases p.dup <;> cases p.qos <;> cases p.retain <;> decide
  | pubRel | subscribe | unsubscribe => exact (by decide : (2 : UInt8).toNat < 16)
  | _ => exact (by decide : (0 : UInt8).toNat < 16)

theorem toNat_firstByte (p : Packet) : p.firstByte.toNat = 16 * p.kind.code + p.flags := by
  have hflags := p.flags_lt
  have hcode := p.kind.code_lt
  rw [firstByte, UInt8.toNat_ofNat']
  omega

theorem le_firstByte (p : Packet) : 16 ≤ p.firstByte := by
  have hcode := p.kind.code_pos
  rw [UInt8.le_iff_toNat_le, toNat_firstByte]
  change 16 ≤ _
  omega

/-- Kind and flags are all there is in a first byte. -/
theorem first_eq_firstByte_iff :
    h.first = p.firstByte ↔ h.kind = .ok p.kind ∧ h.flags = UInt8.ofNat p.flags := by
  have hflags := p.flags_lt
  have hfirst := p.toNat_firstByte
  have hkind : h.kind = .ok p.kind ↔ h.first.toNat / 16 = p.kind.code := by
    rw [Header.kind, Header.kindCode]
    constructor
    · intro hkind
      split at hkind
      · next kind hcode =>
        cases hkind
        exact (Kind.code_of_ofCode? hcode).symm
      · cases hkind
    · intro heq
      rw [heq, Kind.ofCode?_code]
  have hnibble : h.flags = UInt8.ofNat p.flags ↔ h.first.toNat % 16 = p.flags := by
    rw [Header.flags, ← UInt8.toNat_inj, UInt8.toNat_ofNat', UInt8.toNat_ofNat']
    omega
  rw [hkind, hnibble, ← UInt8.toNat_inj]
  omega

end Packet

end MqttBroker
