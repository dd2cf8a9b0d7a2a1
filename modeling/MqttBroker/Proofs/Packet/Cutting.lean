import MqttBroker.Proofs.Packet.Stream
/-!
The header alone against the decoder. A reader cuts a frame by what the header tells and leaves it
to the decoder; the two must not disagree on where a packet ends, nor on whether it is there.
-/

namespace MqttBroker

namespace Packet

/-- What a first byte is refused for by itself: flags that its kind does not have. -/
def flagFault? (first : UInt8) : Option DecodeError := do
  let kind ← Kind.ofCode? (first.toNat / 16)
  let expected ← kind.fixedFlags?
  let flags := UInt8.ofNat (first.toNat % 16)
  if flags = expected then none else some (.invalidFlags kind flags)

variable {b left : Bytes} {level : Level} {limit n : Nat} {h : Header}

theorem exists_kind (hfirst : 16 ≤ h.first) : ∃ kind, Kind.ofCode? h.kindCode = some kind := by
  have hcode : 1 ≤ h.kindCode ∧ h.kindCode < 16 := by
    have hlt := h.first.toNat_lt
    have hle : 16 ≤ h.first.toNat := UInt8.le_iff_toNat_le.1 hfirst
    rw [Header.kindCode]
    omega
  -- Every nibble but zero stands for a kind.
  have hkinds : ∀ code < 16, 1 ≤ code → (Kind.ofCode? code).isSome := by decide
  exact Option.isSome_iff_exists.1 (hkinds _ hcode.2 hcode.1)

/-- A header within the limit is accepted unless its first byte is at fault. -/
theorem accept_of_total (hfirst : 16 ≤ h.first) (htotal : h.total limit = .ok n) :
    (∃ e, flagFault? h.first = some e ∧ h.accept limit = .error e) ∨
      ∃ kind, flagFault? h.first = none ∧ h.accept limit = .ok (n, kind) := by
  obtain ⟨kind, hkind⟩ := exists_kind hfirst
  have hknown : h.kind = .ok kind := by rw [Header.kind, hkind]
  have haccept : h.accept limit = checkFlags kind h.flags >>= fun _ => .ok (n, kind) := by
    rw [Header.accept, htotal, hknown]
    rfl
  have hfault : flagFault? h.first = kind.fixedFlags?.bind fun expected =>
      if h.flags = expected then none else some (.invalidFlags kind h.flags) := by
    change (Kind.ofCode? h.kindCode).bind _ = _
    rw [hkind]
    rfl
  rw [haccept, hfault, checkFlags]
  rcases kind.fixedFlags? with _ | expected
  · exact .inr ⟨kind, rfl, rfl⟩
  · by_cases hflags : h.flags = expected
    · exact .inr ⟨kind, if_pos hflags, congrArg (· >>= _) (if_pos hflags)⟩
    · exact .inl ⟨_, if_neg hflags, congrArg (· >>= _) (if_neg hflags)⟩

theorem decodeFrom_of_short (hread : Header.read? b = .ok (some (h, left)))
    (htotal : h.total limit = .ok n) (hshort : b.length < n) :
    decodeFrom b level limit = (flagFault? h.first).elim (.ok none) .error := by
  obtain ⟨-, -, hfirst, -⟩ := Header.read?_eq_some_iff.1 hread
  have hlength := Header.length_of_read? hread
  have hsize := (Header.total_eq_ok.1 htotal).1
  have hbody : left.length < h.remaining := by omega
  rw [decodeFrom_of_header hread]
  obtain ⟨e, hfault, haccept⟩ | ⟨kind, hfault, haccept⟩ := accept_of_total hfirst htotal
  · rw [hfault, haccept]
    rfl
  · rw [hfault, haccept]
    exact if_pos hbody

/-- Once the whole frame is there, the rest makes no difference to the decoder. -/
theorem decode_eq_decode_take (level : Level) (hn : frameLength b limit = .ok (some n))
    (hle : n ≤ b.length) : decode [b] level limit = decode [b.take n] level limit := by
  have hfinal : decode [b.take n] level limit ≠ .ok none := by
    obtain ⟨e, hdecode⟩ | ⟨p, hdecode⟩ := decode_frame level hn hle <;> rw [hdecode] <;> nofun
  simp only [decode_eq_decodeFrom, List.flatten_singleton] at hfinal ⊢
  have happend := decodeFrom_append (b.drop n) hfinal
  rwa [List.take_append_drop] at happend

/-- What the header alone tells about a frame is what the decoder finds. A header it refuses is
refused by both, and one that is incomplete leaves both waiting. A frame that is there as a whole is
decoded by itself, with no wait for more, and a packet in it takes it up. Of a frame that is not
there yet only the first byte can be refused. -/
theorem decode_of_frameLength (b : Bytes) (level : Level) (limit : Nat) :
    match frameLength b limit with
    | .error e => decode [b] level limit = .error e
    | .ok none => decode [b] level limit = .ok none
    | .ok (some n) =>
      n ≤ limit ∧
        if n ≤ b.length then
          decode [b] level limit = decode [b.take n] level limit ∧
            ((∃ e, decode [b] level limit = .error e) ∨
              ∃ p, decode [b] level limit = .ok (some (p, n)))
        else decode [b] level limit = (b.head?.bind flagFault?).elim (.ok none) .error := by
  rcases hread : Header.read? b with e | (_ | ⟨h, left⟩)
  · rw [frameLength_of_header_error hread, decode_eq_decodeFrom, List.flatten_singleton]
    exact decodeFrom_of_header_error hread
  · rw [frameLength_of_header_none hread, decode_eq_decodeFrom, List.flatten_singleton]
    exact decodeFrom_of_header_none hread
  rcases htotal : h.total limit with e | n
  · rw [frameLength_of_header hread, htotal]
    change decode [b] level limit = .error e
    rw [decode_eq_decodeFrom, List.flatten_singleton, decodeFrom_of_header hread, Header.accept,
      htotal]
    rfl
  have hn : frameLength b limit = .ok (some n) := frameLength_eq_some_iff.2 ⟨h, left, hread, htotal⟩
  rw [hn]
  refine ⟨(Header.total_eq_ok.1 htotal).2, ?_⟩
  split
  · next hle =>
    have hwhole := decode_eq_decode_take level hn hle
    refine ⟨hwhole, ?_⟩
    rw [hwhole]
    exact decode_frame level hn hle
  · next hshort =>
    obtain ⟨w, hb, -⟩ := Header.read?_eq_some_iff.1 hread
    have hhead : b.head? = some h.first := by rw [hb, List.head?_cons]
    rw [decode_eq_decodeFrom, List.flatten_singleton, hhead]
    exact decodeFrom_of_short hread htotal (Nat.not_le.1 hshort)

/-- A PUBREL needs the flags 2. With others it is refused before its body comes. -/
example : decode [[0x60, 0x02]] .v311 100 = .error (.invalidFlags .pubRel 0) := by rfl

end Packet

end MqttBroker
