import MqttBroker.Proofs.Packet.Arrival
import MqttBroker.Session.Closing
/-!
A byte stream taken apart into packets. Where a frame ends is told by its header alone, and each
frame is decoded by itself. A stream has one way to be taken apart, and what comes behind a frame
makes no difference to it.
-/

namespace MqttBroker

namespace Packet

variable {b x left : Bytes} {level : Level} {limit n : Nat} {p : Packet} {h : Header}
  {e : DecodeError}

theorem frameLength_of_header_error (hread : Header.read? b = .error e) :
    frameLength b limit = .error e := by
  rw [frameLength, hread]
  rfl

theorem frameLength_of_header_none (hread : Header.read? b = .ok none) :
    frameLength b limit = .ok none := by
  rw [frameLength, hread]
  rfl

theorem frameLength_of_header (hread : Header.read? b = .ok (some (h, left))) :
    frameLength b limit = (h.total limit).map some := by
  rw [frameLength, hread]
  rfl

theorem frameLength_eq_some_iff :
    frameLength b limit = .ok (some n) ↔
      ∃ h left, Header.read? b = .ok (some (h, left)) ∧ h.total limit = .ok n := by
  rcases hread : Header.read? b with e | (_ | ⟨h, left⟩)
  · simp [frameLength_of_header_error hread]
  · simp [frameLength_of_header_none hread]
  · rw [frameLength_of_header hread]
    cases htotal : h.total limit <;> simp [Except.map, htotal]

/-- Once the header tells something, it tells the same whatever follows. -/
theorem frameLength_append (x : Bytes) (hfinal : frameLength b limit ≠ .ok none) :
    frameLength (b ++ x) limit = frameLength b limit := by
  rcases hread : Header.read? b with e | (_ | ⟨h, left⟩)
  · rw [frameLength_of_header_error hread,
      frameLength_of_header_error (Header.read?_append_of_error x hread)]
  · exact absurd (frameLength_of_header_none hread) hfinal
  · rw [frameLength_of_header hread,
      frameLength_of_header (Header.read?_append_of_some x hread)]

theorem frameLength_pos (hn : frameLength b limit = .ok (some n)) : 0 < n := by
  obtain ⟨h, left, hread, htotal⟩ := frameLength_eq_some_iff.1 hn
  obtain ⟨w, -, -, -, -, hsize⟩ := Header.read?_eq_some_iff.1 hread
  have htotal := (Header.total_eq_ok.1 htotal).1
  omega

/-- The decoder takes a whole frame for a whole frame: it asks for no more bytes, and the packet it
finds takes the frame up. -/
theorem decode_frame (level : Level) (hn : frameLength b limit = .ok (some n))
    (hle : n ≤ b.length) :
    (∃ e, decode [b.take n] level limit = .error e) ∨
      ∃ p, decode [b.take n] level limit = .ok (some (p, n)) := by
  obtain ⟨h, left, hread, htotal⟩ := frameLength_eq_some_iff.1 hn
  obtain ⟨hsize, -⟩ := Header.total_eq_ok.1 htotal
  have hlength := Header.length_of_read? hread
  have hframe : Header.read? (b.take n) = .ok (some (h, left.take (n - h.size))) :=
    Header.read?_take_of_le hread (by omega)
  have hbody : ¬ (left.take (n - h.size)).length < h.remaining := by
    rw [List.length_take]
    omega
  rw [decode_eq_decodeFrom, List.flatten_singleton]
  cases hdecode : decodeFrom (b.take n) level limit with
  | error e => exact .inl ⟨e, rfl⟩
  | ok found =>
    right
    cases found with
    | none =>
      -- To ask for more the decoder would have to find less of a body than the header announces.
      rw [decodeFrom_of_header hframe] at hdecode
      obtain ⟨⟨size, kind⟩, -, hdecode⟩ := Except.bind_eq_ok.1 hdecode
      dsimp only at hdecode
      rw [if_neg hbody] at hdecode
      obtain ⟨⟨packet, spare⟩, -, hdecode⟩ := Except.bind_eq_ok.1 hdecode
      dsimp only at hdecode
      split at hdecode <;> cases hdecode
    | some found =>
      obtain ⟨p, size⟩ := found
      obtain ⟨h', left', kind, hread', haccept, -⟩ := decodeFrom_eq_some_iff.1 hdecode
      cases hframe.symm.trans hread'
      obtain ⟨rfl, -⟩ := Header.accept_eq_ok.1 haccept
      exact ⟨p, by rw [hsize]⟩

/-! ### The front of a stream -/

/-- The stream ends before its first frame does. -/
def IsCut (limit : Nat) (b : Bytes) : Prop :=
  frameLength b limit = .ok none ∨ ∃ n, frameLength b limit = .ok (some n) ∧ b.length < n

/-- The header at the front of the stream is refused, or the first frame is. -/
def Faults (level : Level) (limit : Nat) (b : Bytes) (e : DecodeError) : Prop :=
  frameLength b limit = .error e ∨
    ∃ n, frameLength b limit = .ok (some n) ∧ n ≤ b.length ∧
      decode [b.take n] level limit = .error e

/-- The first frame of the stream has `n` bytes and is the packet `p`. -/
structure Leads (level : Level) (limit : Nat) (b : Bytes) (p : Packet) (n : Nat) : Prop where
  frameLength_eq : frameLength b limit = .ok (some n)
  le_length : n ≤ b.length
  decode_eq : decode [b.take n] level limit = .ok (some (p, n))

theorem front_cases (level : Level) (limit : Nat) (b : Bytes) :
    IsCut limit b ∨ (∃ e, Faults level limit b e) ∨ ∃ p n, Leads level limit b p n := by
  rcases hn : frameLength b limit with e | (_ | n)
  · exact .inr (.inl ⟨e, .inl hn⟩)
  · exact .inl (.inl hn)
  · rcases Nat.lt_or_ge b.length n with hlt | hle
    · exact .inl (.inr ⟨n, hn, hlt⟩)
    · rcases decode_frame level hn hle with ⟨e, hdecode⟩ | ⟨p, hdecode⟩
      · exact .inr (.inl ⟨e, .inr ⟨n, hn, hle, hdecode⟩⟩)
      · exact .inr (.inr ⟨p, n, hn, hle, hdecode⟩)

theorem isCut_nil (limit : Nat) : IsCut limit [] := .inl rfl

theorem IsCut.lt_of_frameLength (hcut : IsCut limit b) (hn : frameLength b limit = .ok (some n)) :
    b.length < n := by
  rcases hcut with hnone | ⟨m, hm, hlt⟩
  · rw [hn] at hnone
    cases hnone
  · rw [hn] at hm
    cases hm
    exact hlt

theorem Faults.not_isCut (hfaults : Faults level limit b e) : ¬ IsCut limit b := by
  intro hcut
  rcases hfaults with herror | ⟨n, hn, hle, -⟩
  · rcases hcut with hnone | ⟨m, hm, -⟩ <;> simp_all
  · exact Nat.not_lt.2 hle (hcut.lt_of_frameLength hn)

theorem Leads.not_isCut (hleads : Leads level limit b p n) : ¬ IsCut limit b := fun hcut =>
  Nat.not_lt.2 hleads.le_length (hcut.lt_of_frameLength hleads.frameLength_eq)

theorem Leads.not_faults (hleads : Leads level limit b p n) : ¬ Faults level limit b e := by
  have hn := hleads.frameLength_eq
  have hdecode := hleads.decode_eq
  rintro (herror | ⟨m, hm, -, herror⟩) <;> simp_all

theorem Faults.unique {e' : DecodeError} (hfaults : Faults level limit b e)
    (hfaults' : Faults level limit b e') : e = e' := by
  rcases hfaults with herror | ⟨n, hn, -, herror⟩ <;>
    rcases hfaults' with herror' | ⟨n', hn', -, herror'⟩ <;> simp_all

theorem Leads.unique {p' : Packet} {n' : Nat} (hleads : Leads level limit b p n)
    (hleads' : Leads level limit b p' n') : p = p' ∧ n = n' := by
  have hn := hleads.frameLength_eq.symm.trans hleads'.frameLength_eq
  obtain rfl : n = n' := by simpa using hn
  have hdecode := hleads.decode_eq.symm.trans hleads'.decode_eq
  simpa using hdecode

theorem Faults.append (hfaults : Faults level limit b e) (x : Bytes) :
    Faults level limit (b ++ x) e := by
  rcases hfaults with herror | ⟨n, hn, hle, herror⟩
  · exact .inl ((frameLength_append x (by rw [herror]; nofun)).trans herror)
  · refine .inr ⟨n, (frameLength_append x (by rw [hn]; nofun)).trans hn, ?_, ?_⟩
    · rw [List.length_append]
      omega
    · rw [List.take_append_of_le_length hle]
      exact herror

theorem Leads.append (hleads : Leads level limit b p n) (x : Bytes) :
    Leads level limit (b ++ x) p n where
  frameLength_eq := by
    have hn := hleads.frameLength_eq
    exact (frameLength_append x (by rw [hn]; nofun)).trans hn
  le_length := by
    rw [List.length_append]
    exact Nat.le_add_right_of_le hleads.le_length
  decode_eq := by
    rw [List.take_append_of_le_length hleads.le_length]
    exact hleads.decode_eq

/-! ### Whole streams -/

/-- The stream is these packets one after the other, up to where it ends: between two packets if
there is no error, inside a frame, or at what the reader refuses. -/
inductive Stream (level : Level) (limit : Nat) :
    Bytes → List Packet → Option SessionError → Prop where
  | finished : Stream level limit [] [] none
  | cut {b : Bytes} (hb : b ≠ []) (hcut : IsCut limit b) :
    Stream level limit b [] (some (.transport .unexpectedEnd))
  | malformed {b : Bytes} {e : DecodeError} (hfaults : Faults level limit b e) :
    Stream level limit b [] (some (.malformedPacket e))
  | packet {b : Bytes} {p : Packet} {n : Nat} {ps : List Packet} {ending : Option SessionError}
    (hleads : Leads level limit b p n) (hrest : Stream level limit (b.drop n) ps ending) :
    Stream level limit b (p :: ps) ending

namespace Stream

variable {ps ps' : List Packet} {ending ending' : Option SessionError}

theorem exists_of (level : Level) (limit : Nat) (b : Bytes) :
    ∃ ps ending, Stream level limit b ps ending := by
  rcases front_cases level limit b with hcut | ⟨e, hfaults⟩ | ⟨p, n, hleads⟩
  · by_cases hb : b = []
    · subst hb
      exact ⟨[], none, .finished⟩
    · exact ⟨[], _, .cut hb hcut⟩
  · exact ⟨[], _, .malformed hfaults⟩
  · -- A frame has at least one byte, so what is behind it is shorter.
    have hn := frameLength_pos hleads.frameLength_eq
    have hle := hleads.le_length
    have hshorter : (b.drop n).length < b.length := by
      rw [List.length_drop]
      omega
    obtain ⟨ps, ending, hrest⟩ := exists_of level limit (b.drop n)
    exact ⟨p :: ps, ending, .packet hleads hrest⟩
  termination_by b.length

theorem unique (h : Stream level limit b ps ending) (h' : Stream level limit b ps' ending') :
    ps' = ps ∧ ending' = ending := by
  induction h generalizing ps' ending' with
  | finished =>
    cases h' with
    | finished => exact ⟨rfl, rfl⟩
    | cut hb => exact absurd rfl hb
    | malformed hfaults => exact absurd (isCut_nil limit) hfaults.not_isCut
    | packet hleads => exact absurd (isCut_nil limit) hleads.not_isCut
  | cut hb hcut =>
    cases h' with
    | finished => exact absurd rfl hb
    | cut => exact ⟨rfl, rfl⟩
    | malformed hfaults => exact absurd hcut hfaults.not_isCut
    | packet hleads => exact absurd hcut hleads.not_isCut
  | malformed hfaults =>
    cases h' with
    | finished => exact absurd (isCut_nil limit) hfaults.not_isCut
    | cut _ hcut => exact absurd hcut hfaults.not_isCut
    | malformed hfaults' =>
      rw [hfaults.unique hfaults']
      exact ⟨rfl, rfl⟩
    | packet hleads => exact absurd hfaults hleads.not_faults
  | packet hleads hrest ih =>
    cases h' with
    | finished => exact absurd (isCut_nil limit) hleads.not_isCut
    | cut _ hcut => exact absurd hcut hleads.not_isCut
    | malformed hfaults => exact absurd hfaults hleads.not_faults
    | packet hleads' hrest' =>
      obtain ⟨rfl, rfl⟩ := hleads.unique hleads'
      obtain ⟨rfl, rfl⟩ := ih hrest'
      exact ⟨rfl, rfl⟩

end Stream

end Packet

end MqttBroker
