import MqttBroker.Proofs.Packet.Written
/-!
The spellings a reader accepts for what has one written form. A spelling carries the number of its
redundancies: over-long numbers, an explicit zero reason code with nothing behind it, an explicit
empty property list behind a reason code. Each of them costs at least one byte, and without any a
spelling is the written form.
-/

namespace MqttBroker

namespace Varint

inductive Spelling : Nat → Nat → Bytes → Prop
  | shortest {n : Nat} (hn : n ≤ limit) : Spelling 0 n (encode n)
  | overlong {n : Nat} {w : Bytes} (hdigits : Digits n w) (hle : w.length ≤ 4)
    (hlong : size n < w.length) : Spelling 1 n w

theorem Digits.spelling {n : Nat} {w : Bytes} (h : Digits n w) (hle : w.length ≤ 4) :
    ∃ k, Spelling k n w := by
  have hn := h.le_limit hle
  obtain ⟨hshort, heq⟩ := h.shortest hle
  change (encode n).length ≤ w.length at hshort
  change (encode n).length = w.length → encode n = w at heq
  rw [length_encode hn] at hshort heq
  rcases Nat.lt_or_eq_of_le hshort with hlt | hsize
  · exact ⟨1, .overlong h hle hlt⟩
  · rw [← heq hsize]
    exact ⟨0, .shortest hn⟩

variable {k n : Nat} {w : Bytes}

theorem Spelling.le_limit (h : Spelling k n w) : n ≤ limit := by
  cases h with
  | shortest hn => exact hn
  | overlong hdigits hle hlong => exact hdigits.le_limit hle

theorem Spelling.size_add_le (h : Spelling k n w) : size n + k ≤ w.length := by
  cases h with
  | shortest hn => exact Nat.le_of_eq (length_encode hn).symm
  | overlong hdigits hle hlong => exact hlong

theorem Spelling.eq_encode (h : Spelling 0 n w) : w = encode n := by
  cases h
  rfl

end Varint

namespace Field

/-- A property list may stand behind any spelling of its length in bytes, however its properties
are spelled. -/
inductive Spelling : Nat → List Field → Bytes → Prop
  | nil : Spelling 0 [] []
  | written {f : Field} {fs : List Field} {k : Nat} {v w : Bytes} (hf : f.write = .ok v)
    (hfs : Spelling k fs w) : Spelling k (f :: fs) (v ++ w)
  | varint {n : Nat} {fs : List Field} {j k : Nat} {v w : Bytes} (hn : Varint.Spelling j n v)
    (hfs : Spelling k fs w) : Spelling (j + k) (.varint n :: fs) (v ++ w)
  | properties {ps : Properties} {fs : List Field} {i j k : Nat} {u v w : Bytes}
    (hlength : Varint.Spelling i v.length u) (hps : Spelling j ps.body v)
    (hfs : Spelling k fs w) : Spelling (i + j + k) (ps.fields ++ fs) (u ++ v ++ w)

variable {fs gs : List Field} {j k : Nat} {v w : Bytes}

theorem Spelling.append (hfs : Spelling j fs v) (hgs : Spelling k gs w) :
    Spelling (j + k) (fs ++ gs) (v ++ w) := by
  induction hfs with
  | nil => simpa using hgs
  | written hf hfs ih =>
    rw [List.append_assoc]
    exact .written hf ih
  | varint hn hfs ih =>
    rw [Nat.add_assoc, List.append_assoc]
    exact .varint hn ih
  | properties hlength hps hfs _ ih =>
    rw [Nat.add_assoc, List.append_assoc, List.append_assoc]
    exact .properties hlength hps ih

/-- The fields are written in at least `k` bytes less than `w`, and as `w` itself if `k` is zero. -/
def Saves (k : Nat) (fs : List Field) (w : Bytes) : Prop :=
  ∃ v, writeAll fs = .ok v ∧ v.length + k ≤ w.length ∧ (k = 0 → v = w)

theorem Saves.of_written (h : writeAll fs = .ok w) : Saves 0 fs w :=
  ⟨w, h, Nat.le_refl _, fun _ => rfl⟩

theorem Saves.cons {f : Field} (hf : f.write = .ok v) (hfs : Saves k fs w) :
    Saves k (f :: fs) (v ++ w) := by
  obtain ⟨u, hu, hle, heq⟩ := hfs
  refine ⟨_, writeAll_cons_eq_ok.2 ⟨v, u, hf, hu, rfl⟩, ?_, ?_⟩
  · simp only [List.length_append]
    omega
  · intro hk
    rw [heq hk]

theorem Saves.append (hfs : Saves j fs v) (hgs : Saves k gs w) :
    Saves (j + k) (fs ++ gs) (v ++ w) := by
  obtain ⟨v', hv, hlev, heqv⟩ := hfs
  obtain ⟨w', hw, hlew, heqw⟩ := hgs
  refine ⟨_, writeAll_append_eq_ok.2 ⟨v', w', hv, hw, rfl⟩, ?_, ?_⟩
  · simp only [List.length_append]
    omega
  · intro hjk
    obtain ⟨rfl, rfl⟩ := Nat.add_eq_zero_iff.1 hjk
    rw [heqv rfl, heqw rfl]

theorem Saves.trans (hfs : Saves j fs w) (hgs : ∀ v, writeAll fs = .ok v → Saves k gs v) :
    Saves (k + j) gs w := by
  obtain ⟨v, hv, hle, heq⟩ := hfs
  obtain ⟨u, hu, hle', heq'⟩ := hgs v hv
  refine ⟨u, hu, by omega, ?_⟩
  intro hkj
  obtain ⟨rfl, rfl⟩ := Nat.add_eq_zero_iff.1 hkj
  rw [heq' rfl, heq rfl]

theorem Saves.varint {n : Nat} (h : Varint.Spelling k n w) : Saves k [.varint n] w := by
  have hlen := h.size_add_le
  have hencode := Varint.length_encode h.le_limit
  have hwrite := write_varint_eq_ok.2 ⟨h.le_limit, rfl⟩
  refine ⟨Varint.encode n, ?_, by omega, ?_⟩
  · exact writeAll_cons_eq_ok.2 ⟨_, [], hwrite, rfl, List.append_nil _⟩
  · rintro rfl
    exact h.eq_encode.symm

/-- A list that is written shorter has a length that is no longer to write. -/
theorem Saves.properties {ps : Properties} (hlength : Varint.Spelling j v.length w)
    (hps : Saves k ps.body v) : Saves (j + k) ps.fields (w ++ v) := by
  obtain ⟨u, hu, hle, heq⟩ := hps
  have hlist := length_writeAll hu
  have hmono := Varint.size_mono (Nat.le_of_add_right_le hle)
  have hlen := hlength.size_add_le
  have hlimit := Nat.le_trans (Nat.le_of_add_right_le hle) hlength.le_limit
  have hencode := Varint.length_encode hlimit
  rw [hlist] at hlimit
  have hwrite := write_varint_eq_ok.2 ⟨hlimit, rfl⟩
  rw [ps.fields_eq]
  refine ⟨_, writeAll_cons_eq_ok.2 ⟨_, u, hwrite, hu, rfl⟩, ?_, ?_⟩
  · simp only [List.length_append, ← hlist]
    omega
  · intro hjk
    obtain ⟨rfl, rfl⟩ := Nat.add_eq_zero_iff.1 hjk
    rw [← hlist, heq rfl, hlength.eq_encode]

/-- What has a spelling can be written, and every redundancy of the spelling is a byte saved. -/
theorem Spelling.saves (h : Spelling k fs w) : Saves k fs w := by
  induction h with
  | nil => exact .of_written rfl
  | written hf hfs ih => exact .cons hf ih
  | varint hn hfs ih => exact (Saves.varint hn).append ih
  | properties hlength hps hfs ihps ih => exact (Saves.properties hlength ihps).append ih

end Field

namespace ReasonTail

/-- The fields a tail may be read from. -/
inductive Layout : Nat → ReasonTail → List Field → Prop
  | written (tail : ReasonTail) : Layout 0 tail tail.fields
  | zeroCode : Layout 1 {} [.byte 0]
  | emptyList (code : UInt8) : Layout 1 { code } (.byte code :: Properties.fields [])

def LayoutAt (v5 : Bool) (k : Nat) (tail : ReasonTail) (fs : List Field) : Prop :=
  if v5 then tail.Layout k fs else k = 0 ∧ fs = []

variable {v5 : Bool} {k : Nat} {tail : ReasonTail} {fs : List Field} {w : Bytes}

theorem Layout.saves (h : tail.Layout k fs) (hw : Field.writeAll fs = .ok w) :
    Field.Saves k tail.fields w := by
  cases h with
  | written => exact .of_written hw
  | zeroCode =>
    cases hw
    exact ⟨[], rfl, Nat.le_refl _, nofun⟩
  | emptyList code =>
    cases hw
    by_cases hcode : code = 0
    · subst hcode
      exact ⟨[], rfl, by decide, nofun⟩
    · rw [fields_of_ne_zero hcode]
      exact ⟨[code], rfl, Nat.le_refl _, nofun⟩

theorem LayoutAt.saves (h : tail.LayoutAt v5 k fs) (hw : Field.writeAll fs = .ok w) :
    Field.Saves k (tail.fieldsAt v5) w := by
  cases v5 with
  | true => exact Layout.saves h hw
  | false =>
    obtain ⟨rfl, rfl⟩ := h
    exact .of_written hw

end ReasonTail

/-- The fields an acknowledgement may be read from. -/
def Ack.Layout (v5 : Bool) (k : Nat) (a : Ack) (fs : List Field) : Prop :=
  ∃ gs, a.tail.LayoutAt v5 k gs ∧ fs = .word a.packetId :: gs

theorem Ack.Layout.saves {v5 : Bool} {k : Nat} {a : Ack} {fs : List Field} {w : Bytes}
    (h : a.Layout v5 k fs) (hw : Field.writeAll fs = .ok w) : Field.Saves k (a.fields v5) w := by
  obtain ⟨gs, htail, rfl⟩ := h
  obtain ⟨head, back, hhead, hback, rfl⟩ := Field.writeAll_cons_eq_ok.1 hw
  exact .cons hhead (htail.saves hback)

namespace Packet

/-- The fields the body of a packet may be read from. Only a reason tail leaves a choice. -/
def Layout (level : Level) (k : Nat) : Packet → List Field → Prop
  | pubAck a, fs | pubRec a, fs | pubRel a, fs | pubComp a, fs => a.Layout level.isV5 k fs
  | disconnect tail, fs => tail.LayoutAt level.isV5 k fs
  | auth tail, fs => tail.Layout k fs
  | p, fs => k = 0 ∧ fs = p.body level

variable {level : Level} {k : Nat} {p : Packet} {fs : List Field} {w : Bytes}

theorem Layout.saves (h : p.Layout level k fs) (hw : Field.writeAll fs = .ok w) :
    Field.Saves k (p.body level) w := by
  cases p with
  | pubAck a | pubRec a | pubRel a | pubComp a => exact Ack.Layout.saves h hw
  | disconnect tail => exact ReasonTail.LayoutAt.saves h hw
  | auth tail => exact ReasonTail.Layout.saves h hw
  | _ =>
    obtain ⟨rfl, rfl⟩ := h
    exact .of_written hw

/-- The bytes a packet may be read from, with the number of redundancies in its layout, its fields
and its length. -/
inductive Spelling (level : Level) (p : Packet) : Nat → Bytes → Prop
  | frame {fs : List Field} {i j k : Nat} {v w : Bytes} (hlayout : p.Layout level i fs)
    (hfields : Field.Spelling j fs w) (hlength : Varint.Spelling k w.length v) :
    Spelling level p (i + j + k) (p.firstByte :: (v ++ w))

theorem Spelling.exists_encoded (h : p.Spelling level k w) (hid : p.lacksId = false) :
    ∃ v, p.encode level = .ok v ∧ v.length + k ≤ w.length ∧ (k = 0 → v = w) := by
  obtain ⟨hlayout, hfields, hlength⟩ := h
  obtain ⟨content, hcontent, hle, heq⟩ := hfields.saves.trans fun _ => hlayout.saves
  -- What the body saves is not spent on its length.
  have hshort := Nat.le_of_add_right_le hle
  have hmono := Varint.size_mono hshort
  have hlen := hlength.size_add_le
  have hlimit := Nat.le_trans hshort hlength.le_limit
  have hencode := Varint.length_encode hlimit
  refine ⟨_, encode_eq_ok.2 ⟨content, hcontent, hlimit, hid, rfl⟩, ?_, ?_⟩
  · simp only [List.length_cons, List.length_append]
    omega
  · intro hk
    obtain ⟨hij, rfl⟩ := Nat.add_eq_zero_iff.1 hk
    rw [heq hij, hlength.eq_encode]

end Packet

end MqttBroker
