import MqttBroker.Proofs.Packet.Canonical
import MqttBroker.Proofs.Packet.Reading
import MqttBroker.Proofs.Packet.Size
/-!
Written fields are read back. A reader that finds a value in certain fields does so whatever
follows; one that runs to the end of its source does so where nothing follows.
-/

namespace MqttBroker

namespace Field

theorem writeAll_cons_eq_ok {f : Field} {fs : List Field} {w : Bytes} :
    writeAll (f :: fs) = .ok w ↔
      ∃ head tail, f.write = .ok head ∧ writeAll fs = .ok tail ∧ head ++ tail = w := by
  change (f.write >>= fun head => writeAll fs >>= fun tail => .ok (head ++ tail)) = _ ↔ _
  simp only [Except.bind_eq_ok, Except.ok.injEq, exists_and_left]

theorem writeAll_append_eq_ok {fs gs : List Field} {w : Bytes} :
    writeAll (fs ++ gs) = .ok w ↔
      ∃ front back, writeAll fs = .ok front ∧ writeAll gs = .ok back ∧ front ++ back = w := by
  induction fs generalizing w with
  | nil => simp [writeAll]
  | cons f fs ih =>
    rw [List.cons_append, writeAll_cons_eq_ok]
    simp only [ih, writeAll_cons_eq_ok]
    constructor
    · rintro ⟨head, _, hf, ⟨front, back, hfs, hgs, rfl⟩, rfl⟩
      exact ⟨_, back, ⟨head, front, hf, hfs, rfl⟩, hgs, List.append_assoc ..⟩
    · rintro ⟨_, back, ⟨head, front, hf, hfs, rfl⟩, hgs, rfl⟩
      exact ⟨head, _, hf, ⟨front, back, hfs, hgs, rfl⟩, (List.append_assoc ..).symm⟩

theorem write_varint_eq_ok {n : Nat} {w : Bytes} :
    (varint n).write = .ok w ↔ n ≤ Varint.limit ∧ Varint.encode n = w := by
  rw [write]
  split
  · next hn => simp [hn]
  · next hn => simp [hn]

theorem write_binary_eq_ok {content w : Bytes} :
    (binary content).write = .ok w ↔
      content.Fits ∧ wordBytes (UInt16.ofNat content.length) ++ content = w := by
  rw [write]
  split
  · next h => simp [Bytes.Fits, h]
  · next h => simp [Bytes.Fits, h]

theorem length_write {f : Field} {w : Bytes} (h : f.write = .ok w) : w.length = f.size := by
  cases f with
  | byte v => cases h; rfl
  | word v => cases h; rfl
  | long v => cases h; rfl
  | raw content => cases h; rfl
  | varint n =>
    obtain ⟨hn, rfl⟩ := write_varint_eq_ok.1 h
    exact Varint.length_encode hn
  | binary content =>
    obtain ⟨-, rfl⟩ := write_binary_eq_ok.1 h
    rw [List.length_append]
    rfl

theorem length_writeAll {fs : List Field} {w : Bytes} (h : writeAll fs = .ok w) :
    w.length = totalSize fs := by
  induction fs generalizing w with
  | nil => cases h; rfl
  | cons f fs ih =>
    obtain ⟨head, tail, hf, hfs, rfl⟩ := writeAll_cons_eq_ok.1 h
    rw [List.length_append, length_write hf, ih hfs, totalSize]

end Field

namespace Packet

variable {p : Packet} {level : Level} {out w : Bytes} {n : Nat}

theorem appendTo_eq_ok :
    p.appendTo out level = .ok (w, n) ↔
      ∃ content, Field.writeAll (p.body level) = .ok content ∧ content.length ≤ Varint.limit ∧
        p.lacksId = false ∧ w = out ++ p.firstByte :: (Varint.encode content.length ++ content) ∧
        n = 1 + (Varint.encode content.length).length + content.length := by
  constructor
  · intro h
    unfold appendTo at h
    rcases Nat.lt_or_ge Varint.limit (p.remainingLength level) with hlt | hlimit
    · rw [if_pos hlt] at h
      cases h
    · rw [if_neg (Nat.not_lt.2 hlimit)] at h
      cases hid : p.lacksId with
      | true =>
        rw [hid, if_pos rfl] at h
        cases h
      | false =>
        rw [hid, if_neg Bool.false_ne_true] at h
        obtain ⟨content, hcontent, h⟩ := Except.bind_eq_ok.1 h
        rw [remainingLength_eq, ← Field.length_writeAll hcontent] at h hlimit
        cases h
        exact ⟨content, hcontent, hlimit, rfl, rfl, rfl⟩
  · rintro ⟨content, hcontent, hlimit, hid, rfl, rfl⟩
    have hlength := Field.length_writeAll hcontent
    rw [hlength] at hlimit
    simp only [appendTo, remainingLength_eq, if_neg (Nat.not_lt.2 hlimit), hid, hcontent, hlength]
    rfl

theorem encode_eq_ok_iff_appendTo :
    p.encode level = .ok w ↔ ∃ n, p.appendTo [] level = .ok (w, n) := by
  rw [encode]
  rcases p.appendTo [] level with e | ⟨v, m⟩
  · exact ⟨nofun, nofun⟩
  · change Except.ok v = .ok w ↔ ∃ n, Except.ok (v, m) = .ok (w, n)
    simp

theorem encode_eq_ok :
    p.encode level = .ok w ↔
      ∃ content, Field.writeAll (p.body level) = .ok content ∧ content.length ≤ Varint.limit ∧
        p.lacksId = false ∧ w = p.firstByte :: (Varint.encode content.length ++ content) := by
  simp only [encode_eq_ok_iff_appendTo, appendTo_eq_ok, List.nil_append]
  constructor
  · rintro ⟨n, content, hcontent, hlimit, hid, hw, -⟩
    exact ⟨content, hcontent, hlimit, hid, hw⟩
  · rintro ⟨content, hcontent, hlimit, hid, hw⟩
    exact ⟨_, content, hcontent, hlimit, hid, hw, rfl⟩

theorem length_of_encode (h : p.encode level = .ok w) : w.length = p.encodedLength level := by
  obtain ⟨content, hcontent, hlimit, -, rfl⟩ := encode_eq_ok.1 h
  have hlength := Field.length_writeAll hcontent
  rw [List.length_cons, List.length_append, Varint.length_encode hlimit, hlength, encodedLength,
    remainingLength_eq]
  omega

end Packet

namespace FieldReader

variable {α β : Type} {r : FieldReader Bytes α} {fs gs : List Field} {a v : α}

/-- If `fs` fit into a packet they can be written, and `r` finds `a` in them, whatever follows. -/
def Reads (r : FieldReader Bytes α) (fs : List Field) (a : α) : Prop :=
  Field.totalSize fs ≤ Varint.limit →
    ∃ w, Field.writeAll fs = .ok w ∧ ∀ rest, r (w ++ rest) = .ok (a, rest)

/-- If `fs` fit into a packet they can be written, and `r` finds `a` in them where nothing
follows. -/
def ReadsAll (r : FieldReader Bytes α) (fs : List Field) (a : α) : Prop :=
  Field.totalSize fs ≤ Varint.limit → ∃ w, Field.writeAll fs = .ok w ∧ r w = .ok (a, [])

theorem Reads.all (h : Reads r fs a) : ReadsAll r fs a := by
  intro hsize
  obtain ⟨w, hw, hread⟩ := h hsize
  exact ⟨w, hw, by simpa using hread []⟩

theorem Reads.bind {f : α → FieldReader Bytes β} {b : β} (hr : Reads r fs a)
    (hf : Reads (f a) gs b) : Reads (r >>= f) (fs ++ gs) b := by
  intro hsize
  rw [Field.totalSize_append] at hsize
  obtain ⟨w, hw, hread⟩ := hr (by omega)
  obtain ⟨u, hu, hread'⟩ := hf (by omega)
  refine ⟨w ++ u, Field.writeAll_append_eq_ok.2 ⟨w, u, hw, hu, rfl⟩, fun rest => ?_⟩
  rw [List.append_assoc]
  exact bind_eq_ok.2 ⟨a, u ++ rest, hread _, hread' _⟩

theorem Reads.bindAll {f : α → FieldReader Bytes β} {b : β} (hr : Reads r fs a)
    (hf : ReadsAll (f a) gs b) : ReadsAll (r >>= f) (fs ++ gs) b := by
  intro hsize
  rw [Field.totalSize_append] at hsize
  obtain ⟨w, hw, hread⟩ := hr (by omega)
  obtain ⟨u, hu, hread'⟩ := hf (by omega)
  exact ⟨w ++ u, Field.writeAll_append_eq_ok.2 ⟨w, u, hw, hu, rfl⟩,
    bind_eq_ok.2 ⟨a, u, hread _, hread'⟩⟩

theorem Reads.bind_pure {f : α → FieldReader Bytes β} {b : β} (hr : Reads r fs a)
    (hf : f a = pure b) : Reads (r >>= f) fs b := by
  intro hsize
  obtain ⟨w, hw, hread⟩ := hr hsize
  exact ⟨w, hw, fun rest => bind_eq_ok.2 ⟨a, rest, hread rest, by rw [hf]; rfl⟩⟩

theorem ReadsAll.bind_pure {f : α → FieldReader Bytes β} {b : β} (hr : ReadsAll r fs a)
    (hf : f a = pure b) : ReadsAll (r >>= f) fs b := by
  intro hsize
  obtain ⟨w, hw, hread⟩ := hr hsize
  exact ⟨w, hw, bind_eq_ok.2 ⟨a, [], hread, by rw [hf]; rfl⟩⟩

theorem ReadsAll.map (hr : ReadsAll r fs a) (f : α → β) : ReadsAll (f <$> r) fs (f a) := by
  rw [map_eq_pure_bind]
  exact hr.bind_pure rfl

namespace Reads

theorem pure (h : a = v) : Reads (Pure.pure a) [] v := by
  subst h
  exact fun _ => ⟨[], rfl, fun _ => rfl⟩

theorem refuseIf {bad : Bool} {e : DecodeError} (h : bad = false) :
    Reads (FieldReader.refuseIf bad e) [] () :=
  fun _ => ⟨[], rfl, fun _ => refuseIf_eq_ok.2 ⟨h, rfl⟩⟩

theorem of_write {f : Field} {w : Bytes} (hw : f.write = .ok w)
    (h : ∀ rest, r (w ++ rest) = .ok (a, rest)) : Reads r [f] a :=
  fun _ => ⟨w, Field.writeAll_cons_eq_ok.2 ⟨w, [], hw, rfl, List.append_nil w⟩, h⟩

theorem byte (v : UInt8) : Reads FieldReader.byte [.byte v] v :=
  of_write rfl fun _ => byte_eq_ok.2 rfl

theorem word (v : UInt16) : Reads FieldReader.word [.word v] v :=
  of_write rfl fun _ => word_eq_ok.2 rfl

theorem long (v : UInt32) : Reads FieldReader.long [.long v] v :=
  of_write rfl fun _ => long_eq_ok.2 rfl

theorem varint {n : Nat} (hn : n ≤ Varint.limit) : Reads FieldReader.varint [.varint n] n :=
  of_write (Field.write_varint_eq_ok.2 ⟨hn, rfl⟩) fun _ =>
    varint_eq_ok.2 ⟨_, rfl, Varint.digits_encode hn, Varint.length_encode_le hn⟩

theorem binary {v : Bytes} (hv : v.Fits) : Reads FieldReader.binary [.binary v] v :=
  of_write (Field.write_binary_eq_ok.2 ⟨hv, rfl⟩) fun _ => binary_eq_ok.2 ⟨hv, rfl⟩

theorem utf8 {v : Bytes} (hv : v.IsTextField) : Reads FieldReader.utf8 [.binary v] v :=
  of_write (Field.write_binary_eq_ok.2 ⟨hv.fits, rfl⟩) fun _ =>
    utf8_eq_ok.2 ⟨binary_eq_ok.2 ⟨hv.fits, rfl⟩, hv.isText⟩

theorem text {v : String} (hv : (Bytes.ofText v).Fits) :
    Reads FieldReader.text [.binary (Bytes.ofText v)] v :=
  of_write (Field.write_binary_eq_ok.2 ⟨hv, rfl⟩) fun _ => text_eq_ok.2 (binary_eq_ok.2 ⟨hv, rfl⟩)

theorem packetId {v : UInt16} (hv : v ≠ 0) : Reads FieldReader.packetId [.word v] v :=
  of_write rfl fun _ => packetId_eq_ok.2 ⟨word_eq_ok.2 rfl, hv⟩

theorem topicName {v : Bytes} (hv : v.IsTopicField) : Reads FieldReader.topicName [.binary v] v :=
  of_write (Field.write_binary_eq_ok.2 ⟨hv.fits, rfl⟩) fun _ =>
    topicName_eq_ok.2 ⟨utf8_eq_ok.2 ⟨binary_eq_ok.2 ⟨hv.fits, rfl⟩, hv.isText⟩, by
      simp only [List.any_eq_false, isWildcard]
      intro x hx h
      rcases Bool.or_eq_true_iff.1 h with h | h
      · exact hv.plus_not_mem (eq_of_beq h ▸ hx)
      · exact hv.hash_not_mem (eq_of_beq h ▸ hx)⟩

theorem qosOf {qos : QoS} {value : UInt8} (h : value = qos.code) :
    Reads (FieldReader.qosOf value) [] qos :=
  fun _ => ⟨[], rfl, fun _ => qosOf_eq_ok.2 ⟨h ▸ QoS.ofCode?_code qos, rfl⟩⟩

theorem optional {F : α → List Field} {o : Option α} (h : ∀ a ∈ o, Reads r (F a) a) :
    Reads (FieldReader.optional o.isSome r) (o.elim [] F) o := by
  cases o with
  | none => exact pure rfl
  | some a =>
    have := (h a rfl).bind_pure (f := fun a => Pure.pure (some a)) rfl
    rwa [← map_eq_pure_bind] at this

theorem within (h : ReadsAll r fs a) : Reads (FieldReader.within (Field.totalSize fs) r) fs a := by
  intro hsize
  obtain ⟨w, hw, hread⟩ := h hsize
  exact ⟨w, hw, fun rest => within_eq_ok.2 ⟨w, [], rfl, Field.length_writeAll hw, hread⟩⟩

end Reads

theorem ReadsAll.unlessAtEnd_nil : ReadsAll (FieldReader.unlessAtEnd a r) [] a :=
  fun _ => ⟨[], rfl, rfl⟩

theorem ReadsAll.unlessAtEnd (h : ReadsAll r fs v) (hpos : 0 < Field.totalSize fs) :
    ReadsAll (FieldReader.unlessAtEnd a r) fs v := by
  intro hsize
  obtain ⟨w, hw, hread⟩ := h hsize
  refine ⟨w, hw, bind_eq_ok.2 ⟨w.length, w, rfl, ?_⟩⟩
  rw [if_neg (by rw [Field.length_writeAll hw]; omega)]
  exact hread

theorem ReadsAll.rest (v : Bytes) : ReadsAll FieldReader.rest [.raw v] v := by
  refine fun _ => ⟨v, ?_, rest_eq_ok.2 ⟨rfl, rfl⟩⟩
  exact Field.writeAll_cons_eq_ok.2 ⟨v, [], rfl, rfl, List.append_nil v⟩

/-- Items that each take a byte or more are read one after the other until nothing is left. -/
theorem ReadsAll.many {F : α → List Field} {as : List α}
    (h : ∀ a ∈ as, Reads r (F a) a ∧ 0 < Field.totalSize (F a)) :
    ReadsAll (FieldReader.many r) (as.flatMap F) as := by
  -- Every item takes a byte, so rounds for all that is left are rounds enough.
  have hgo : Field.totalSize (as.flatMap F) ≤ Varint.limit →
      ∃ w, Field.writeAll (as.flatMap F) = .ok w ∧ ∀ rounds found, w.length ≤ rounds →
        FieldReader.many.go r rounds found w = .ok (found.reverse ++ as, []) := by
    induction as with
    | nil =>
      refine fun _ => ⟨[], rfl, fun rounds found _ => ?_⟩
      rw [List.append_nil]
      cases rounds <;> rfl
    | cons a as ih =>
      intro hsize
      rw [List.flatMap_cons, Field.totalSize_append] at hsize
      obtain ⟨ha, hpos⟩ := h a List.mem_cons_self
      obtain ⟨w, hw, hread⟩ := ha (by omega)
      obtain ⟨u, hu, hgo⟩ := ih (fun a' ha' => h a' (List.mem_cons_of_mem _ ha')) (by omega)
      refine ⟨w ++ u, Field.writeAll_append_eq_ok.2 ⟨w, u, hw, hu, rfl⟩, ?_⟩
      intro rounds found hrounds
      have hwlen := Field.length_writeAll hw
      rw [List.length_append] at hrounds
      obtain ⟨rounds, rfl⟩ := Nat.exists_eq_succ_of_ne_zero (n := rounds) (by omega)
      refine bind_eq_ok.2 ⟨(w ++ u).length, w ++ u, rfl, ?_⟩
      rw [if_neg (by rw [List.length_append]; omega)]
      refine bind_eq_ok.2 ⟨a, u, hread u, ?_⟩
      rw [hgo rounds (a :: found) (by omega), List.reverse_cons, List.append_assoc,
        List.singleton_append]
  intro hsize
  obtain ⟨w, hw, hread⟩ := hgo hsize
  exact ⟨w, hw, bind_eq_ok.2 ⟨w.length, w, rfl, by simpa using hread w.length [] (Nat.le_refl _)⟩⟩

end FieldReader

end MqttBroker
