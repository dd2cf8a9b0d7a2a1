import MqttBroker.Proofs.Packet.Frame
import MqttBroker.Proofs.Packet.Spelling
/-!
What readers accept. Whatever a reader finds is canonical, and the bytes it took are a spelling of
its fields.
-/

namespace MqttBroker

namespace FieldReader

/-- `b` starts with a spelling of `fs`, and `left` is what follows it. -/
def InFront (fs : List Field) (b left : Bytes) : Prop :=
  ∃ k w, b = w ++ left ∧ Field.Spelling k fs w

variable {α : Type} {fs gs : List Field} {b mid left : Bytes}

theorem InFront.nil : InFront [] b b := ⟨0, [], rfl, .nil⟩

theorem InFront.append (hfs : InFront fs b mid) (hgs : InFront gs mid left) :
    InFront (fs ++ gs) b left := by
  obtain ⟨j, v, rfl, hv⟩ := hfs
  obtain ⟨k, w, rfl, hw⟩ := hgs
  exact ⟨j + k, v ++ w, (List.append_assoc ..).symm, hv.append hw⟩

theorem InFront.cons {f : Field} (hf : InFront [f] b mid) (hfs : InFront fs mid left) :
    InFront (f :: fs) b left :=
  hf.append hfs

theorem InFront.of_write {f : Field} {w : Bytes} (hw : f.write = .ok w) :
    InFront [f] (w ++ left) left :=
  ⟨0, w, rfl, by simpa using Field.Spelling.written hw .nil⟩

theorem InFront.properties {ps : Properties} {k : Nat} {u v : Bytes}
    (hlength : Varint.Spelling k v.length u) (hps : InFront ps.body v []) :
    InFront ps.fields (u ++ (v ++ left)) left := by
  obtain ⟨j, w, hv, hw⟩ := hps
  obtain rfl : v = w := by simpa using hv
  refine ⟨k + j, u ++ v, (List.append_assoc ..).symm, ?_⟩
  simpa using Field.Spelling.properties hlength hw .nil

theorem inFront_of_byte {v : UInt8} (h : byte b = .ok (v, left)) : InFront [.byte v] b left := by
  rw [byte_eq_ok.1 h]
  exact .of_write (w := [v]) rfl

theorem inFront_of_word {v : UInt16} (h : word b = .ok (v, left)) : InFront [.word v] b left := by
  rw [word_eq_ok.1 h]
  exact .of_write rfl

theorem inFront_of_long {v : UInt32} (h : long b = .ok (v, left)) : InFront [.long v] b left := by
  rw [long_eq_ok.1 h]
  exact .of_write rfl

theorem inFront_of_varint {n : Nat} (h : varint b = .ok (n, left)) :
    n ≤ Varint.limit ∧ InFront [.varint n] b left := by
  obtain ⟨w, rfl, hdigits, hle⟩ := varint_eq_ok.1 h
  obtain ⟨k, hw⟩ := hdigits.spelling hle
  exact ⟨hw.le_limit, k, w, rfl, by simpa using Field.Spelling.varint hw .nil⟩

theorem inFront_of_binary {v : Bytes} (h : binary b = .ok (v, left)) :
    v.Fits ∧ InFront [.binary v] b left := by
  obtain ⟨hfits, rfl⟩ := binary_eq_ok.1 h
  exact ⟨hfits, .of_write (Field.write_binary_eq_ok.2 ⟨hfits, rfl⟩)⟩

theorem inFront_of_utf8 {v : Bytes} (h : utf8 b = .ok (v, left)) :
    v.IsTextField ∧ InFront [.binary v] b left := by
  obtain ⟨hbinary, htext⟩ := utf8_eq_ok.1 h
  obtain ⟨hfits, hv⟩ := inFront_of_binary hbinary
  exact ⟨⟨hfits, htext⟩, hv⟩

theorem inFront_of_text {v : String} (h : text b = .ok (v, left)) :
    (Bytes.ofText v).Fits ∧ InFront [.binary (Bytes.ofText v)] b left :=
  inFront_of_binary (text_eq_ok.1 h)

theorem inFront_of_packetId {v : UInt16} (h : packetId b = .ok (v, left)) :
    v ≠ 0 ∧ InFront [.word v] b left := by
  obtain ⟨hword, hv⟩ := packetId_eq_ok.1 h
  exact ⟨hv, inFront_of_word hword⟩

theorem inFront_of_topicName {v : Bytes} (h : topicName b = .ok (v, left)) :
    v.IsTopicField ∧ InFront [.binary v] b left := by
  obtain ⟨hutf8, hwildcard⟩ := topicName_eq_ok.1 h
  obtain ⟨htext, hv⟩ := inFront_of_utf8 hutf8
  have hmem : ∀ x ∈ v, ¬isWildcard x = true := List.any_eq_false.1 hwildcard
  exact ⟨⟨htext, fun hx => hmem _ hx rfl, fun hx => hmem _ hx rfl⟩, hv⟩

theorem inFront_of_rest {v : Bytes} (h : rest b = .ok (v, left)) :
    left = [] ∧ InFront [.raw v] b left := by
  obtain ⟨rfl, rfl⟩ := rest_eq_ok.1 h
  have hv : InFront [.raw v] (v ++ []) [] := .of_write rfl
  rw [List.append_nil] at hv
  exact ⟨rfl, hv⟩

theorem inFront_of_optional {present : Bool} {r : FieldReader Bytes α} {F : α → List Field}
    {Q : α → Prop} {o : Option α}
    (hr : ∀ a left, r b = .ok (a, left) → Q a ∧ InFront (F a) b left)
    (h : optional present r b = .ok (o, left)) :
    o.isSome = present ∧ (∀ a ∈ o, Q a) ∧ InFront (o.elim [] F) b left := by
  cases present with
  | false =>
    obtain ⟨rfl, rfl⟩ := pure_eq_ok.1 h
    exact ⟨rfl, nofun, .nil⟩
  | true =>
    obtain ⟨a, ha, rfl⟩ := map_eq_ok.1 h
    obtain ⟨hQ, hF⟩ := hr a left ha
    exact ⟨rfl, fun a' ha' => Option.some.inj ha' ▸ hQ, hF⟩

/-- Reading items until nothing is left leaves nothing, and the items stand one behind another. -/
theorem inFront_of_many {r : FieldReader Bytes α} {F : α → List Field} {Q : α → Prop}
    {as : List α} (hr : ∀ b a left, r b = .ok (a, left) → Q a ∧ InFront (F a) b left)
    (h : many r b = .ok (as, left)) :
    left = [] ∧ (∀ a ∈ as, Q a) ∧ InFront (as.flatMap F) b [] := by
  -- What was found before is in the accumulator; `new` is what the rounds still add.
  have hgo : ∀ rounds found b, many.go r rounds found b = .ok (as, left) →
      ∃ new, as = found.reverse ++ new ∧ left = [] ∧ (∀ a ∈ new, Q a) ∧
        InFront (new.flatMap F) b [] := by
    intro rounds
    induction rounds with
    | zero =>
      intro found b h
      cases b with
      | nil =>
        cases h
        exact ⟨[], by simp, rfl, nofun, .nil⟩
      | cons x b => cases h
    | succ rounds ih =>
      intro found b h
      cases b with
      | nil =>
        cases h
        exact ⟨[], by simp, rfl, nofun, .nil⟩
      | cons x b =>
        obtain ⟨_, _, hn, h⟩ := bind_eq_ok.1 h
        cases hn
        obtain ⟨a, mid, ha, h⟩ := bind_eq_ok.1 h
        obtain ⟨new, rfl, hleft, hnew, hfront⟩ := ih (a :: found) mid h
        obtain ⟨hQ, hF⟩ := hr _ a mid ha
        exact ⟨a :: new, by simp, hleft, List.forall_mem_cons.2 ⟨hQ, hnew⟩, hF.append hfront⟩
  obtain ⟨n, _, hn, h⟩ := bind_eq_ok.1 h
  cases hn
  obtain ⟨new, rfl, hleft, hnew⟩ := hgo _ _ _ h
  exact ⟨hleft, hnew⟩

end FieldReader

open FieldReader

variable {b left : Bytes}

theorem Shape.inFront_of_read : ∀ {shape : Shape} {v : shape.Value},
    shape.read b = .ok (v, left) → shape.Fits v ∧ InFront (shape.fields v) b left
  | .byte, _, h => ⟨trivial, inFront_of_byte h⟩
  | .word, _, h => ⟨trivial, inFront_of_word h⟩
  | .long, _, h => ⟨trivial, inFront_of_long h⟩
  | .varint, _, h => inFront_of_varint h
  | .text, _, h => inFront_of_text h
  | .binary, _, h => inFront_of_binary h
  | .textPair, _, h => by
    obtain ⟨key, mid, hkey, h⟩ := bind_eq_ok.1 h
    obtain ⟨value, _, hvalue, h⟩ := bind_eq_ok.1 h
    obtain ⟨rfl, rfl⟩ := pure_eq_ok.1 h
    obtain ⟨hfits, hfront⟩ := inFront_of_text hkey
    obtain ⟨hfits', hfront'⟩ := inFront_of_text hvalue
    exact ⟨⟨hfits, hfits'⟩, hfront.cons hfront'⟩

theorem Property.inFront_of_read {p : Property} (h : Property.read b = .ok (p, left)) :
    p.Fits ∧ InFront p.fields b left := by
  obtain ⟨id, mid, hid, h⟩ := bind_eq_ok.1 h
  obtain ⟨-, hid⟩ := inFront_of_varint hid
  cases hname : PropertyName.ofId? id with
  | none =>
    rw [hname] at h
    cases h
  | some name =>
    rw [hname] at h
    obtain ⟨value, _, hvalue, h⟩ := bind_eq_ok.1 h
    obtain ⟨rfl, rfl⟩ := pure_eq_ok.1 h
    obtain ⟨hfits, hvalue⟩ := Shape.inFront_of_read hvalue
    rw [← PropertyName.id_of_ofId? hname] at hid
    exact ⟨hfits, hid.cons hvalue⟩

namespace Properties

theorem inFront_of_read {ps : Properties} (h : Properties.read b = .ok (ps, left)) :
    (∀ p ∈ ps, p.Fits) ∧ InFront ps.fields b left := by
  obtain ⟨n, mid, hn, h⟩ := bind_eq_ok.1 h
  obtain ⟨w, spare, rfl, rfl, hmany⟩ := within_eq_ok.1 h
  obtain ⟨-, hfits, hps⟩ := inFront_of_many (fun _ _ _ => Property.inFront_of_read) hmany
  obtain ⟨u, rfl, hdigits, hle⟩ := varint_eq_ok.1 hn
  obtain ⟨k, hlength⟩ := hdigits.spelling hle
  exact ⟨hfits, .properties hlength hps⟩

theorem inFront_of_readAt {v5 : Bool} {ps : Properties} (h : readAt v5 b = .ok (ps, left)) :
    ps.Canonical v5 ∧ InFront (ps.fieldsAt v5) b left := by
  cases v5 with
  | true =>
    obtain ⟨hfits, hps⟩ := inFront_of_read h
    exact ⟨⟨hfits, nofun⟩, hps⟩
  | false =>
    obtain ⟨rfl, rfl⟩ := pure_eq_ok.1 h
    exact ⟨⟨nofun, fun _ => rfl⟩, .nil⟩

end Properties

namespace ReasonTail

theorem inFront_of_read {tail : ReasonTail} (h : ReasonTail.read b = .ok (tail, left)) :
    tail.Canonical true ∧ ∃ k fs, tail.Layout k fs ∧ InFront fs b left := by
  obtain ⟨-, rfl, rfl⟩ | ⟨-, h⟩ := unlessAtEnd_eq_ok.1 h
  · exact ⟨by decide, 0, [], .written {}, .nil⟩
  obtain ⟨code, _, hcode, h⟩ := bind_eq_ok.1 h
  have hcode := inFront_of_byte hcode
  obtain ⟨-, rfl, rfl⟩ | ⟨-, h⟩ := unlessAtEnd_eq_ok.1 h
  · refine ⟨⟨nofun, ⟨nofun, nofun⟩⟩, ?_⟩
    by_cases hzero : code = 0
    · subst hzero
      exact ⟨1, _, .zeroCode, hcode⟩
    · exact ⟨0, _, .written _, fields_of_ne_zero hzero ▸ hcode⟩
  obtain ⟨properties, _, hps, h⟩ := bind_eq_ok.1 h
  obtain ⟨rfl, rfl⟩ := pure_eq_ok.1 h
  obtain ⟨hfits, hps⟩ := Properties.inFront_of_read hps
  refine ⟨⟨nofun, ⟨hfits, nofun⟩⟩, ?_⟩
  by_cases hnil : properties = []
  · -- A list may be empty and still be there, which is never how it is written.
    subst hnil
    exact ⟨1, _, .emptyList code, hcode.cons hps⟩
  · exact ⟨0, _, .written _, fields_of_ne_nil hnil ▸ hcode.cons hps⟩

theorem inFront_of_readAt {v5 : Bool} {tail : ReasonTail} (h : readAt v5 b = .ok (tail, left)) :
    tail.Canonical v5 ∧ ∃ k fs, tail.LayoutAt v5 k fs ∧ InFront fs b left := by
  cases v5 with
  | true => exact inFront_of_read h
  | false =>
    obtain ⟨rfl, rfl⟩ := pure_eq_ok.1 h
    exact ⟨⟨fun _ => rfl, ⟨nofun, fun _ => rfl⟩⟩, 0, [], ⟨rfl, rfl⟩, .nil⟩

end ReasonTail

theorem Ack.inFront_of_read {v5 : Bool} {a : Ack} (h : Ack.read v5 b = .ok (a, left)) :
    a.Canonical v5 ∧ ∃ k fs, a.Layout v5 k fs ∧ InFront fs b left := by
  simp only [Ack.read, bind_eq_ok, pure_eq_ok] at h
  obtain ⟨id, _, hid, tail, _, htail, rfl, rfl⟩ := h
  obtain ⟨hzero, hid⟩ := inFront_of_packetId hid
  obtain ⟨hcanonical, k, fs, hlayout, htail⟩ := ReasonTail.inFront_of_readAt htail
  exact ⟨⟨hzero, hcanonical⟩, k, _, ⟨fs, hlayout, rfl⟩, hid.cons htail⟩

theorem SubAck.inFront_of_read {v5 : Bool} {s : SubAck} (h : SubAck.read v5 b = .ok (s, left)) :
    s.Canonical v5 ∧ InFront (s.fields v5) b left := by
  simp only [SubAck.read, bind_eq_ok, pure_eq_ok] at h
  obtain ⟨id, _, hid, ps, _, hps, codes, _, hcodes, rfl, rfl⟩ := h
  obtain ⟨hzero, hid⟩ := inFront_of_packetId hid
  obtain ⟨hcanonical, hps⟩ := Properties.inFront_of_readAt hps
  obtain ⟨-, hcodes⟩ := inFront_of_rest hcodes
  exact ⟨⟨hzero, hcanonical⟩, hid.cons (hps.append hcodes)⟩

theorem UnsubAck.inFront_of_read {v5 : Bool} {u : UnsubAck}
    (h : UnsubAck.read v5 b = .ok (u, left)) :
    u.Canonical v5 ∧ InFront (u.fields v5) b left := by
  obtain ⟨id, _, hid, h⟩ := bind_eq_ok.1 h
  obtain ⟨hzero, hid⟩ := inFront_of_packetId hid
  cases v5 with
  | true =>
    simp only [if_true, bind_eq_ok, pure_eq_ok] at h
    obtain ⟨ps, _, hps, codes, _, hcodes, rfl, rfl⟩ := h
    obtain ⟨hfits, hps⟩ := Properties.inFront_of_read hps
    obtain ⟨-, hcodes⟩ := inFront_of_rest hcodes
    exact ⟨⟨hzero, ⟨hfits, nofun⟩, nofun⟩, hid.cons (hps.append hcodes)⟩
  | false =>
    obtain ⟨rfl, rfl⟩ := pure_eq_ok.1 h
    exact ⟨⟨hzero, ⟨nofun, fun _ => rfl⟩, fun _ => rfl⟩, hid⟩

theorem Unsubscribe.inFront_of_read {v5 : Bool} {u : Unsubscribe}
    (h : Unsubscribe.read v5 b = .ok (u, left)) :
    u.Canonical v5 ∧ InFront (u.fields v5) b left := by
  simp only [Unsubscribe.read, bind_eq_ok, refuseIf_eq_ok, pure_eq_ok] at h
  obtain ⟨id, _, hid, ps, _, hps, filters, _, hfilters, _, _, ⟨hnil, rfl⟩, rfl, rfl⟩ := h
  obtain ⟨hzero, hid⟩ := inFront_of_packetId hid
  obtain ⟨hcanonical, hps⟩ := Properties.inFront_of_readAt hps
  obtain ⟨rfl, htexts, hfilters⟩ := inFront_of_many (fun _ _ _ => inFront_of_utf8) hfilters
  rw [← List.map_eq_flatMap] at hfilters
  exact ⟨⟨hzero, hcanonical, List.isEmpty_eq_false_iff.1 hnil, htexts⟩,
    hid.cons (hps.append hfilters)⟩

theorem Flag.weight_test (b : UInt8) (i : Nat) :
    weight i (test b i) = 2 ^ i * (b.toNat / 2 ^ i % 2) := by
  rw [weight, test, Nat.testBit_eq_decide_div_mod_eq]
  rcases Nat.mod_two_eq_zero_or_one (b.toNat / 2 ^ i) with h | h <;> simp [h]

theorem SubscriptionOptions.toByte_ofByte {v5 : Bool} {x : UInt8} {o : SubscriptionOptions}
    (h : ofByte v5 x b = .ok (o, left)) : o.Canonical v5 ∧ o.toByte v5 = x ∧ b = left := by
  simp only [ofByte, bind_eq_ok, refuseIf_eq_ok, qosOf_eq_ok, pure_eq_ok] at h
  obtain ⟨_, _, ⟨hclear, rfl⟩, qos, _, ⟨hqos, rfl⟩, rfl, rfl⟩ := h
  obtain ⟨hspare, hhandling⟩ := Bool.or_eq_false_iff.1 hclear
  have hhandling : x.toNat / 16 % 4 ≠ 3 := by simpa using hhandling
  have hrank : qos.rank = x.toNat % 4 := by
    rw [← QoS.toNat_code, QoS.code_of_ofCode? hqos, UInt8.toNat_ofNat']
    omega
  have hlast : (UInt8.ofNat (x.toNat / 16 % 4)).toNat = x.toNat / 16 % 4 := by
    rw [UInt8.toNat_ofNat']
    omega
  cases v5 with
  | true =>
    have hlt : x.toNat < 64 := by simpa using hspare
    refine ⟨⟨?_, nofun⟩, ?_, rfl⟩
    · rw [UInt8.le_iff_toNat_le, hlast]
      change x.toNat / 16 % 4 ≤ 2
      omega
    · simp only [toByte, if_true, Flag.weight_test, hrank, hlast]
      apply UInt8.toNat_inj.1
      rw [UInt8.toNat_ofNat']
      omega
  | false =>
    have hlt : x.toNat < 4 := by simpa using hspare
    have hzero : x.toNat / 16 % 4 = 0 := by omega
    have hbits : Flag.test x 2 = false ∧ Flag.test x 3 = false :=
      ⟨Nat.testBit_lt_two_pow (by omega), Nat.testBit_lt_two_pow (by omega)⟩
    refine ⟨⟨?_, fun _ => ?_⟩, ?_, rfl⟩
    · change UInt8.ofNat (x.toNat / 16 % 4) ≤ 2
      rw [hzero]
      decide
    · rw [hbits.1, hbits.2, hzero]
      rfl
    · have hmod : x.toNat % 4 = x.toNat := Nat.mod_eq_of_lt hlt
      exact (QoS.code_of_ofCode? hqos).trans (by rw [hmod, UInt8.ofNat_toNat])

theorem Subscribe.inFront_of_readFilter {v5 : Bool} {f : Bytes × SubscriptionOptions}
    (h : readFilter v5 b = .ok (f, left)) :
    (f.1.IsTextField ∧ f.2.Canonical v5) ∧
      InFront [.binary f.1, .byte (f.2.toByte v5)] b left := by
  simp only [readFilter, bind_eq_ok, pure_eq_ok] at h
  obtain ⟨filter, _, hfilter, x, _, hx, options, _, hoptions, rfl, rfl⟩ := h
  obtain ⟨htext, hfilter⟩ := inFront_of_utf8 hfilter
  obtain ⟨hcanonical, rfl, rfl⟩ := SubscriptionOptions.toByte_ofByte hoptions
  exact ⟨⟨htext, hcanonical⟩, hfilter.cons (inFront_of_byte hx)⟩

theorem Subscribe.inFront_of_read {v5 : Bool} {s : Subscribe}
    (h : Subscribe.read v5 b = .ok (s, left)) :
    s.Canonical v5 ∧ InFront (s.fields v5) b left := by
  simp only [Subscribe.read, bind_eq_ok, refuseIf_eq_ok, pure_eq_ok] at h
  obtain ⟨id, _, hid, ps, _, hps, filters, _, hfilters, _, _, ⟨hnil, rfl⟩, rfl, rfl⟩ := h
  obtain ⟨hzero, hid⟩ := inFront_of_packetId hid
  obtain ⟨hcanonical, hps⟩ := Properties.inFront_of_readAt hps
  obtain ⟨rfl, hcanonicals, hfilters⟩ :=
    inFront_of_many (fun _ _ _ => inFront_of_readFilter) hfilters
  exact ⟨⟨hzero, hcanonical, List.isEmpty_eq_false_iff.1 hnil, hcanonicals⟩,
    hid.cons (hps.append hfilters)⟩

theorem ConnAck.inFront_of_read {v5 : Bool} {c : ConnAck}
    (h : ConnAck.read v5 b = .ok (c, left)) :
    Properties.Canonical v5 c.properties ∧ InFront (c.fields v5) b left := by
  simp only [ConnAck.read, bind_eq_ok, refuseIf_eq_ok, pure_eq_ok] at h
  obtain ⟨flags, _, hflags, _, _, ⟨hclear, rfl⟩, code, _, hcode, ps, _, hps, rfl, rfl⟩ := h
  obtain ⟨hcanonical, hps⟩ := Properties.inFront_of_readAt hps
  have hlt : flags.toNat < 2 := by simpa [UInt8.le_iff_toNat_le] using hclear
  have hset : UInt8.ofNat (Flag.weight 0 (Flag.test flags 0)) = flags := by
    rw [Flag.weight_test]
    apply UInt8.toNat_inj.1
    rw [UInt8.toNat_ofNat']
    omega
  refine ⟨hcanonical, InFront.cons ?_ ((inFront_of_byte hcode).cons hps)⟩
  rw [hset]
  exact inFront_of_byte hflags

theorem Publish.inFront_of_read {v5 : Bool} {flags : UInt8} {p : Publish} (hflags : flags < 16)
    (h : Publish.read flags v5 b = .ok (p, left)) :
    p.Canonical v5 ∧ UInt8.ofNat p.flags = flags ∧ InFront (p.fields v5) b left := by
  simp only [Publish.read, bind_eq_ok, refuseIf_eq_ok, qosOf_eq_ok, pure_eq_ok] at h
  obtain ⟨qos, _, ⟨hqos, rfl⟩, _, _, ⟨hdup, rfl⟩, topic, _, htopic, id, _, hid, ps, _, hps, payload,
    _, hpayload, rfl, rfl⟩ := h
  obtain ⟨hname, htopic⟩ := inFront_of_topicName htopic
  obtain ⟨hsome, hzero, hid⟩ := inFront_of_optional (fun _ _ => inFront_of_packetId) hid
  obtain ⟨hcanonical, hps⟩ := Properties.inFront_of_readAt hps
  obtain ⟨-, hpayload⟩ := inFront_of_rest hpayload
  have hrank : qos.rank = flags.toNat / 2 % 4 := by
    rw [← QoS.toNat_code, QoS.code_of_ofCode? hqos, UInt8.toNat_ofNat']
    omega
  refine ⟨⟨hname, ?_, ?_, ?_, hcanonical⟩, ?_, ?_⟩
  · cases id <;> simp_all
  · intro hid
    exact hzero 0 hid rfl
  · intro (hset : Flag.test flags 3 = true) (hqos : qos = .atMostOnce)
    rw [hset, hqos] at hdup
    cases hdup
  · have hlt : flags.toNat < 16 := UInt8.lt_iff_toNat_lt.1 hflags
    simp only [Publish.flags, Flag.weight_test, hrank]
    apply UInt8.toNat_inj.1
    rw [UInt8.toNat_ofNat']
    omega
  · refine htopic.cons (InFront.append ?_ (hps.append hpayload))
    rw [idFields_eq hsome]
    exact hid

theorem ConnectFlags.toByte_ofByte (x : UInt8) : (ofByte x).toByte = x := by
  have := x.toNat_lt
  simp only [toByte, ofByte, Flag.weight_test]
  apply UInt8.toNat_inj.1
  simp only [UInt8.toNat_ofNat']
  omega

theorem Will.inFront_of_read {v5 : Bool} {flags : ConnectFlags} {w : Will}
    (h : Will.read v5 flags b = .ok (w, left)) :
    (w.Canonical v5 ∧ w.qos.code = flags.willQoS ∧ w.retain = flags.willRetain) ∧
      InFront (w.fields v5) b left := by
  simp only [Will.read, bind_eq_ok, qosOf_eq_ok, pure_eq_ok] at h
  obtain ⟨ps, _, hps, topic, _, htopic, payload, _, hpayload, qos, _, ⟨hqos, rfl⟩, rfl, rfl⟩ := h
  obtain ⟨hcanonical, hps⟩ := Properties.inFront_of_readAt hps
  obtain ⟨hname, htopic⟩ := inFront_of_topicName htopic
  obtain ⟨hfits, hpayload⟩ := inFront_of_binary hpayload
  exact ⟨⟨⟨hname, hfits, hcanonical⟩, QoS.code_of_ofCode? hqos, rfl⟩,
    hps.append (htopic.cons hpayload)⟩

theorem Connect.flags_eq {c : Connect} {f : ConnectFlags} {v5 : Bool}
    (hvalid : f.isValid v5 = true) (hclean : c.cleanSession = f.clean)
    (hwill : c.will.isSome = f.will)
    (hbits : ∀ w ∈ c.will, w.qos.code = f.willQoS ∧ w.retain = f.willRetain)
    (husername : c.username.isSome = f.username) (hpassword : c.password.isSome = f.password) :
    c.flags = f := by
  obtain ⟨reserved, clean, will, willQoS, willRetain, password, username⟩ := f
  cases h : c.will <;> simp_all [flags, ConnectFlags.isValid]

theorem Connect.inFront_of_read {c : Connect} (h : Connect.read b = .ok (c, left)) :
    c.Canonical ∧ InFront c.fields b left := by
  simp only [Connect.read, bind_eq_ok, refuseIf_eq_ok, pure_eq_ok] at h
  obtain ⟨name, _, hname, level, _, hlevel, x, _, hx, keepAlive, _, hkeepAlive, _, _, ⟨hvalid, rfl⟩,
    ps, _, hps, clientId, _, hclientId, will, _, hwill, username, _, husername, password, _,
    hpassword, rfl, rfl⟩ := h
  rw [Bool.not_eq_false'] at hvalid
  obtain ⟨hnameText, hname⟩ := inFront_of_utf8 hname
  obtain ⟨hcanonical, hps⟩ := Properties.inFront_of_readAt hps
  obtain ⟨hclientText, hclientId⟩ := inFront_of_utf8 hclientId
  obtain ⟨hwillSome, hwills, hwill⟩ := inFront_of_optional (fun _ _ => Will.inFront_of_read) hwill
  obtain ⟨huserSome, husers, husername⟩ :=
    inFront_of_optional (fun _ _ => inFront_of_utf8) husername
  obtain ⟨hpassSome, hpasses, hpassword⟩ :=
    inFront_of_optional (fun _ _ => inFront_of_binary) hpassword
  have hflags : flags ⟨name, level, (ConnectFlags.ofByte x).clean, keepAlive, ps, clientId, will,
      username, password⟩ = ConnectFlags.ofByte x :=
    flags_eq hvalid rfl hwillSome (fun w hw => (hwills w hw).2) huserSome hpassSome
  -- The flag byte is written from the packet, so the packet has to give back every bit of it.
  have hx := inFront_of_byte hx
  rw [← ConnectFlags.toByte_ofByte x, ← hflags] at hx
  have hwillCanonical := fun w hw => (hwills w hw).1
  refine ⟨⟨hnameText, hcanonical, hclientText, hwillCanonical, husers, hpasses, ?_⟩, ?_⟩
  · intro hv5 hpassword
    simp_all [isV5, ConnectFlags.isValid]
  · exact hname.cons <| (inFront_of_byte hlevel).cons <| hx.cons <|
      (inFront_of_word hkeepAlive).cons <| hps.append <| hclientId.cons <|
      hwill.append <| husername.append hpassword

theorem Packet.inFront_of_readBody {level : Level} {kind : Kind} {flags : UInt8} {p : Packet}
    (hflags : flags < 16)
    (hcheck : checkFlags kind flags = .ok ())
    (h : readBody kind flags level b = .ok (p, left)) :
    (p.kind = kind ∧ UInt8.ofNat p.flags = flags) ∧ p.BodyCanonical level ∧
      ∃ k fs, p.Layout level k fs ∧ InFront fs b left := by
  have hfixed := checkFlags_eq_ok.1 hcheck
  cases kind with
  | connect =>
    obtain ⟨c, hc, rfl⟩ := map_eq_ok.1 h
    obtain ⟨hcanonical, hfields⟩ := Connect.inFront_of_read hc
    exact ⟨⟨rfl, (hfixed 0 rfl).symm⟩, hcanonical, 0, _, ⟨rfl, rfl⟩, hfields⟩
  | connAck =>
    obtain ⟨c, hc, rfl⟩ := map_eq_ok.1 h
    obtain ⟨hcanonical, hfields⟩ := ConnAck.inFront_of_read hc
    exact ⟨⟨rfl, (hfixed 0 rfl).symm⟩, hcanonical, 0, _, ⟨rfl, rfl⟩, hfields⟩
  | publish =>
    obtain ⟨q, hq, rfl⟩ := map_eq_ok.1 h
    obtain ⟨hcanonical, hnibble, hfields⟩ := Publish.inFront_of_read hflags hq
    exact ⟨⟨rfl, hnibble⟩, hcanonical, 0, _, ⟨rfl, rfl⟩, hfields⟩
  | pubAck =>
    obtain ⟨a, ha, rfl⟩ := map_eq_ok.1 h
    exact ⟨⟨rfl, (hfixed 0 rfl).symm⟩, Ack.inFront_of_read ha⟩
  | pubRec =>
    obtain ⟨a, ha, rfl⟩ := map_eq_ok.1 h
    exact ⟨⟨rfl, (hfixed 0 rfl).symm⟩, Ack.inFront_of_read ha⟩
  | pubRel =>
    obtain ⟨a, ha, rfl⟩ := map_eq_ok.1 h
    exact ⟨⟨rfl, (hfixed 2 rfl).symm⟩, Ack.inFront_of_read ha⟩
  | pubComp =>
    obtain ⟨a, ha, rfl⟩ := map_eq_ok.1 h
    exact ⟨⟨rfl, (hfixed 0 rfl).symm⟩, Ack.inFront_of_read ha⟩
  | subscribe =>
    obtain ⟨s, hs, rfl⟩ := map_eq_ok.1 h
    obtain ⟨hcanonical, hfields⟩ := Subscribe.inFront_of_read hs
    exact ⟨⟨rfl, (hfixed 2 rfl).symm⟩, hcanonical, 0, _, ⟨rfl, rfl⟩, hfields⟩
  | subAck =>
    obtain ⟨s, hs, rfl⟩ := map_eq_ok.1 h
    obtain ⟨hcanonical, hfields⟩ := SubAck.inFront_of_read hs
    exact ⟨⟨rfl, (hfixed 0 rfl).symm⟩, hcanonical, 0, _, ⟨rfl, rfl⟩, hfields⟩
  | unsubscribe =>
    obtain ⟨u, hu, rfl⟩ := map_eq_ok.1 h
    obtain ⟨hcanonical, hfields⟩ := Unsubscribe.inFront_of_read hu
    exact ⟨⟨rfl, (hfixed 2 rfl).symm⟩, hcanonical, 0, _, ⟨rfl, rfl⟩, hfields⟩
  | unsubAck =>
    obtain ⟨u, hu, rfl⟩ := map_eq_ok.1 h
    obtain ⟨hcanonical, hfields⟩ := UnsubAck.inFront_of_read hu
    exact ⟨⟨rfl, (hfixed 0 rfl).symm⟩, hcanonical, 0, _, ⟨rfl, rfl⟩, hfields⟩
  | pingReq =>
    obtain ⟨rfl, rfl⟩ := pure_eq_ok.1 h
    exact ⟨⟨rfl, (hfixed 0 rfl).symm⟩, trivial, 0, [], ⟨rfl, rfl⟩, .nil⟩
  | pingResp =>
    obtain ⟨rfl, rfl⟩ := pure_eq_ok.1 h
    exact ⟨⟨rfl, (hfixed 0 rfl).symm⟩, trivial, 0, [], ⟨rfl, rfl⟩, .nil⟩
  | disconnect =>
    obtain ⟨tail, htail, rfl⟩ := map_eq_ok.1 h
    exact ⟨⟨rfl, (hfixed 0 rfl).symm⟩, ReasonTail.inFront_of_readAt htail⟩
  | auth =>
    cases level with
    | v5 =>
      obtain ⟨tail, htail, rfl⟩ := map_eq_ok.1 h
      obtain ⟨hcanonical, hlayout⟩ := ReasonTail.inFront_of_read htail
      exact ⟨⟨rfl, (hfixed 0 rfl).symm⟩, ⟨rfl, hcanonical⟩, hlayout⟩
    | v31 | v311 => cases h

end MqttBroker
