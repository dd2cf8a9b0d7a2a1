import MqttBroker.Proofs.Packet.Written
/-! Canonical packets are read back from what is written for them. -/

namespace MqttBroker

open FieldReader

theorem Shape.reads : ∀ (shape : Shape) (v : shape.Value), shape.Fits v →
    Reads shape.read (shape.fields v) v
  | .byte, v, _ => .byte v
  | .word, v, _ => .word v
  | .long, v, _ => .long v
  | .varint, _, h => .varint h
  | .text, _, h => .text h
  | .binary, _, h => .binary h
  | .textPair, _, h => (Reads.text h.1).bind ((Reads.text h.2).bind (.pure rfl))

theorem PropertyName.id_le_limit (name : PropertyName) : name.id ≤ Varint.limit := by
  cases name <;> decide

theorem Property.reads {p : Property} (h : p.Fits) : Reads Property.read p.fields p := by
  have hvalue := p.name.shape.reads p.value h
  refine (Reads.varint p.name.id_le_limit).bind ?_
  rw [PropertyName.ofId?_id]
  exact hvalue.bind_pure rfl

theorem Property.totalSize_pos (p : Property) : 0 < Field.totalSize p.fields :=
  Nat.add_pos_left (Varint.size_pos p.name.id) _

namespace Properties

theorem reads {ps : Properties} (h : ∀ p ∈ ps, p.Fits) : Reads Properties.read (fields ps) ps := by
  rw [ps.fields_eq]
  intro hsize
  have hbody : Field.totalSize (body ps) ≤ Varint.limit := by
    simp only [Field.totalSize] at hsize
    omega
  have hlist : ReadsAll (many Property.read) (body ps) ps :=
    .many fun p hp => ⟨Property.reads (h p hp), p.totalSize_pos⟩
  exact (Reads.varint hbody).bind (.within hlist) hsize

theorem readsAt {v5 : Bool} {ps : Properties} (h : ps.Canonical v5) :
    Reads (readAt v5) (fieldsAt v5 ps) ps := by
  cases v5 with
  | true => exact reads h.fits
  | false => exact .pure (h.eq_nil rfl).symm

theorem totalSize_fields_pos (ps : Properties) : 0 < Field.totalSize (fields ps) :=
  Nat.add_pos_left (Varint.size_pos _) _

end Properties

namespace ReasonTail

theorem reads {tail : ReasonTail} (h : tail.Canonical true) :
    ReadsAll ReasonTail.read tail.fields tail := by
  obtain ⟨code, properties⟩ := tail
  by_cases hps : properties = []
  · subst hps
    by_cases hcode : code = 0
    · subst hcode
      exact .unlessAtEnd_nil
    · rw [fields_of_ne_zero hcode]
      exact .unlessAtEnd ((Reads.byte code).bindAll .unlessAtEnd_nil) Nat.one_pos
  · rw [fields_of_ne_nil hps]
    have hlist := (Properties.reads h.properties.fits).bind_pure
      (f := fun ps => pure ({ code, properties := ps } : ReasonTail)) rfl
    exact .unlessAtEnd ((Reads.byte code).bindAll
      (.unlessAtEnd hlist.all properties.totalSize_fields_pos)) (Nat.add_pos_left Nat.one_pos _)

theorem readsAt {v5 : Bool} {tail : ReasonTail} (h : tail.Canonical v5) :
    ReadsAll (readAt v5) (tail.fieldsAt v5) tail := by
  cases v5 with
  | true => exact reads h
  | false =>
    obtain ⟨code, properties⟩ := tail
    obtain rfl : code = 0 := h.code_eq_zero rfl
    obtain rfl : properties = [] := h.properties.eq_nil rfl
    exact (Reads.pure rfl).all

end ReasonTail

theorem Ack.reads {v5 : Bool} {a : Ack} (h : a.Canonical v5) :
    ReadsAll (Ack.read v5) (a.fields v5) a := by
  have hid := Reads.packetId h.packetId_ne_zero
  have htail := ReasonTail.readsAt h.tail
  exact hid.bindAll (htail.bind_pure rfl)

theorem SubAck.reads {v5 : Bool} {s : SubAck} (h : s.Canonical v5) :
    ReadsAll (SubAck.read v5) (s.fields v5) s := by
  have hid := Reads.packetId h.packetId_ne_zero
  have hps := Properties.readsAt h.properties
  have hcodes := ReadsAll.rest s.returnCodes
  exact hid.bindAll (hps.bindAll (hcodes.bind_pure rfl))

theorem UnsubAck.reads {v5 : Bool} {u : UnsubAck} (h : u.Canonical v5) :
    ReadsAll (UnsubAck.read v5) (u.fields v5) u := by
  apply (Reads.packetId h.packetId_ne_zero).bindAll
  cases v5 with
  | true =>
    have hps := Properties.reads h.properties.fits
    have hcodes := ReadsAll.rest u.reasonCodes
    exact hps.bindAll (hcodes.bind_pure rfl)
  | false =>
    obtain ⟨packetId, properties, reasonCodes⟩ := u
    obtain rfl : properties = [] := h.properties.eq_nil rfl
    obtain rfl : reasonCodes = [] := h.reasonCodes_eq_nil rfl
    exact (Reads.pure rfl).all

theorem Field.totalSize_binary_pos (content : Bytes) (fs : List Field) :
    0 < totalSize (.binary content :: fs) := by
  simp only [totalSize, size]
  omega

theorem Unsubscribe.reads {v5 : Bool} {u : Unsubscribe} (h : u.Canonical v5) :
    ReadsAll (Unsubscribe.read v5) (u.fields v5) u := by
  have hfilters : ReadsAll (many utf8) (u.filters.flatMap fun f => [.binary f]) u.filters :=
    .many fun f hf => ⟨.utf8 (h.filters f hf), Field.totalSize_binary_pos _ _⟩
  rw [← List.map_eq_flatMap] at hfilters
  have hid := Reads.packetId h.packetId_ne_zero
  have hps := Properties.readsAt h.properties
  apply hid.bindAll
  apply hps.bindAll
  apply hfilters.bind_pure
  rw [List.isEmpty_eq_false_iff.2 h.filters_ne_nil]
  rfl

theorem SubscriptionOptions.ofByte_toByte {v5 : Bool} {o : SubscriptionOptions}
    (h : o.Canonical v5) (b : Bytes) : ofByte v5 (o.toByte v5) b = .ok (o, b) := by
  cases v5 with
  | true =>
    obtain ⟨qos, noLocal, retainAsPublished, retainHandling⟩ := o
    have hle := UInt8.le_iff_toNat_le.1 h.retainHandling_le
    have hcases : retainHandling = 0 ∨ retainHandling = 1 ∨ retainHandling = 2 := by
      simp only [← UInt8.toNat_inj]
      simp at hle ⊢
      omega
    obtain rfl | rfl | rfl := hcases <;> cases qos <;> cases noLocal <;> cases retainAsPublished <;>
      rfl
  | false =>
    rw [h.eq_qos rfl]
    cases o.qos <;> rfl

theorem Subscribe.readFilter_reads {v5 : Bool} {f : Bytes × SubscriptionOptions}
    (hfilter : f.1.IsTextField) (hoptions : f.2.Canonical v5) :
    Reads (readFilter v5) [.binary f.1, .byte (f.2.toByte v5)] f := by
  have hofByte : Reads (SubscriptionOptions.ofByte v5 (f.2.toByte v5)) [] f.2 :=
    fun _ => ⟨[], rfl, SubscriptionOptions.ofByte_toByte hoptions⟩
  exact (Reads.utf8 hfilter).bind <| (Reads.byte _).bind <| hofByte.bind_pure rfl

theorem Subscribe.reads {v5 : Bool} {s : Subscribe} (h : s.Canonical v5) :
    ReadsAll (Subscribe.read v5) (s.fields v5) s := by
  have hfilters : ReadsAll (many (readFilter v5))
      (s.filters.flatMap fun f => [.binary f.1, .byte (f.2.toByte v5)]) s.filters :=
    .many fun f hf =>
      ⟨readFilter_reads (h.filters f hf).1 (h.filters f hf).2, Field.totalSize_binary_pos _ _⟩
  have hid := Reads.packetId h.packetId_ne_zero
  have hps := Properties.readsAt h.properties
  apply hid.bindAll
  apply hps.bindAll
  apply hfilters.bind_pure
  rw [List.isEmpty_eq_false_iff.2 h.filters_ne_nil]
  rfl

theorem Flag.test_weight_zero (set : Bool) : test (UInt8.ofNat (weight 0 set)) 0 = set := by
  cases set <;> rfl

theorem ConnAck.reads {v5 : Bool} {c : ConnAck} (h : Properties.Canonical v5 c.properties) :
    Reads (ConnAck.read v5) (c.fields v5) c := by
  have hclear : decide (2 ≤ UInt8.ofNat (Flag.weight 0 c.sessionPresent)) = false := by
    cases c.sessionPresent <;> rfl
  apply (Reads.byte _).bind
  apply (Reads.refuseIf hclear).bind
  apply (Reads.byte c.code).bind
  apply (Properties.readsAt h).bind_pure
  rw [Flag.test_weight_zero]

namespace Publish

theorem test_flags_dup (p : Publish) : Flag.test (UInt8.ofNat p.flags) 3 = p.dup := by
  simp only [flags]
  cases p.dup <;> cases p.qos <;> cases p.retain <;> rfl

theorem test_flags_retain (p : Publish) : Flag.test (UInt8.ofNat p.flags) 0 = p.retain := by
  simp only [flags]
  cases p.dup <;> cases p.qos <;> cases p.retain <;> rfl

theorem qosBits_flags (p : Publish) :
    UInt8.ofNat ((UInt8.ofNat p.flags).toNat / 2 % 4) = p.qos.code := by
  simp only [flags]
  cases p.dup <;> cases p.qos <;> cases p.retain <;> rfl

theorem packetId_reads {v5 : Bool} {p : Publish} (h : p.Canonical v5) :
    Reads (FieldReader.optional (p.qos != .atMostOnce) FieldReader.packetId) p.idFields
      p.packetId := by
  rw [idFields_eq h.isSome_packetId, ← h.isSome_packetId]
  refine .optional fun id hid => .packetId ?_
  rintro rfl
  exact h.packetId_ne_zero hid

theorem reads {v5 : Bool} {p : Publish} (h : p.Canonical v5) :
    ReadsAll (Publish.read (UInt8.ofNat p.flags) v5) (p.fields v5) p := by
  have hdup : (p.qos == .atMostOnce && Flag.test (UInt8.ofNat p.flags) 3) = false := by
    rw [test_flags_dup, Bool.and_eq_false_imp]
    intro hqos
    apply Bool.eq_false_iff.2
    intro hdup
    exact h.qos_of_dup hdup (eq_of_beq hqos)
  have hps := Properties.readsAt h.properties
  apply (Reads.qosOf p.qosBits_flags).bindAll
  apply (Reads.refuseIf hdup).bindAll
  apply (Reads.topicName h.topic).bindAll
  apply (packetId_reads h).bindAll
  apply hps.bindAll
  apply (ReadsAll.rest p.payload).bind_pure
  rw [test_flags_dup, test_flags_retain]

end Publish

theorem ConnectFlags.ofByte_toByte {f : ConnectFlags} (qos : QoS) (h : f.willQoS = qos.code) :
    ofByte f.toByte = f := by
  obtain ⟨reserved, clean, will, willQoS, willRetain, password, username⟩ := f
  subst h
  cases reserved <;> cases clean <;> cases will <;> cases qos <;> cases willRetain <;>
    cases password <;> cases username <;> rfl

theorem Connect.ofByte_toByte_flags (c : Connect) :
    ConnectFlags.ofByte c.flags.toByte = c.flags := by
  cases h : c.will with
  | none => exact ConnectFlags.ofByte_toByte .atMostOnce (by simp only [flags, h]; rfl)
  | some w => exact ConnectFlags.ofByte_toByte w.qos (by simp only [flags, h])

theorem Connect.isValid_flags {c : Connect} (h : c.Canonical) : c.flags.isValid c.isV5 = true := by
  have hname := h.username_isSome
  cases hv5 : c.isV5 <;> cases hpassword : c.password.isSome <;> cases hwill : c.will <;>
    simp_all [flags, ConnectFlags.isValid]

theorem Will.reads {v5 : Bool} {w : Will} {flags : ConnectFlags} (h : w.Canonical v5)
    (hqos : flags.willQoS = w.qos.code) (hretain : flags.willRetain = w.retain) :
    Reads (Will.read v5 flags) (w.fields v5) w := by
  have hps := Properties.readsAt h.properties
  apply hps.bind
  apply (Reads.topicName h.topic).bind
  apply (Reads.binary h.payload).bind
  apply (Reads.qosOf hqos).bind_pure
  rw [hretain]

theorem Connect.reads {c : Connect} (h : c.Canonical) : Reads Connect.read c.fields c := by
  have hwill : ∀ w ∈ c.will, Reads (Will.read c.isV5 c.flags) (Will.fields c.isV5 w) w := by
    intro w hw
    have hqos : c.flags.willQoS = w.qos.code := by simp [flags, Option.mem_def.1 hw]
    have hretain : c.flags.willRetain = w.retain := by simp [flags, Option.mem_def.1 hw]
    exact Will.reads (h.will w hw) hqos hretain
  have husername : ∀ u ∈ c.username, Reads utf8 [.binary u] u :=
    fun u hu => .utf8 (h.username u hu)
  have hpassword : ∀ s ∈ c.password, Reads binary [.binary s] s :=
    fun s hs => .binary (h.password s hs)
  have hps := Properties.readsAt h.properties
  apply (Reads.utf8 h.protocolName).bind
  apply (Reads.byte c.protocolLevel).bind
  apply (Reads.byte c.flags.toByte).bind
  apply (Reads.word c.keepAlive).bind
  rw [ofByte_toByte_flags]
  apply (Reads.refuseIf (congrArg not (isValid_flags h))).bind
  apply hps.bind
  apply (Reads.utf8 h.clientId).bind
  apply (Reads.optional hwill).bind
  apply (Reads.optional husername).bind
  exact (Reads.optional hpassword).bind_pure rfl

theorem Packet.readBody_reads {level : Level} {p : Packet} (h : p.BodyCanonical level) :
    ReadsAll (readBody p.kind (UInt8.ofNat p.flags) level) (p.body level) p := by
  cases p with
  | connect c => exact (Connect.reads h).all.map connect
  | connAck c => exact (ConnAck.reads h).all.map connAck
  | publish p => exact (Publish.reads h).map publish
  | pubAck a => exact (Ack.reads h).map pubAck
  | pubRec a => exact (Ack.reads h).map pubRec
  | pubRel a => exact (Ack.reads h).map pubRel
  | pubComp a => exact (Ack.reads h).map pubComp
  | subscribe s => exact (Subscribe.reads h).map subscribe
  | subAck s => exact (SubAck.reads h).map subAck
  | unsubscribe u => exact (Unsubscribe.reads h).map unsubscribe
  | unsubAck u => exact (UnsubAck.reads h).map unsubAck
  | pingReq => exact (Reads.pure rfl).all
  | pingResp => exact (Reads.pure rfl).all
  | disconnect tail => exact (ReasonTail.readsAt h).map disconnect
  | auth tail =>
    obtain ⟨rfl, htail⟩ := h
    exact (ReasonTail.reads htail).map auth

end MqttBroker
