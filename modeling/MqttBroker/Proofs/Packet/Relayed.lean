import MqttBroker.Message
import MqttBroker.Proofs.Packet.RoundTrip
/-!
Messages on their way through the broker. A packet that is accepted leaves room for all that the
copies of its message need besides the topic and the payload, although one for 5.0 may take more
bytes than what came in. So every copy can be written, and be read where it arrives.
-/

namespace MqttBroker

namespace Packet

variable {p : Packet} {level : Level} {limit n : Nat} {b : Bytes}

/-- The packet can be written at the level, and is read there whatever follows it. -/
def Travels (p : Packet) (level : Level) : Prop :=
  ∃ bytes, p.encode level = .ok bytes ∧ ∀ rest limit, bytes.length ≤ limit →
    decode [bytes ++ rest] level limit = .ok (some (p, bytes.length))

theorem Canonical.travels (h : p.Canonical level) : p.Travels level := by
  obtain ⟨bytes, hbytes⟩ := h.exists_encoded
  refine ⟨bytes, hbytes, fun rest limit hle => ?_⟩
  have hlength := length_of_encode hbytes
  rw [hlength] at hle
  rw [decode_eq_decodeFrom, List.flatten_singleton, decodeFrom_of_encode h.body hbytes, if_pos hle,
    hlength]

/-- What is known of a packet that has come in within the largest size there is: its header took
some of that size as well. -/
structure Readable (level : Level) (p : Packet) : Prop where
  body : p.BodyCanonical level
  remainingLength_le : p.remainingLength level + 5 ≤ Varint.limit

theorem readable_of_decodeFrom (hlimit : limit ≤ Varint.limit)
    (h : decodeFrom b level limit = .ok (some (p, n))) : p.Readable level := by
  obtain ⟨hcanonical, k, hspelling⟩ := spelling_of_decodeFrom h
  obtain ⟨bytes, hbytes, hle, -⟩ := hspelling.exists_encoded (lacksId_eq_false hcanonical)
  refine ⟨hcanonical, ?_⟩
  have hlength := length_of_encode hbytes
  have hn := le_limit_of_decodeFrom h
  rw [List.length_take_of_le (le_length_of_decodeFrom h), hlength, encodedLength] at hle
  -- Near the limit the length takes four bytes, and there is the first byte of the header.
  have hfour : 2097151 < p.remainingLength level →
      Varint.size (p.remainingLength level) = 4 := by
    intro hlarge
    unfold Varint.size
    repeat rw [if_neg (by omega)]
  simp only [Varint.limit] at hlimit ⊢
  omega

/-- The message that a packet brings, at once or as a will. -/
def message? : Packet → Option Message
  | publish p => some (.ofPublish p)
  | connect c => c.will.map .ofWill
  | _ => none

end Packet

/-- A topic that a reader lets through, with room for what stands around it and the payload: its
length, an identifier and an empty property list. -/
structure Message.Sendable (m : Message) : Prop where
  topic : m.topic.IsTopicField
  length_le : m.topic.length + m.payload.length + 5 ≤ Varint.limit

/-- The same for what waits to be sent, which is a repetition above QoS 0 only. -/
structure Publication.Sendable (p : Publication) : Prop where
  topic : p.topic.IsTopicField
  length_le : p.topic.length + p.payload.length + 5 ≤ Varint.limit
  qos_of_dup : p.dup = true → p.qos ≠ .atMostOnce

theorem Message.Sendable.publication {m : Message} (h : m.Sendable) (qos : QoS) :
    (Publication.ofMessage m qos).Sendable := ⟨h.topic, h.length_le, nofun⟩

namespace Publication.Sendable

variable {p : Publication} {id : Option UInt16}

theorem repeated (h : p.Sendable) (hqos : p.qos ≠ .atMostOnce) (dup : Bool) :
    { p with dup }.Sendable := ⟨h.topic, h.length_le, fun _ => hqos⟩

/-- An identifier is there above QoS 0, and is not zero. -/
theorem canonical (h : p.Sendable) (hnone : id = none ↔ p.qos = .atMostOnce) (hzero : id ≠ some 0)
    (level : Level) : (Packet.publish (p.toPublish id)).Canonical level := by
  refine ⟨⟨h.topic, hnone, hzero, h.qos_of_dup, ?_⟩, ?_⟩
  · exact ⟨fun _ hmem => absurd hmem List.not_mem_nil, fun _ => rfl⟩
  · have hlength := h.length_le
    have hproperties : Properties.sizeAt level.isV5 [] ≤ 1 := by cases level <;> decide
    have hid : (if p.qos = .atMostOnce then 0 else 2) ≤ 2 := by split <;> omega
    change 2 + p.topic.length + (if p.qos = .atMostOnce then 0 else 2) +
      Properties.sizeAt level.isV5 [] + p.payload.length ≤ _
    omega

theorem travels_plain (h : p.Sendable) (hqos : p.qos = .atMostOnce) (level : Level) :
    (Packet.publish (p.toPublish none)).Travels level := by
  apply Packet.Canonical.travels
  apply h.canonical
  · simp [hqos]
  · exact nofun

theorem travels_numbered (h : p.Sendable) (hqos : p.qos ≠ .atMostOnce) {id : UInt16} (hid : id ≠ 0)
    (level : Level) : (Packet.publish (p.toPublish (some id))).Travels level := by
  apply Packet.Canonical.travels
  apply h.canonical
  · simp [hqos]
  · simpa using hid

end Publication.Sendable

namespace Message

/-- The PUBLISHes that a subscriber with this QoS can get for a message. Above QoS 0 they have an
identifier, and may be repetitions. -/
inductive Copy (m : Message) (granted : QoS) : Publish → Prop where
  | plain (hqos : min m.qos granted = .atMostOnce) :
    Copy m granted ((Publication.ofMessage m (min m.qos granted)).toPublish none)
  | numbered (hqos : min m.qos granted ≠ .atMostOnce) {id : UInt16} (hid : id ≠ 0) (dup : Bool) :
    Copy m granted
      ({ Publication.ofMessage m (min m.qos granted) with dup }.toPublish (some id))

variable {m : Message} {granted : QoS} {q : Publish}

theorem Copy.content (h : m.Copy granted q) : q.topic = m.topic ∧ q.payload = m.payload := by
  cases h <;> exact ⟨rfl, rfl⟩

theorem Copy.travels (h : m.Copy granted q) (hm : m.Sendable) (level : Level) :
    (Packet.publish q).Travels level := by
  have hp := hm.publication (min m.qos granted)
  cases h with
  | plain hqos => exact hp.travels_plain hqos level
  | numbered hqos hid dup => exact (hp.repeated hqos dup).travels_numbered hqos hid level

end Message

/-- The fields of a will have lengths of two bytes. -/
theorem Will.Canonical.sendable {w : Will} {v5 : Bool} (h : w.Canonical v5) :
    (Message.ofWill w).Sendable := by
  refine ⟨h.topic, ?_⟩
  have htopic : w.topic.length ≤ 65535 := h.topic.fits
  have hpayload : w.payload.length ≤ 65535 := h.payload
  change w.topic.length + w.payload.length + 5 ≤ 268435455
  omega

/-- A PUBLISH that is passed on loses the two bytes of its length at least. -/
theorem Packet.Readable.sendable {p : Packet} {level : Level} {m : Message} (h : p.Readable level)
    (hm : m ∈ p.message?) : m.Sendable := by
  have hbody := h.body
  cases p with
  | publish p =>
    cases hm
    refine ⟨hbody.topic, ?_⟩
    have hlength := h.remainingLength_le
    change 2 + p.topic.length + _ + _ + p.payload.length + 5 ≤ _ at hlength
    change p.topic.length + p.payload.length + 5 ≤ _
    omega
  | connect c =>
    obtain ⟨w, hw, rfl⟩ := Option.map_eq_some_iff.1 hm
    exact (hbody.will w hw).sendable
  | _ => cases hm

end MqttBroker
