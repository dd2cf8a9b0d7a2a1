import MqttBroker.Connection.Handling
import MqttBroker.Proofs.Packet.Failure
import MqttBroker.Proofs.Packet.Relayed
import MqttBroker.Proofs.Session.Subscribed
/-!
The control packets that a handler sends in reply. They carry no properties, and are no longer than
what has come in, so each of them can be written, whatever the level.
-/

namespace MqttBroker

theorem Field.length_le_sumOver {α : Type} {size : α → Nat} (hsize : ∀ a, 1 ≤ size a)
    (as : List α) : as.length ≤ sumOver size as := by
  induction as with
  | nil => exact Nat.le_refl _
  | cons a as ih =>
    have hone := hsize a
    rw [sumOver, List.length_cons]
    omega

theorem Properties.limitedAt_nil (v5 : Bool) : limitedAt v5 [] = [] := by cases v5 <;> rfl

theorem Properties.sizeAt_nil_le (v5 : Bool) : sizeAt v5 [] ≤ 1 := by cases v5 <;> decide

theorem ReasonTail.sizeAt_code_le (v5 : Bool) (code : UInt8) : sizeAt v5 { code } ≤ 1 := by
  cases v5 with
  | false => exact Nat.zero_le _
  | true =>
    change size { code } ≤ 1
    unfold size
    cases code == 0 <;> exact Nat.le_of_ble_eq_true rfl

namespace Packet

variable {p : Packet} {level : Level}

/-- A packet that is not too large can be written if none of its fields has a bound of its own. -/
theorem exists_encoded_of_free (hsize : p.remainingLength level ≤ Varint.limit)
    (hid : p.lacksId = false) (hfree : p.limited level = []) :
    ∃ bytes, p.encode level = .ok bytes := by
  rw [p.remainingLength_eq] at hsize
  have hnone := p.hinderedBy_body level hsize
  rw [hfree, List.findSome?_nil, Field.hindrance?] at hnone
  split at hnone
  · next content hcontent =>
    rw [← Field.length_writeAll hcontent] at hsize
    exact ⟨_, encode_eq_ok.2 ⟨content, hcontent, hsize, hid, rfl⟩⟩
  · cases hnone

theorem exists_encoded_ack {answer : Ack → Packet}
    (hanswer : answer ∈ [pubAck, pubRec, pubRel, pubComp]) (id : UInt16) (reason : UInt8)
    (level : Level) : ∃ bytes, (answer (Ack.withReason id reason)).encode level = .ok bytes := by
  have htail := ReasonTail.sizeAt_code_le level.isV5 reason
  have hsize : Ack.size level.isV5 (Ack.withReason id reason) ≤ Varint.limit := by
    change 2 + ReasonTail.sizeAt level.isV5 { code := reason } ≤ 268435455
    omega
  have hfree := Properties.limitedAt_nil level.isV5
  simp only [List.mem_cons, List.not_mem_nil, or_false] at hanswer
  rcases hanswer with rfl | rfl | rfl | rfl <;> exact exists_encoded_of_free hsize rfl hfree

theorem exists_encoded_subAck (id : UInt16) {codes : Bytes}
    (hcodes : codes.length + 3 ≤ Varint.limit) (level : Level) :
    ∃ bytes, (subAck { packetId := id, returnCodes := codes }).encode level = .ok bytes := by
  refine exists_encoded_of_free ?_ rfl (Properties.limitedAt_nil _)
  have hproperties := Properties.sizeAt_nil_le level.isV5
  change 2 + Properties.sizeAt level.isV5 [] + codes.length ≤ _
  omega

theorem exists_encoded_unsubAck (id : UInt16) {codes : Bytes}
    (hcodes : codes.length + 3 ≤ Varint.limit) (level : Level) :
    ∃ bytes, (unsubAck { packetId := id, reasonCodes := codes }).encode level = .ok bytes := by
  refine exists_encoded_of_free ?_ rfl (Properties.limitedAt_nil _)
  change UnsubAck.size level.isV5 { packetId := id, reasonCodes := codes } ≤ _
  unfold UnsubAck.size
  split
  · change 2 + 1 + codes.length ≤ _
    omega
  · exact (by decide : 2 ≤ 268435455)

/-- A request has fewer filters than there is room for codes. -/
theorem Readable.length_filters_subscribe {s : Subscribe} (h : (subscribe s).Readable level) :
    s.filters.length + 3 ≤ Varint.limit := by
  have hlength := h.remainingLength_le
  have hfilters : s.filters.length ≤
      Field.sumOver (fun f => Field.prefixedSize f.1 + 1) s.filters :=
    Field.length_le_sumOver (fun f => Nat.le_add_left 1 _) _
  change 2 + _ + Field.sumOver _ s.filters + 5 ≤ _ at hlength
  omega

theorem Readable.length_filters_unsubscribe {u : Unsubscribe} (h : (unsubscribe u).Readable level) :
    u.filters.length + 3 ≤ Varint.limit := by
  have hlength := h.remainingLength_le
  have hfilters : u.filters.length ≤ Field.sumOver Field.prefixedSize u.filters :=
    Field.length_le_sumOver (fun f => Nat.le_add_right_of_le (Nat.le_succ 1)) _
  change 2 + _ + Field.sumOver _ u.filters + 5 ≤ _ at hlength
  omega

end Packet

namespace Handled

variable {h : Handled} {p : Packet} {level : Level}

/-- Handling has not failed for want of a way to write a packet. -/
def Encodes (h : Handled) : Prop := ∀ cause, h.verdict ≠ .failed (.encode cause)

theorem encodes_fail (h : Handled) {error : SessionError}
    (herror : ∀ cause, error ≠ .encode cause) : (h.fail error).Encodes := by
  intro cause hverdict
  apply herror cause
  exact Verdict.failed.inj hverdict

namespace Encodes

theorem send (hok : h.Encodes) (hp : ∃ bytes, p.encode h.binding.link.level = .ok bytes) :
    (h.send p).Encodes := by
  obtain ⟨bytes, hbytes⟩ := hp
  unfold Handled.send
  rw [hbytes]
  dsimp only
  split
  · exact hok
  · exact h.encodes_fail nofun

theorem publish (hok : h.Encodes) (m : Message) : (h.publish m).1.Encodes := hok

theorem onPublish (hok : h.Encodes) (p : Publish) : (h.onPublish p).Encodes := by
  unfold Handled.onPublish
  split
  · exact h.encodes_fail nofun
  dsimp only
  split
  · exact hok.publish _
  · exact (hok.publish _).send (Packet.exists_encoded_ack (by simp) _ _ _)
  · split
    · exact hok.send (Packet.exists_encoded_ack (by simp) _ _ _)
    split
    · exact h.encodes_fail nofun
    · exact (publish (h := h.putSession _) hok _).send (Packet.exists_encoded_ack (by simp) _ _ _)
  · exact h.encodes_fail nofun

theorem sendUnknown (hok : h.Encodes) (id : UInt16) {answer : Ack → Packet}
    (hanswer : answer ∈ [Packet.pubAck, .pubRec, .pubRel, .pubComp]) :
    (h.sendUnknown id answer).Encodes := by
  unfold Handled.sendUnknown
  split
  · exact hok.send (Packet.exists_encoded_ack hanswer _ _ _)
  · exact hok

theorem onPubRec (hok : h.Encodes) (a : Ack) : (h.onPubRec a).Encodes := by
  unfold Handled.onPubRec
  split
  · exact hok
  split
  · exact send (h := h.putSession _) hok (Packet.exists_encoded_ack (by simp) _ 0 _)
  · exact hok.sendUnknown _ (by simp)

theorem onPubRel (hok : h.Encodes) (id : UInt16) : (h.onPubRel id).Encodes := by
  unfold Handled.onPubRel
  split
  · exact send (h := h.putSession _) hok (Packet.exists_encoded_ack (by simp) _ 0 _)
  · exact hok.sendUnknown _ (by simp)

theorem onSubscribe (hok : h.Encodes) {p : Subscribe} (hp : (Packet.subscribe p).Readable level) :
    (h.onSubscribe p).Encodes := by
  apply send (h := (h.putSession _).tell _) hok
  apply Packet.exists_encoded_subAck
  simpa using hp.length_filters_subscribe

theorem onUnsubscribe (hok : h.Encodes) {p : Unsubscribe}
    (hp : (Packet.unsubscribe p).Readable level) : (h.onUnsubscribe p).Encodes := by
  have hlength := hp.length_filters_unsubscribe
  apply send (h := (h.putSession _).tell _) hok
  apply Packet.exists_encoded_unsubAck
  split
  · rw [List.length_map, Subscriptions.unsubscribe_found, List.length_mapIdx]
    exact hlength
  · exact Nat.le_trans (Nat.le_add_left 3 _) hlength

theorem onDisconnect (h : Handled) (tail : ReasonTail) : (h.onDisconnect tail).Encodes := by
  unfold Handled.onDisconnect
  dsimp only
  generalize (if !h.v5 || tail.code = ReasonCode.normalDisconnection then
    h.putSession h.session.takeWill.1 else h) = h'
  cases if h'.v5 then Properties.sessionExpiryInterval? tail.properties else none with
  | none => exact nofun
  | some expiry =>
    dsimp only
    split
    · exact h'.encodes_fail nofun
    · exact nofun

/-- Whatever the broker's state and the connection's level, no reply to a packet that can be read
lacks an encoding. -/
theorem onPacket (hok : h.Encodes) (hp : p.Readable level) : (h.onPacket p).Encodes := by
  cases p with
  | publish p => exact hok.onPublish p
  | pubAck | pubComp => exact hok
  | pubRec a => exact hok.onPubRec a
  | pubRel a => exact hok.onPubRel a.packetId
  | subscribe p => exact hok.onSubscribe hp
  | unsubscribe p => exact hok.onUnsubscribe hp
  | pingReq => exact hok.send (Packet.exists_encoded_of_free (Nat.zero_le _) rfl rfl)
  | disconnect tail => exact onDisconnect h tail
  | connect | auth | connAck | subAck | unsubAck | pingResp => exact h.encodes_fail nofun

end Encodes

end Handled

theorem Broker.encodes_handle (b : Broker) (β : Binding) {p : Packet} {level : Level}
    (hp : p.Readable level) : (b.handle β p).Encodes := by
  apply Handled.Encodes.onPacket _ hp
  exact nofun

end MqttBroker
