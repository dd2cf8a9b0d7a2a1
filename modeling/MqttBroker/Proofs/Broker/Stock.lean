import MqttBroker.Proofs.Network.Tenure
import MqttBroker.Proofs.Network.Intake
/-!
What is in stock in the sessions of a broker: PUBLISHes that wait in an outbox, and wills. The first
are copies of messages that were dispatched, the second came with a CONNECT.
-/

namespace MqttBroker

variable {P : Publication → Prop} {W : Message → Prop}

/-- Every PUBLISH that waits in the session satisfies `P`, and its will satisfies `W`. -/
structure Session.Stocked (P : Publication → Prop) (W : Message → Prop) (s : Session) : Prop where
  queued : ∀ p, .publish p ∈ s.outbox.items → P p
  will : ∀ m ∈ s.will, W m

namespace Session.Stocked

variable {s : Session}

theorem fresh (clientId : String) (capacity : Nat) : (fresh clientId capacity).Stocked P W :=
  ⟨nofun, nofun⟩

theorem append (h : s.Stocked P W) {item : Outgoing} (hitem : ∀ p, item = .publish p → P p) :
    (s.append item).Stocked P W := by
  refine ⟨fun p hmem => ?_, h.will⟩
  rw [append_items] at hmem
  rcases List.mem_append.1 hmem with hold | hnew
  · exact h.queued p hold
  · exact hitem p (List.mem_singleton.1 hnew).symm

theorem settle (h : s.Stocked P W) (window? : Option Window) :
    (s.settle window?).1.Stocked P W := by
  rcases s.settle_cases window? with ⟨-, heq⟩ | ⟨window, -, heq⟩
  · rw [heq]
    exact h
  · rw [heq]
    exact ⟨h.queued, h.will⟩

theorem received (h : s.Stocked P W) (id : UInt16) : (s.received id).1.Stocked P W := by
  rcases s.received_cases id with ⟨-, heq⟩ | ⟨window, -, heq⟩
  · rw [heq]
    exact h
  · rw [heq]
    exact ⟨h.queued, h.will⟩

end Session.Stocked

namespace Broker

variable {b b' : Broker} {id : SessionId} {m : Message}

/-- The same for every session. -/
def Stocked (P : Publication → Prop) (W : Message → Prop) (b : Broker) : Prop :=
  ∀ id, (b.session id).Stocked P W

namespace Stocked

theorem updateSession (h : b.Stocked P W) {f : Session → Session}
    (hf : (f (b.session id)).Stocked P W) : (b.updateSession id f).Stocked P W := by
  intro id'
  rcases Nat.lt_or_ge id b.sessions.length with hid | hid
  · by_cases heq : id = id'
    · rw [← heq, session_updateSession hid]
      exact hf
    · rw [session_updateSession_of_ne heq]
      exact h id'
  · rw [updateSession_of_le hid]
    exact h id'

theorem putSession (h : b.Stocked P W) {s : Session} (hs : s.Stocked P W) :
    (b.putSession id s).Stocked P W := h.updateSession hs

theorem closeOwner (h : b.Stocked P W) (id : SessionId) (reason : CloseReason) :
    (b.closeOwner id reason).Stocked P W := by
  unfold Broker.closeOwner
  split <;> exact h

theorem deliver (h : b.Stocked P W) (id : SessionId)
    (hm : ∀ qos, P (Publication.ofMessage m qos)) : (b.deliver id m).1.Stocked P W := by
  rcases b.deliver_cases id m with ⟨-, heq⟩ | ⟨qos, -, heq⟩ | ⟨-, -, heq⟩
  · rw [heq]
    exact h
  · rw [heq]
    exact h.updateSession ((h id).append (by rintro _ ⟨⟩; exact hm qos))
  · rw [heq]
    dsimp only
    split
    · exact h.closeOwner id _
    · exact h

theorem dispatch (h : b.Stocked P W) (hm : ∀ qos, P (Publication.ofMessage m qos)) :
    (b.dispatch m).1.Stocked P W := by
  unfold Broker.dispatch
  refine List.foldlRecOn (motive := fun x : Broker × Nat => x.1.Stocked P W) _ _ h ?_
  exact fun x h entry _ => h.deliver entry.2 hm

theorem shutdown (h : b.Stocked P W) : b.shutdown.Stocked P W := by
  unfold Broker.shutdown
  exact List.foldlRecOn (motive := Stocked P W) _ _ h fun b' h entry _ => h.closeOwner entry.2 _

theorem asks (h : b.Stocked P W) (hasks : b.Asks b') : b'.Stocked P W := fun id => by
  rw [session_of_asks hasks]
  exact h id

theorem openSession {clientId : String} (h : b.Stocked P W) (hopens : Opens b clientId b' id) :
    b'.Stocked P W := by
  intro id'
  by_cases heq : id' = id
  · rw [heq]
    rcases hopens.resumed with ⟨-, -, hsame⟩ | ⟨-, -, hfresh⟩
    · exact hsame ▸ h id
    · exact hfresh ▸ .fresh ..
  · rw [hopens.others id' heq]
    exact h id'

/-- An accepted CONNECT brings its will, and nothing into an outbox. -/
theorem bind (h : b.Stocked P W) (hfiled : b.Filed) {accepted : Accepted}
    (hnamed : accepted.IsNamed) {connect : Connect}
    (hwill : ∀ w ∈ connect.will, W (Message.ofWill w)) (c : Connection) :
    (c.bind b connect accepted).broker.Stocked P W := by
  rcases hopen : b.openSession accepted.clientId connect.cleanSession with ⟨b₁, id, present⟩
  have hopens := opens_of_openSession (fun _ _ => hfiled.lt_of_lookup) hopen
  have hopened := h.openSession hopens
  obtain ⟨bytes, hbytes⟩ :=
    (Admission.canonical_connAck hnamed b₁.limits present).exists_encoded
  let attached := b₁.newLease.1.attach id b₁.newLease.2
  have hattached : attached.1.Stocked P W :=
    updateSession (b := b₁.newLease.1) hopened ⟨(hopened id).queued, (hopened id).will⟩
  have hbrought : ∀ b₂ : Broker, b₂.Stocked P W → (b₂.updateSession id fun s =>
      { s with will := connect.will.map Message.ofWill }).Stocked P W := by
    refine fun b₂ h => h.updateSession ⟨(h id).queued, fun m hm => ?_⟩
    obtain ⟨w, hw, rfl⟩ := Option.map_eq_some_iff.1 hm
    exact hwill w hw
  unfold Connection.bind
  rw [hopen]
  dsimp only
  cases attached.2 with
  | none =>
    dsimp only
    split
    · exact hbrought _ hattached
    · next hcause => exact absurd (hcause.symm.trans hbytes) nofun
  | some owner =>
    dsimp only
    split
    · exact hbrought _ hattached
    · next hcause => exact absurd (hcause.symm.trans hbytes) nofun

theorem unregister (h : b.Stocked P W) (id : SessionId) : (b.unregister id).Stocked P W := by
  obtain ⟨registry, hregistry⟩ := b.unregister_eq id
  rw [hregistry]
  exact h

theorem detach (h : b.Stocked P W) (id : SessionId) (l : LeaseId) :
    (b.detach id l).1.Stocked P W := by
  unfold Broker.detach
  split
  · exact h.updateSession ⟨(h id).queued, (h id).will⟩
  · exact h

/-- Whoever gives the session back dispatches the will that is left, and nothing else. -/
theorem release (h : b.Stocked P W) (β : Binding)
    (hwill : ∀ m ∈ (b.session β.session).will, ∀ qos, P (Publication.ofMessage m qos)) :
    (Connection.release b β).Stocked P W := by
  let b₁ := b.updateSession β.session fun s => { s with active := false }
  have h₁ : b₁.Stocked P W := h.updateSession ⟨(h _).queued, (h _).will⟩
  have hsame : (b₁.session β.session).will = (b.session β.session).will :=
    session_updateSession_congr Session.will rfl β.session
  have htaken : (b₁.putSession β.session (b₁.session β.session).takeWill.1).Stocked P W :=
    h₁.updateSession ⟨(h₁ _).queued, nofun⟩
  have hgiven : ∀ b₂ : Broker, b₂.Stocked P W → ((if β.link.persistent then
        (b₂.detach β.session β.lease).1.updateSession β.session fun s =>
          { s with outbox := s.outbox.discardTransient }
      else (b₂.detach β.session β.lease).1.unregister β.session).releaseLease β.lease).Stocked
        P W := by
    intro b₂ h₂
    have hdetached := h₂.detach β.session β.lease
    split
    · refine hdetached.updateSession ⟨fun p hmem => ?_, (hdetached _).will⟩
      exact (hdetached _).queued p (List.mem_filter.1 hmem).1
    · exact hdetached.unregister _
  refine hgiven _ ?_
  split
  · next m hm => exact htaken.dispatch (hwill m (hsame ▸ hm))
  · exact htaken

end Stocked

end Broker

namespace Handled

variable {h : Handled}

theorem messages_send (h : Handled) (p : Packet) : (h.send p).messages = h.messages := by
  unfold send
  split
  · rfl
  · split <;> rfl

theorem mem_messages_publish (h : Handled) (m : Message) : m ∈ (h.publish m).1.messages := by
  rw [(takes_publish h m).messages]
  exact List.mem_append_right _ (List.mem_singleton_self m)

theorem stocked_send (hstocked : h.broker.Stocked P W) (p : Packet) :
    (h.send p).broker.Stocked P W := by
  unfold send
  split
  · exact hstocked
  · split
    · next hs =>
      rw [Session.enqueue?_eq_some hs]
      exact hstocked.putSession ((hstocked _).append nofun)
    · exact hstocked

theorem stocked_publish (hstocked : h.broker.Stocked P W) {m : Message}
    (hm : ∀ qos, P (Publication.ofMessage m qos)) : (h.publish m).1.broker.Stocked P W :=
  hstocked.dispatch hm

/-! ### Packet by packet -/

theorem stocked_onPublish (hstocked : h.broker.Stocked P W) (p : Publish)
    (hsaid : ∀ m ∈ (h.onPublish p).messages, ∀ qos, P (Publication.ofMessage m qos)) :
    (h.onPublish p).broker.Stocked P W := by
  unfold onPublish at hsaid ⊢
  split
  · exact hstocked
  next hvalid =>
  rw [if_neg hvalid] at hsaid
  dsimp only at hsaid ⊢
  cases hqos : p.qos with
  | atMostOnce =>
    rw [hqos] at hsaid
    exact stocked_publish hstocked (hsaid _ (mem_messages_publish ..))
  | atLeastOnce =>
    cases hid : p.packetId with
    | none => exact hstocked
    | some id =>
      rw [hqos, hid] at hsaid
      dsimp only at hsaid
      rw [messages_send] at hsaid
      exact stocked_send (stocked_publish hstocked (hsaid _ (mem_messages_publish ..))) _
  | exactlyOnce =>
    cases hid : p.packetId with
    | none => exact hstocked
    | some id =>
      rw [hqos, hid] at hsaid
      dsimp only at hsaid ⊢
      split
      · exact stocked_send hstocked _
      next hnew =>
      rw [if_neg hnew] at hsaid
      split
      · exact hstocked
      next hroom =>
      rw [if_neg hroom, messages_send] at hsaid
      have hnoted : (h.session.beginIncoming id).1.Stocked P W := by
        rw [Session.beginIncoming, if_neg hnew]
        exact ⟨(hstocked _).queued, (hstocked _).will⟩
      exact stocked_send (stocked_publish (hstocked.putSession hnoted) (hsaid _ (mem_messages_publish ..))) _

theorem stocked_sendUnknown (hstocked : h.broker.Stocked P W) (id : UInt16)
    (answer : Ack → Packet) : (h.sendUnknown id answer).broker.Stocked P W := by
  unfold sendUnknown
  split
  · exact stocked_send hstocked _
  · exact hstocked

theorem stocked_onPubRec (hstocked : h.broker.Stocked P W) (a : Ack) :
    (h.onPubRec a).broker.Stocked P W := by
  have hs : h.session.Stocked P W := hstocked _
  unfold onPubRec
  split
  · exact hstocked.putSession (hs.settle _)
  · have hreceived := hs.received a.packetId
    split
    · next heq =>
      rw [heq] at hreceived
      exact stocked_send (hstocked.putSession hreceived) _
    · exact stocked_sendUnknown hstocked _ _

theorem stocked_onPubRel (hstocked : h.broker.Stocked P W) (id : UInt16) :
    (h.onPubRel id).broker.Stocked P W := by
  have hs : h.session.Stocked P W := hstocked _
  unfold onPubRel Session.releaseIncoming
  split
  · next hreleased =>
    split at hreleased
    · cases hreleased
      exact stocked_send (hstocked.updateSession ⟨hs.queued, hs.will⟩) _
    · cases hreleased
  · exact stocked_sendUnknown hstocked _ _

theorem stocked_onDisconnect (hstocked : h.broker.Stocked P W) (p : ReasonTail) :
    (h.onDisconnect p).broker.Stocked P W := by
  have hs : h.session.Stocked P W := hstocked _
  have htaken : (if !h.v5 || p.code = ReasonCode.normalDisconnection then
      h.putSession h.session.takeWill.1 else h).broker.Stocked P W := by
    split
    · exact hstocked.updateSession ⟨hs.queued, nofun⟩
    · exact hstocked
  unfold onDisconnect
  dsimp only
  generalize (if !h.v5 || p.code = ReasonCode.normalDisconnection then
      h.putSession h.session.takeWill.1 else h) = h₁ at htaken ⊢
  split
  · exact htaken
  · split <;> exact htaken

/-- Handling a packet puts copies of what is dispatched for it into outboxes, and no other
PUBLISH. -/
theorem stocked_onPacket (hstocked : h.broker.Stocked P W) (p : Packet)
    (hsaid : ∀ m ∈ (h.onPacket p).messages, ∀ qos, P (Publication.ofMessage m qos)) :
    (h.onPacket p).broker.Stocked P W := by
  have hs : h.session.Stocked P W := hstocked _
  cases p with
  | publish p => exact stocked_onPublish hstocked p hsaid
  | pubAck | pubComp => exact hstocked.putSession (hs.settle _)
  | pubRec a => exact stocked_onPubRec hstocked a
  | pubRel a => exact stocked_onPubRel hstocked a.packetId
  | subscribe | unsubscribe =>
    exact stocked_send (hstocked.updateSession ⟨hs.queued, hs.will⟩) _
  | pingReq => exact stocked_send hstocked .pingResp
  | disconnect tail => exact stocked_onDisconnect hstocked tail
  | connect | auth | connAck | subAck | unsubAck | pingResp => exact hstocked

end Handled

end MqttBroker
