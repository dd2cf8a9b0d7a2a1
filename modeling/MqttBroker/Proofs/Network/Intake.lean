import MqttBroker.Connection.Handling
import MqttBroker.Proofs.Broker.Carrying
/-!
What a packet does to the session of the client it comes from: which identifiers wait for PUBREL
afterwards, whether the will is still there, and which messages have been dispatched.
-/

namespace MqttBroker

def Event.message? : Event → Option Message
  | published _ m => some m
  | subscribed .. | unsubscribed .. => none

/-- The identifiers that wait for PUBREL once the PUBLISH has been handled, and the messages it
brings. At most `most` identifiers may wait. -/
def Publish.takeIn (most : Nat) (pending : List UInt16) (p : Publish) :
    List UInt16 × List Message :=
  if !Topic.isValidName p.topic then (pending, [])
  else match p.qos, p.packetId with
    | .atMostOnce, _ | .atLeastOnce, some _ => (pending, [Message.ofPublish p])
    | .exactlyOnce, some id =>
      if pending.contains id then (pending, [])
      else if most ≤ pending.length then (pending, [])
      else (id :: pending, [Message.ofPublish p])
    | _, none => (pending, [])

namespace Packet

/-- The same for any packet: only PUBLISH and PUBREL make a difference. -/
def takeIn (most : Nat) (pending : List UInt16) : Packet → List UInt16 × List Message
  | publish p => p.takeIn most pending
  | pubRel a => (pending.filter (· != a.packetId), [])
  | _ => (pending, [])

/-- A DISCONNECT that takes the will back: any below 5.0, and there one with reason 0. -/
def isGoodbye (v5 : Bool) : Packet → Bool
  | disconnect tail => !v5 || tail.code == ReasonCode.normalDisconnection
  | _ => false

end Packet

namespace Handled

/-- The messages that were dispatched. -/
def messages (h : Handled) : List Message := h.events.filterMap Event.message?

/-- Handling has come from `h` to `h'`: these identifiers wait and this will is left, and the
messages `ms` were dispatched. -/
structure Takes (h : Handled) (pending : List UInt16) (will : Option Message) (ms : List Message)
    (h' : Handled) : Prop where
  session : h'.binding.session = h.binding.session
  maxReceive : h'.binding.link.maxReceive = h.binding.link.maxReceive
  carries : Broker.Carries [h.binding.session] h.binding.session ms h.broker h'.broker
  messages : h'.messages = h.messages ++ ms
  pending : h'.session.incoming = pending
  will : h'.session.will = will

variable {h h₁ h₂ : Handled} {pending pending' : List UInt16} {will will' : Option Message}
  {ms ms' : List Message}

namespace Takes

theorem trans (h₁₂ : h.Takes pending will ms h₁) (h₂₃ : h₁.Takes pending' will' ms' h₂) :
    h.Takes pending' will' (ms ++ ms') h₂ where
  session := h₂₃.session.trans h₁₂.session
  maxReceive := h₂₃.maxReceive.trans h₁₂.maxReceive
  carries := h₁₂.carries.trans (h₁₂.session ▸ h₂₃.carries)
  messages := by rw [h₂₃.messages, h₁₂.messages, List.append_assoc]
  pending := h₂₃.pending
  will := h₂₃.will

end Takes

theorem takes_refl (h : Handled) : h.Takes h.session.incoming h.session.will [] h :=
  ⟨rfl, rfl, .refl _ _ _, (List.append_nil _).symm, rfl, rfl⟩

theorem takes_fail (h : Handled) (error : SessionError) :
    h.Takes h.session.incoming h.session.will [] (h.fail error) :=
  ⟨rfl, rfl, .refl _ _ _, (List.append_nil _).symm, rfl, rfl⟩

theorem takes_tell (h : Handled) {event : Event} (hevent : event.message? = none) :
    h.Takes h.session.incoming h.session.will [] (h.tell event) := by
  refine ⟨rfl, rfl, .refl _ _ _, ?_, rfl, rfl⟩
  rw [messages, tell, List.filterMap_append, List.filterMap_cons_none hevent]
  rfl

/-- The session of the client that sent the packet is one the broker has. -/
def IsSeated (h : Handled) : Prop := h.binding.session < h.broker.sessions.length

theorem Takes.isSeated (htakes : h.Takes pending will ms h₁) (hseated : h.IsSeated) :
    h₁.IsSeated := by
  rw [IsSeated, htakes.session, htakes.carries.sessions]
  exact hseated

theorem session_putSession (hseated : h.IsSeated) (s : Session) : (h.putSession s).session = s :=
  Broker.session_updateSession hseated _

theorem takes_putSession (hseated : h.IsSeated) {s : Session}
    (hclientId : s.clientId = h.session.clientId) :
    h.Takes s.incoming s.will [] (h.putSession s) := by
  have hsession := session_putSession hseated s
  refine ⟨rfl, rfl, .of_session _ _ _ hclientId ?_, (List.append_nil _).symm, ?_, ?_⟩
  · exact fun hid => absurd (List.mem_singleton_self _) hid
  · rw [hsession]
  · rw [hsession]

theorem takes_send (hseated : h.IsSeated) (p : Packet) :
    h.Takes h.session.incoming h.session.will [] (h.send p) := by
  unfold send
  split
  · exact takes_fail ..
  · next bytes _ =>
    split
    · next s hs =>
      rw [Session.enqueue?_eq_some hs]
      exact takes_putSession hseated (s := h.session.append (.control bytes)) rfl
    · exact takes_fail ..

theorem takes_publish (h : Handled) (m : Message) :
    h.Takes h.session.incoming h.session.will [m] (h.publish m).1 := by
  have hframes := Broker.Frames.of_dispatch [] h.broker m
  have hown : (h.publish m).1.session.own = h.session.own :=
    hframes.own h.binding.session List.not_mem_nil
  refine ⟨rfl, rfl, .of_dispatch _ _ _ m, List.filterMap_append .., ?_, ?_⟩
  · exact congrArg (·.2.1) hown
  · exact congrArg (·.2.2) hown

/-- A packet that is answered when what it asks for has been done. -/
theorem Takes.send (htakes : h.Takes pending will ms h₁) (hseated : h.IsSeated) (p : Packet) :
    h.Takes pending will ms (h₁.send p) := by
  have hboth := htakes.trans (takes_send (htakes.isSeated hseated) p)
  rwa [htakes.pending, htakes.will, List.append_nil] at hboth

/-! ### Packet by packet -/

theorem takes_onPublish (hseated : h.IsSeated) (p : Publish) :
    h.Takes (p.takeIn h.binding.link.maxReceive h.session.incoming).1 h.session.will
      (p.takeIn h.binding.link.maxReceive h.session.incoming).2 (h.onPublish p) := by
  unfold onPublish Publish.takeIn
  split
  · exact takes_fail ..
  cases p.qos with
  | atMostOnce => exact takes_publish ..
  | atLeastOnce =>
    cases p.packetId with
    | none => exact takes_fail ..
    | some id => exact (takes_publish h _).send hseated _
  | exactlyOnce =>
    cases p.packetId with
    | none => exact takes_fail ..
    | some id =>
      dsimp only
      rw [Session.isPending]
      split
      · exact takes_send hseated _
      · next hnew =>
        split
        · exact takes_fail ..
        · have hbegin : h.session.beginIncoming id =
              ({ h.session with incoming := id :: h.session.incoming }, true) := if_neg hnew
          rw [hbegin]
          have hput := takes_putSession hseated
            (s := { h.session with incoming := id :: h.session.incoming }) rfl
          have hboth := hput.trans (takes_publish _ (Message.ofPublish p))
          rw [hput.pending, hput.will] at hboth
          exact hboth.send hseated _

theorem takes_putWindow (hseated : h.IsSeated) (window : Window) (slotFreed : Signal) :
    h.Takes h.session.incoming h.session.will []
      (h.putSession { h.session with window, slotFreed }) :=
  takes_putSession (s := { h.session with window, slotFreed }) hseated rfl

theorem takes_settle (hseated : h.IsSeated) (window? : Option Window) :
    h.Takes h.session.incoming h.session.will [] (h.putSession (h.session.settle window?).1) := by
  rcases h.session.settle_cases window? with ⟨-, heq⟩ | ⟨window, -, heq⟩
  · rw [heq]
    exact takes_putWindow hseated h.session.window h.session.slotFreed
  · rw [heq]
    exact takes_putWindow hseated window ⟨true⟩

theorem takes_sendUnknown (hseated : h.IsSeated) (id : UInt16) (answer : Ack → Packet) :
    h.Takes h.session.incoming h.session.will [] (h.sendUnknown id answer) := by
  unfold sendUnknown
  split
  · exact takes_send hseated _
  · exact takes_refl h

theorem takes_onPubRec (hseated : h.IsSeated) (a : Ack) :
    h.Takes h.session.incoming h.session.will [] (h.onPubRec a) := by
  unfold onPubRec
  split
  · exact takes_settle hseated _
  · rcases h.session.received_cases a.packetId with ⟨-, heq⟩ | ⟨window, -, heq⟩
    · rw [heq]
      exact takes_sendUnknown hseated _ _
    · rw [heq]
      exact (takes_putWindow hseated window h.session.slotFreed).send hseated _

theorem takes_onPubRel (hseated : h.IsSeated) (id : UInt16) :
    h.Takes (h.session.incoming.filter (· != id)) h.session.will [] (h.onPubRel id) := by
  unfold onPubRel Session.releaseIncoming Session.isPending
  split
  · next hpending =>
    split at hpending
    · cases hpending
      have hput := takes_putSession hseated
        (s := { h.session with incoming := h.session.incoming.filter (· != id) }) rfl
      exact hput.send hseated _
    · cases hpending
  · next hpending =>
    split at hpending
    · cases hpending
    · next hnot =>
      have hsame : h.session.incoming.filter (· != id) = h.session.incoming := by
        refine List.filter_eq_self.2 fun id' hmem => bne_iff_ne.2 ?_
        rintro rfl
        exact hnot (List.contains_iff_mem.2 hmem)
      rw [hsame]
      exact takes_sendUnknown hseated _ _

theorem takes_putSubscriptions (hseated : h.IsSeated) (subscriptions : Subscriptions)
    {event : Event} (hevent : event.message? = none) (answer : Packet) :
    h.Takes h.session.incoming h.session.will []
      (((h.putSession { h.session with subscriptions }).tell event).send answer) := by
  have hput := takes_putSession hseated (s := { h.session with subscriptions }) rfl
  have htold := hput.trans (takes_tell _ hevent)
  rw [hput.pending, hput.will] at htold
  exact htold.send hseated answer

theorem takes_onDisconnect (hseated : h.IsSeated) (p : ReasonTail) :
    h.Takes h.session.incoming
      (if (Packet.disconnect p).isGoodbye h.v5 then none else h.session.will) []
      (h.onDisconnect p) := by
  have hwill : h.Takes h.session.incoming
      (if (Packet.disconnect p).isGoodbye h.v5 then none else h.session.will) []
      (if !h.v5 || p.code = ReasonCode.normalDisconnection then
        h.putSession h.session.takeWill.1 else h) := by
    have hcond : (!h.v5 || p.code = ReasonCode.normalDisconnection) =
        (Packet.disconnect p).isGoodbye h.v5 := rfl
    rw [hcond]
    split
    · exact takes_putSession hseated (s := h.session.takeWill.1) rfl
    · exact takes_refl h
  unfold onDisconnect
  dsimp only
  generalize (if !h.v5 || p.code = ReasonCode.normalDisconnection then
      h.putSession h.session.takeWill.1 else h) = h₁ at hwill ⊢
  -- Neither closing the connection nor what becomes of its session later touches the session now.
  have hleave : ∀ (link : Link) (verdict : Verdict), link.maxReceive = h₁.binding.link.maxReceive →
      h₁.Takes h₁.session.incoming h₁.session.will []
        { h₁ with
          broker := h₁.broker.closeLease h₁.binding.lease .clientDisconnect
          binding := { h₁.binding with link }
          verdict } := fun link verdict hlink =>
    ⟨rfl, hlink, .of_leases .., (List.append_nil _).symm, rfl, rfl⟩
  generalize (if (Packet.disconnect p).isGoodbye h.v5 then none else h.session.will) = will
    at hwill ⊢
  have hend : ∀ {h₂ : Handled}, h₁.Takes h₁.session.incoming h₁.session.will [] h₂ →
      h.Takes h.session.incoming will [] h₂ := by
    intro h₂ htakes
    have hboth := hwill.trans htakes
    rwa [hwill.pending, hwill.will] at hboth
  split
  · exact hend (hleave h₁.binding.link .done rfl)
  split
  · exact hend (takes_fail ..)
  · exact hend (hleave _ .done rfl)

/-- What handling a packet does to the session of the client it comes from. -/
theorem takes_onPacket (hseated : h.IsSeated) (p : Packet) :
    h.Takes (p.takeIn h.binding.link.maxReceive h.session.incoming).1
      (if p.isGoodbye h.v5 then none else h.session.will)
      (p.takeIn h.binding.link.maxReceive h.session.incoming).2 (h.onPacket p) := by
  cases p with
  | publish p => exact takes_onPublish hseated p
  | pubAck | pubComp => exact takes_settle hseated _
  | pubRec a => exact takes_onPubRec hseated a
  | pubRel a => exact takes_onPubRel hseated a.packetId
  | subscribe | unsubscribe => exact takes_putSubscriptions hseated _ rfl _
  | pingReq => exact takes_send hseated .pingResp
  | disconnect tail => exact takes_onDisconnect hseated tail
  | connect | auth | connAck | subAck | unsubAck | pingResp => exact takes_fail ..

end Handled

end MqttBroker
