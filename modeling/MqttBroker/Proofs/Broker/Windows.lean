import MqttBroker.Proofs.Network.Intake
import MqttBroker.Proofs.Network.Tenure
import MqttBroker.Proofs.Session.Identifiers
/-!
What the broker's operations do to in-flight windows. The replies of a client change its own window;
routing, and taking or giving up a session, change none.
-/

namespace MqttBroker

/-- What a packet of the client makes of its window. -/
def Packet.acknowledge (v5 : Bool) (w : Window) : Packet → Window
  | pubAck a => (w.reply a.packetId .ack).1
  | pubRec a => (w.reply a.packetId (if v5 && 0x80 ≤ a.reason then .abandon else .received)).1
  | pubComp a => (w.reply a.packetId .complete).1
  | _ => w

/-- The packet takes a QoS 1 message with the identifier out of the window: a PUBACK does, and at 5.0
a PUBREC with a refusal. -/
def Packet.finishes (v5 : Bool) (id : UInt16) : Packet → Prop
  | pubAck a => a.packetId = id
  | pubRec a => a.packetId = id ∧ v5 = true ∧ 0x80 ≤ a.reason
  | _ => False

theorem Packet.mem_acknowledge {w : Window} {e : InFlight} (he : e ∈ w.entries)
    (hqos : e.publication.qos = .atLeastOnce) {v5 : Bool} {p : Packet}
    (hp : ¬ p.finishes v5 e.packetId) : e ∈ (p.acknowledge v5 w).entries := by
  cases p with
  | pubAck a =>
    refine Window.mem_reply he hqos (decide_eq_false fun hawaits => hp ?_)
    exact (InFlight.awaits_eq_pubAck.1 hawaits).1.symm
  | pubRec a =>
    refine Window.mem_reply he hqos ?_
    split
    · next hrefused =>
      simp only [Bool.and_eq_true, decide_eq_true_eq] at hrefused
      exact decide_eq_false fun hid => hp ⟨hid.symm, hrefused⟩
    · rfl
  | pubComp a =>
    refine Window.mem_reply he hqos (decide_eq_false fun hawaits => ?_)
    exact nomatch hqos.symm.trans (InFlight.awaits_eq_pubComp.1 hawaits).2.1
  | _ => exact he

theorem Packet.size_acknowledge_le (v5 : Bool) (w : Window) (p : Packet) :
    (p.acknowledge v5 w).size ≤ w.size := by
  cases p with
  | pubAck | pubRec | pubComp => exact w.size_reply_le _ _
  | _ => exact Nat.le_refl _

theorem Window.Reachable.acknowledge {w : Window} (h : w.Reachable) (v5 : Bool) (p : Packet) :
    (p.acknowledge v5 w).Reachable := by
  cases p with
  | pubAck | pubRec | pubComp => exact h.reply _ _
  | _ => exact h

theorem Session.window_settle (s : Session) (window? : Option Window) :
    (s.settle window?).1.window = window?.getD s.window := by
  cases window? <;> rfl

namespace Broker

variable {b b' : Broker} {id : SessionId}

def windows (b : Broker) (id : SessionId) : Window := (b.session id).window

theorem windows_updateSession {f : Session → Session}
    (h : (f (b.session id)).window = (b.session id).window) :
    (b.updateSession id f).windows = b.windows :=
  funext (session_updateSession_congr Session.window h)

theorem windows_putSession (hid : id < b.sessions.length) (s : Session) :
    (b.putSession id s).windows = Function.update b.windows id s.window := by
  funext id'
  by_cases heq : id = id'
  · subst heq
    rw [Function.update_self, windows, putSession, session_updateSession hid]
  · rw [Function.update_of_ne (Ne.symm heq), windows, putSession, session_updateSession_of_ne heq]
    rfl

theorem windows_closeOwner (b : Broker) (id : SessionId) (reason : CloseReason) :
    (b.closeOwner id reason).windows = b.windows := by
  unfold closeOwner
  split <;> rfl

theorem windows_deliver (b : Broker) (id : SessionId) (m : Message) :
    (b.deliver id m).1.windows = b.windows := by
  rcases b.deliver_cases id m with ⟨-, heq⟩ | ⟨qos, -, heq⟩ | ⟨-, -, heq⟩
  · rw [heq]
  · rw [heq]
    exact windows_updateSession rfl
  · rw [heq]
    dsimp only
    split
    · exact b.windows_closeOwner id _
    · rfl

theorem windows_dispatch (b : Broker) (m : Message) : (b.dispatch m).1.windows = b.windows := by
  unfold dispatch
  refine List.foldlRecOn (motive := fun x : Broker × Nat => x.1.windows = b.windows) _ _ rfl ?_
  exact fun x h entry _ => (x.1.windows_deliver entry.2 m).trans h

theorem windows_shutdown (b : Broker) : b.shutdown.windows = b.windows := by
  unfold shutdown
  refine List.foldlRecOn (motive := fun b' : Broker => b'.windows = b.windows) _ _ rfl ?_
  exact fun b' h entry _ => (b'.windows_closeOwner entry.2 _).trans h

theorem windows_asks (h : b.Asks b') : b'.windows = b.windows :=
  funext fun id => congrArg Session.window (session_of_asks h id)

/-- A session that is made has an empty window, as has one that is not there. -/
theorem windows_opens {clientId : String} (h : Opens b clientId b' id) : b'.windows = b.windows := by
  funext id'
  by_cases heq : id' = id
  · subst heq
    rcases h.resumed with ⟨-, -, hsame⟩ | ⟨-, hid, hfresh⟩
    · exact congrArg Session.window hsame
    · have habsent : b.session? id' = none := List.getElem?_eq_none (Nat.le_of_eq hid.symm)
      rw [windows, windows, hfresh, session, habsent]
      rfl
  · exact congrArg Session.window (h.others id' heq)

theorem windows_unregister (b : Broker) (id : SessionId) : (b.unregister id).windows = b.windows := by
  obtain ⟨registry, hregistry⟩ := b.unregister_eq id
  rw [hregistry]
  rfl

theorem windows_detach (b : Broker) (id : SessionId) (l : LeaseId) :
    (b.detach id l).1.windows = b.windows := by
  unfold detach
  split
  · exact windows_updateSession rfl
  · rfl

theorem windows_release (b : Broker) (β : Binding) :
    (Connection.release b β).windows = b.windows := by
  let b₁ := b.updateSession β.session fun s => { s with active := false }
  have hidle : b₁.windows = b.windows := windows_updateSession rfl
  have htaken : (b₁.putSession β.session (b₁.session β.session).takeWill.1).windows = b₁.windows :=
    windows_updateSession rfl
  have hgiven : ∀ b₂ : Broker, ((if β.link.persistent then
        (b₂.detach β.session β.lease).1.updateSession β.session fun s =>
          { s with outbox := s.outbox.discardTransient }
      else (b₂.detach β.session β.lease).1.unregister β.session).releaseLease β.lease).windows =
        b₂.windows := by
    intro b₂
    have hdetached := b₂.windows_detach β.session β.lease
    split
    · exact (windows_updateSession rfl).trans hdetached
    · exact (windows_unregister ..).trans hdetached
  refine (hgiven _).trans (Eq.trans ?_ hidle)
  split
  · exact (windows_dispatch ..).trans htaken
  · exact htaken

theorem windows_bind (hfiled : b.Filed) (c : Connection) (connect : Connect)
    (accepted : Accepted) : (c.bind b connect accepted).broker.windows = b.windows := by
  rcases hopen : b.openSession accepted.clientId connect.cleanSession with ⟨b₁, id, present⟩
  have hopened := windows_opens (opens_of_openSession (fun _ _ => hfiled.lt_of_lookup) hopen)
  have hattached : (b₁.newLease.1.attach id b₁.newLease.2).1.windows = b.windows :=
    (windows_updateSession (b := b₁.newLease.1) rfl).trans hopened
  -- Whether or not a previous owner is asked to close.
  have hbrought : ∀ b₂ : Broker, b₂.windows = b.windows → (b₂.updateSession id fun s =>
      { s with will := connect.will.map Message.ofWill }).windows = b.windows :=
    fun b₂ h => (windows_updateSession rfl).trans h
  unfold Connection.bind
  rw [hopen]
  dsimp only
  split
  · split
    · exact hbrought _ hattached
    · exact hbrought _ hattached
  · refine (windows_release ..).trans ?_
    split
    · exact hbrought _ hattached
    · exact hbrought _ hattached

end Broker

namespace Handled

variable {h : Handled}

theorem windows_putSession (hseated : h.IsSeated) (s : Session) :
    (h.putSession s).broker.windows = Function.update h.broker.windows h.binding.session s.window :=
  Broker.windows_putSession hseated s

theorem windows_putSession_of_eq {s : Session} (hs : s.window = h.session.window) :
    (h.putSession s).broker.windows = h.broker.windows := Broker.windows_updateSession hs

theorem windows_send (h : Handled) (p : Packet) : (h.send p).broker.windows = h.broker.windows := by
  unfold send
  split
  · rfl
  · split
    · next hs =>
      rw [Session.enqueue?_eq_some hs]
      exact windows_putSession_of_eq rfl
    · rfl

theorem windows_publish (h : Handled) (m : Message) :
    (h.publish m).1.broker.windows = h.broker.windows := h.broker.windows_dispatch m

theorem windows_sendUnknown (h : Handled) (id : UInt16) (answer : Ack → Packet) :
    (h.sendUnknown id answer).broker.windows = h.broker.windows := by
  unfold sendUnknown
  split
  · exact windows_send ..
  · rfl

/-! ### Packet by packet -/

theorem windows_onPublish (h : Handled) (p : Publish) :
    (h.onPublish p).broker.windows = h.broker.windows := by
  unfold onPublish
  split
  · rfl
  split
  · exact windows_publish ..
  · exact (windows_send ..).trans (windows_publish ..)
  · next id _ _ =>
    split
    · exact windows_send ..
    split
    · rfl
    · have hbegun : (h.session.beginIncoming id).1.window = h.session.window := by
        unfold Session.beginIncoming
        split <;> rfl
      exact (windows_send ..).trans ((windows_publish ..).trans (windows_putSession_of_eq hbegun))
  · rfl

theorem windows_onPubRec (hseated : h.IsSeated) (a : Ack) : (h.onPubRec a).broker.windows =
    Function.update h.broker.windows h.binding.session
      ((Packet.pubRec a).acknowledge h.v5 h.session.window) := by
  by_cases hrefused : (h.v5 && 0x80 ≤ a.reason) = true
  · rw [onPubRec, if_pos hrefused, Packet.acknowledge, if_pos hrefused]
    exact (windows_putSession hseated _).trans (congrArg _ (h.session.window_settle _))
  · rw [onPubRec, if_neg hrefused, Packet.acknowledge, if_neg hrefused]
    rcases h.session.received_cases a.packetId with ⟨hnone, heq⟩ | ⟨window, hsome, heq⟩
    · rw [heq, Window.reply_of_none (r := .received) hnone]
      exact (windows_sendUnknown ..).trans (Function.update_eq_self ..).symm
    · rw [heq, Window.reply_of_some (r := .received) hsome]
      exact (windows_send ..).trans (windows_putSession hseated _)

theorem windows_onPubRel (h : Handled) (id : UInt16) :
    (h.onPubRel id).broker.windows = h.broker.windows := by
  have hreleased : (h.session.releaseIncoming id).1.window = h.session.window := by
    unfold Session.releaseIncoming
    split <;> rfl
  unfold onPubRel
  split
  · next hs =>
    rw [hs] at hreleased
    exact (windows_send ..).trans (windows_putSession_of_eq hreleased)
  · exact windows_sendUnknown ..

theorem windows_onDisconnect (h : Handled) (p : ReasonTail) :
    (h.onDisconnect p).broker.windows = h.broker.windows := by
  have htaken : (if !h.v5 || p.code = ReasonCode.normalDisconnection then
      h.putSession h.session.takeWill.1 else h).broker.windows = h.broker.windows := by
    split
    · exact windows_putSession_of_eq rfl
    · rfl
  unfold onDisconnect
  dsimp only
  generalize (if !h.v5 || p.code = ReasonCode.normalDisconnection then
      h.putSession h.session.takeWill.1 else h) = h₁ at htaken ⊢
  split
  · exact htaken
  · split <;> exact htaken

/-- Handling a packet changes no window but that of the client it comes from. -/
theorem windows_onPacket (hseated : h.IsSeated) (p : Packet) : (h.onPacket p).broker.windows =
    Function.update h.broker.windows h.binding.session (p.acknowledge h.v5 h.session.window) := by
  have hother : ∀ {h' : Handled}, h'.broker.windows = h.broker.windows → h'.broker.windows =
      Function.update h.broker.windows h.binding.session h.session.window :=
    fun hsame => hsame.trans (Function.update_eq_self ..).symm
  cases p with
  | publish p => exact hother (windows_onPublish h p)
  | pubAck | pubComp =>
    exact (windows_putSession hseated _).trans (congrArg _ (h.session.window_settle _))
  | pubRec a => exact windows_onPubRec hseated a
  | pubRel a => exact hother (windows_onPubRel h a.packetId)
  | subscribe | unsubscribe =>
    exact hother ((windows_send ..).trans (windows_putSession_of_eq rfl))
  | pingReq => exact hother (windows_send h .pingResp)
  | disconnect tail => exact hother (windows_onDisconnect h tail)
  | connect | auth | connAck | subAck | unsubAck | pingResp => exact hother rfl

end Handled

end MqttBroker
