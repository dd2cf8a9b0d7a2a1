import MqttBroker.Proofs.Network.Intake
import MqttBroker.Proofs.Network.Progress
/-!
Handling a packet is a run of moves of the tenancies: of the connection's own by what the packet is
for, and of all of them where a message is routed.
-/

namespace MqttBroker

open Broker (Deeds Holders Proceeds)
open Tenancy (Does)

/-- The deed that is done to the client's session by what the client replies. -/
def Packet.deed? (v5 : Bool) : Packet → Option Tenancy.Move
  | pubAck a => some (.ack a.packetId)
  | pubRec a => some (if v5 && 0x80 ≤ a.reason then .abandon a.packetId else .receive a.packetId)
  | pubComp a => some (.complete a.packetId)
  | _ => none

/-- What of a binding stays while the connection is bound. -/
def Binding.place (β : Binding) : SessionId × LeaseId × String :=
  (β.session, β.lease, β.link.clientId)

namespace Handled

/-- The broker once the connection has asked itself to close after a failure. -/
def settled (h : Handled) : Broker :=
  match h.verdict with
  | .failed error => h.broker.closeLease h.binding.lease (CloseReason.ofError error)
  | .proceed | .done => h.broker

/-- The packet is handled by the connection that holds the session, and nothing is amiss so far. -/
structure InCharge (hold : Holders) (h : Handled) : Prop where
  holding : ∃ w, hold h.binding.session = some ⟨h.binding.lease, h.binding.link, some w⟩
  session : h.binding.session < h.broker.sessions.length
  lease : h.binding.lease < h.broker.leases.length
  verdict : h.verdict = .proceed

/-- What is done to the sessions by handling a packet. -/
def deeds (h : Handled) (p : Packet) : Deeds :=
  (h.broker.offers (p.takeIn h.binding.link.maxReceive h.session.incoming).2).and
    (.on h.binding.session (p.deed? h.v5).toList)

/-- Handling has come from `h` to `h'` and goes on. -/
structure GoesOn (hold : Holders) (deeds : Deeds) (h h' : Handled) : Prop where
  binding : h'.binding = h.binding
  verdict : h'.verdict = .proceed
  proceeds : Proceeds hold hold deeds h.broker h'.broker

/-- Handling has come from `h` to its end `h'`. -/
structure Handles (hold : Holders) (deeds : Deeds) (h h' : Handled) : Prop where
  place : h'.binding.place = h.binding.place
  link : h'.verdict = .proceed → h'.binding.link = h.binding.link
  proceeds : Proceeds hold hold deeds h.broker h'.settled

variable {hold : Holders} {deeds deeds' : Deeds} {done : List Tenancy.Move} {h h₁ h₂ : Handled}

namespace GoesOn

theorem refl (hcharge : h.InCharge hold) : GoesOn hold .none h h :=
  ⟨rfl, hcharge.verdict, .refl hold h.broker⟩

theorem trans (h₁₂ : GoesOn hold deeds h h₁) (h₂₃ : GoesOn hold deeds' h₁ h₂) :
    GoesOn hold (deeds.and deeds') h h₂ where
  binding := h₂₃.binding.trans h₁₂.binding
  verdict := h₂₃.verdict
  proceeds := h₁₂.proceeds.trans h₂₃.proceeds

theorem inCharge (hgoes : GoesOn hold deeds h h₁) (hcharge : h.InCharge hold) :
    h₁.InCharge hold where
  holding := hgoes.binding ▸ hcharge.holding
  session := hgoes.proceeds.sessions ▸ hgoes.binding ▸ hcharge.session
  lease := hgoes.proceeds.leases ▸ hgoes.binding ▸ hcharge.lease
  verdict := hgoes.verdict

theorem handles (hgoes : GoesOn hold deeds h h₁) : Handles hold deeds h h₁ where
  place := by rw [hgoes.binding]
  link _ := by rw [hgoes.binding]
  proceeds := by
    rw [settled, hgoes.verdict]
    exact hgoes.proceeds

/-- What comes after has no deeds in it. -/
theorem then_handles (hgoes : GoesOn hold deeds h h₁) (hhandles : Handles hold .none h₁ h₂) :
    Handles hold deeds h h₂ where
  place := hgoes.binding ▸ hhandles.place
  link := hgoes.binding ▸ hhandles.link
  proceeds := hgoes.proceeds.quietly hhandles.proceeds

theorem tell (hgoes : GoesOn hold deeds h h₁) (event : Event) :
    GoesOn hold deeds h (h₁.tell event) :=
  ⟨hgoes.binding, hgoes.verdict, hgoes.proceeds⟩

end GoesOn

/-- The tenancy of the connection's own session. -/
theorem InCharge.tenancy (hcharge : h.InCharge hold) :
    ∃ x : Tenant, x.link = h.binding.link ∧
      h.broker.tenancy h.binding.session (hold h.binding.session) = ⟨h.session, some x⟩ := by
  obtain ⟨w, hw⟩ := hcharge.holding
  refine ⟨⟨h.binding.link, (h.broker.lease h.binding.lease).reason, some w⟩, rfl, ?_⟩
  rw [Broker.tenancy, hw]
  rfl

theorem putSession_putSession (h : Handled) (s s' : Session) :
    (h.putSession s).putSession s' = h.putSession s' := by
  have hmodify := h.broker.sessions.modify_modify_eq (fun _ => s) (fun _ => s') h.binding.session
  simp only [putSession, Broker.putSession, Broker.updateSession, hmodify]
  rfl

theorem goesOn_putSession (hcharge : h.InCharge hold) {s : Session}
    (hclientId : s.clientId = h.session.clientId) (howner : s.owner = h.session.owner)
    (hdoes : Does (h.broker.tenancy h.binding.session (hold h.binding.session)) done
      { h.broker.tenancy h.binding.session (hold h.binding.session) with session := s }) :
    GoesOn hold (.on h.binding.session done) h (h.putSession s) :=
  ⟨rfl, hcharge.verdict, .of_session hold hcharge.session hclientId howner hdoes⟩

/-- What an acknowledgement leaves of the session. -/
theorem goesOn_settle (hcharge : h.InCharge hold) (window? : Option Window)
    (hdoes : Does (h.broker.tenancy h.binding.session (hold h.binding.session)) done
      { h.broker.tenancy h.binding.session (hold h.binding.session) with
        session := (h.session.settle window?).1 }) :
    GoesOn hold (.on h.binding.session done) h (h.putSession (h.session.settle window?).1) := by
  refine goesOn_putSession hcharge ?_ ?_ hdoes
  · cases window? <;> rfl
  · cases window? <;> rfl

/-- A change of what no other task has a part in. -/
theorem goesOn_adjust (hcharge : h.InCharge hold) (subscriptions : Subscriptions)
    (incoming : List UInt16) (will : Option Message) :
    GoesOn hold .none h (h.putSession { h.session with subscriptions, incoming, will }) :=
  ⟨rfl, hcharge.verdict, .of_adjust hold h.broker h.binding.session
    ⟨subscriptions, incoming, will, h.session.active, rfl⟩⟩

theorem goesOn_publish (hcharge : h.InCharge hold) (m : Message) :
    GoesOn hold (h.broker.offers [m]) h (h.publish m).1 :=
  ⟨rfl, hcharge.verdict, .of_dispatch hold h.broker m⟩

theorem handles_fail (hold : Holders) (h : Handled) (error : SessionError) :
    Handles hold .none h (h.fail error) :=
  ⟨rfl, nofun, .of_closeLease ..⟩

theorem handles_send (hcharge : h.InCharge hold) {p : Packet} (hkind : p.kind ≠ .publish) :
    Handles hold .none h (h.send p) := by
  obtain ⟨x, hlink, htenancy⟩ := hcharge.tenancy
  unfold send
  split
  · exact handles_fail ..
  · next bytes hbytes =>
    split
    · next s hs =>
      rw [← Deeds.on_nil h.binding.session]
      refine (goesOn_putSession hcharge ?_ ?_ ?_).handles
      · rw [Session.enqueue?_eq_some hs]
        rfl
      · rw [Session.enqueue?_eq_some hs]
        rfl
      · rw [htenancy]
        refine .of_step (.answer p) ?_
        rw [Tenancy.step, if_neg hkind, Option.map_some, Tenancy.answer, hlink, hbytes]
        simp only [hs]
    · exact handles_fail ..

theorem GoesOn.handles_send (hgoes : GoesOn hold deeds h h₁) (hcharge : h.InCharge hold)
    {p : Packet} (hkind : p.kind ≠ .publish) : Handles hold deeds h (h₁.send p) :=
  hgoes.then_handles (Handled.handles_send (hgoes.inCharge hcharge) hkind)

/-- A failure after the session was changed, where the change and the request to close are one move
of the tenancy. -/
theorem handles_putSession_fail (hcharge : h.InCharge hold) {s : Session} {x : Tenant}
    {error : SessionError} (hclientId : s.clientId = h.session.clientId)
    (howner : s.owner = h.session.owner)
    (htenancy : h.broker.tenancy h.binding.session (hold h.binding.session) = ⟨h.session, some x⟩)
    (hdoes : Does ⟨h.session, some x⟩ done ⟨s, some (x.close (CloseReason.ofError error))⟩) :
    Handles hold (.on h.binding.session done) h ((h.putSession s).fail error) := by
  obtain ⟨w, hw⟩ := hcharge.holding
  have hput : (h.putSession s).broker.tenancy h.binding.session (hold h.binding.session) =
      ⟨s, some x⟩ := by
    rw [putSession, Broker.putSession, Broker.tenancy_updateSession hcharge.session, htenancy]
  have hclosed := Broker.tenancy_closeLease (b := (h.putSession s).broker)
    (h := ⟨h.binding.lease, h.binding.link, some w⟩) hcharge.lease h.binding.session
    (CloseReason.ofError error)
  rw [← hw, hput] at hclosed
  have hproceeds := Proceeds.of_update h.binding.session (hold h.binding.session) hclientId howner
    (.of_closeLease hold (h.putSession s).broker h.binding.lease (CloseReason.ofError error))
    (by rw [hclosed, htenancy]; exact hdoes)
  rw [Function.update_eq_self] at hproceeds
  refine ⟨rfl, fun hverdict => ?_, hproceeds⟩
  cases hverdict

/-- The PUBREL for a message is queued in the step that releases it. -/
theorem handles_receive (hcharge : h.InCharge hold) {id : UInt16} {s : Session}
    (hreceived : h.session.received id = (s, true)) :
    Handles hold (.on h.binding.session [.receive id]) h
      ((h.putSession s).send (.pubRel { packetId := id })) := by
  obtain ⟨x, hlink, htenancy⟩ := hcharge.tenancy
  have hkept : s.clientId = h.session.clientId ∧ s.owner = h.session.owner := by
    rcases h.session.received_cases id with ⟨-, heq⟩ | ⟨window, -, heq⟩
    · cases heq.symm.trans hreceived
    · cases heq.symm.trans hreceived
      exact ⟨rfl, rfl⟩
  have hput : (h.putSession s).session = s := Broker.session_updateSession hcharge.session _
  have hstep : Tenancy.step ⟨h.session, some x⟩ (.receive id) =
      some (Tenancy.answer ⟨s, some x⟩ x (.pubRel { packetId := id })) := by
    rw [Tenancy.step, Option.map_some, Tenancy.receive, hreceived]
  rw [Tenancy.answer, hlink] at hstep
  unfold send
  rw [hput]
  split
  · next cause hcause =>
    change Packet.encode _ h.binding.link.level = _ at hcause
    rw [hcause] at hstep
    exact handles_putSession_fail hcharge hkept.1 hkept.2 htenancy (.of_step (.receive id) hstep)
  · next bytes hbytes =>
    change Packet.encode _ h.binding.link.level = _ at hbytes
    simp only [hbytes] at hstep
    split
    · next s' hs' =>
      simp only [hs'] at hstep
      have hboth : GoesOn hold (.on h.binding.session [.receive id]) h (h.putSession s') := by
        refine goesOn_putSession hcharge ?_ ?_ ?_
        · rw [Session.enqueue?_eq_some hs']
          exact hkept.1
        · rw [Session.enqueue?_eq_some hs']
          exact hkept.2
        · rw [htenancy]
          exact .of_step (.receive id) hstep
      rw [putSession_putSession]
      exact hboth.handles
    · next hfull =>
      simp only [hfull] at hstep
      exact handles_putSession_fail hcharge hkept.1 hkept.2 htenancy (.of_step (.receive id) hstep)

/-- Nothing waits for the PUBREC. -/
theorem goesOn_receive (hcharge : h.InCharge hold) {id : UInt16} {s : Session}
    (hreceived : h.session.received id = (s, false)) :
    GoesOn hold (.on h.binding.session [.receive id]) h h := by
  obtain ⟨x, -, htenancy⟩ := hcharge.tenancy
  refine ⟨rfl, hcharge.verdict, .of_idle hold h.broker h.binding.session ?_⟩
  rw [htenancy]
  refine .of_step (.receive id) ?_
  rw [Tenancy.step, Option.map_some, Tenancy.receive, hreceived]

/-! ### The packets -/

theorem handles_onPublish (hcharge : h.InCharge hold) (p : Publish) :
    Handles hold (h.broker.offers (p.takeIn h.binding.link.maxReceive h.session.incoming).2) h
      (h.onPublish p) := by
  have hpublish := goesOn_publish hcharge (Message.ofPublish p)
  unfold onPublish Publish.takeIn
  split
  · exact handles_fail ..
  cases p.qos with
  | atMostOnce => exact hpublish.handles
  | atLeastOnce =>
    cases p.packetId with
    | none => exact handles_fail ..
    | some id => exact hpublish.handles_send hcharge (by rintro ⟨⟩)
  | exactlyOnce =>
    cases p.packetId with
    | none => exact handles_fail ..
    | some id =>
      dsimp only
      rw [Session.isPending]
      split
      · exact handles_send hcharge (by rintro ⟨⟩)
      · next hfresh =>
        split
        · exact handles_fail ..
        · have hbegin : GoesOn hold .none h (h.putSession (h.session.beginIncoming id).1) := by
            rw [Session.beginIncoming, Session.isPending, if_neg hfresh]
            exact goesOn_adjust hcharge h.session.subscriptions _ h.session.will
          have hpublish := goesOn_publish (hbegin.inCharge hcharge) (Message.ofPublish p)
          exact (hbegin.trans hpublish).handles_send hcharge (by rintro ⟨⟩)

theorem handles_sendUnknown (hcharge : h.InCharge hold) (id : UInt16) {answer : Ack → Packet}
    (hkind : ∀ a, (answer a).kind ≠ .publish) : Handles hold .none h (h.sendUnknown id answer) := by
  unfold sendUnknown
  split
  · exact handles_send hcharge (hkind _)
  · exact (GoesOn.refl hcharge).handles

theorem handles_onPubRec (hcharge : h.InCharge hold) (a : Ack) :
    Handles hold (.on h.binding.session
      [if h.v5 && 0x80 ≤ a.reason then .abandon a.packetId else .receive a.packetId]) h
      (h.onPubRec a) := by
  unfold onPubRec
  by_cases hrefused : (h.v5 && 0x80 ≤ a.reason) = true
  · rw [if_pos hrefused, if_pos hrefused]
    exact (goesOn_settle hcharge _ (.of_step (.abandon a.packetId) rfl)).handles
  · rw [if_neg hrefused, if_neg hrefused]
    split
    · next hreceived => exact handles_receive hcharge hreceived
    · next hreceived =>
      exact (goesOn_receive hcharge hreceived).then_handles (handles_sendUnknown hcharge _ nofun)

theorem handles_onPubRel (hcharge : h.InCharge hold) (id : UInt16) :
    Handles hold .none h (h.onPubRel id) := by
  unfold onPubRel
  split
  · next s hs =>
    have hrelease : GoesOn hold .none h (h.putSession s) := by
      unfold Session.releaseIncoming at hs
      split at hs
      · cases hs
        exact goesOn_adjust hcharge h.session.subscriptions _ h.session.will
      · cases hs
    exact hrelease.handles_send hcharge (by rintro ⟨⟩)
  · exact handles_sendUnknown hcharge _ nofun

theorem handles_onSubscribe (hcharge : h.InCharge hold) (p : Subscribe) :
    Handles hold .none h (h.onSubscribe p) := by
  have hheld := goesOn_adjust hcharge
    (h.session.subscriptions.subscribe (p.filters.map fun f => (f.1, f.2.qos)))
    h.session.incoming h.session.will
  exact (hheld.tell _).handles_send hcharge (by rintro ⟨⟩)

theorem handles_onUnsubscribe (hcharge : h.InCharge hold) (p : Unsubscribe) :
    Handles hold .none h (h.onUnsubscribe p) := by
  have hheld := goesOn_adjust hcharge (h.session.subscriptions.unsubscribe p.filters).1
    h.session.incoming h.session.will
  exact (hheld.tell _).handles_send hcharge (by rintro ⟨⟩)

theorem handles_onDisconnect (hcharge : h.InCharge hold) (p : ReasonTail) :
    Handles hold .none h (h.onDisconnect p) := by
  have hwill : GoesOn hold .none h (if !h.v5 || p.code = ReasonCode.normalDisconnection then
      h.putSession h.session.takeWill.1 else h) := by
    split
    · exact goesOn_adjust hcharge h.session.subscriptions h.session.incoming none
    · exact .refl hcharge
  unfold onDisconnect
  dsimp only
  generalize (if !h.v5 || p.code = ReasonCode.normalDisconnection then
      h.putSession h.session.takeWill.1 else h) = h₁ at hwill ⊢
  refine hwill.then_handles ?_
  split
  · exact ⟨rfl, nofun, .of_closeLease ..⟩
  split
  · exact handles_fail ..
  · exact ⟨rfl, nofun, .of_closeLease ..⟩

theorem handles_onPacket (hcharge : h.InCharge hold) (p : Packet) :
    Handles hold (h.deeds p) h (h.onPacket p) := by
  have hquiet : ∀ {p : Packet} {h' : Handled}, p.deed? h.v5 = none →
      Handles hold (h.broker.offers (p.takeIn h.binding.link.maxReceive h.session.incoming).2) h
        h' → Handles hold (h.deeds p) h h' := by
    intro p h' hnone hhandles
    rwa [Handled.deeds, hnone, Option.toList_none, Deeds.on_nil, Deeds.and_none]
  cases p with
  | publish p => exact hquiet rfl (handles_onPublish hcharge p)
  | pubAck a => exact (goesOn_settle hcharge _ (.of_step (.ack a.packetId) rfl)).handles
  | pubRec a => exact handles_onPubRec hcharge a
  | pubRel a => exact hquiet rfl (handles_onPubRel hcharge a.packetId)
  | pubComp a => exact (goesOn_settle hcharge _ (.of_step (.complete a.packetId) rfl)).handles
  | subscribe p => exact hquiet rfl (handles_onSubscribe hcharge p)
  | unsubscribe p => exact hquiet rfl (handles_onUnsubscribe hcharge p)
  | pingReq => exact hquiet rfl (handles_send (p := .pingResp) hcharge nofun)
  | disconnect tail => exact hquiet rfl (handles_onDisconnect hcharge tail)
  | connect | auth | connAck | subAck | unsubAck | pingResp => exact hquiet rfl (handles_fail ..)

end Handled

end MqttBroker
