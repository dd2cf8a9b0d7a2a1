import MqttBroker.Proofs.Broker.Routing
import MqttBroker.Proofs.Network.Acts
import MqttBroker.Proofs.Network.Possession
/-!
What is on record with a broker: why each connection was asked to close, and the control packets
that wait to be written. No operation takes a reason back or puts another in its place, and none
lets a DISCONNECT come into an outbox.
-/

namespace MqttBroker

/-- The bytes of a packet that does not say goodbye. -/
def IsOrdinary (frame : Bytes) : Prop :=
  ∃ p level, p.kind ≠ .disconnect ∧ Packet.encode p level = .ok frame

namespace CloseReason

/-- The connection is wanted no more, and nobody is at fault. -/
def IsOrderly (reason : CloseReason) : Prop := reason = takenOver ∨ reason = serverShutdown

theorem not_isOrderly_ofError (error : SessionError) : ¬(ofError error).IsOrderly := by
  cases error <;> simp [ofError, IsOrderly]

end CloseReason

theorem Lease.reason_close_of_none {l : Lease} (h : l.reason = none) (reason : CloseReason) :
    (l.close reason).reason = some reason := by
  rw [close, h]
  rfl

theorem Lease.reason_close_of_some {l : Lease} {reason : CloseReason} (h : l.reason = some reason)
    (other : CloseReason) : (l.close other).reason = some reason := by
  rw [close, h]
  rfl

namespace Broker

/-- From `b` to `b'` no recorded reason has changed. What was recorded satisfies `may`, and the
control packets that have come into outboxes are ordinary. -/
structure Upholds (may : CloseReason → Prop) (b b' : Broker) : Prop where
  kept : ∀ l reason, (b.lease l).reason = some reason → (b'.lease l).reason = some reason
  recorded : ∀ l reason, (b'.lease l).reason = some reason →
    (b.lease l).reason = some reason ∨ may reason
  controls : ∀ id frame, .control frame ∈ (b'.session id).outbox.items →
    .control frame ∈ (b.session id).outbox.items ∨ IsOrdinary frame

theorem isSome_reason_closeLease {b : Broker} {l : LeaseId} (hl : l < b.leases.length)
    (reason : CloseReason) : ((b.closeLease l reason).lease l).reason.isSome = true := by
  rw [closeLease, lease_updateLease hl]
  cases hreason : (b.lease l).reason with
  | none => rw [Lease.reason_close_of_none hreason, Option.isSome_some]
  | some first => rw [Lease.reason_close_of_some hreason, Option.isSome_some]

namespace Upholds

variable {may may' : CloseReason → Prop} {b b' b'' : Broker} {l : LeaseId} {reason : CloseReason}

theorem of_eq (hreason : ∀ l, (b'.lease l).reason = (b.lease l).reason)
    (hsession : ∀ id, b'.session id = b.session id) : Upholds may b b' where
  kept l _ h := (hreason l).trans h
  recorded l _ h := .inl ((hreason l).symm.trans h)
  controls id _ hmem := .inl (hsession id ▸ hmem)

theorem refl (b : Broker) : Upholds may b b := .of_eq (fun _ => rfl) fun _ => rfl

theorem trans (h : Upholds may b b') (h' : Upholds may b' b'') : Upholds may b b'' where
  kept l reason hreason := h'.kept l reason (h.kept l reason hreason)
  recorded l reason hreason := (h'.recorded l reason hreason).elim (h.recorded l reason) .inr
  controls id frame hmem := (h'.controls id frame hmem).elim (h.controls id frame) .inr

theorem mono (h : Upholds may b b') (hmay : ∀ reason, may reason → may' reason) :
    Upholds may' b b' where
  kept := h.kept
  recorded l reason hreason := (h.recorded l reason hreason).imp_right (hmay reason)
  controls := h.controls

/-! ### Sessions and leases -/

theorem of_session (b : Broker) (id : SessionId) {f : Session → Session}
    (hitems : ∀ frame, .control frame ∈ (f (b.session id)).outbox.items →
      .control frame ∈ (b.session id).outbox.items ∨ IsOrdinary frame) :
    Upholds may b (b.updateSession id f) := by
  refine ⟨fun _ _ h => h, fun _ _ h => .inl h, ?_⟩
  intro id' frame hmem
  rcases Nat.lt_or_ge id b.sessions.length with hid | hid
  · by_cases heq : id = id'
    · rw [← heq, session_updateSession hid] at hmem
      exact heq ▸ hitems frame hmem
    · rw [session_updateSession_of_ne heq] at hmem
      exact .inl hmem
  · rw [updateSession_of_le hid] at hmem
    exact .inl hmem

theorem of_outbox (b : Broker) (id : SessionId) {f : Session → Session}
    (houtbox : (f (b.session id)).outbox = (b.session id).outbox) :
    Upholds may b (b.updateSession id f) := by
  apply of_session
  rw [houtbox]
  exact fun _ => .inl

/-- Only the first reason is recorded. -/
theorem of_closeLease (b : Broker) (l : LeaseId) (hmay : may reason) :
    Upholds may b (b.closeLease l reason) := by
  rcases Nat.lt_or_ge l b.leases.length with hl | hl
  · have hself : (b.closeLease l reason).lease l = (b.lease l).close reason :=
      lease_updateLease hl _
    have hothers : ∀ l', l ≠ l' → (b.closeLease l reason).lease l' = b.lease l' :=
      fun l' hne => lease_updateLease_of_ne hne _
    refine ⟨?_, ?_, fun _ _ => .inl⟩
    · intro l' first hfirst
      by_cases heq : l = l'
      · subst heq
        rw [hself]
        exact Lease.reason_close_of_some hfirst reason
      · rwa [hothers l' heq]
    · intro l' first hfirst
      by_cases heq : l = l'
      · subst heq
        rw [hself] at hfirst
        cases hnone : (b.lease l).reason with
        | none =>
          rw [Lease.reason_close_of_none hnone] at hfirst
          cases hfirst
          exact .inr hmay
        | some before =>
          rw [Lease.reason_close_of_some hnone] at hfirst
          exact .inl hfirst
      · rw [hothers l' heq] at hfirst
        exact .inl hfirst
  · rw [closeLease, updateLease_of_le hl]
    exact .refl b

theorem of_releaseLease (b : Broker) (l : LeaseId) : Upholds may b (b.releaseLease l) :=
  .of_eq (reason_releaseLease b l) fun _ => rfl

/-- A lease that is made has nothing on record, as one that is not there. -/
theorem of_newLease (b : Broker) : Upholds may b b.newLease.1 := by
  refine .of_eq (fun l => ?_) fun _ => rfl
  rcases Nat.lt_trichotomy l b.leases.length with hlt | rfl | hlt
  · rw [lease, lease, newLease, List.getElem?_append_left hlt]
  · rw [lease, lease, newLease, List.getElem?_concat_length, List.getElem?_eq_none (Nat.le_refl _)]
    rfl
  · have hlength : (b.leases ++ [({} : Lease)]).length ≤ l := by
      rw [List.length_append]
      exact hlt
    rw [lease, lease, newLease, List.getElem?_eq_none hlength,
      List.getElem?_eq_none (Nat.le_of_lt hlt)]

theorem of_closeOwner (b : Broker) (id : SessionId) (hmay : may reason) :
    Upholds may b (b.closeOwner id reason) := by
  unfold closeOwner
  split
  · exact of_closeLease b _ hmay
  · exact .refl b

theorem of_attach (b : Broker) (id : SessionId) (l : LeaseId) :
    Upholds may b (b.attach id l).1 := of_outbox b id rfl

theorem of_detach (b : Broker) (id : SessionId) (l : LeaseId) :
    Upholds may b (b.detach id l).1 := by
  unfold detach
  split
  · exact of_outbox b id rfl
  · exact .refl b

theorem of_unregister (b : Broker) (id : SessionId) : Upholds may b (b.unregister id) := by
  obtain ⟨registry, hregistry⟩ := b.unregister_eq id
  rw [hregistry]
  exact .of_eq (fun _ => rfl) fun _ => rfl

theorem of_openSession (b : Broker) (clientId : String) (clean : Bool) :
    Upholds may b (b.openSession clientId clean).1 := by
  rcases b.openSession_cases clientId clean with ⟨id, -, heq⟩ | heq
  · rw [heq]
    exact .refl b
  · rw [heq]
    let added := b.sessions ++ [Session.fresh clientId b.limits.outboxCapacity]
    refine ⟨fun _ _ h => h, fun _ _ h => .inl h, ?_⟩
    intro id frame hmem
    left
    change .control frame ∈ ((added[id]?).getD (Session.fresh "" _)).outbox.items at hmem
    -- The new session has an empty outbox, as has one that is not there.
    rcases Nat.lt_trichotomy id b.sessions.length with hlt | rfl | hlt
    · rw [List.getElem?_append_left hlt] at hmem
      exact hmem
    · rw [List.getElem?_concat_length] at hmem
      cases hmem
    · rw [List.getElem?_eq_none (by rw [List.length_append]; exact hlt)] at hmem
      cases hmem

/-! ### Routing -/

theorem of_deliver (b : Broker) (id : SessionId) (m : Message) (hmay : may .queueOverflow) :
    Upholds may b (b.deliver id m).1 := by
  rcases b.deliver_cases id m with ⟨-, heq⟩ | ⟨qos, -, heq⟩ | ⟨-, -, heq⟩
  · rw [heq]
    exact .refl b
  · rw [heq]
    apply of_session
    intro frame hmem
    rw [Session.append_items] at hmem
    rcases List.mem_append.1 hmem with hold | hnew
    · exact .inl hold
    · cases List.mem_singleton.1 hnew
  · rw [heq]
    dsimp only
    split
    · exact of_closeOwner b id hmay
    · exact .refl b

theorem of_dispatch (b : Broker) (m : Message) (hmay : may .queueOverflow) :
    Upholds may b (b.dispatch m).1 := by
  unfold dispatch
  refine List.foldlRecOn (motive := fun x : Broker × Nat => Upholds may b x.1) _ _ (.refl b) ?_
  exact fun x h entry _ => h.trans (of_deliver x.1 entry.2 m hmay)

theorem of_shutdown (b : Broker) (hmay : may .serverShutdown) : Upholds may b b.shutdown := by
  unfold shutdown
  refine List.foldlRecOn (motive := Upholds may b) _ _ (.refl b) ?_
  exact fun b' h entry _ => h.trans (of_closeOwner b' entry.2 hmay)

theorem of_asks (h : b.Asks b') : Upholds (fun _ => True) b b' := by
  induction h with
  | rest => exact .refl b
  | assign => exact .of_eq (fun _ => rfl) fun _ => rfl
  | close _ l _ ih => exact ih.trans (of_closeLease _ l trivial)

/-! ### Connections -/

/-- What is recorded of a failure is not that the connection was wanted no more. -/
theorem of_recordError (b : Broker) (β : Binding) (result : Connection.Result) :
    Upholds (fun reason => ¬reason.IsOrderly) b (Connection.recordError b β result) := by
  cases result with
  | error error => exact of_closeLease b _ (CloseReason.not_isOrderly_ofError error)
  | ok => exact .refl b

theorem of_takeWill (b : Broker) (id : SessionId) (hmay : may .queueOverflow) :
    Upholds may b (match (b.session id).takeWill.2 with
      | some m => ((b.putSession id (b.session id).takeWill.1).dispatch m).1
      | none => b.putSession id (b.session id).takeWill.1) := by
  have htaken : Upholds may b (b.putSession id (b.session id).takeWill.1) := of_outbox b id rfl
  split
  · exact htaken.trans (of_dispatch _ _ hmay)
  · exact htaken

theorem of_release (b : Broker) (β : Binding) (hmay : may .queueOverflow) :
    Upholds may b (Connection.release b β) := by
  let b₁ := b.updateSession β.session fun s => { s with active := false }
  have h₁ : Upholds may b b₁ := of_outbox b β.session rfl
  have h₂ := h₁.trans (of_takeWill b₁ β.session hmay)
  have h₃ := h₂.trans (of_detach _ β.session β.lease)
  unfold Connection.release
  refine trans ?_ (of_releaseLease _ β.lease)
  split
  · refine h₃.trans (of_session _ β.session fun frame hmem => .inl ?_)
    exact (List.mem_filter.1 hmem).1
  · exact h₃.trans (of_unregister _ β.session)

theorem of_conclude (b : Broker) (c : Connection) (β : Binding) (result : Connection.Result) :
    Upholds (fun reason => ¬reason.IsOrderly) b (c.conclude b β result).broker :=
  (of_recordError b β result).trans (of_release _ β (by simp [CloseReason.IsOrderly]))

theorem of_bind (b : Broker) (c : Connection) (connect : Connect) (accepted : Accepted) :
    Upholds (fun _ => True) b (c.bind b connect accepted).broker := by
  have hopened : Upholds (fun _ => True) b
      (b.openSession accepted.clientId connect.cleanSession).1 := of_openSession b _ _
  unfold Connection.bind
  rcases hopen : b.openSession accepted.clientId connect.cleanSession with ⟨b₁, id, present⟩
  rw [hopen] at hopened
  have hattached := (hopened.trans (of_newLease b₁)).trans
    (of_attach b₁.newLease.1 id b₁.newLease.2)
  dsimp only at hattached ⊢
  generalize b₁.newLease.1.attach id b₁.newLease.2 = attached at hattached ⊢
  -- Two things follow, whether or not an earlier connection is asked to close.
  have hwills : ∀ {b' : Broker}, Upholds (fun _ => True) b b' → Upholds (fun _ => True) b
      (b'.updateSession id fun s => { s with will := connect.will.map Message.ofWill }) :=
    fun h => h.trans (of_outbox _ id rfl)
  have hfails : ∀ {b' : Broker}, Upholds (fun _ => True) b b' → ∀ β result,
      Upholds (fun _ => True) b (c.conclude b' β result).broker :=
    fun h _ _ => h.trans ((of_conclude _ c _ _).mono fun _ _ => trivial)
  obtain ⟨b₂, previous⟩ := attached
  cases previous with
  | none =>
    dsimp only
    split
    · exact hwills hattached
    · exact hfails (hwills hattached) _ _
  | some owner =>
    have hasked : Upholds (fun _ => True) b (b₂.closeLease owner .takenOver) :=
      hattached.trans (of_closeLease b₂ owner trivial)
    dsimp only
    split
    · exact hwills hasked
    · exact hfails (hwills hasked) _ _

end Upholds

end Broker

open Broker (Upholds)

/-! ### Handling -/

namespace Handled

/-- From `h` to `h'` the connection has been asked to close at most because of what it has come to
itself, and handling has not come to its end. -/
structure Records (h h' : Handled) : Prop where
  upholds : Upholds (fun reason => ¬reason.IsOrderly) h.broker h'.broker
  going : h'.verdict = .done → h.verdict = .done

variable {h h₁ h₂ : Handled} {p : Packet}

theorem Records.trans (h₁₂ : h.Records h₁) (h₂₃ : h₁.Records h₂) : h.Records h₂ :=
  ⟨h₁₂.upholds.trans h₂₃.upholds, fun hdone => h₁₂.going (h₂₃.going hdone)⟩

theorem records_refl (h : Handled) : h.Records h := ⟨.refl _, id⟩

theorem records_fail (h : Handled) (error : SessionError) : h.Records (h.fail error) :=
  ⟨.refl _, nofun⟩

theorem records_tell (h : Handled) (event : Event) : h.Records (h.tell event) := ⟨.refl _, id⟩

theorem records_putSession {s : Session} (houtbox : s.outbox = h.session.outbox) :
    h.Records (h.putSession s) := ⟨.of_outbox h.broker h.binding.session houtbox, id⟩

theorem records_publish (h : Handled) (m : Message) : h.Records (h.publish m).1 :=
  ⟨.of_dispatch h.broker m (by simp [CloseReason.IsOrderly]), id⟩

theorem records_send (h : Handled) (hkind : p.kind ≠ .disconnect) : h.Records (h.send p) := by
  unfold send
  split
  · exact h.records_fail _
  · next bytes hbytes =>
    split
    · next s hs =>
      rw [Session.enqueue?_eq_some hs]
      refine ⟨.of_session h.broker h.binding.session fun frame hmem => ?_, id⟩
      rw [Session.append_items] at hmem
      rcases List.mem_append.1 hmem with hold | hnew
      · exact .inl hold
      · cases List.mem_singleton.1 hnew
        exact .inr ⟨p, _, hkind, hbytes⟩
    · exact h.records_fail _

theorem Records.send (hrecords : h.Records h₁) (hkind : p.kind ≠ .disconnect) :
    h.Records (h₁.send p) := hrecords.trans (h₁.records_send hkind)

theorem records_sendUnknown (h : Handled) (id : UInt16) {answer : Ack → Packet}
    (hkind : ∀ a, (answer a).kind ≠ .disconnect) : h.Records (h.sendUnknown id answer) := by
  unfold sendUnknown
  split
  · exact h.records_send (hkind _)
  · exact h.records_refl

/-! ### Packet by packet -/

theorem records_onPublish (h : Handled) (p : Publish) : h.Records (h.onPublish p) := by
  unfold onPublish
  split
  · exact h.records_fail _
  dsimp only
  split
  · exact h.records_publish _
  · exact (h.records_publish _).send nofun
  · split
    · apply h.records_send
      exact nofun
    split
    · exact h.records_fail _
    · refine Records.send (Records.trans ?_ (records_publish _ _)) nofun
      apply records_putSession
      unfold Session.beginIncoming
      split <;> rfl
  · exact h.records_fail _

theorem records_onPubRec (h : Handled) (a : Ack) : h.Records (h.onPubRec a) := by
  unfold onPubRec
  split
  · exact records_putSession (h.session.abandon_outbox _)
  rcases h.session.received_cases a.packetId with ⟨-, heq⟩ | ⟨window, -, heq⟩
  · rw [heq]
    exact h.records_sendUnknown _ nofun
  · rw [heq]
    have hput : h.Records (h.putSession { h.session with window }) := records_putSession rfl
    exact hput.send nofun

theorem records_onPubRel (h : Handled) (id : UInt16) : h.Records (h.onPubRel id) := by
  unfold onPubRel Session.releaseIncoming
  split
  · next hreleased =>
    split at hreleased
    · cases hreleased
      have hput : h.Records (h.putSession { h.session with
          incoming := h.session.incoming.filter (· != id) }) := records_putSession rfl
      exact hput.send nofun
    · cases hreleased
  · exact h.records_sendUnknown _ nofun

theorem records_putSubscriptions (h : Handled) {subscriptions : Subscriptions} {event : Event}
    (hkind : p.kind ≠ .disconnect) :
    h.Records (((h.putSession { h.session with subscriptions }).tell event).send p) := by
  have hput : h.Records (h.putSession { h.session with subscriptions }) := records_putSession rfl
  exact (hput.trans (records_tell _ event)).send hkind

theorem records_onPacket (h : Handled) (p : Packet) :
    h.Records (h.onPacket p) ∨ ∃ tail, p = .disconnect tail := by
  cases p with
  | disconnect tail => exact .inr ⟨tail, rfl⟩
  | publish p => exact .inl (h.records_onPublish p)
  | pubAck a => exact .inl (records_putSession (h.session.ack_outbox _))
  | pubComp a => exact .inl (records_putSession (h.session.complete_outbox _))
  | pubRec a => exact .inl (h.records_onPubRec a)
  | pubRel a => exact .inl (h.records_onPubRel a.packetId)
  | subscribe | unsubscribe =>
    left
    apply h.records_putSubscriptions
    exact nofun
  | pingReq =>
    left
    show h.Records (h.send .pingResp)
    exact h.records_send nofun
  | connect | auth | connAck | subAck | unsubAck | pingResp => exact .inl (h.records_fail _)

/-- A DISCONNECT is rejected, or the connection is asked to close. -/
theorem onDisconnect_cases (h : Handled) (tail : ReasonTail) :
    ∃ b, Upholds (fun reason => ¬reason.IsOrderly) h.broker b ∧ b.leases = h.broker.leases ∧
      ((h.onDisconnect tail).broker = b ∧ (h.onDisconnect tail).verdict ≠ .done ∨
        (h.onDisconnect tail).broker = b.closeLease h.binding.lease .clientDisconnect) := by
  unfold onDisconnect
  dsimp only
  -- Whether the will is taken makes no difference to what is on record.
  have hwill : ∃ h₁, (if !h.v5 || tail.code = ReasonCode.normalDisconnection then
      h.putSession h.session.takeWill.1 else h) = h₁ ∧ h.Records h₁ ∧
        h₁.broker.leases = h.broker.leases ∧ h₁.binding = h.binding := by
    refine ⟨_, rfl, ?_⟩
    split
    · exact ⟨records_putSession rfl, rfl, rfl⟩
    · exact ⟨h.records_refl, rfl, rfl⟩
  obtain ⟨h₁, heq, hrecords, hleases, hbinding⟩ := hwill
  rw [heq, ← hbinding]
  refine ⟨h₁.broker, hrecords.upholds, hleases, ?_⟩
  split
  · exact .inr rfl
  · split
    · exact .inl ⟨rfl, nofun⟩
    · exact .inr rfl

theorem upholds_onPacket (h : Handled) (p : Packet) :
    Upholds (fun reason => ¬reason.IsOrderly) h.broker (h.onPacket p).broker := by
  rcases h.records_onPacket p with hrecords | ⟨tail, rfl⟩
  · exact hrecords.upholds
  · obtain ⟨b, hupholds, -, ⟨heq, -⟩ | heq⟩ := h.onDisconnect_cases tail
    · exact heq ▸ hupholds
    · have hleaves : Upholds (fun reason => ¬reason.IsOrderly) b
          (b.closeLease h.binding.lease .clientDisconnect) :=
        .of_closeLease b _ (by simp [CloseReason.IsOrderly])
      exact heq ▸ hupholds.trans hleaves

/-- A connection does not stop of itself without a reason on record. -/
theorem isSome_reason_of_done (hleased : h.binding.lease < h.broker.leases.length)
    (hgoing : h.verdict ≠ .done) (hdone : (h.onPacket p).verdict = .done) :
    ((h.onPacket p).broker.lease h.binding.lease).reason.isSome = true := by
  rcases h.records_onPacket p with hrecords | ⟨tail, rfl⟩
  · exact absurd (hrecords.going hdone) hgoing
  · obtain ⟨b, -, hleases, ⟨-, hnot⟩ | heq⟩ := h.onDisconnect_cases tail
    · exact absurd hdone hnot
    · change ((h.onDisconnect tail).broker.lease h.binding.lease).reason.isSome = true
      rw [heq]
      exact Broker.isSome_reason_closeLease (hleases ▸ hleased) _

end Handled

end MqttBroker
