import MqttBroker.Connection.Basic
import MqttBroker.Proofs.Network.Progress
import MqttBroker.Proofs.Broker.Registry
/-!
How a session is taken and let go. A CONNECT is bound to the session its client id stands for or to
a fresh one; a connection that ends publishes the will, gives up the session, and keeps or drops it.
-/

namespace MqttBroker

theorem one_le_toNat_max (n : UInt16) : 1 ≤ (max n 1).toNat := by
  by_cases hn : n ≤ 1
  · have hmax : max n 1 = 1 := if_pos hn
    rw [hmax]
    decide
  · have hmax : max n 1 = n := if_neg hn
    rw [hmax]
    exact Nat.le_of_lt (Nat.lt_of_not_le hn)

theorem Link.isServable_negotiate (limits : Limits) (accepted : Accepted) (c : Connect) :
    (Link.negotiate limits accepted c).IsServable := by
  have hlimits := one_le_toNat_max limits.maxInFlight
  have hsmall := (max limits.maxInFlight 1).toNat_lt
  change 1 ≤ inFlightLimitFor limits _ ∧ inFlightLimitFor limits _ ≤ 65535
  unfold inFlightLimitFor Limits.inFlightMaximum
  split
  · next most _ =>
    have hmost := one_le_toNat_max most
    omega
  · omega

namespace Broker

/-- From `b` to `b₁` a session is found or made for the client id. -/
structure Opens (b : Broker) (clientId : String) (b₁ : Broker) (id : SessionId) : Prop where
  leases : b₁.leases = b.leases
  limits : b₁.limits = b.limits
  registered : b₁.lookup clientId = some id
  lookup : ∀ key, key ≠ clientId → b₁.lookup key = b.lookup key
  registry : ∀ key id', (key, id') ∈ b₁.registry →
    (key, id') ∈ b.registry ∨ key = clientId ∧ id' = id
  session : id < b₁.sessions.length
  others : ∀ id', id' ≠ id → b₁.session id' = b.session id'
  resumed : b₁.sessions.length = b.sessions.length ∧ b.lookup clientId = some id ∧
      b₁.session id = b.session id ∨
    b₁.sessions.length = b.sessions.length + 1 ∧ id = b.sessions.length ∧
      b₁.session id = Session.fresh clientId b.limits.outboxCapacity

/-- From `b` to `b'` an accepted CONNECT is bound to a session that had no owner. -/
structure Binds (b : Broker) (accepted : Accepted) (b' : Broker) (β : Binding) : Prop where
  free : b.owner? accepted.clientId = none
  clientId : β.link.clientId = accepted.clientId
  servable : β.link.IsServable
  lease : β.lease = b.leases.length
  leases : b'.leases = b.newLease.1.leases
  limits : b'.limits = b.limits
  registered : b'.lookup accepted.clientId = some β.session
  lookup : ∀ key, key ≠ accepted.clientId → b'.lookup key = b.lookup key
  registry : ∀ key id, (key, id) ∈ b'.registry →
    (key, id) ∈ b.registry ∨ key = accepted.clientId ∧ id = β.session
  session : β.session < b'.sessions.length
  others : ∀ id, id ≠ β.session → b'.session id = b.session id
  /-- The session is the registered one or a fresh one. -/
  resumed : b'.sessions.length = b.sessions.length ∧ b.lookup accepted.clientId = some β.session ∧
      (∃ will, b'.session β.session =
        { b.session β.session with owner := some β.lease, will := will }) ∨
    b'.sessions.length = b.sessions.length + 1 ∧ β.session = b.sessions.length ∧
      ∃ will, b'.session β.session =
        { Session.fresh accepted.clientId b.limits.outboxCapacity with
          owner := some β.lease, will := will }

/-- From `b` to `b'` the connection bound by `β` gives up its session. -/
structure LetsGo (b : Broker) (β : Binding) (b' : Broker) : Prop where
  limits : b'.limits = b.limits
  sessions : b'.sessions.length = b.sessions.length
  leases : b'.leases.length = b.leases.length
  reason : ∀ l, (b'.lease l).reason = (b.lease l).reason
  lookup : ∀ key, key ≠ (b.session β.session).clientId → b'.lookup key = b.lookup key
  registry : b'.registry ⊆ b.registry
  others : ∀ id, id ≠ β.session → b'.session id = b.session id
  session : b'.session β.session =
    { b.session β.session with
      owner := none
      outbox := if β.link.persistent then (b.session β.session).outbox.discardTransient
        else (b.session β.session).outbox }

/-! ### Taking a session -/

section

variable {b b₁ : Broker} {clientId : String} {clean present : Bool} {id : SessionId}

theorem opens_fresh (b : Broker) (clientId : String) :
    Opens b clientId
      (register { b with
          sessions := b.sessions ++ [Session.fresh clientId b.limits.outboxCapacity] }
        b.sessions.length) b.sessions.length := by
  -- `added` is the broker with the fresh session, before its client id stands for it.
  let added : Broker := { b with
    sessions := b.sessions ++ [Session.fresh clientId b.limits.outboxCapacity] }
  have hlength : added.sessions.length = b.sessions.length + 1 := List.length_append
  have hfresh : added.session b.sessions.length =
      Session.fresh clientId b.limits.outboxCapacity := by
    simp [session, session?, added]
  have hclientId : (added.session b.sessions.length).clientId = clientId := by
    rw [hfresh]
    rfl
  constructor
  case leases | limits => rfl
  case registered =>
    have hregistered : (added.register b.sessions.length).lookup
        (added.session b.sessions.length).clientId = some b.sessions.length := lookup_register
    rwa [hclientId] at hregistered
  case lookup =>
    intro key hne
    exact lookup_register_of_ne (b := added) (hclientId.symm ▸ hne)
  case registry =>
    intro key id hmem
    have hcases := mem_register (b := added) hmem
    rwa [hclientId] at hcases
  case session => exact Nat.lt_of_lt_of_eq (Nat.lt_succ_self _) hlength.symm
  case resumed => exact .inr ⟨hlength, rfl, hfresh⟩
  case others =>
    intro id hne
    show added.session id = b.session id
    rw [session, session, session?, session?, List.getElem?_append]
    split
    · rfl
    · next hge =>
      have hpast : b.sessions.length < id := Nat.lt_of_le_of_ne (Nat.not_lt.1 hge) (Ne.symm hne)
      rw [List.getElem?_eq_none (Nat.not_lt.1 hge), List.getElem?_eq_none]
      exact Nat.sub_pos_of_lt hpast

theorem opens_of_openSession (hknown : ∀ key id, b.lookup key = some id → id < b.sessions.length)
    (hopen : b.openSession clientId clean = (b₁, id, present)) : Opens b clientId b₁ id := by
  rcases b.openSession_cases clientId clean with ⟨old, hlookup, heq⟩ | heq
  · cases heq.symm.trans hopen
    exact ⟨rfl, rfl, hlookup, fun _ _ => rfl, fun _ _ => .inl, hknown _ _ hlookup,
      fun _ _ => rfl, .inl ⟨rfl, hlookup, rfl⟩⟩
  · cases heq.symm.trans hopen
    exact opens_fresh b clientId

theorem Opens.owner (hopens : Opens b clientId b₁ id) (hfree : b.owner? clientId = none) :
    (b₁.session id).owner = none := by
  rcases hopens.resumed with ⟨-, hlookup, hsession⟩ | ⟨-, -, hsession⟩
  · rw [owner?, hlookup] at hfree
    rw [hsession]
    exact hfree
  · rw [hsession]
    rfl

theorem Opens.binds {accepted : Accepted} (hopens : Opens b accepted.clientId b₁ id)
    (hfree : b.owner? accepted.clientId = none) (connect : Connect) (will : Option Message) :
    Binds b accepted
      ((b₁.newLease.1.attach id b₁.newLease.2).1.updateSession id fun s => { s with will })
      { session := id
        lease := b₁.newLease.2
        link := Link.negotiate b₁.limits accepted connect } := by
  have hlength : ((b₁.newLease.1.attach id b₁.newLease.2).1.updateSession id fun s =>
      { s with will }).sessions.length = b₁.sessions.length := by
    rw [length_updateSession, attach, length_updateSession]
    rfl
  have hsession : ((b₁.newLease.1.attach id b₁.newLease.2).1.updateSession id fun s =>
      { s with will }).session id = { b₁.session id with owner := some b₁.newLease.2, will } := by
    rw [attach, session_updateSession, session_updateSession]
    · rfl
    · exact hopens.session
    · exact (length_updateSession ..).symm ▸ hopens.session
  refine ⟨hfree, rfl, Link.isServable_negotiate .., congrArg List.length hopens.leases, ?_,
    hopens.limits, hopens.registered, hopens.lookup, hopens.registry, hlength ▸ hopens.session,
    fun id' hne => ?_, ?_⟩
  · exact congrArg (· ++ [_]) hopens.leases
  · rw [attach, session_updateSession_of_ne hne.symm, session_updateSession_of_ne hne.symm]
    exact hopens.others id' hne
  · rw [hlength, hsession]
    exact hopens.resumed.imp
      (fun ⟨hsame, hlookup, hold⟩ => ⟨hsame, hlookup, will, by rw [hold]⟩)
      (fun ⟨hmore, hid, hfresh⟩ => ⟨hmore, hid, will, by rw [hfresh]⟩)

theorem Binds.owner {b' : Broker} {accepted : Accepted} {β : Binding}
    (h : Binds b accepted b' β) : (b'.session β.session).owner = some β.lease := by
  rcases h.resumed with ⟨-, -, will, heq⟩ | ⟨-, -, will, heq⟩ <;> rw [heq]

theorem Binds.sessions_le {b' : Broker} {accepted : Accepted} {β : Binding}
    (h : Binds b accepted b' β) : b.sessions.length ≤ b'.sessions.length := by
  rcases h.resumed with ⟨hlength, -⟩ | ⟨hlength, -⟩ <;> omega

/-- No session comes to stand for another client id. -/
theorem Binds.clientId_eq {b' : Broker} {accepted : Accepted} {β : Binding}
    (h : Binds b accepted b' β) (hid : id < b.sessions.length) :
    (b'.session id).clientId = (b.session id).clientId := by
  by_cases heq : id = β.session
  · subst heq
    rcases h.resumed with ⟨-, -, will, hsession⟩ | ⟨-, hfresh, -⟩
    · rw [hsession]
    · exact absurd hid (hfresh ▸ Nat.lt_irrefl _)
  · rw [h.others id heq]

end

theorem LetsGo.clientId_eq {b b' : Broker} {β : Binding} (h : LetsGo b β b') (id : SessionId) :
    (b'.session id).clientId = (b.session id).clientId := by
  by_cases heq : id = β.session
  · subst heq
    rw [h.session]
  · rw [h.others id heq]

/-! ### Letting a session go -/

theorem reason_releaseLease (b : Broker) (l l' : LeaseId) :
    ((b.releaseLease l).lease l').reason = (b.lease l').reason := by
  rcases Nat.lt_or_ge l b.leases.length with hl | hl
  · by_cases heq : l = l'
    · rw [← heq, releaseLease, lease_updateLease hl]
      rfl
    · rw [releaseLease, lease_updateLease_of_ne heq]
  · rw [releaseLease, updateLease_of_le hl]

theorem letsGo_of_owner {b : Broker} {β : Binding} (hid : β.session < b.sessions.length)
    (howner : (b.session β.session).owner = some β.lease) :
    LetsGo b β (releaseLease
      (if β.link.persistent then
        (b.detach β.session β.lease).1.updateSession β.session fun s =>
          { s with outbox := s.outbox.discardTransient }
      else (b.detach β.session β.lease).1.unregister β.session) β.lease) := by
  let b₁ := b.updateSession β.session fun s => { s with owner := none }
  have hdetach : (b.detach β.session β.lease).1 = b₁ := by rw [detach, if_pos howner]
  have hlength : b₁.sessions.length = b.sessions.length := b.length_updateSession β.session _
  have hsession : b₁.session β.session = { b.session β.session with owner := none } :=
    session_updateSession hid _
  have hothers : ∀ id, id ≠ β.session → b₁.session id = b.session id :=
    fun id hne => session_updateSession_of_ne hne.symm _
  rw [hdetach]
  split
  · next hkept =>
    refine ⟨rfl, ?_, length_updateLease .., fun l => reason_releaseLease .., fun _ _ => rfl,
      List.Subset.refl _, fun id hne => ?_, ?_⟩
    · exact (b₁.length_updateSession β.session _).trans hlength
    · exact (session_updateSession_of_ne hne.symm _).trans (hothers id hne)
    · refine (session_updateSession (hlength ▸ hid) _).trans ?_
      rw [hsession, if_pos hkept]
  · next hkept =>
    obtain ⟨registry, hregistry⟩ := b₁.unregister_eq β.session
    constructor
    case limits =>
      rw [hregistry]
      rfl
    case sessions =>
      rw [hregistry]
      exact hlength
    case leases =>
      rw [hregistry]
      exact length_updateLease ..
    case reason =>
      intro l
      rw [reason_releaseLease, hregistry]
      rfl
    case lookup =>
      intro key hne
      refine lookup_unregister_of_ne (b := b₁) ?_
      rwa [hsession]
    case registry => exact registry_unregister_subset (b := b₁)
    case others =>
      intro id hne
      rw [hregistry]
      exact hothers id hne
    case session =>
      rw [hregistry, if_neg hkept]
      exact hsession

theorem proceeds_of_takeWill (hold : Holders) (b : Broker) (id : SessionId) :
    Proceeds hold hold (b.offers (b.session id).will.toList) b
      (match (b.session id).takeWill.2 with
      | some m => ((b.putSession id (b.session id).takeWill.1).dispatch m).1
      | none => b.putSession id (b.session id).takeWill.1) := by
  let s := b.session id
  have htaken : Proceeds hold hold .none b (b.putSession id s.takeWill.1) :=
    .of_adjust hold b id ⟨s.subscriptions, s.incoming, none, s.active, rfl⟩
  change Proceeds hold hold (b.offers s.will.toList) b (match s.will with
    | some m => ((b.putSession id s.takeWill.1).dispatch m).1
    | none => b.putSession id s.takeWill.1)
  cases s.will with
  | some m =>
    have hsaid := Proceeds.of_dispatch hold (b.putSession id s.takeWill.1) m
    exact htaken.trans hsaid
  | none => exact htaken

/-- Before it gives up its session, a connection that ends publishes the will. -/
theorem letsGo_of_release {b : Broker} {β : Binding} (hid : β.session < b.sessions.length)
    (howner : (b.session β.session).owner = some β.lease) :
    ∃ b', (∀ hold, Proceeds hold hold (b.offers (b.session β.session).will.toList) b b') ∧
      LetsGo b' β (Connection.release b β) := by
  let b₁ := b.updateSession β.session fun s => { s with active := false }
  have h₁ : ∀ hold, Proceeds hold hold .none b b₁ := fun hold =>
    let s := b.session β.session
    .of_adjust hold b β.session ⟨s.subscriptions, s.incoming, s.will, false, rfl⟩
  have hwill : (b₁.session β.session).will = (b.session β.session).will := by
    rw [session_updateSession hid]
  have hproceeds := fun hold => (h₁ hold).trans (proceeds_of_takeWill hold b₁ β.session)
  rw [hwill] at hproceeds
  -- What only concerns the broker does not depend on who holds what.
  have hplain := hproceeds fun _ => none
  exact ⟨_, hproceeds, letsGo_of_owner (hplain.sessions ▸ hid)
    ((hplain.owner β.session).trans howner)⟩

end Broker

end MqttBroker
