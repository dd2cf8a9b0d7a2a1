import MqttBroker.Proofs.Broker.Carrying
import MqttBroker.Proofs.Network.Acts
import MqttBroker.Proofs.Network.Possession
/-!
What binding a connection to a session and giving the session back do to the identifiers that wait
for PUBREL, which they leave alone, and to the will, which comes with the CONNECT and is published
at the end if it is still there.
-/

namespace MqttBroker

namespace Broker

variable {b b' b'' : Broker} {β : Binding} {connect : Connect} {id home : SessionId}

/-- From `b` to `b'` a connection is bound to a session, whoever owned it before. -/
structure Enters (b : Broker) (connect : Connect) (b' : Broker) (β : Binding) : Prop where
  limits : b'.limits = b.limits
  filed : b'.Filed
  sessions : b.sessions.length ≤ b'.sessions.length
  session : β.session < b'.sessions.length
  maxReceive : β.link.maxReceive = b.limits.receiveMaximum.toNat
  incoming : (b'.session β.session).incoming = (b.session β.session).incoming
  will : (b'.session β.session).will = connect.will.map Message.ofWill
  others : ∀ id ≠ β.session, b'.session id = b.session id

/-- From `b` to `b'` a connection gives its session back, and its will is dispatched. -/
structure Parts (b : Broker) (β : Binding) (b' : Broker) : Prop where
  limits : b'.limits = b.limits
  filed : b.Filed → b'.Filed
  sessions : b'.sessions.length = b.sessions.length
  incoming : ∀ id, (b'.session id).incoming = (b.session id).incoming
  dispatches : b.Filed → Dispatches β.session (b.session β.session).will.toList b b'

namespace Frames

theorem incoming (h : Frames [] b b') (id : SessionId) :
    (b'.session id).incoming = (b.session id).incoming :=
  congrArg (·.2.1) (h.own id List.not_mem_nil)

theorem will (h : Frames [] b b') (id : SessionId) :
    (b'.session id).will = (b.session id).will :=
  congrArg (·.2.2) (h.own id List.not_mem_nil)

end Frames

theorem Dispatches.will {ms : List Message} (h : Dispatches home ms b b') (hid : id ≠ home) :
    (b'.session id).will = (b.session id).will :=
  (congrArg Session.will (h id hid)).trans ((frames_dispatchAll b ms).will id)

theorem session_of_asks (h : b.Asks b') (id : SessionId) : b'.session id = b.session id := by
  induction h with
  | rest | assign => rfl
  | close h l reason ih => exact ih

theorem carries_of_asks {ids : List SessionId} (home : SessionId) (h : b.Asks b') :
    Carries ids home [] b b' := by
  induction h with
  | rest => exact .refl ids home b
  | assign assigned =>
    exact ⟨⟨rfl, rfl, rfl, fun _ => rfl, fun _ _ => rfl⟩, fun _ _ _ => rfl⟩
  | close h l reason ih => exact ih.trans (.of_leases ids home _ _)

/-! ### Binding -/

theorem Enters.after (henters : Enters b' connect b'' β) (hasks : b.Asks b') :
    Enters b connect b'' β := by
  have hsame := session_of_asks hasks
  have hframes : Frames [] b b' := (carries_of_asks β.session hasks).toFrames
  constructor
  case limits => exact henters.limits.trans hframes.limits
  case filed => exact henters.filed
  case sessions => exact hframes.sessions ▸ henters.sessions
  case session => exact henters.session
  case maxReceive => exact hframes.limits ▸ henters.maxReceive
  case incoming => rw [henters.incoming, hsame]
  case will => exact henters.will
  case others => exact fun id hid => (henters.others id hid).trans (hsame id)

theorem session_of_le (hid : b.sessions.length ≤ id) :
    b.session id = Session.fresh "" b.limits.outboxCapacity := by
  rw [session, session?, List.getElem?_eq_none hid]
  rfl

/-- A session that is made has no more to it than one that is not there. -/
theorem Opens.incoming {clientId : String} (h : Opens b clientId b' id) :
    (b'.session id).incoming = (b.session id).incoming := by
  rcases h.resumed with ⟨-, -, hsame⟩ | ⟨-, hid, hfresh⟩
  · rw [hsame]
  · rw [hfresh, session_of_le (Nat.le_of_eq hid.symm)]
    rfl

theorem Opens.sessions_le {clientId : String} (h : Opens b clientId b' id) :
    b.sessions.length ≤ b'.sessions.length := by
  rcases h.resumed with ⟨hlength, -⟩ | ⟨hlength, -⟩ <;> omega

theorem Filed.openSession {clientId : String} {clean present : Bool} (hfiled : b.Filed)
    (hopen : b.openSession clientId clean = (b', id, present)) : b'.Filed := by
  rcases b.openSession_cases clientId clean with ⟨old, -, heq⟩ | heq
  · cases heq.symm.trans hopen
    exact hfiled
  · cases heq.symm.trans hopen
    -- `added` is the broker with the fresh session, before its client id stands for it.
    let added : Broker := { b with
      sessions := b.sessions ++ [Session.fresh clientId b.limits.outboxCapacity] }
    have hlength : added.sessions.length = b.sessions.length + 1 := List.length_append
    have hadded : added.Filed := by
      refine hfiled.mono rfl (by omega) fun id hid => ?_
      rw [session_eq_getElem hid, session_eq_getElem (hlength ▸ Nat.lt_succ_of_lt hid)]
      exact congrArg Session.clientId (List.getElem_append_left hid)
    exact hadded.register (hlength ▸ Nat.lt_succ_self _)

theorem enters_of_opens {clientId : String} (hopens : Opens b clientId b' β.session)
    (hfiled : b'.Filed) (hcarries : Carries [] β.session [] b' b'') (connect : Connect)
    (hreceive : β.link.maxReceive = b.limits.receiveMaximum.toNat) :
    Enters b connect
      (b''.updateSession β.session fun s => { s with will := connect.will.map Message.ofWill })
      β := by
  have hid : β.session < b''.sessions.length := hcarries.sessions ▸ hopens.session
  have hlast : Carries [β.session] β.session [] b'' (b''.updateSession β.session fun s =>
      { s with will := connect.will.map Message.ofWill }) :=
    .of_session _ b'' β.session rfl fun hid => absurd (List.mem_singleton_self _) hid
  constructor
  case limits => exact hcarries.limits.trans hopens.limits
  case filed => exact hlast.filed (hcarries.filed hfiled)
  case sessions => exact hlast.sessions ▸ hcarries.sessions ▸ hopens.sessions_le
  case session => exact hlast.sessions ▸ hid
  case maxReceive => exact hreceive
  case incoming =>
    rw [session_updateSession hid]
    exact (hcarries.incoming β.session).trans hopens.incoming
  case will => rw [session_updateSession hid]
  case others =>
    intro id hne
    rw [session_updateSession_of_ne hne.symm, hcarries.dispatches hfiled id hne]
    exact hopens.others id hne

/-- An accepted CONNECT is bound to a session, and the CONNACK for it can be written. -/
theorem enters_of_bind (hfiled : b.Filed) {accepted : Accepted} (hnamed : accepted.IsNamed)
    (c : Connection) (connect : Connect) :
    ∃ b' β bytes, c.bind b connect accepted = c.enter b' (.greeting β bytes) ∧
      Enters b connect b' β := by
  rcases hopen : b.openSession accepted.clientId connect.cleanSession with ⟨b₁, id, present⟩
  have hopens := opens_of_openSession (fun _ _ => hfiled.lt_of_lookup) hopen
  obtain ⟨bytes, hbytes⟩ :=
    (Admission.canonical_connAck hnamed b₁.limits present).exists_encoded
  let β : Binding :=
    { session := id
      lease := b₁.leases.length
      link := Link.negotiate b₁.limits accepted connect }
  have hlease : Carries [] id [] b₁ b₁.newLease.1 := .of_leases [] id b₁ _
  have hattach : Carries [] id [] b₁ (b₁.newLease.1.attach id b₁.newLease.2).1 :=
    hlease.trans (.of_session [] _ id rfl fun _ => rfl)
  have hreceive : β.link.maxReceive = b.limits.receiveMaximum.toNat := by
    rw [← hopens.limits]
    rfl
  have hgreet : ∀ b₃, Carries [] id [] b₁ b₃ → Enters b connect
      (b₃.updateSession id fun s => { s with will := connect.will.map Message.ofWill }) β :=
    fun b₃ hcarries => enters_of_opens hopens (hfiled.openSession hopen) hcarries connect hreceive
  unfold Connection.bind
  rw [hopen]
  dsimp only
  -- Whether an owner before this one is asked to close makes no difference here.
  cases (b₁.newLease.1.attach id b₁.newLease.2).2 with
  | none =>
    dsimp only
    split
    · exact ⟨_, β, _, rfl, hgreet _ hattach⟩
    · next hcause => exact absurd (hcause.symm.trans hbytes) nofun
  | some owner =>
    dsimp only
    split
    · exact ⟨_, β, _, rfl, hgreet _ (hattach.trans (.of_leases [] id _ _))⟩
    · next hcause => exact absurd (hcause.symm.trans hbytes) nofun

/-! ### Giving the session back -/

namespace Parts

theorem after (hparts : Parts b' β b'') (h : Carries [] β.session [] b b') : Parts b β b'' where
  limits := hparts.limits.trans h.limits
  filed hfiled := hparts.filed (h.filed hfiled)
  sessions := hparts.sessions.trans h.sessions
  incoming id := (hparts.incoming id).trans (h.incoming id)
  dispatches hfiled id hid := by
    have hsame := session_dispatchAll_congr (h.filed hfiled) hfiled h.registry
      (h.dispatches hfiled id hid) (b.session β.session).will.toList
    rw [hparts.dispatches (h.filed hfiled) id hid, h.will β.session, hsame]

theorem then_carries (hparts : Parts b β b') (h : Carries [] β.session [] b' b'') :
    Parts b β b'' where
  limits := h.limits.trans hparts.limits
  filed hfiled := h.filed (hparts.filed hfiled)
  sessions := h.sessions.trans hparts.sessions
  incoming id := (h.incoming id).trans (hparts.incoming id)
  dispatches hfiled id hid :=
    (h.dispatches (hparts.filed hfiled) id hid).trans (hparts.dispatches hfiled id hid)

theorem then_unregister (hparts : Parts b β b') : Parts b β (b'.unregister β.session) := by
  have hfiled := fun hfiled => (hparts.filed hfiled).unregister β.session
  obtain ⟨registry, hregistry⟩ := b'.unregister_eq β.session
  rw [hregistry] at hfiled ⊢
  exact ⟨hparts.limits, hfiled, hparts.sessions, hparts.incoming, hparts.dispatches⟩

end Parts

/-- The will is taken out of the session and published. -/
theorem parts_of_takeWill (b : Broker) (β : Binding) :
    Parts b β (match (b.session β.session).takeWill.2 with
      | some m => ((b.putSession β.session (b.session β.session).takeWill.1).dispatch m).1
      | none => b.putSession β.session (b.session β.session).takeWill.1) := by
  let taken := b.putSession β.session (b.session β.session).takeWill.1
  have htaken : Carries [β.session] β.session [] b taken :=
    .of_session _ b β.session rfl fun hid => absurd (List.mem_singleton_self _) hid
  have hparts : ∀ ms b', Frames [] taken b' → Carries [β.session] β.session ms b b' →
      (b.session β.session).will.toList = ms → Parts b β b' := by
    rintro ms b' hframes hcarries rfl
    refine ⟨hcarries.limits, hcarries.filed, hcarries.sessions, fun id => ?_, hcarries.dispatches⟩
    exact (hframes.incoming id).trans (session_updateSession_congr Session.incoming rfl id)
  cases hwill : (b.session β.session).takeWill.2 with
  | some m =>
    have hsome : (b.session β.session).will = some m := hwill
    refine hparts [m] _ (.of_dispatch [] taken m) (htaken.trans (.of_dispatch _ _ taken m)) ?_
    rw [hsome]
    rfl
  | none =>
    have hnone : (b.session β.session).will = none := hwill
    refine hparts [] _ (.refl [] taken) htaken ?_
    rw [hnone]
    rfl

theorem carries_detach (b : Broker) (id : SessionId) (l : LeaseId) :
    Carries [] id [] b (b.detach id l).1 := by
  unfold detach
  split
  · exact .of_session [] b id rfl fun _ => rfl
  · exact .refl [] id b

theorem parts_of_release (b : Broker) (β : Binding) : Parts b β (Connection.release b β) := by
  let b₁ := b.updateSession β.session fun s => { s with active := false }
  have hinactive : Carries [] β.session [] b b₁ := .of_session [] b β.session rfl fun _ => rfl
  have hgiven := (parts_of_takeWill b₁ β).then_carries (carries_detach _ β.session β.lease)
  unfold Connection.release
  refine (Parts.then_carries ?_ (.of_leases [] β.session _ _)).after hinactive
  split
  · exact hgiven.then_carries (.of_session [] _ β.session rfl fun _ => rfl)
  · exact hgiven.then_unregister

theorem parts_of_conclude (b : Broker) (β : Binding) (result : Connection.Result) :
    Parts b β (Connection.release (Connection.recordError b β result) β) :=
  (parts_of_release _ β).after (carries_of_asks β.session (Connection.asks_recordError b β result))

end Broker

end MqttBroker
