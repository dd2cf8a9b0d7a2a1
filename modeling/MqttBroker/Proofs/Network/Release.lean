import MqttBroker.Proofs.Network.Effects
import MqttBroker.Proofs.Network.Fixtures
/-!
What others leave alone of a session that a connection is in charge of, and what the connection
leaves behind when it gives the session back.
-/

namespace MqttBroker

namespace Session

/-- What packets from the client and its writer work on, and nothing else. -/
def contents (s : Session) : Subscriptions × Window × List UInt16 :=
  (s.subscriptions, s.window, s.incoming)

/-- What nobody but the session's own connection changes. -/
def charge (s : Session) : Option LeaseId × Subscriptions × Window × List UInt16 :=
  (s.owner, s.contents)

theorem charge_offer (s : Session) (m : Message) : (s.offer m).1.charge = s.charge := by
  rcases s.offer_cases m with heq | heq | ⟨qos, heq⟩ <;> rw [heq]
  rfl

/-- What its own will adds to the session's outbox: nothing, or one copy. -/
def Bequeaths (s : Session) (own : List Outgoing) : Prop :=
  own = [] ∨ ∃ m qos, s.will = some m ∧ own = [.publish (Publication.ofMessage m qos)]

theorem Bequeaths.filter {s : Session} {own : List Outgoing} (h : s.Bequeaths own)
    (p : Outgoing → Bool) : s.Bequeaths (own.filter p) := by
  rcases h with rfl | ⟨m, qos, hwill, rfl⟩
  · exact .inl rfl
  · rw [List.filter_cons, List.filter_nil]
    split
    · exact .inr ⟨m, qos, hwill, rfl⟩
    · exact .inl rfl

end Session

namespace Broker

variable {b b' b'' : Broker} {β : Binding} {id id' home : SessionId} {key : String}
  {ms : List Message} {connect : Connect}

theorem session_closeOwner (b : Broker) (id : SessionId) (reason : CloseReason)
    (id' : SessionId) : (b.closeOwner id reason).session id' = b.session id' := by
  unfold closeOwner
  split <;> rfl

theorem charge_dispatch (b : Broker) (m : Message) (id : SessionId) :
    ((b.dispatch m).1.session id).charge = (b.session id).charge := by
  have hdeliver : ∀ (b : Broker) (id' : SessionId),
      ((b.deliver id' m).1.session id).charge = (b.session id).charge := by
    intro b id'
    have hoffer := (b.session id').charge_offer m
    unfold deliver
    split
    · rfl
    · next s hs =>
      rw [hs] at hoffer
      exact session_updateSession_congr Session.charge hoffer id
    · dsimp only
      split
      · rw [session_closeOwner]
      · rfl
  unfold dispatch
  refine List.foldlRecOn
    (motive := fun x : Broker × Nat => (x.1.session id).charge = (b.session id).charge) _ _ rfl ?_
  exact fun x h entry _ => (hdeliver x.1 entry.2).trans h

theorem charge_dispatchAll (b : Broker) (ms : List Message) (id : SessionId) :
    ((b.dispatchAll ms).session id).charge = (b.session id).charge := by
  induction ms generalizing b with
  | nil => rfl
  | cons m ms ih => exact (ih _).trans (charge_dispatch b m id)

theorem session_shutdown (b : Broker) (id : SessionId) : b.shutdown.session id = b.session id := by
  unfold shutdown
  refine List.foldlRecOn (motive := fun b' : Broker => b'.session id = b.session id) _ _ rfl ?_
  exact fun b' h entry _ => (session_closeOwner b' entry.2 _ id).trans h

theorem frames_of_asks (h : b.Asks b') : Frames [] b b' := (carries_of_asks 0 h).toFrames

/-! ### Sessions of others -/

/-- From `b` to `b'` the session keeps its owner, and the client id if it stands for the session. -/
structure Retains (id : SessionId) (key : String) (b b' : Broker) : Prop where
  owner : (b'.session id).owner = (b.session id).owner
  lookup : b.lookup key = some id → b'.lookup key = some id

/-- The same, and what the client has asked for and exchanges is left alone. -/
structure Spares (id : SessionId) (key : String) (b b' : Broker) : Prop
    extends Retains id key b b' where
  contents : (b'.session id).contents = (b.session id).contents

namespace Spares

theorem refl (id : SessionId) (key : String) (b : Broker) : Spares id key b b :=
  ⟨⟨rfl, fun h => h⟩, rfl⟩

theorem trans (h : Spares id key b b') (h' : Spares id key b' b'') : Spares id key b b'' where
  owner := h'.owner.trans h.owner
  lookup hlookup := h'.lookup (h.lookup hlookup)
  contents := h'.contents.trans h.contents

theorem of_charge (hcharge : (b'.session id).charge = (b.session id).charge)
    (hlookup : b.lookup key = some id → b'.lookup key = some id) : Spares id key b b' :=
  ⟨⟨congrArg Prod.fst hcharge, hlookup⟩, congrArg Prod.snd hcharge⟩

theorem of_registry (hcharge : (b'.session id).charge = (b.session id).charge)
    (hregistry : b'.registry = b.registry) : Spares id key b b' :=
  .of_charge hcharge (lookup_congr hregistry key).trans

theorem of_asks (h : b.Asks b') : Spares id key b b' :=
  .of_registry (congrArg Session.charge (session_of_asks h id)) (frames_of_asks h).registry

theorem of_dispatch (b : Broker) (m : Message) : Spares id key b (b.dispatch m).1 :=
  .of_registry (charge_dispatch b m id) (Frames.of_dispatch [] b m).registry

theorem of_shutdown (b : Broker) : Spares id key b b.shutdown :=
  .of_registry (congrArg Session.charge (session_shutdown b id)) (Frames.of_shutdown [] b).registry

theorem of_dispatches (hfiled : b.Filed) (h : b.Filed → Dispatches home ms b b') (hid : id ≠ home)
    (hlookup : b.lookup key = some id → b'.lookup key = some id) : Spares id key b b' := by
  refine .of_charge ?_ hlookup
  rw [h hfiled id hid, charge_dispatchAll]

end Spares

/-! ### Binding -/

/-- From `b` to `b'` an accepted CONNECT comes to own the session its client id stands for from
then on. -/
structure Attaches (b : Broker) (connect : Connect) (accepted : Accepted) (b' : Broker)
    (β : Binding) : Prop where
  link : β.link = Link.negotiate b.limits accepted connect
  lease : β.lease < b'.leases.length
  owner : (b'.session β.session).owner = some β.lease
  registered : b'.lookup accepted.clientId = some β.session
  lookup : ∀ key ≠ accepted.clientId, b'.lookup key = b.lookup key
  found : β.session < b.sessions.length → b.lookup accepted.clientId = some β.session

theorem attaches_of_opens {accepted : Accepted} (hopens : Opens b accepted.clientId b' id)
    (connect : Connect) (leases : List Lease) (hlease : b'.leases.length < leases.length) :
    Attaches b connect accepted
      (updateSession { (b'.attach id b'.leases.length).1 with leases } id fun s =>
        { s with will := connect.will.map Message.ofWill })
      { session := id
        lease := b'.leases.length
        link := Link.negotiate b'.limits accepted connect } := by
  have hid : id < (b'.attach id b'.leases.length).1.sessions.length :=
    Nat.lt_of_lt_of_eq hopens.session (b'.length_updateSession id _).symm
  constructor
  case link => exact congrArg (Link.negotiate · accepted connect) hopens.limits
  case lease => exact hlease
  case owner =>
    have howner := congrArg Session.owner
      (session_updateSession hopens.session fun s => { s with owner := some b'.leases.length })
    rw [session_updateSession (b := { (b'.attach id b'.leases.length).1 with leases }) hid]
    exact howner
  case registered => exact hopens.registered
  case lookup => exact hopens.lookup
  case found =>
    intro hold
    rcases hopens.resumed with ⟨-, hfound, -⟩ | ⟨-, hnew, -⟩
    · exact hfound
    · exact absurd (hnew ▸ hold) (Nat.lt_irrefl _)

theorem attaches_of_bind (hfiled : b.Filed) {accepted : Accepted} (hnamed : accepted.IsNamed)
    (c : Connection) (connect : Connect) :
    ∃ b' β bytes, c.bind b connect accepted = c.enter b' (.greeting β bytes) ∧
      Enters b connect b' β ∧ Attaches b connect accepted b' β := by
  obtain ⟨b', β, bytes, hbind, henters⟩ := enters_of_bind hfiled hnamed c connect
  refine ⟨b', β, bytes, hbind, henters, ?_⟩
  rcases hopen : b.openSession accepted.clientId connect.cleanSession with ⟨b₁, id, present⟩
  have hopens := opens_of_openSession (fun _ _ => hfiled.lt_of_lookup) hopen
  have hattaches := attaches_of_opens hopens connect
  have hmore : b₁.leases.length < b₁.newLease.1.leases.length := by simp [newLease]
  unfold Connection.bind at hbind
  rw [hopen] at hbind
  dsimp only at hbind
  -- The CONNACK was written, so that there is nothing to conclude.
  have hgreeting : ∀ {turn : Connection.Turn} {result : Connection.Result},
      turn.connection.phase = .ended result → turn ≠ c.enter b' (.greeting β bytes) := by
    rintro turn result hphase rfl
    cases hphase
  cases hprevious : (b₁.newLease.1.attach id b₁.newLease.2).2 with
  | none =>
    rw [hprevious] at hbind
    dsimp only at hbind
    split at hbind
    · cases hbind
      exact hattaches b₁.newLease.1.leases hmore
    · exact absurd hbind (hgreeting rfl)
  | some owner =>
    rw [hprevious] at hbind
    dsimp only at hbind
    split at hbind
    · cases hbind
      have hkept := b₁.newLease.1.length_updateLease owner (·.close .takenOver)
      exact hattaches _ (Nat.lt_of_lt_of_eq hmore hkept.symm)
    · exact absurd hbind (hgreeting rfl)

/-- A session is not found under two client ids. -/
theorem Attaches.session_ne {accepted : Accepted} (h : Attaches b connect accepted b' β)
    (hfiled : b.Filed) (hlookup : b.lookup key = some id) (hkey : accepted.clientId ≠ key) :
    β.session ≠ id := by
  rintro rfl
  have hfound := h.found (hfiled.lt_of_lookup hlookup)
  exact hkey ((hfiled.named _ (mem_of_lookup hfound)).symm.trans
    (hfiled.named _ (mem_of_lookup hlookup)))

end Broker

/-! ### Giving the session back -/

namespace Connection

open Broker (Frames Spares)

/-- The broker once the will of a connection that ends is out. -/
def announce (b : Broker) (β : Binding) : Broker :=
  (b.updateSession β.session fun s => { s with active := false, will := none }).dispatchAll
    (b.session β.session).will.toList

/-- The broker once nobody owns the session any more, before the session is kept or dropped. -/
def retire (b : Broker) (β : Binding) : Broker := ((announce b β).detach β.session β.lease).1

variable {b : Broker} {β : Binding} {id : SessionId} {key : String}

theorem release_eq (b : Broker) (β : Binding) :
    release b β = (if β.link.persistent then
        (retire b β).updateSession β.session fun s =>
          { s with outbox := s.outbox.discardTransient }
      else (retire b β).unregister β.session).releaseLease β.lease := by
  let inactive := b.updateSession β.session fun s => { s with active := false }
  have htaken : inactive.putSession β.session (inactive.session β.session).takeWill.1 =
      b.updateSession β.session fun s => { s with active := false, will := none } := by
    rw [inactive.putSession_session β.session (f := fun s => s.takeWill.1),
      Broker.updateSession_updateSession]
    rfl
  have hwill : (inactive.session β.session).takeWill.2 = (b.session β.session).will :=
    Broker.session_updateSession_congr Session.will rfl _
  unfold release retire announce
  dsimp only
  rw [htaken, hwill]
  cases (b.session β.session).will with
  | none => rfl
  | some m => rfl

theorem frames_quiet (b : Broker) (β : Binding) :
    Frames [β.session] b
      (b.updateSession β.session fun s => { s with active := false, will := none }) :=
  .of_session _ b β.session rfl fun hid => absurd (List.mem_singleton_self _) hid

theorem frames_announce (b : Broker) (β : Binding) : Frames [β.session] b (announce b β) :=
  (frames_quiet b β).trans ((Broker.frames_dispatchAll _ _).mono (List.nil_subset _))

theorem frames_retire (b : Broker) (β : Binding) : Frames [β.session] b (retire b β) :=
  (frames_announce b β).trans
    ((Broker.carries_detach _ β.session β.lease).toFrames.mono (List.nil_subset _))

/-- The will may come back to the session it is taken from. -/
theorem session_announce (hfiled : b.Filed) (hid : β.session < b.sessions.length) :
    ∃ outbox, (announce b β).session β.session =
        { b.session β.session with active := false, will := none, outbox } ∧
      ∃ own, outbox.items = (b.session β.session).outbox.items ++ own ∧
        (b.session β.session).Bequeaths own := by
  have hsession : (b.updateSession β.session fun s =>
      { s with active := false, will := none }).session β.session =
      { b.session β.session with active := false, will := none } :=
    Broker.session_updateSession hid _
  unfold announce
  cases hwill : (b.session β.session).will with
  | none => exact ⟨_, hsession, [], (List.append_nil _).symm, .inl rfl⟩
  | some m =>
    rcases Broker.session_dispatch_cases ((frames_quiet b β).filed hfiled) m β.session with
      heq | ⟨qos, heq⟩
    · exact ⟨_, heq.trans hsession, [], (List.append_nil _).symm, .inl rfl⟩
    · rw [hsession] at heq
      exact ⟨_, heq, _, rfl, .inr ⟨m, qos, hwill, rfl⟩⟩

theorem session_retire (hfiled : b.Filed) (hid : β.session < b.sessions.length)
    (howner : (b.session β.session).owner = some β.lease) :
    ∃ outbox, (retire b β).session β.session =
        { b.session β.session with active := false, will := none, owner := none, outbox } ∧
      ∃ own, outbox.items = (b.session β.session).outbox.items ++ own ∧
        (b.session β.session).Bequeaths own := by
  obtain ⟨outbox, hout, hown⟩ := session_announce hfiled hid
  have hseated : β.session < (announce b β).sessions.length :=
    (frames_announce b β).sessions ▸ hid
  have howned : ((announce b β).session β.session).owner = some β.lease := by
    rw [hout]
    exact howner
  refine ⟨outbox, ?_, hown⟩
  rw [retire, Broker.detach, if_pos howned, Broker.session_updateSession hseated, hout]

theorem released_release (hlease : β.lease < b.leases.length) :
    ((release b β).lease β.lease).released = true := by
  have hleases : (release b β).leases.length = b.leases.length :=
    congrArg Prod.snd (fixtures_release b β)
  rw [release_eq, Broker.releaseLease, Broker.length_updateLease] at hleases
  rw [release_eq, Broker.releaseLease, Broker.lease_updateLease (hleases ▸ hlease)]
  rfl

/-- What a later connection can deliver is kept in order, with the will behind it. -/
theorem session_release (hfiled : b.Filed) (hid : β.session < b.sessions.length)
    (howner : (b.session β.session).owner = some β.lease) :
    ∃ outbox, (release b β).session β.session =
        { b.session β.session with active := false, will := none, owner := none, outbox } ∧
      (β.link.persistent = true → ∃ own,
        outbox.items = (b.session β.session).outbox.items.filter Outgoing.isLasting ++ own ∧
        (b.session β.session).Bequeaths own ∧ ∀ item ∈ own, item.isLasting = true) := by
  obtain ⟨outbox, hsession, own, hitems, hown⟩ := session_retire hfiled hid howner
  rw [release_eq]
  split
  · refine ⟨outbox.discardTransient, ?_, fun _ => ⟨own.filter Outgoing.isLasting, ?_, hown.filter _,
      fun item hitem => (List.mem_filter.1 hitem).2⟩⟩
    · refine (Broker.session_updateSession ((frames_retire b β).sessions ▸ hid) _).trans ?_
      rw [hsession]
    · rw [Outbox.discardTransient, hitems, List.filter_append]
  · next hdropped =>
    refine ⟨outbox, ?_, fun hkept => absurd hkept hdropped⟩
    obtain ⟨registry, hregistry⟩ := (retire b β).unregister_eq β.session
    rw [hregistry]
    exact hsession

theorem lookup_release_self (hfiled : b.Filed)
    (hlookup : b.lookup β.link.clientId = some β.session) : (release b β).lookup β.link.clientId =
      if β.link.persistent then some β.session else none := by
  have hframes := frames_retire b β
  have hregistered := (Broker.lookup_congr hframes.registry β.link.clientId).trans hlookup
  have hclientId : ((retire b β).session β.session).clientId = β.link.clientId :=
    (hframes.clientId _).trans (hfiled.named _ (Broker.mem_of_lookup hlookup))
  rw [release_eq]
  split
  · exact hregistered
  · rw [← hclientId] at hregistered ⊢
    exact Broker.lookup_unregister_self hregistered

/-- What stands for the session of another connection is left alone. -/
theorem lookup_release (h : b.lookup key = some id) (hne : β.session ≠ id) :
    (release b β).lookup key = some id := by
  have hretired := (Broker.lookup_congr (frames_retire b β).registry key).trans h
  rw [release_eq]
  split
  · exact hretired
  · exact Broker.lookup_unregister_of_lookup hretired hne

theorem spares_of_conclude (hfiled : b.Filed) (hne : β.session ≠ id) (result : Result) :
    Spares id key b (release (recordError b β result) β) := by
  have hasks := asks_recordError b β result
  refine (Spares.of_asks hasks).trans (.of_dispatches ?_ (Broker.parts_of_release _ β).dispatches
    hne.symm fun hlookup => lookup_release hlookup hne)
  exact (Broker.frames_of_asks hasks).filed hfiled

end Connection

end MqttBroker
