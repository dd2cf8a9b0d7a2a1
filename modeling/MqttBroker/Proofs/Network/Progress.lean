import Mathlib.Logic.Function.Basic
import MqttBroker.Connection.Handling
import MqttBroker.Proofs.Broker.Updates
import MqttBroker.Proofs.Session.Tenancy
/-!
What the broker's operations mean for the sessions one by one. A session and whoever holds it are a
tenancy; most operations neither move a session to another client id or owner nor do anything to it
that is not a run of moves of its tenancy.
-/

namespace MqttBroker

/-- What a connection holds of a session: its lease on it, what was agreed, and its writer. -/
structure Holding where
  lease : LeaseId
  link : Link
  writer : Option Writer := none

open Tenancy (Does)

namespace Broker

variable {b b' b'' : Broker} {id id' : SessionId} {l l' : LeaseId}

/-! ### Tenancies -/

/-- The session with whoever holds it. -/
def tenancy (b : Broker) (id : SessionId) (holding : Option Holding) : Tenancy where
  session := b.session id
  tenant := holding.map fun h =>
    { link := h.link, reason := (b.lease h.lease).reason, writer := h.writer }

theorem tenancy_updateSession (hid : id < b.sessions.length) (f : Session → Session)
    (holding : Option Holding) : (b.updateSession id f).tenancy id holding =
      { b.tenancy id holding with session := f (b.session id) } := by
  rw [tenancy, session_updateSession hid]
  rfl

theorem tenancy_updateSession_of_ne (hne : id ≠ id') (f : Session → Session)
    (holding : Option Holding) :
    (b.updateSession id f).tenancy id' holding = b.tenancy id' holding := by
  rw [tenancy, session_updateSession_of_ne hne]
  rfl

theorem tenancy_closeLease {h : Holding} (hl : h.lease < b.leases.length) (id : SessionId)
    (reason : CloseReason) : (b.closeLease h.lease reason).tenancy id (some h) =
      { b.tenancy id (some h) with
        tenant := (b.tenancy id (some h)).tenant.map (·.close reason) } := by
  rw [tenancy, closeLease, Option.map_some, lease_updateLease hl]
  rfl

theorem tenancy_closeLease_of_ne {h : Holding} (hne : l ≠ h.lease) (id : SessionId)
    (reason : CloseReason) :
    (b.closeLease l reason).tenancy id (some h) = b.tenancy id (some h) := by
  rw [tenancy, closeLease, Option.map_some, lease_updateLease_of_ne hne]
  rfl

/-- There is no session that a message is queued in and the broker does not have. -/
theorem lt_of_queued {m : Message} {s : Session}
    (h : (b.session id).offer m = (s, .queued)) : id < b.sessions.length := by
  refine Nat.lt_of_not_le fun hid => ?_
  rw [session, session?, List.getElem?_eq_none hid] at h
  cases h

/-- Who holds which session. -/
abbrev Holders := SessionId → Option Holding

/-- The deeds that are done to each session. -/
abbrev Deeds := SessionId → List Tenancy.Move

namespace Deeds

def none : Deeds := fun _ => []

/-- Done to that session alone. -/
def on (id : SessionId) (deeds : List Tenancy.Move) : Deeds := Function.update none id deeds

/-- The one after the other. -/
def and (d d' : Deeds) : Deeds := fun id => d id ++ d' id

theorem on_self (id : SessionId) (deeds : List Tenancy.Move) : on id deeds id = deeds := by
  rw [on, Function.update_self]

theorem on_of_ne {id id' : SessionId} (hne : id' ≠ id) (deeds : List Tenancy.Move) :
    on id deeds id' = [] := by
  rw [on, Function.update_of_ne hne, none]

theorem on_nil (id : SessionId) : on id [] = none := Function.update_eq_self id none

theorem and_none (d : Deeds) : d.and none = d := funext fun id => List.append_nil (d id)

end Deeds

/-- Messages come by every session that a client id stands for. -/
def offers (b : Broker) (ms : List Message) : Deeds := fun id =>
  ms.flatMap fun m => (b.registry.filter (·.2 = id)).map fun _ => .offer m

/-- From `b` to `b'` no session comes to stand for another client id or gets another owner, and what
happens to a session is a run of moves of its tenancy, with these deeds. -/
structure Proceeds (hold hold' : Holders) (deeds : Deeds) (b b' : Broker) : Prop where
  registry : b'.registry = b.registry
  limits : b'.limits = b.limits
  sessions : b'.sessions.length = b.sessions.length
  leases : b'.leases.length = b.leases.length
  clientId : ∀ id, (b'.session id).clientId = (b.session id).clientId
  owner : ∀ id, (b'.session id).owner = (b.session id).owner
  does : ∀ id, Does (b.tenancy id (hold id)) (deeds id) (b'.tenancy id (hold' id))

namespace Proceeds

variable {hold hold' hold'' : Holders} {deeds deeds' : Deeds}

theorem refl (hold : Holders) (b : Broker) : Proceeds hold hold .none b b :=
  ⟨rfl, rfl, rfl, rfl, fun _ => rfl, fun _ => rfl, fun _ => .refl _⟩

theorem trans (h : Proceeds hold hold' deeds b b') (h' : Proceeds hold' hold'' deeds' b' b'') :
    Proceeds hold hold'' (deeds.and deeds') b b'' where
  registry := h'.registry.trans h.registry
  limits := h'.limits.trans h.limits
  sessions := h'.sessions.trans h.sessions
  leases := h'.leases.trans h.leases
  clientId id := (h'.clientId id).trans (h.clientId id)
  owner id := (h'.owner id).trans (h.owner id)
  does id := (h.does id).trans (h'.does id)

/-- What comes after has no deeds in it. -/
theorem quietly (h : Proceeds hold hold' deeds b b') (h' : Proceeds hold' hold'' .none b' b'') :
    Proceeds hold hold'' deeds b b'' := by
  have hboth := h.trans h'
  rwa [Deeds.and_none] at hboth

/-- A change of one session that its client id and owner do not take part in, and what comes after
it, where for that session and its holder it comes to moves of their tenancy. -/
theorem of_update (id : SessionId) (holding : Option Holding) {f : Session → Session}
    {done : List Tenancy.Move} (hclientId : (f (b.session id)).clientId = (b.session id).clientId)
    (howner : (f (b.session id)).owner = (b.session id).owner)
    (hafter : Proceeds hold hold .none (b.updateSession id f) b')
    (hdoes : Does (b.tenancy id (hold id)) done (b'.tenancy id holding)) :
    Proceeds hold (Function.update hold id holding) (.on id done) b b' where
  registry := hafter.registry
  limits := hafter.limits
  sessions := hafter.sessions.trans (b.length_updateSession id f)
  leases := hafter.leases
  clientId id' :=
    (hafter.clientId id').trans (session_updateSession_congr Session.clientId hclientId id')
  owner id' := (hafter.owner id').trans (session_updateSession_congr Session.owner howner id')
  does id' := by
    by_cases heq : id = id'
    · rw [← heq, Deeds.on_self, Function.update_self]
      exact hdoes
    · rw [Deeds.on_of_ne (Ne.symm heq), Function.update_of_ne (Ne.symm heq),
        ← tenancy_updateSession_of_ne heq f]
      exact hafter.does id'

theorem of_session (hold : Holders) (hid : id < b.sessions.length) {f : Session → Session}
    {done : List Tenancy.Move} (hclientId : (f (b.session id)).clientId = (b.session id).clientId)
    (howner : (f (b.session id)).owner = (b.session id).owner)
    (hdoes : Does (b.tenancy id (hold id)) done
      { b.tenancy id (hold id) with session := f (b.session id) }) :
    Proceeds hold hold (.on id done) b (b.updateSession id f) := by
  have hproceeds := of_update id (hold id) hclientId howner (refl hold _)
    (tenancy_updateSession hid f (hold id) ▸ hdoes)
  rwa [Function.update_eq_self] at hproceeds

/-- A change of what no other task has a part in. -/
theorem of_adjust (hold : Holders) (b : Broker) (id : SessionId) {f : Session → Session}
    (hf : ∃ subscriptions incoming will active, f (b.session id) =
      { b.session id with subscriptions, incoming, will, active }) :
    Proceeds hold hold .none b (b.updateSession id f) := by
  rcases Nat.lt_or_ge id b.sessions.length with hid | hid
  · obtain ⟨subscriptions, incoming, will, active, hf⟩ := hf
    rw [← Deeds.on_nil id]
    refine of_session hold hid (by rw [hf]) (by rw [hf]) ?_
    rw [hf]
    exact .of_step (.adjust subscriptions incoming will active (b.session id).owner) rfl
  · rw [updateSession_of_le hid]
    exact refl hold b

theorem of_closeLease (hold : Holders) (b : Broker) (l : LeaseId) (reason : CloseReason) :
    Proceeds hold hold .none b (b.closeLease l reason) := by
  rcases Nat.lt_or_ge l b.leases.length with hl | hl
  · refine ⟨rfl, rfl, rfl, b.length_updateLease l _, fun _ => rfl, fun _ => rfl, fun id => ?_⟩
    cases hold id with
    | none => exact .refl _
    | some h =>
      by_cases heq : l = h.lease
      · subst heq
        rw [tenancy_closeLease hl]
        exact .of_step (.close reason) rfl
      · rw [tenancy_closeLease_of_ne heq]
        exact .refl _
  · rw [closeLease, updateLease_of_le hl]
    exact refl hold b

theorem of_closeOwner (hold : Holders) (b : Broker) (id : SessionId) (reason : CloseReason) :
    Proceeds hold hold .none b (b.closeOwner id reason) := by
  unfold closeOwner
  split
  · exact of_closeLease ..
  · exact refl hold b

/-- A deed can leave everything as it is. -/
theorem of_idle (hold : Holders) (b : Broker) (id : SessionId) {done : List Tenancy.Move}
    (hdoes : Does (b.tenancy id (hold id)) done (b.tenancy id (hold id))) :
    Proceeds hold hold (.on id done) b b := by
  refine ⟨rfl, rfl, rfl, rfl, fun _ => rfl, fun _ => rfl, fun id' => ?_⟩
  by_cases heq : id' = id
  · rw [heq, Deeds.on_self]
    exact hdoes
  · rw [Deeds.on_of_ne heq]
    exact .refl _

/-- A message that is not queued comes by all the same. -/
theorem of_offer (hold : Holders) (b : Broker) (id : SessionId) {m : Message}
    (hsame : ((b.session id).offer m).1 = b.session id) :
    Proceeds hold hold (.on id [.offer m]) b b := by
  refine of_idle hold b id (.of_step (.offer m) ?_)
  rw [Tenancy.step, tenancy, hsame]

theorem of_deliver (hold : Holders) (b : Broker) (id : SessionId) (m : Message) :
    Proceeds hold hold (.on id [.offer m]) b (b.deliver id m).1 := by
  unfold deliver
  rcases (b.session id).offer_cases m with heq | heq | ⟨qos, heq⟩
  · rw [heq]
    exact of_offer hold b id (by rw [heq])
  · have hby := of_offer hold b id (by rw [heq])
    rw [heq]
    dsimp only
    split
    · exact hby.quietly (of_closeOwner ..)
    · exact hby
  · rw [heq]
    refine of_session hold (lt_of_queued heq) rfl rfl (.of_step (.offer m) ?_)
    rw [Tenancy.step, tenancy, heq]

theorem of_deliveries (hold : Holders) (m : Message)
    {f : Broker × Nat → String × SessionId → Broker × Nat}
    (hf : ∀ x entry, (f x entry).1 = (x.1.deliver entry.2 m).1)
    (entries : List (String × SessionId)) (x : Broker × Nat) :
    Proceeds hold hold (fun id => (entries.filter (·.2 = id)).map fun _ => .offer m) x.1
      (entries.foldl f x).1 := by
  induction entries generalizing x with
  | nil => exact refl hold x.1
  | cons entry entries ih =>
    have hfirst := of_deliver hold x.1 entry.2 m
    rw [← hf] at hfirst
    have hall := hfirst.trans (ih (f x entry))
    have hdeeds : (Deeds.on entry.2 [.offer m]).and
        (fun id => (entries.filter (·.2 = id)).map fun _ => .offer m) =
          fun id => ((entry :: entries).filter (·.2 = id)).map fun _ => .offer m := by
      funext id
      rw [Deeds.and]
      by_cases heq : entry.2 = id
      · rw [heq, Deeds.on_self, List.filter_cons_of_pos (by simpa using heq)]
        rfl
      · rw [Deeds.on_of_ne (Ne.symm heq), List.filter_cons_of_neg (by simpa using heq)]
        rfl
    rwa [hdeeds] at hall

theorem of_dispatch (hold : Holders) (b : Broker) (m : Message) :
    Proceeds hold hold (b.offers [m]) b (b.dispatch m).1 := by
  have hall : Proceeds hold hold _ b (b.dispatch m).1 :=
    of_deliveries hold m (fun _ _ => rfl) b.registry (b, 0)
  have hdeeds : b.offers [m] = fun id => (b.registry.filter (·.2 = id)).map fun _ => .offer m :=
    funext fun id => List.flatMap_singleton _ m
  rw [hdeeds]
  exact hall

theorem of_shutdown (hold : Holders) (b : Broker) : Proceeds hold hold .none b b.shutdown := by
  unfold shutdown
  refine List.foldlRecOn (motive := Proceeds hold hold .none b) _ _ (refl hold b) ?_
  exact fun b' h entry _ => h.quietly (of_closeOwner hold b' entry.2 _)

end Proceeds

end Broker

end MqttBroker
