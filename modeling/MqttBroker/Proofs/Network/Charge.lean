import MqttBroker.Proofs.Network.Handled
import MqttBroker.Proofs.Network.Release
/-!
A connection that has charge of its session: it owns the session, which no other connection has, and
its client id stands for it. Whatever move is made, it keeps charge or leaves the session for good.
-/

namespace MqttBroker

open Broker (Retains Spares)

namespace Packet

theorem expiry?_of_not_v5 (p : Packet) : p.expiry? false = none := by
  cases p <;> rfl

end Packet

namespace Binding

@[simp] theorem session_settle (β : Binding) (expiry? : Option UInt32) :
    (β.settle expiry?).session = β.session := by
  cases expiry? <;> rfl

@[simp] theorem clientId_settle (β : Binding) (expiry? : Option UInt32) :
    (β.settle expiry?).link.clientId = β.link.clientId := by
  cases expiry? <;> rfl

@[simp] theorem level_settle (β : Binding) (expiry? : Option UInt32) :
    (β.settle expiry?).link.level = β.link.level := by
  cases expiry? <;> rfl

/-- The expiry that is settled last counts. -/
theorem settle_settle (β : Binding) (expiry? later? : Option UInt32) :
    (β.settle expiry?).settle later? = β.settle (later?.or expiry?) := by
  cases later? <;> cases expiry? <;> rfl

end Binding

namespace Broker

variable {b : Broker} {β : Binding} {id : SessionId} {key : String}

/-- The session expiry of a DISCONNECT that is accepted. -/
def settled? (b : Broker) (β : Binding) (p : Packet) : Option UInt32 :=
  if (b.handle β p).verdict = .done then p.expiry? β.link.level.isV5 else none

theorem settled?_of_not_v5 (hlevel : β.link.level.isV5 = false) (p : Packet) :
    b.settled? β p = none := by
  unfold settled?
  rw [hlevel, p.expiry?_of_not_v5]
  exact ite_self none

theorem binding_handle (b : Broker) (β : Binding) (p : Packet) :
    (b.handle β p).binding = β.settle (b.settled? β p) := by
  have hsettles := Handled.settles_onPacket { broker := b, binding := β } p
  unfold settled?
  split
  · next hdone => exact hsettles.done hdone
  · next hgoing => exact hsettles.going hgoing

/-- Handling a packet neither gives the session to another owner nor drops it. -/
theorem retains_of_handle (hseated : β.session < b.sessions.length)
    (hleased : β.lease < b.leases.length) (p : Packet) :
    Retains id key b (b.handle β p).broker := by
  -- Owners and the registry do not depend on who holds what.
  have hcharge : Handled.InCharge
      (fun _ => some ⟨β.lease, β.link, some (Writer.start β.link 0)⟩) { broker := b, binding := β } :=
    ⟨⟨_, rfl⟩, hseated, hleased, rfl⟩
  have hproceeds := (Handled.handles_onPacket hcharge p).proceeds
  have hsessions : (b.handle β p).settled.session id = (b.handle β p).broker.session id := by
    unfold Handled.settled
    split <;> rfl
  have hregistry : (b.handle β p).settled.registry = (b.handle β p).broker.registry := by
    unfold Handled.settled
    split <;> rfl
  refine ⟨?_, (lookup_congr (hregistry.symm.trans hproceeds.registry) key).trans⟩
  rw [← hsessions]
  exact hproceeds.owner id

end Broker

namespace Connection

variable {now : Nat} {closeFirst : Bool} {look : Writer.Look} {b b' : Broker} {c : Connection}
  {turn : Turn} {β : Binding} {id : SessionId} {key : String}

/-- What a step of a connection can do while it is bound, where `handled?` says which packet is
handled. -/
inductive Tends (b : Broker) (β : Binding) : Option (Binding × Packet) → Turn → Prop where
  | stays {turn : Turn} (hafter : turn.connection.binding? = some β)
    (hspares : ∀ key, Spares β.session key b turn.broker) : Tends b β none turn
  | handles {turn : Turn} {p : Packet}
    (hafter : turn.connection.binding? = some (β.settle (b.settled? β p)))
    (hretains : ∀ key, Retains β.session key b turn.broker) : Tends b β (some (β, p)) turn
  | concludes {c' : Connection} {result : Result} : Tends b β none (c'.conclude b β result)

theorem tends_of_handle (hseated : β.session < b.sessions.length)
    (hleased : β.lease < b.leases.length) (c' : Connection) (w : Writer) (p : Packet) :
    Tends b β (some (β, p)) (c'.handle now b β w p) := by
  have hafter := b.binding_handle β p
  have hretains : ∀ key, Retains β.session key b (b.handle β p).broker :=
    fun key => Broker.retains_of_handle hseated hleased p
  unfold handle
  dsimp only
  split
  · exact .handles (congrArg some hafter) hretains
  · exact .handles (congrArg some hafter) hretains
  · exact .handles (congrArg some hafter) fun key => ⟨(hretains key).owner, (hretains key).lookup⟩

theorem tends_of_step (hbound : c.binding? = some β) (hseated : β.session < b.sessions.length)
    (hleased : β.lease < b.leases.length) (h : c.step now closeFirst b = some turn) :
    Tends b β (c.handles? closeFirst b) turn := by
  have hstays : c.handles? closeFirst b = none → turn.connection.binding? = some β →
      (∀ key, Spares β.session key b turn.broker) → Tends b β (c.handles? closeFirst b) turn := by
    intro hhandles hafter hspares
    rw [hhandles]
    exact .stays hafter hspares
  cases acts_of_step h with
  | outside hbefore => cases hbefore.symm.trans hbound
  | bind hconnect => cases (binding?_of_connect? hconnect).symm.trans hbound
  | greet hphase =>
    rw [binding?, hphase] at hbound
    exact hstays (by rw [handles?, hphase]) hbound fun key => .refl _ key b
  | activate hphase =>
    rw [binding?, hphase] at hbound
    cases hbound
    refine hstays (by rw [handles?, hphase]) rfl fun key => .of_registry ?_ rfl
    exact Broker.session_updateSession_congr Session.charge rfl _
  | read hphase hhandles hsame =>
    exact hstays hhandles ((binding?_congr hsame).trans hbound) fun key => .refl _ key b
  | @handle c' β' deadline w p hphase hhandles =>
    rw [binding?, hphase] at hbound
    cases hbound
    rw [hhandles]
    exact tends_of_handle hseated hleased c' w p
  | drain hphase hhandles hasks =>
    rw [binding?, hphase] at hbound
    exact hstays hhandles hbound fun key =>
      (Spares.of_asks hasks).trans (.of_asks (asks_recordError ..))
  | conclude hbefore hhandles hstopped =>
    cases hbefore.symm.trans hbound
    rw [hhandles]
    exact .concludes

/-- A step of a writer leaves the session where it is. -/
theorem retains_of_writeStep (h : c.writeStep now look b = some turn) :
    Retains id key b turn.broker := by
  obtain ⟨-, -, _, -, hcarries⟩ := carries_of_writeStep h
  obtain ⟨β, w, turn', -, hacts, -, hasks⟩ := writes_of_writeStep h
  refine ⟨?_, (Broker.lookup_congr hcarries.registry key).trans⟩
  rw [Broker.session_of_asks hasks]
  exact Broker.session_updateSession_congr Session.owner
    (f := fun _ => turn'.session) (hacts.session_congr Session.owner fun _ _ _ _ => rfl) id

/-! ### Connections of others -/

/-- A step of a connection that has another session, and comes to be bound for another client id if
at all. -/
theorem spares_of_step (hfiled : b.Filed)
    (hseated : ∀ β ∈ c.binding?, β.session < b.sessions.length)
    (hnamed : ∀ accepted ∈ c.waiting?, accepted.IsNamed) (hlookup : b.lookup key = some id)
    (hapart : ∀ β ∈ c.binding?, β.session ≠ id)
    (hother : ∀ β ∈ turn.connection.binding?, c.binding? = none → β.link.clientId ≠ key)
    (h : c.step now closeFirst b = some turn) :
    Spares id key b turn.broker ∧ ∀ β ∈ turn.connection.binding?, β.session ≠ id := by
  cases acts_of_step h with
  | outside hbefore hafter hwaiting hasks =>
    refine ⟨.of_asks hasks, fun β hβ => ?_⟩
    cases hafter.symm.trans hβ
  | @bind b' c' connect accepted hconnect hasks hadmitted =>
    have hframes := Broker.frames_of_asks hasks
    have hfiled' := hframes.filed hfiled
    have haccepted : accepted.IsNamed := hadmitted.elim (fun h => hnamed _ h.1) And.left
    obtain ⟨b'', β, bytes, hbind, henters, hattaches⟩ :=
      Broker.attaches_of_bind hfiled' haccepted c' connect
    rw [hbind] at hother ⊢
    have hkey : accepted.clientId ≠ key := by
      have hne := hother β rfl (binding?_of_connect? hconnect)
      rwa [hattaches.link] at hne
    have hlookup' := (Broker.lookup_congr hframes.registry key).trans hlookup
    have hne := hattaches.session_ne hfiled' hlookup' hkey
    refine ⟨(Spares.of_asks hasks).trans (.of_charge ?_ ?_), ?_⟩
    · exact congrArg Session.charge (henters.others id hne.symm)
    · exact (hattaches.lookup key hkey.symm).trans
    · intro β' hβ'
      cases hβ'
      exact hne
  | greet hphase =>
    rw [binding?, hphase] at hapart
    exact ⟨.refl id key b, hapart⟩
  | @activate c' β rest hphase =>
    rw [binding?, hphase] at hapart
    refine ⟨.of_registry ?_ rfl, hapart⟩
    exact Broker.session_updateSession_congr Session.charge rfl id
  | read hphase hhandles hsame =>
    refine ⟨.refl id key b, ?_⟩
    rw [binding?_congr hsame]
    exact hapart
  | @handle c' β deadline w p hphase hhandles =>
    have hbefore : c.binding? = some β := by rw [binding?, hphase]
    have hne := hapart β hbefore
    have heffect : Effect b c (some (β, p)) (c'.handle now b β w p) :=
      effect_of_handle (hseated β hbefore) hphase c' p
    cases heffect with
    | handles hbefore hafter htakes =>
      refine ⟨.of_dispatches hfiled htakes.dispatches hne.symm
        (Broker.lookup_congr htakes.registry key).trans, ?_⟩
      intro β' hβ'
      cases hafter.symm.trans hβ'
      rw [htakes.session]
      exact hne
  | drain hphase hhandles hasks =>
    rw [binding?, hphase] at hapart
    exact ⟨(Spares.of_asks hasks).trans (.of_asks (asks_recordError ..)), hapart⟩
  | conclude hbefore hhandles hstopped =>
    refine ⟨spares_of_conclude hfiled (hapart _ hbefore) _, fun β hβ => ?_⟩
    cases hβ

end Connection

/-- From `b` to `b'` the connection bound by `β` leaves its session for good. -/
structure Broker.Closes (b : Broker) (β : Binding) (keeps : Bool) (b' : Broker) : Prop where
  active : (b'.session β.session).active = false
  owner : (b'.session β.session).owner = none
  will : (b'.session β.session).will = none
  released : (b'.lease β.lease).released = true
  lookup : b'.lookup β.link.clientId = if keeps then some β.session else none
  contents : (b'.session β.session).contents = (b.session β.session).contents
  /-- What a later connection can deliver is kept in order, with the session's own will behind it. -/
  outbox : keeps = true → ∃ own,
    (b'.session β.session).outbox.items =
      (b.session β.session).outbox.items.filter Outgoing.isLasting ++ own ∧
    (b.session β.session).Bequeaths own ∧ ∀ item ∈ own, item.isLasting = true

/-- It does not matter what session expiry has been settled. -/
theorem Broker.Closes.of_settle {b b' : Broker} {β : Binding} {keeps : Bool}
    {expiry? : Option UInt32} (h : b.Closes (β.settle expiry?) keeps b') : b.Closes β keeps b' := by
  cases expiry? <;> exact ⟨h.active, h.owner, h.will, h.released, h.lookup, h.contents, h.outbox⟩

namespace Network

variable {limits : Limits} {n n' : Network} {move : Move} {i : Nat} {β : Binding}

/-- The session expiry that a DISCONNECT of the `i`-th client settles. -/
def settled? (i : Nat) (x : Handling) : Option UInt32 :=
  if x.connection = i then x.before.settled? x.binding x.packet else none

/-- The `i`-th connection is bound by `β`. It owns the session and no other connection has it, and
its client id stands for the session. -/
structure HasCharge (i : Nat) (β : Binding) (n : Network) : Prop where
  bound : n.binding? i = some β
  owned : (n.broker.session β.session).owner = some β.lease
  registered : n.broker.lookup β.link.clientId = some β.session
  leased : β.lease < n.broker.leases.length
  apart : ∀ j ≠ i, ∀ β' ∈ n.binding? j, β'.session ≠ β.session

/-- The `i`-th connection has ended. -/
def HasEnded (i : Nat) (n : Network) : Prop :=
  ∃ c result, n.connections[i]? = some c ∧ c.phase = .ended result

/-! ### One move -/

theorem HasEnded.binding?_eq_none (h : n.HasEnded i) : n.binding? i = none := by
  obtain ⟨c, result, hc, hphase⟩ := h
  rw [binding?_eq_some hc, Connection.binding?, hphase]

/-- What a move can do while the `i`-th connection has charge of its session. -/
inductive Goes (i : Nat) (β : Binding) (n : Network) (move : Move) : Network → Prop where
  | on {n' : Network} (hcharge : HasCharge i (β.settle ((n.handling? move n').bind (settled? i))) n')
    (hcontents : (∀ now look, move ≠ .write i now look) →
      (∀ x ∈ n.handling? move n', x.connection ≠ i) →
      (n'.broker.session β.session).contents = (n.broker.session β.session).contents) :
    Goes i β n move n'
  | ends {n' : Network} (hended : n'.HasEnded i)
    (hcloses : n.broker.Closes β β.link.persistent n'.broker) : Goes i β n move n'

namespace HasCharge

theorem closes (h : HasCharge i β n) (hsound : n.Sound limits) (result : Connection.Result) :
    n.broker.Closes β β.link.persistent
      (Connection.release (Connection.recordError n.broker β result) β) := by
  have hasks := Connection.asks_recordError n.broker β result
  have hframes := Broker.frames_of_asks hasks
  have hsession := Broker.session_of_asks hasks β.session
  have hfiled := hframes.filed hsound.filed
  have hlookup := (Broker.lookup_congr hframes.registry β.link.clientId).trans h.registered
  have hleases : (Connection.recordError n.broker β result).leases.length =
      n.broker.leases.length := congrArg Prod.snd (Connection.fixtures_recordError n.broker β result)
  obtain ⟨outbox, hleft, hkept⟩ := Connection.session_release hfiled
    (hframes.sessions ▸ hsound.seated i β h.bound) (hsession ▸ h.owned)
  rw [hsession] at hleft hkept
  constructor
  case active => rw [hleft]
  case owner => rw [hleft]
  case will => rw [hleft]
  case contents =>
    rw [hleft]
    rfl
  case released => exact Connection.released_release (hleases ▸ h.leased)
  case lookup => exact Connection.lookup_release_self hfiled hlookup
  case outbox =>
    rw [hleft]
    exact hkept

/-- The connection goes on, with another session expiry perhaps. -/
theorem keeps (h : HasCharge i β n) (expiry? : Option UInt32)
    (hretains : Retains β.session β.link.clientId n.broker n'.broker)
    (hstep : n.step move = some n') (hbound : n'.binding? i = some (β.settle expiry?))
    (hapart : ∀ j ≠ i, ∀ β' ∈ n'.binding? j, β'.session ≠ β.session) :
    HasCharge i (β.settle expiry?) n' := by
  have howned := hretains.owner.trans h.owned
  have hregistered := hretains.lookup h.registered
  have hleased := Nat.lt_of_lt_of_le h.leased (lasts_of_step hstep).leases
  cases expiry? <;> exact ⟨hbound, howned, hregistered, hleased, hapart⟩

theorem quiet_of_none (h : n.handling? move n' = none) :
    ∀ x ∈ n.handling? move n', x.connection ≠ i := by
  intro x hx
  cases h.symm.trans hx

/-- A move that is not the client's and not its writer's. -/
theorem goes_of_spares (h : HasCharge i β n)
    (hspares : Spares β.session β.link.clientId n.broker n'.broker)
    (hstep : n.step move = some n') (hhandling : ∀ x ∈ n.handling? move n', x.connection ≠ i)
    (hbound : n'.binding? i = some β)
    (hapart : ∀ j ≠ i, ∀ β' ∈ n'.binding? j, β'.session ≠ β.session) : Goes i β n move n' := by
  have hnone : (n.handling? move n').bind (settled? i) = none := by
    refine Option.bind_eq_none_iff.2 fun x hx => if_neg (hhandling x hx)
  refine .on ?_ fun _ _ => hspares.contents
  rw [hnone]
  exact h.keeps none hspares.toRetains hstep hbound hapart

/-- A step of the connection itself. -/
theorem goes_of_step (h : HasCharge i β n) (hsound : n.Sound limits) {now : Nat}
    {closeFirst : Bool} (hstep : n.step (.step i now closeFirst) = some n') :
    Goes i β n (.step i now closeFirst) n' := by
  have hmade := hstep
  obtain ⟨c, hc, hstep⟩ := Option.bind_eq_some_iff.1 hstep
  obtain ⟨turn, hturn, rfl⟩ := Option.map_eq_some_iff.1 hstep
  have hbound := h.bound
  rw [binding?_eq_some hc] at hbound
  have hn' := binding?_withTurn hc turn
  have hapart : ∀ j ≠ i, ∀ β' ∈ (n.withTurn i turn).binding? j, β'.session ≠ β.session := by
    intro j hij
    rw [binding?_withTurn_of_ne hij.symm]
    exact h.apart j hij
  have htends := Connection.tends_of_step hbound (hsound.seated i β h.bound) h.leased hturn
  have hhandling := handling?_step hc now closeFirst (n.withTurn i turn)
  generalize c.handles? closeFirst n.broker = handled? at htends hhandling
  cases htends with
  | stays hafter hspares =>
    exact h.goes_of_spares (hspares _) hmade (quiet_of_none hhandling) (hn'.trans hafter) hapart
  | @handles turn q hafter hretains =>
    have hsettled : (n.handling? (.step i now closeFirst) (n.withTurn i turn)).bind (settled? i) =
        n.broker.settled? β q := by
      rw [hhandling, Option.map_some, Option.bind_some, settled?, if_pos rfl]
    refine .on ?_ fun _ hnone => ?_
    · rw [hsettled]
      exact h.keeps _ (hretains _) hmade (hn'.trans hafter) hapart
    · rw [hhandling] at hnone
      exact absurd rfl (hnone _ rfl)
  | @concludes c' result =>
    have hi := (List.getElem?_eq_some_iff.1 hc).1
    exact .ends ⟨_, _, List.getElem?_set_self hi, rfl⟩ (h.closes hsound result)

theorem goes (h : HasCharge i β n) (hsound : n.Sound limits)
    (hmeanwhile : ∀ j ≠ i, ∀ β' ∈ n'.binding? j, n.binding? j = none →
      β'.link.clientId ≠ β.link.clientId)
    (hstep : n.step move = some n') : Goes i β n move n' := by
  -- Where no connection comes to hold something else.
  have hstill : (∀ j, n'.binding? j = n.binding? j) → n'.binding? i = some β ∧
      ∀ j ≠ i, ∀ β' ∈ n'.binding? j, β'.session ≠ β.session := by
    intro hsame
    refine ⟨(hsame i).trans h.bound, fun j hij => ?_⟩
    rw [hsame j]
    exact h.apart j hij
  have hmade := hstep
  cases move with
  | accept now capacity =>
    cases hstep
    obtain ⟨hbound, hapart⟩ := hstill (n.binding?_accept now capacity)
    exact h.goes_of_spares (.refl _ _ _) hmade (quiet_of_none rfl) hbound hapart
  | client j inbound outbound =>
    obtain ⟨c, hc, rfl⟩ := Option.map_eq_some_iff.1 hstep
    let turn : Connection.Turn :=
      { broker := n.broker, connection := { c with inbound, outbound } }
    obtain ⟨hbound, hapart⟩ := hstill (binding?_withTurn_of_eq hc (rfl : turn.connection.binding? = c.binding?))
    exact h.goes_of_spares (.refl _ _ _) hmade (quiet_of_none rfl) hbound hapart
  | step j now closeFirst =>
    by_cases hij : j = i
    · subst hij
      exact h.goes_of_step hsound hstep
    obtain ⟨c, hc, hstep⟩ := Option.bind_eq_some_iff.1 hstep
    obtain ⟨turn, hturn, rfl⟩ := Option.map_eq_some_iff.1 hstep
    have hn := binding?_eq_some hc
    have hn' := binding?_withTurn hc turn
    obtain ⟨hspares, hafter⟩ := Connection.spares_of_step hsound.filed
      (fun β' hβ' => hsound.seated j β' (hn.trans hβ'))
      (hsound.named c (List.mem_of_getElem? hc)) h.registered
      (fun β' hβ' => h.apart j hij β' (hn.trans hβ'))
      (fun β' hβ' hnone => hmeanwhile j hij β' (hn'.trans hβ') (hn.trans hnone)) hturn
    refine h.goes_of_spares hspares hmade ?_ ((binding?_withTurn_of_ne hij turn).trans h.bound) ?_
    · intro x hx
      rw [handling?_step hc] at hx
      obtain ⟨_, -, rfl⟩ := Option.map_eq_some_iff.1 hx
      exact hij
    · intro k hk β' hβ'
      rcases binding?_withTurn_cases hc hβ' with ⟨-, hβ'⟩ | ⟨-, hβ'⟩
      · exact hafter β' hβ'
      · exact h.apart k hk β' hβ'
  | write j now look =>
    obtain ⟨c, hc, hstep⟩ := Option.bind_eq_some_iff.1 hstep
    obtain ⟨turn, hturn, rfl⟩ := Option.map_eq_some_iff.1 hstep
    obtain ⟨hsame, -, β', hβ', hcarries⟩ := Connection.carries_of_writeStep hturn
    obtain ⟨hbound, hapart⟩ := hstill (binding?_withTurn_of_eq hc hsame)
    by_cases hij : j = i
    · subst hij
      refine .on ?_ fun hnot => absurd rfl (hnot now look)
      exact h.keeps none (Connection.retains_of_writeStep hturn) hmade hbound hapart
    · have hne := h.apart j hij β' ((binding?_eq_some hc).trans hβ')
      exact h.goes_of_spares (.of_dispatches hsound.filed hcarries.dispatches hne.symm
        (Broker.lookup_congr hcarries.registry _).trans) hmade (quiet_of_none rfl) hbound hapart
  | publish m =>
    cases hstep
    obtain ⟨hbound, hapart⟩ := hstill fun _ => rfl
    exact h.goes_of_spares (.of_dispatch _ m) hmade (quiet_of_none rfl) hbound hapart
  | shutdown =>
    cases hstep
    obtain ⟨hbound, hapart⟩ := hstill fun _ => rfl
    exact h.goes_of_spares (.of_shutdown _) hmade (quiet_of_none rfl) hbound hapart

end HasCharge

end Network

end MqttBroker
