import MqttBroker.Proofs.Network.Turns
/-!
Who owns what. Every move of a network is one of three kinds of change: it proceeds with the
sessions that are held, a connection is bound to a session without an owner, or one gives its
session back. As long as no waiting connection is let in beside an owner, each keeps the bound
connections apart.
-/

namespace MqttBroker

open Broker (Binds Deeds Holders LetsGo Proceeds)

namespace Connection

/-- What the connection holds of that session, if it is the one it is bound to. -/
def holds? (c : Connection) (id : SessionId) : Option Holding :=
  c.binding?.bind fun β => if β.session = id then some (c.holding β) else none

theorem holds?_eq_some {c : Connection} {id : SessionId} {h : Holding} :
    c.holds? id = some h ↔ ∃ β, c.binding? = some β ∧ β.session = id ∧ c.holding β = h := by
  simp [holds?, Option.bind_eq_some_iff]

end Connection

namespace Network

variable {n n' : Network} {i j : Nat} {c : Connection} {β : Binding} {turn : Connection.Turn}
  {d : Deeds}

/-- Who holds which session. -/
def holders (n : Network) : Holders := fun id => n.connections.findSome? (·.holds? id)

structure Standing (n : Network) : Prop where
  registered : ∀ i, ∀ β ∈ n.binding? i, n.broker.lookup β.link.clientId = some β.session
  owned : ∀ i, ∀ β ∈ n.binding? i, (n.broker.session β.session).owner = some β.lease
  leased : ∀ i, ∀ β ∈ n.binding? i, β.lease < n.broker.leases.length
  distinct : ∀ i j, ∀ β ∈ n.binding? i, ∀ β' ∈ n.binding? j, β.lease = β'.lease → i = j
  named : ∀ key id, (key, id) ∈ n.broker.registry →
    id < n.broker.sessions.length ∧ (n.broker.session id).clientId = key
  fit : ∀ c ∈ n.connections, c.IsFit

theorem binding?_eq_some (hc : n.connections[i]? = some c) : n.binding? i = c.binding? := by
  rw [binding?, hc]
  rfl

theorem binding?_withTurn (hc : n.connections[i]? = some c) (turn : Connection.Turn) :
    (n.withTurn i turn).binding? i = turn.connection.binding? := by
  have hi := (List.getElem?_eq_some_iff.1 hc).1
  rw [binding?, withTurn, List.getElem?_set_self hi]
  rfl

theorem binding?_withTurn_of_ne (hne : i ≠ j) (turn : Connection.Turn) :
    (n.withTurn i turn).binding? j = n.binding? j := by
  rw [binding?, withTurn, List.getElem?_set_ne hne, binding?]

theorem binding?_withTurn_of_eq (hc : n.connections[i]? = some c)
    (hsame : turn.connection.binding? = c.binding?) (j : Nat) :
    (n.withTurn i turn).binding? j = n.binding? j := by
  by_cases hij : i = j
  · rw [← hij, binding?_withTurn hc, binding?_eq_some hc, hsame]
  · rw [binding?_withTurn_of_ne hij]

/-- A connection that was just opened holds nothing. -/
theorem binding?_accept (n : Network) (now capacity : Nat) (i : Nat) :
    binding? { n with
      connections := n.connections ++ [Connection.accept n.broker.limits now capacity] } i =
        n.binding? i := by
  rw [binding?, binding?, List.getElem?_append]
  split
  · rfl
  · next hge =>
    rw [List.getElem?_eq_none (Nat.not_lt.1 hge), List.getElem?_singleton]
    split <;> rfl

theorem start_standing (limits : Limits) (credentials : Option Authenticator)
    (uuids : Nat → BitVec 128) :
    (start limits credentials uuids).Standing where
  registered := by rintro _ _ ⟨⟩
  owned := by rintro _ _ ⟨⟩
  leased := by rintro _ _ ⟨⟩
  distinct := by rintro _ _ _ ⟨⟩
  named := by rintro _ _ ⟨⟩
  fit := by rintro _ ⟨⟩

namespace Standing

theorem exclusive (h : n.Standing) : n.Exclusive where
  registered := h.registered
  owned := h.owned
  alone i j β hβ β' hβ' heq := by
    have hsession : β.session = β'.session := by
      have hlookup := h.registered i β hβ
      rw [heq, h.registered j β' hβ'] at hlookup
      exact (Option.some.inj hlookup).symm
    have hlease := h.owned i β hβ
    rw [hsession, h.owned j β' hβ'] at hlease
    exact h.distinct i j β hβ β' hβ' (Option.some.inj hlease).symm

/-- Two connections never hold one session. -/
theorem apart (h : n.Standing) {β' : Binding} (hβ : n.binding? i = some β)
    (hβ' : n.binding? j = some β') (heq : β.session = β'.session) : i = j := by
  have hlease := h.owned i β hβ
  rw [heq, h.owned j β' hβ'] at hlease
  exact h.distinct i j β hβ β' hβ' (Option.some.inj hlease).symm

theorem session_lt (h : n.Standing) (hβ : n.binding? i = some β) :
    β.session < n.broker.sessions.length :=
  (h.named _ _ (Broker.mem_of_lookup (h.registered i β hβ))).1

theorem clientId (h : n.Standing) (hβ : n.binding? i = some β) :
    (n.broker.session β.session).clientId = β.link.clientId :=
  (h.named _ _ (Broker.mem_of_lookup (h.registered i β hβ))).2

/-! ### Holders -/

theorem holders_of_bound (h : n.Standing) (hc : n.connections[i]? = some c)
    (hβ : c.binding? = some β) : n.holders β.session = some (c.holding β) := by
  have hsome : (n.holders β.session).isSome := by
    refine List.findSome?_isSome_iff.2 ⟨c, List.mem_of_getElem? hc, ?_⟩
    rw [Connection.holds?, hβ, Option.bind_some, if_pos rfl]
    rfl
  obtain ⟨x, hx⟩ := Option.isSome_iff_exists.1 hsome
  obtain ⟨c', hc', hholds⟩ := List.exists_of_findSome?_eq_some hx
  obtain ⟨β', hβ', hsession, rfl⟩ := Connection.holds?_eq_some.1 hholds
  obtain ⟨j, hj⟩ := List.getElem?_of_mem hc'
  obtain rfl := h.apart ((binding?_eq_some hc).trans hβ) ((binding?_eq_some hj).trans hβ')
    hsession.symm
  cases hc.symm.trans hj
  cases hβ.symm.trans hβ'
  exact hx

end Standing

theorem holders_eq_none {id : SessionId} (h : ∀ i, ∀ β ∈ n.binding? i, β.session ≠ id) :
    n.holders id = none := by
  refine List.findSome?_eq_none_iff.2 fun c hc => ?_
  obtain ⟨i, hi⟩ := List.getElem?_of_mem hc
  refine Option.eq_none_iff_forall_ne_some.2 fun x hx => ?_
  obtain ⟨β, hβ, hsession, -⟩ := Connection.holds?_eq_some.1 hx
  exact h i β ((binding?_eq_some hi).trans hβ) hsession

theorem findSome?_set {α γ : Type} {f : α → Option γ} {l : List α} {x y : α}
    (hx : l[i]? = some x) (hsame : f y = f x) : (l.set i y).findSome? f = l.findSome? f := by
  induction l generalizing i with
  | nil => rfl
  | cons z l ih =>
    cases i with
    | zero =>
      cases hx
      rw [List.set_cons_zero, List.findSome?_cons, List.findSome?_cons, hsame]
    | succ i => rw [List.set_cons_succ, List.findSome?_cons, List.findSome?_cons, ih hx]

theorem holders_withTurn {id : SessionId} (hc : n.connections[i]? = some c)
    (hsame : turn.connection.holds? id = c.holds? id) :
    (n.withTurn i turn).holders id = n.holders id := findSome?_set hc hsame

/-! ### The three kinds of change -/

/-- What a move can do to a network, with the deeds that are done to the sessions. -/
inductive Evolves (n : Network) : Deeds → Network → Prop
  | proceeds {n' : Network} {deeds : Deeds}
    (hplaces : ∀ i, (n'.binding? i).map Binding.place = (n.binding? i).map Binding.place)
    (hfit : ∀ c ∈ n'.connections, c.IsFit)
    (hproceeds : Proceeds n.holders n'.holders deeds n.broker n'.broker) : Evolves n deeds n'
  | binds {i : Nat} {c c' : Connection} {b b' : Broker} {accepted : Accepted} {β : Binding}
    {rest : Bytes} (hc : n.connections[i]? = some c) (hunbound : c.binding? = none)
    (hproceeds : Proceeds n.holders n.holders .none n.broker b) (hbinds : Binds b accepted b' β) :
    Evolves n (.on β.session [.arrive β.link]) (n.withTurn i (c'.enter b' (.greeting β rest)))
  | letsGo {i : Nat} {c c' : Connection} {β : Binding} {b b' : Broker}
    {result : Connection.Result} {deeds : Deeds} (hc : n.connections[i]? = some c)
    (hbound : c.binding? = some β) (hstopped : ∀ x ∈ c.writer?, x.2.phase = .stopped)
    (hproceeds : Proceeds n.holders n.holders deeds n.broker b) (hlets : LetsGo b β b') :
    Evolves n (deeds.and (.on β.session [.leave β.link.persistent]))
      (n.withTurn i (c'.close b' result))

theorem binding?_withTurn_cases {β : Binding} (hc : n.connections[i]? = some c)
    (hβ : (n.withTurn i turn).binding? j = some β) :
    i = j ∧ turn.connection.binding? = some β ∨ i ≠ j ∧ n.binding? j = some β := by
  by_cases hij : i = j
  · subst hij
    rw [binding?_withTurn hc] at hβ
    exact .inl ⟨rfl, hβ⟩
  · rw [binding?_withTurn_of_ne hij] at hβ
    exact .inr ⟨hij, hβ⟩

theorem fit_withTurn (h : ∀ c ∈ n.connections, c.IsFit) (hturn : turn.connection.IsFit) :
    ∀ c ∈ (n.withTurn i turn).connections, c.IsFit := by
  intro c hc
  rcases List.mem_or_eq_of_mem_set hc with hold | rfl
  · exact h c hold
  · exact hturn

namespace Standing

theorem of_proceeds {hold hold' : Holders} (h : n.Standing)
    (hplaces : ∀ i, (n'.binding? i).map Binding.place = (n.binding? i).map Binding.place)
    (hfit : ∀ c ∈ n'.connections, c.IsFit)
    (hproceeds : Proceeds hold hold' d n.broker n'.broker) : n'.Standing := by
  have hbefore : ∀ i, ∀ β' ∈ n'.binding? i, ∃ β, n.binding? i = some β ∧
      β'.session = β.session ∧ β'.lease = β.lease ∧ β'.link.clientId = β.link.clientId := by
    intro i β' hβ'
    have hplace := hplaces i
    rw [Option.mem_def.1 hβ', Option.map_some] at hplace
    obtain ⟨β, hβ, heq⟩ := Option.map_eq_some_iff.1 hplace.symm
    simp only [Binding.place, Prod.mk.injEq] at heq
    exact ⟨β, hβ, heq.1.symm, heq.2.1.symm, heq.2.2.symm⟩
  constructor
  case registered =>
    intro i β' hβ'
    obtain ⟨β, hβ, hsession, -, hclientId⟩ := hbefore i β' hβ'
    rw [hclientId, hsession, Broker.lookup, hproceeds.registry]
    exact h.registered i β hβ
  case owned =>
    intro i β' hβ'
    obtain ⟨β, hβ, hsession, hlease, -⟩ := hbefore i β' hβ'
    rw [hsession, hlease, hproceeds.owner]
    exact h.owned i β hβ
  case leased =>
    intro i β' hβ'
    obtain ⟨β, hβ, -, hlease, -⟩ := hbefore i β' hβ'
    rw [hlease, hproceeds.leases]
    exact h.leased i β hβ
  case distinct =>
    intro i j β₁' hβ₁' β₂' hβ₂' hlease
    obtain ⟨β₁, hβ₁, -, hlease₁, -⟩ := hbefore i β₁' hβ₁'
    obtain ⟨β₂, hβ₂, -, hlease₂, -⟩ := hbefore j β₂' hβ₂'
    exact h.distinct i j β₁ hβ₁ β₂ hβ₂ (hlease₁.symm.trans (hlease.trans hlease₂))
  case named =>
    intro key id hmem
    rw [hproceeds.registry] at hmem
    rw [hproceeds.sessions, hproceeds.clientId]
    exact h.named key id hmem
  case fit => exact hfit

/-- What the broker does by itself leaves the connections as they are. -/
theorem of_broker {hold hold' : Holders} (h : n.Standing) {b : Broker}
    (hproceeds : Proceeds hold hold' d n.broker b) : Standing { n with broker := b } :=
  h.of_proceeds (fun _ => rfl) h.fit hproceeds

/-- A client id with a bound connection has an owner. -/
theorem clientId_ne_of_free (h : n.Standing) (hβ : n.binding? i = some β) {clientId : String}
    (hfree : n.broker.owner? clientId = none) : β.link.clientId ≠ clientId := by
  rintro rfl
  rw [Broker.owner?, h.registered i β hβ, Option.bind_some, h.owned i β hβ] at hfree
  cases hfree

theorem session_ne_of_binds (h : n.Standing) {b : Broker} {accepted : Accepted} {β' : Binding}
    (hβ : n.binding? i = some β) (hbinds : Binds n.broker accepted b β') :
    β.session ≠ β'.session := by
  intro heq
  rcases hbinds.resumed with ⟨-, hlookup, -⟩ | ⟨-, hfresh, -⟩
  · have hfree := hbinds.free
    rw [Broker.owner?, hlookup, Option.bind_some, ← heq, h.owned i β hβ] at hfree
    cases hfree
  · have hlt := h.session_lt hβ
    rw [heq, hfresh] at hlt
    exact Nat.lt_irrefl _ hlt

theorem of_binds {b : Broker} {accepted : Accepted} (h : n.Standing)
    (hc : n.connections[i]? = some c) (hbinds : Binds n.broker accepted b β) (c' : Connection)
    (rest : Bytes) : (n.withTurn i (c'.enter b (.greeting β rest))).Standing := by
  have hleases : b.leases.length = n.broker.leases.length + 1 := by
    rw [hbinds.leases]
    exact List.length_append
  constructor
  case registered =>
    intro j β' hβ'
    rcases binding?_withTurn_cases hc hβ' with ⟨-, hnew⟩ | ⟨-, hold⟩
    · cases hnew
      rw [hbinds.clientId]
      exact hbinds.registered
    · exact (hbinds.lookup _ (h.clientId_ne_of_free hold hbinds.free)).trans
        (h.registered j β' hold)
  case owned =>
    intro j β' hβ'
    rcases binding?_withTurn_cases hc hβ' with ⟨-, hnew⟩ | ⟨-, hold⟩
    · cases hnew
      exact hbinds.owner
    · exact (congrArg Session.owner (hbinds.others _ (h.session_ne_of_binds hold hbinds))).trans
        (h.owned j β' hold)
  case leased =>
    intro j β' hβ'
    refine Nat.lt_of_lt_of_eq ?_ hleases.symm
    rcases binding?_withTurn_cases hc hβ' with ⟨-, hnew⟩ | ⟨-, hold⟩
    · cases hnew
      rw [hbinds.lease]
      exact Nat.lt_succ_self _
    · exact Nat.lt_succ_of_lt (h.leased j β' hold)
  case distinct =>
    intro j k β₁ hβ₁ β₂ hβ₂ hlease
    rcases binding?_withTurn_cases hc hβ₁ with ⟨hij, hnew₁⟩ | ⟨-, hold₁⟩
    · rcases binding?_withTurn_cases hc hβ₂ with ⟨hik, -⟩ | ⟨-, hold₂⟩
      · exact hij.symm.trans hik
      · cases hnew₁
        exact absurd (hlease.symm.trans hbinds.lease) (Nat.ne_of_lt (h.leased k β₂ hold₂))
    · rcases binding?_withTurn_cases hc hβ₂ with ⟨-, hnew₂⟩ | ⟨-, hold₂⟩
      · cases hnew₂
        exact absurd (hlease.trans hbinds.lease) (Nat.ne_of_lt (h.leased j β₁ hold₁))
      · exact h.distinct j k β₁ hold₁ β₂ hold₂ hlease
  case named =>
    intro key id hmem
    -- An entry of the registry was there before, or is the one for the new connection.
    rcases hbinds.registry key id hmem with hold | ⟨rfl, rfl⟩
    · obtain ⟨hid, hclientId⟩ := h.named key id hold
      exact ⟨Nat.lt_of_lt_of_le hid hbinds.sessions_le,
        (hbinds.clientId_eq hid).trans hclientId⟩
    · refine ⟨hbinds.session, ?_⟩
      rcases hbinds.resumed with ⟨-, hlookup, will, heq⟩ | ⟨-, -, will, heq⟩
      · exact (congrArg Session.clientId heq).trans
          (h.named _ _ (Broker.mem_of_lookup hlookup)).2
      · exact congrArg Session.clientId heq
  case fit => exact fit_withTurn h.fit (.of_bound rfl (by rintro _ _ _ ⟨⟩))

/-- The connections that are still bound when one has ended were bound to other sessions. -/
theorem others_of_close (h : n.Standing) (hc : n.connections[i]? = some c)
    (hbound : c.binding? = some β) {b : Broker} {c' : Connection} {result : Connection.Result}
    {β' : Binding} (hβ' : (n.withTurn i (c'.close b result)).binding? j = some β') :
    i ≠ j ∧ n.binding? j = some β' ∧ β'.session ≠ β.session := by
  rcases binding?_withTurn_cases hc hβ' with ⟨-, hnew⟩ | ⟨hne, hold⟩
  · cases hnew
  · have hβ := (binding?_eq_some hc).trans hbound
    exact ⟨hne, hold, fun heq => hne (h.apart hβ hold heq.symm)⟩

theorem of_letsGo {b : Broker} (h : n.Standing) (hc : n.connections[i]? = some c)
    (hbound : c.binding? = some β) (hlets : LetsGo n.broker β b) (c' : Connection)
    (result : Connection.Result) : (n.withTurn i (c'.close b result)).Standing := by
  have hβ := (binding?_eq_some hc).trans hbound
  constructor
  case registered =>
    intro j β' hβ'
    -- What is dropped from the registry is the client id of the connection that ends.
    obtain ⟨hne, hold, -⟩ := h.others_of_close hc hbound hβ'
    have hkey : β'.link.clientId ≠ (n.broker.session β.session).clientId := by
      rw [h.clientId hβ]
      exact fun heq => hne (h.exclusive.alone i j β hβ β' hold heq.symm)
    exact (hlets.lookup _ hkey).trans (h.registered j β' hold)
  case owned =>
    intro j β' hβ'
    obtain ⟨-, hold, hsession⟩ := h.others_of_close hc hbound hβ'
    exact (congrArg Session.owner (hlets.others _ hsession)).trans (h.owned j β' hold)
  case leased =>
    intro j β' hβ'
    obtain ⟨-, hold, -⟩ := h.others_of_close hc hbound hβ'
    exact Nat.lt_of_lt_of_eq (h.leased j β' hold) hlets.leases.symm
  case distinct =>
    intro j k β₁ hβ₁ β₂ hβ₂ hlease
    obtain ⟨-, hold₁, -⟩ := h.others_of_close hc hbound hβ₁
    obtain ⟨-, hold₂, -⟩ := h.others_of_close hc hbound hβ₂
    exact h.distinct j k β₁ hold₁ β₂ hold₂ hlease
  case named =>
    intro key id hmem
    obtain ⟨hid, hclientId⟩ := h.named key id (hlets.registry hmem)
    exact ⟨Nat.lt_of_lt_of_eq hid hlets.sessions.symm, (hlets.clientId_eq id).trans hclientId⟩
  case fit => exact fit_withTurn h.fit (.of_unbound rfl (by rintro _ ⟨⟩))

theorem of_evolves (h : n.Standing) (hevolves : Evolves n d n') : n'.Standing := by
  cases hevolves with
  | proceeds hplaces hfit hproceeds => exact h.of_proceeds hplaces hfit hproceeds
  | binds hc _ hproceeds hbinds => exact (h.of_broker hproceeds).of_binds hc hbinds _ _
  | letsGo hc hbound _ hproceeds hlets =>
    exact (h.of_broker hproceeds).of_letsGo hc hbound hlets _ _

end Standing

/-! ### The moves -/

/-- What is done to the sessions in a move that leads to `n'`. -/
def deeds (n : Network) (move : Move) (n' : Network) : Deeds :=
  match move with
  | .step i _ closeFirst => match n.connections[i]?, n'.connections[i]? with
    | some c, some c' => c.deeds n.broker (c.handles? closeFirst n.broker) c'
    | _, _ => .none
  | .write i now look => match n.connections[i]? with
    | some c => c.written now look
    | none => .none
  | .publish m => n.broker.offers [m]
  | .accept .. | .client .. | .shutdown => .none

namespace Standing

/-- A change of the broker that leaves the connections as they are. -/
theorem evolves_broker (h : n.Standing) {b : Broker}
    (hproceeds : Proceeds n.holders n.holders d n.broker b) :
    Evolves n d { n with broker := b } :=
  .proceeds (fun _ => rfl) h.fit hproceeds

/-- A change of a connection that its session takes no part in. -/
theorem evolves_withTurn (h : n.Standing) (hc : n.connections[i]? = some c)
    (hbinding : turn.connection.binding? = c.binding?)
    (hholds : ∀ id, turn.connection.holds? id = c.holds? id) (hfit : turn.connection.IsFit)
    (hproceeds : Proceeds n.holders n.holders d n.broker turn.broker) :
    Evolves n d (n.withTurn i turn) := by
  refine .proceeds (fun j => ?_) (fit_withTurn h.fit hfit) ?_
  · rw [binding?_withTurn_of_eq hc hbinding]
  · have hholders : (n.withTurn i turn).holders = n.holders :=
      funext fun id => holders_withTurn hc (hholds id)
    rw [hholders]
    exact hproceeds

theorem evolves_outside (h : n.Standing) (hc : n.connections[i]? = some c)
    (hbefore : c.binding? = none) (hafter : turn.connection.binding? = none)
    (hnamed : ∀ accepted ∈ turn.connection.waiting?, accepted.IsNamed)
    (hproceeds : Proceeds n.holders n.holders d n.broker turn.broker) :
    Evolves n d (n.withTurn i turn) := by
  refine h.evolves_withTurn hc (hafter.trans hbefore.symm) (fun id => ?_)
    (.of_unbound hafter hnamed) hproceeds
  rw [Connection.holds?, Connection.holds?, hafter, hbefore]
  rfl

theorem evolves_goesOn (h : n.Standing) (hc : n.connections[i]? = some c) {β' : Binding}
    (hbefore : c.binding? = some β) (hafter : turn.connection.binding? = some β')
    (hplace : β'.place = β.place) (hlinked : turn.connection.IsLinked)
    (hproceeds : Proceeds n.holders
      (Function.update n.holders β.session (some (turn.connection.holding β'))) d n.broker
      turn.broker) : Evolves n d (n.withTurn i turn) := by
  have hplaces : ∀ j, ((n.withTurn i turn).binding? j).map Binding.place =
      (n.binding? j).map Binding.place := by
    intro j
    by_cases hij : i = j
    · rw [← hij, binding?_withTurn hc, binding?_eq_some hc, hbefore, hafter, Option.map_some,
        Option.map_some, hplace]
    · rw [binding?_withTurn_of_ne hij]
  have hfit := fit_withTurn (i := i) h.fit (.of_bound hafter hlinked)
  have hsession : β'.session = β.session := congrArg Prod.fst hplace
  have hi := (List.getElem?_eq_some_iff.1 hc).1
  -- Who holds the session afterwards is clear once no two connections can.
  have hholders : (n.withTurn i turn).holders =
      Function.update n.holders β.session (some (turn.connection.holding β')) := by
    have h' : (n.withTurn i turn).Standing := h.of_proceeds hplaces hfit hproceeds
    funext id
    by_cases heq : id = β.session
    · rw [heq, Function.update_self, ← hsession]
      exact h'.holders_of_bound (List.getElem?_set_self hi) hafter
    · rw [Function.update_of_ne heq]
      refine holders_withTurn hc ?_
      rw [Connection.holds?, Connection.holds?, hafter, hbefore, Option.bind_some,
        Option.bind_some, if_neg (hsession ▸ Ne.symm heq), if_neg (Ne.symm heq)]
  exact .proceeds hplaces hfit (hholders ▸ hproceeds)

theorem evolves_of_steps (h : n.Standing) (hc : n.connections[i]? = some c)
    (hsteps : Connection.Steps n.holders n.broker c d turn) :
    Evolves n d (n.withTurn i turn) := by
  cases hsteps with
  | outside hbefore hafter hnamed hproceeds =>
    exact h.evolves_outside hc hbefore hafter hnamed hproceeds
  | binds hbefore hproceeds hbinds => exact .binds hc hbefore hproceeds hbinds
  | goesOn hbefore hafter hplace hlinked hproceeds =>
    exact h.evolves_goesOn hc hbefore hafter hplace hlinked hproceeds
  | letsGo hbefore hstopped hproceeds hlets => exact .letsGo hc hbefore hstopped hproceeds hlets

theorem ready (h : n.Standing) (hc : n.connections[i]? = some c)
    (hfree : ∀ accepted ∈ c.waiting?, n.broker.owner? accepted.clientId = none) :
    Connection.Ready n.holders n.broker c := by
  have hbinding := binding?_eq_some hc
  exact ⟨fun key id hlookup => (h.named key id (Broker.mem_of_lookup hlookup)).1, hfree,
    h.fit c (List.mem_of_getElem? hc), fun β hβ => h.session_lt (hbinding.trans hβ),
    fun β hβ => h.leased i β (hbinding.trans hβ), fun β hβ => h.owned i β (hbinding.trans hβ),
    fun β hβ => h.holders_of_bound hc hβ⟩

theorem evolves_accept (h : n.Standing) (now capacity : Nat) :
    Evolves n .none { n with
      connections := n.connections ++ [Connection.accept n.broker.limits now capacity] } := by
  refine .proceeds (fun i => ?_) (fun c hc => ?_) ?_
  · rw [binding?_accept]
  · rcases List.mem_append.1 hc with hold | hnew
    · exact h.fit c hold
    · cases List.mem_singleton.1 hnew
      exact .of_unbound rfl (by rintro _ ⟨⟩)
  · have hholders : ∀ c : Connection, (∀ id, c.holds? id = none) →
        holders { n with connections := n.connections ++ [c] } = n.holders := by
      intro c hnone
      funext id
      rw [holders, List.findSome?_append, List.findSome?_singleton, hnone, Option.or_none]
      rfl
    rw [hholders _ fun _ => rfl]
    exact .refl _ _

theorem evolves_of_step {move : Move} (h : n.Standing) (htimely : n.IsTimely move)
    (hstep : n.step move = some n') : Evolves n (n.deeds move n') n' := by
  cases move with
  | accept now capacity =>
    cases hstep
    exact h.evolves_accept now capacity
  | client i inbound outbound =>
    obtain ⟨c, hc, rfl⟩ := Option.map_eq_some_iff.1 hstep
    let turn : Connection.Turn :=
      { broker := n.broker, connection := { c with inbound, outbound } }
    have hfit := h.fit c (List.mem_of_getElem? hc)
    have hturn : Evolves n .none (n.withTurn i turn) :=
      h.evolves_withTurn hc rfl (fun _ => rfl) ⟨hfit.linked, hfit.named⟩ (.refl _ _)
    exact hturn
  | step i now closeFirst =>
    obtain ⟨c, hc, hstep⟩ := Option.bind_eq_some_iff.1 hstep
    obtain ⟨turn, hturn, rfl⟩ := Option.map_eq_some_iff.1 hstep
    have hi := (List.getElem?_eq_some_iff.1 hc).1
    have hdeeds : n.deeds (.step i now closeFirst) (n.withTurn i turn) =
        c.deeds n.broker (c.handles? closeFirst n.broker) turn.connection := by
      rw [Network.deeds, withTurn, hc, List.getElem?_set_self hi]
    have hready := h.ready hc (by simpa [IsTimely, hc] using htimely)
    rw [hdeeds]
    exact h.evolves_of_steps hc (Connection.steps_of_step hready hturn)
  | write i now look =>
    obtain ⟨c, hc, hstep⟩ := Option.bind_eq_some_iff.1 hstep
    obtain ⟨turn, hturn, rfl⟩ := Option.map_eq_some_iff.1 hstep
    have hwaiting : c.waiting? = none := Connection.waiting?_of_writeStep hturn
    have hready := h.ready hc (by rw [hwaiting]; rintro _ ⟨⟩)
    rw [Network.deeds, hc]
    exact h.evolves_of_steps hc (Connection.steps_of_writeStep hready hturn)
  | publish m =>
    cases hstep
    exact h.evolves_broker (.of_dispatch _ _ _)
  | shutdown =>
    cases hstep
    exact h.evolves_broker (.of_shutdown _ _)

theorem of_step {move : Move} (h : n.Standing) (htimely : n.IsTimely move)
    (hstep : n.step move = some n') : n'.Standing :=
  h.of_evolves (h.evolves_of_step htimely hstep)

end Standing

/-! ### Runs -/

theorem Standing.of_run {moves : List Move} (h : n.Standing) (htimely : AllTimely moves n)
    (hrun : run moves n = some n') : n'.Standing := by
  induction moves generalizing n with
  | nil =>
    cases hrun
    exact h
  | cons move moves ih =>
    obtain ⟨n₁, hstep, hrun⟩ := Option.bind_eq_some_iff.1 hrun
    exact ih (h.of_step htimely.1 hstep) (htimely.2 n₁ hstep) hrun

/-- While connections that waited are let in only where there is no owner, every bound connection
owns the session its client id stands for, and is the only one of its client id. -/
theorem exclusive_of_timely {limits : Limits} {credentials : Option Authenticator}
    {uuids : Nat → BitVec 128} {moves : List Move} {n : Network}
    (hrun : run moves (start limits credentials uuids) = some n)
    (htimely : AllTimely moves (start limits credentials uuids)) : n.Exclusive :=
  ((start_standing limits credentials uuids).of_run htimely hrun).exclusive

/-- The `i`-th client sends a CONNECT with the client id "x", and it is decided on. -/
def connecting (i : Nat) : List Move :=
  [.client i
      { capacity := 64
        held := [0x10, 0x0d, 0, 4, 0x4d, 0x51, 0x54, 0x54, 4, 2, 0, 0, 0, 1, 0x78] }
      { capacity := 64 },
    .step i 0 false, .step i 0 false]

/-- A second connection of a client takes over from the first. -/
def takeover : List Move :=
  [.accept 0 64, .accept 0 64] ++ connecting 0 ++ connecting 1 ++ [.step 0 0 true, .step 1 0 false]

theorem exclusive_of_timely_takeover : ∃ n, run takeover (start {}) = some n ∧
    AllTimely takeover (start {}) ∧
      (n.binding? 1).map (·.link.clientId) = some "x" ∧ n.Exclusive := by
  have hend : (run takeover (start {})).map
      (fun n => (n.binding? 1).map (·.link.clientId)) = some (some "x") := by decide +kernel
  obtain ⟨n, hrun, hbound⟩ := Option.map_eq_some_iff.1 hend
  have htimely : AllTimely takeover (start {}) := by decide +kernel
  exact ⟨n, hrun, htimely, hbound, exclusive_of_timely hrun htimely⟩

/-- Two connections wait for the first. Once it has let go, both are let in. -/
def race : List Move :=
  [.accept 0 64, .accept 0 64, .accept 0 64] ++ connecting 0 ++ connecting 1 ++ connecting 2 ++
    [.step 0 0 true, .step 1 0 false, .step 2 0 false]

theorem not_exclusive_of_run : ¬ ∀ (limits : Limits) (credentials : Option Authenticator)
    (uuids : Nat → BitVec 128) (moves : List Move) (n : Network),
      run moves (start limits credentials uuids) = some n → n.Exclusive := by
  intro hall
  have hend : (run race (start {})).map
      (fun n => ((n.binding? 1).map (·.link.clientId), (n.binding? 2).map (·.link.clientId))) =
        some (some "x", some "x") := by decide +kernel
  obtain ⟨n, hrun, hboth⟩ := Option.map_eq_some_iff.1 hend
  obtain ⟨β₁, hβ₁, hid₁⟩ := Option.map_eq_some_iff.1 (Prod.mk.inj hboth).1
  obtain ⟨β₂, hβ₂, hid₂⟩ := Option.map_eq_some_iff.1 (Prod.mk.inj hboth).2
  exact absurd ((hall {} none _ race n hrun).alone 1 2 β₁ hβ₁ β₂ hβ₂ (hid₁.trans hid₂.symm))
    (by decide)

end Network

end MqttBroker
