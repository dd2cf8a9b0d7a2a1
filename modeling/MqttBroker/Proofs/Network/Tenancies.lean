import MqttBroker.Proofs.Network.Ownership
import MqttBroker.Proofs.Session.Backlog
import MqttBroker.Proofs.Session.Regular
/-!
A network seen from one of its sessions. As long as no waiting connection is let in beside an owner,
what happens to a session and its holder is a run of a tenancy, and move by move it has the deeds
that the network does to the session. So what is proved of tenancies and of the records of their
runs holds of the sessions of a running broker.
-/

namespace MqttBroker

open Broker (Binds Deeds LetsGo Proceeds)
open Tenancy (Does Lives Reaches)

namespace Network

variable {n n' : Network} {i : Nat} {c : Connection} {β : Binding} {id : SessionId} {d : Deeds}

/-- A session of the broker with whoever holds it. -/
def tenancy (n : Network) (id : SessionId) : Tenancy := n.broker.tenancy id (n.holders id)

/-- What is done to a session in a run: for every move after which it is there, the deeds and what
they leave. -/
def history (id : SessionId) : List Move → Network → List (List Tenancy.Move × Tenancy)
  | [], _ => []
  | move :: moves, n => match n.step move with
    | none => []
    | some n' =>
      if id < n'.broker.sessions.length then
        (n.deeds move n' id, n'.tenancy id) :: history id moves n'
      else history id moves n'

/-- The life of every session so far is a run of a tenancy. -/
def Tenanted (n : Network) : Prop :=
  ∀ id, id < n.broker.sessions.length →
    ∃ clientId, Reaches (Tenancy.fresh clientId n.broker.limits.outboxCapacity) (n.tenancy id)

/-- From `n` to `n'` each session goes on as a tenancy with its deeds, and one that is new starts
with them. -/
structure Continues (n : Network) (d : Deeds) (n' : Network) : Prop where
  limits : n'.broker.limits = n.broker.limits
  sessions_le : n.broker.sessions.length ≤ n'.broker.sessions.length
  goesOn : ∀ id, id < n.broker.sessions.length → Does (n.tenancy id) (d id) (n'.tenancy id)
  starts : ∀ id, n.broker.sessions.length ≤ id → id < n'.broker.sessions.length →
    ∃ clientId,
      Does (Tenancy.fresh clientId n.broker.limits.outboxCapacity) (d id) (n'.tenancy id)

/-- A tenancy only reads the lease of the holder. -/
theorem tenancy_congr {b b' : Broker} {holding : Option Holding}
    (hsession : b'.session id = b.session id)
    (hreason : ∀ h ∈ holding, (b'.lease h.lease).reason = (b.lease h.lease).reason) :
    b'.tenancy id holding = b.tenancy id holding := by
  rw [Broker.tenancy, Broker.tenancy, hsession]
  cases holding with
  | none => rfl
  | some h => rw [Option.map_some, Option.map_some, hreason h rfl]

namespace Standing

theorem leased_of_holders (h : n.Standing) {x : Holding} (hx : n.holders id = some x) :
    x.lease < n.broker.leases.length := by
  obtain ⟨c, hc, hholds⟩ := List.exists_of_findSome?_eq_some hx
  obtain ⟨β, hβ, -, rfl⟩ := Connection.holds?_eq_some.1 hholds
  obtain ⟨i, hi⟩ := List.getElem?_of_mem hc
  exact h.leased i β ((binding?_eq_some hi).trans hβ)

/-! ### A connection arrives -/

theorem tenancy_of_binds (h : n.Standing) {b : Broker} {accepted : Accepted} {rest : Bytes}
    {c' : Connection} (hc : n.connections[i]? = some c) (hunbound : c.binding? = none)
    (hbinds : Binds n.broker accepted b β) (hne : id ≠ β.session) :
    (n.withTurn i (c'.enter b (.greeting β rest))).tenancy id = n.tenancy id := by
  have hholders : (n.withTurn i (c'.enter b (.greeting β rest))).holders id = n.holders id := by
    refine holders_withTurn hc ?_
    rw [Connection.holds?, Connection.holds?, hunbound]
    exact if_neg (Ne.symm hne)
  rw [tenancy, tenancy, hholders]
  refine tenancy_congr (hbinds.others id hne) fun x hx => ?_
  -- The new lease is added behind the leases there are.
  have hold := h.leased_of_holders hx
  show (b.lease x.lease).reason = _
  rw [Broker.lease, Broker.lease, hbinds.leases, Broker.newLease, List.getElem?_append_left hold]

/-- Whoever arrives has not been asked to close, and its writer has yet to start. -/
theorem tenancy_of_binds_self (h : n.Standing) {b : Broker} {accepted : Accepted}
    (hc : n.connections[i]? = some c) (hbinds : Binds n.broker accepted b β) (c' : Connection)
    (rest : Bytes) : (n.withTurn i (c'.enter b (.greeting β rest))).tenancy β.session =
      { session := b.session β.session, tenant := some { link := β.link } } := by
  have hi := (List.getElem?_eq_some_iff.1 hc).1
  have hholders := (h.of_binds hc hbinds c' rest).holders_of_bound (List.getElem?_set_self hi) rfl
  have hreason : (b.lease β.lease).reason = none := by
    rw [Broker.lease, hbinds.leases, hbinds.lease, Broker.newLease, List.getElem?_concat_length]
    rfl
  rw [tenancy, hholders, Broker.tenancy, Option.map_some]
  show (⟨_, some ⟨β.link, (b.lease β.lease).reason, none⟩⟩ : Tenancy) = _
  rw [hreason]
  rfl

theorem does_arrive (s : Session) (owner : Option LeaseId) (will : Option Message) {link : Link}
    (hlink : link.IsServable) :
    Does ⟨s, none⟩ [.arrive link] ⟨{ s with owner, will }, some { link }⟩ := by
  refine .trans (.of_step (.adjust s.subscriptions s.incoming will s.active owner) rfl)
    (.of_step (.arrive link) ?_)
  rw [Tenancy.step, if_pos ⟨rfl, hlink⟩]

theorem does_of_binds (h : n.Standing) {b : Broker} {accepted : Accepted}
    (hc : n.connections[i]? = some c) (hunbound : c.binding? = none)
    (hbinds : Binds n.broker accepted b β) (c' : Connection) (rest : Bytes)
    (hid : id < n.broker.sessions.length) :
    Does (n.tenancy id) (Deeds.on β.session [.arrive β.link] id)
      ((n.withTurn i (c'.enter b (.greeting β rest))).tenancy id) := by
  by_cases heq : id = β.session
  · subst heq
    rcases hbinds.resumed with ⟨-, -, will, hsession⟩ | ⟨-, hfresh, -⟩
    · -- A session without an owner is held by nobody.
      have hempty : n.holders β.session = none :=
        holders_eq_none fun j β' hβ' => h.session_ne_of_binds hβ' hbinds
      rw [h.tenancy_of_binds_self hc hbinds, hsession, Deeds.on_self, tenancy, hempty]
      exact does_arrive _ _ _ hbinds.servable
    · exact absurd hid (hfresh ▸ Nat.lt_irrefl _)
  · rw [h.tenancy_of_binds hc hunbound hbinds heq, Deeds.on_of_ne heq]
    exact .refl _

/-- A session is new only where a connection is bound to it. -/
theorem starts_of_binds (h : n.Standing) {b : Broker} {accepted : Accepted}
    (hc : n.connections[i]? = some c) (hbinds : Binds n.broker accepted b β) (c' : Connection)
    (rest : Bytes) (hid : n.broker.sessions.length ≤ id) (hid' : id < b.sessions.length) :
    ∃ clientId, Does (Tenancy.fresh clientId n.broker.limits.outboxCapacity)
      (Deeds.on β.session [.arrive β.link] id)
      ((n.withTurn i (c'.enter b (.greeting β rest))).tenancy id) := by
  rcases hbinds.resumed with ⟨hlength, -⟩ | ⟨hlength, hfresh, will, hsession⟩
  · exact absurd (hlength ▸ hid') (Nat.not_lt.2 hid)
  · have heq : id = β.session := by
      rw [hlength] at hid'
      exact (Nat.le_antisymm (Nat.le_of_lt_succ hid') hid).trans hfresh.symm
    subst heq
    rw [h.tenancy_of_binds_self hc hbinds, hsession, Deeds.on_self]
    exact ⟨accepted.clientId, does_arrive _ _ _ hbinds.servable⟩

/-! ### A connection leaves -/

theorem does_leave (s : Session) {x : Tenant} (kept : Bool)
    (hstopped : ∀ w ∈ x.writer, w.phase = .stopped) :
    Does ⟨s, some x⟩ [.leave kept] ⟨{ s with
      owner := none, outbox := if kept then s.outbox.discardTransient else s.outbox }, none⟩ := by
  refine .trans (.of_step (.adjust s.subscriptions s.incoming s.will s.active none) rfl)
    (.of_step (.leave kept) ?_)
  have hall : x.writer.all (·.phase = .stopped) = true := by
    cases hw : x.writer with
    | none => rfl
    | some w => simpa using hstopped w hw
  simp only [Tenancy.step, Option.bind_eq_bind, Option.bind_some, if_pos hall]
  rfl

theorem does_of_letsGo (h : n.Standing) {b : Broker} (hc : n.connections[i]? = some c)
    (hbound : c.binding? = some β) (hstopped : ∀ x ∈ c.writer?, x.2.phase = .stopped)
    (hlets : LetsGo n.broker β b) (c' : Connection) (result : Connection.Result)
    (id : SessionId) :
    Does (n.tenancy id) (Deeds.on β.session [.leave β.link.persistent] id)
      ((n.withTurn i (c'.close b result)).tenancy id) := by
  by_cases heq : id = β.session
  · subst heq
    have hempty : (n.withTurn i (c'.close b result)).holders β.session = none :=
      holders_eq_none fun j β' hβ' => (h.others_of_close hc hbound hβ').2.2
    have hafter : (n.withTurn i (c'.close b result)).tenancy β.session =
        ⟨b.session β.session, none⟩ := by
      rw [tenancy, hempty]
      rfl
    rw [hafter, hlets.session, tenancy, h.holders_of_bound hc hbound, Deeds.on_self]
    refine does_leave _ β.link.persistent fun w hw => ?_
    obtain ⟨x, hx, rfl⟩ := Option.map_eq_some_iff.1 hw
    exact hstopped x hx
  · have hholders : (n.withTurn i (c'.close b result)).holders id = n.holders id := by
      refine holders_withTurn hc ?_
      rw [Connection.holds?, Connection.holds?, hbound]
      exact (if_neg (Ne.symm heq)).symm
    have hsame : (n.withTurn i (c'.close b result)).tenancy id = n.tenancy id := by
      rw [tenancy, tenancy, hholders]
      exact tenancy_congr (hlets.others id heq) fun x _ => hlets.reason x.lease
    rw [hsame, Deeds.on_of_ne heq]
    exact .refl _

/-! ### Moves and runs -/

theorem continues_of_evolves (h : n.Standing) (hevolves : Evolves n d n') : Continues n d n' := by
  cases hevolves with
  | proceeds _ _ hproceeds =>
    exact ⟨hproceeds.limits, hproceeds.sessions.ge, fun id _ => hproceeds.does id,
      fun _ hid hid' => absurd hid' (Nat.not_lt.2 (hproceeds.sessions ▸ hid))⟩
  | binds hc hunbound hproceeds hbinds =>
    -- What the broker does by itself comes before the connection arrives.
    have h₁ := h.of_broker hproceeds
    refine ⟨hbinds.limits.trans hproceeds.limits, hproceeds.sessions ▸ hbinds.sessions_le,
      fun id hid => ?_, fun id hid hid' => ?_⟩
    · exact (hproceeds.does id).trans
        (h₁.does_of_binds hc hunbound hbinds _ _ (hproceeds.sessions ▸ hid))
    · rw [← hproceeds.limits]
      exact h₁.starts_of_binds hc hbinds _ _ (hproceeds.sessions ▸ hid) hid'
  | letsGo hc hbound hstopped hproceeds hlets =>
    have hlength := hlets.sessions.trans hproceeds.sessions
    exact ⟨hlets.limits.trans hproceeds.limits, hlength.ge,
      fun id _ => (hproceeds.does id).trans
        ((h.of_broker hproceeds).does_of_letsGo hc hbound hstopped hlets _ _ id),
      fun _ hid hid' => absurd hid' (Nat.not_lt.2 (hlength ▸ hid))⟩

theorem continues_of_step {move : Move} (h : n.Standing) (htimely : n.IsTimely move)
    (hstep : n.step move = some n') : Continues n (n.deeds move n') n' :=
  h.continues_of_evolves (h.evolves_of_step htimely hstep)

theorem limits_of_run {moves : List Move} (h : n.Standing) (htimely : AllTimely moves n)
    (hrun : run moves n = some n') : n'.broker.limits = n.broker.limits := by
  induction moves generalizing n with
  | nil =>
    cases hrun
    rfl
  | cons move moves ih =>
    obtain ⟨n₁, hstep, hrun⟩ := Option.bind_eq_some_iff.1 hrun
    exact (ih (h.of_step htimely.1 hstep) (htimely.2 n₁ hstep) hrun).trans
      (h.continues_of_step htimely.1 hstep).limits

/-- A session that is there goes on with its history. -/
theorem lives_of_run {moves : List Move} (h : n.Standing) (htimely : AllTimely moves n)
    (hrun : run moves n = some n') (hid : id < n.broker.sessions.length) :
    Lives (n.tenancy id) (history id moves n) (n'.tenancy id) := by
  induction moves generalizing n with
  | nil =>
    cases hrun
    exact .nil _
  | cons move moves ih =>
    obtain ⟨n₁, hstep, hrun⟩ := Option.bind_eq_some_iff.1 hrun
    have hcontinues := h.continues_of_step htimely.1 hstep
    have hid₁ : id < n₁.broker.sessions.length := hid.trans_le hcontinues.sessions_le
    rw [history, hstep]
    dsimp only
    rw [if_pos hid₁]
    exact .cons (hcontinues.goesOn id hid)
      (ih (h.of_step htimely.1 hstep) (htimely.2 n₁ hstep) hrun hid₁)

/-- One that is not there starts as a fresh one. -/
theorem exists_lives_of_run {moves : List Move} (h : n.Standing) (htimely : AllTimely moves n)
    (hrun : run moves n = some n') (hid : n.broker.sessions.length ≤ id)
    (hid' : id < n'.broker.sessions.length) :
    ∃ clientId, Lives (Tenancy.fresh clientId n.broker.limits.outboxCapacity)
      (history id moves n) (n'.tenancy id) := by
  induction moves generalizing n with
  | nil =>
    cases hrun
    exact absurd hid' (Nat.not_lt.2 hid)
  | cons move moves ih =>
    obtain ⟨n₁, hstep, hrun⟩ := Option.bind_eq_some_iff.1 hrun
    have hcontinues := h.continues_of_step htimely.1 hstep
    have h₁ := h.of_step htimely.1 hstep
    have htimely₁ := htimely.2 n₁ hstep
    rw [history, hstep]
    dsimp only
    split
    · next hnew =>
      obtain ⟨clientId, hdoes⟩ := hcontinues.starts id hid hnew
      exact ⟨clientId, .cons hdoes (h₁.lives_of_run htimely₁ hrun hnew)⟩
    · next hnot =>
      rw [← hcontinues.limits]
      exact ih h₁ htimely₁ hrun (Nat.not_lt.1 hnot)

end Standing

section

variable {limits : Limits} {credentials : Option Authenticator} {uuids : Nat → BitVec 128}
  {moves : List Move}

/-- Every session of a running broker lives as a tenancy, with the deeds of its history. -/
theorem lives_of_timely (hrun : run moves (start limits credentials uuids) = some n)
    (htimely : AllTimely moves (start limits credentials uuids))
    (hid : id < n.broker.sessions.length) :
    ∃ clientId, Lives (Tenancy.fresh clientId limits.outboxCapacity)
      (history id moves (start limits credentials uuids)) (n.tenancy id) :=
  (start_standing limits credentials uuids).exists_lives_of_run htimely hrun (Nat.zero_le id) hid

/-- Whatever record is kept of a tenancy: a run that keeps it comes to where the session is, and has
the same deeds in it, in the same order. -/
theorem recorded_of_timely {α : Type} (note : Tenancy → Tenancy.Move → Tenancy → α → α) (a : α)
    (hrun : run moves (start limits credentials uuids) = some n)
    (htimely : AllTimely moves (start limits credentials uuids))
    (hid : id < n.broker.sessions.length) :
    ∃ clientId script a', script.filter Tenancy.Move.isDeed =
        (history id moves (start limits credentials uuids)).flatMap Prod.fst ∧
      Tenancy.run note script (Tenancy.fresh clientId limits.outboxCapacity, a) =
        some (n.tenancy id, a') := by
  obtain ⟨clientId, hlives⟩ := lives_of_timely hrun htimely hid
  obtain ⟨script, hdeeds, hscript⟩ := hlives.does
  obtain ⟨a', hrecord⟩ := Tenancy.run_of_run note hscript a
  exact ⟨clientId, script, a', hdeeds, hrecord⟩

theorem tenanted_of_timely (hrun : run moves (start limits credentials uuids) = some n)
    (htimely : AllTimely moves (start limits credentials uuids)) : n.Tenanted := by
  intro id hid
  obtain ⟨clientId, hlives⟩ := lives_of_timely hrun htimely hid
  rw [(start_standing limits credentials uuids).limits_of_run htimely hrun]
  exact ⟨clientId, hlives.does.reaches⟩

theorem regular_of_timely (hrun : run moves (start limits credentials uuids) = some n)
    (htimely : AllTimely moves (start limits credentials uuids))
    (hid : id < n.broker.sessions.length) : (n.tenancy id).Regular := by
  obtain ⟨clientId, moves, hmoves⟩ := tenanted_of_timely hrun htimely id hid
  exact Tenancy.regular_of_run hmoves

theorem isBounded_of_timely (hrun : run moves (start limits credentials uuids) = some n)
    (htimely : AllTimely moves (start limits credentials uuids))
    (hid : id < n.broker.sessions.length) :
    (n.tenancy id).IsBounded n.broker.limits.outboxCapacity := by
  obtain ⟨clientId, hreaches⟩ := tenanted_of_timely hrun htimely id hid
  exact Tenancy.isBounded_of_reaches hreaches

end

end Network

end MqttBroker
