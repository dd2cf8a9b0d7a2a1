import MqttBroker.Proofs.Broker.Upholding
import MqttBroker.Proofs.Network.Charge
import MqttBroker.Proofs.Network.Outcome
/-!
Why a connection is asked to close, and what it ends with. The first reason stays on record,
whatever other connections do. A connection that is taken over or shut down ends well, unless it
overlooks that it has been asked to close and meets a fault of its own.
-/

namespace MqttBroker

open Broker (Upholds)

namespace Connection

variable {now : Nat} {closeFirst : Bool} {look : Writer.Look} {b b' : Broker} {c c' : Connection}
  {turn : Turn} {β : Binding} {deadline : Option Nat} {w : Writer} {p : Packet} {l : LeaseId}
  {result : Result} {error : SessionError} {reason : CloseReason}

/-! ### What is recorded -/

theorem upholds_drain (b : Broker) (c : Connection) (β : Binding) (w : Writer) (result : Result) :
    Upholds (fun reason => ¬reason.IsOrderly) b (c.drain b β w result).broker :=
  .of_recordError b β result

theorem upholds_handle (now : Nat) (b : Broker) (c : Connection) (β : Binding) (w : Writer)
    (p : Packet) :
    Upholds (fun reason => ¬reason.IsOrderly) b (c.handle now b β w p).broker := by
  have hhandled : Upholds (fun reason => ¬reason.IsOrderly) b (b.handle β p).broker :=
    Handled.upholds_onPacket { broker := b, binding := β } p
  unfold handle
  dsimp only
  split
  · exact hhandled
  · exact hhandled
  · exact hhandled.trans (upholds_drain ..)

/-- A connection that serves its client asks nobody to close because it is wanted no more. -/
theorem Serves.upholds (h : c.Serves now closeFirst b β w turn) :
    Upholds (fun reason => ¬reason.IsOrderly) b turn.broker := by
  cases h with
  | asked | read => exact .refl b
  | handle => exact upholds_handle ..
  | unreadable | expired => exact upholds_drain ..
  | finished => exact .of_closeLease b _ (by simp [CloseReason.IsOrderly])

theorem upholds_of_step (h : c.step now closeFirst b = some turn) :
    Upholds (fun _ => True) b turn.broker := by
  cases acts_of_step h with
  | outside _ _ _ hasks => exact .of_asks hasks
  | bind _ hasks => exact (Upholds.of_asks hasks).trans (.of_bind ..)
  | greet | read => exact .refl b
  | activate => exact .of_outbox b _ rfl
  | handle => exact (upholds_handle ..).mono fun _ _ => trivial
  | drain _ _ hasks =>
    exact (Upholds.of_asks hasks).trans ((upholds_drain ..).mono fun _ _ => trivial)
  | conclude => exact (Upholds.of_conclude b ..).mono fun _ _ => trivial

theorem upholds_of_writeStep (h : c.writeStep now look b = some turn) :
    Upholds (fun _ => True) b turn.broker := by
  obtain ⟨β, w, turn', -, hacts, -, hasks⟩ := writes_of_writeStep h
  have hput : Upholds (fun _ => True) b (b.putSession β.session turn'.session) :=
    .of_session b β.session fun frame hmem => .inl ((Writer.traffic_of_acts hacts).controls hmem)
  exact hput.trans (.of_asks hasks)

/-! ### After the CONNACK -/

/-- The connection is past its CONNACK, and the lease is its own: it serves its client, lets its
writer finish, or has ended. -/
inductive IsPast (l : LeaseId) (c : Connection) : Prop where
  | serving {β : Binding} {deadline : Option Nat} {w : Writer}
    (hphase : c.phase = .serving β deadline w) (hlease : β.lease = l) : IsPast l c
  | draining {β : Binding} {result : Result} {w : Writer}
    (hphase : c.phase = .draining β result w) (hlease : β.lease = l) : IsPast l c
  | ended {result : Result} (hphase : c.phase = .ended result) : IsPast l c

theorem IsPast.congr (h : c.IsPast l) (hphase : c'.phase = c.phase) : c'.IsPast l := by
  cases h with
  | serving h hlease => exact .serving (hphase.trans h) hlease
  | draining h hlease => exact .draining (hphase.trans h) hlease
  | ended h => exact .ended (hphase.trans h)

theorem lease_handle (b : Broker) (β : Binding) (p : Packet) :
    (b.handle β p).binding.lease = β.lease := by
  rw [b.binding_handle]
  cases b.settled? β p <;> rfl

theorem isPast_handle (now : Nat) (b : Broker) (c : Connection) (β : Binding) (w : Writer)
    (p : Packet) : (c.handle now b β w p).connection.IsPast β.lease := by
  have hlease := lease_handle b β p
  unfold handle
  dsimp only
  split
  · exact .serving rfl hlease
  · exact .draining rfl hlease
  · exact .draining rfl hlease

theorem Serves.isPast (h : c.Serves now closeFirst b β w turn)
    (hphase : c.phase = .serving β deadline w) : turn.connection.IsPast β.lease := by
  cases h with
  | asked | unreadable | finished | expired => exact .draining rfl rfl
  | read hmore => exact .serving ((receive_more hmore).trans hphase) rfl
  | handle => exact isPast_handle ..

theorem isPast_of_step (hpast : c.IsPast l) (h : c.step now closeFirst b = some turn) :
    turn.connection.IsPast l := by
  cases hpast with
  | serving hphase hlease =>
    rw [step, hphase] at h
    exact hlease ▸ (serves_of_serve h).isPast hphase
  | draining hphase =>
    rw [step, hphase] at h
    obtain ⟨-, h⟩ := Option.ite_none_right_eq_some.1 h
    cases h
    exact .ended rfl
  | ended hphase =>
    rw [step, hphase] at h
    cases h

theorem isPast_setWriter (hpast : c.IsPast l) (w : Writer) : (c.setWriter w).IsPast l := by
  cases hpast with
  | serving hphase hlease =>
    rw [setWriter, hphase]
    exact .serving rfl hlease
  | draining hphase hlease =>
    rw [setWriter, hphase]
    exact .draining rfl hlease
  | ended hphase =>
    rw [setWriter, hphase]
    exact .ended hphase

theorem isPast_of_writeStep (hpast : c.IsPast l) (h : c.writeStep now look b = some turn) :
    turn.connection.IsPast l := by
  obtain ⟨outbound, w, heq⟩ := connection_of_writeStep h
  rw [heq]
  apply isPast_setWriter
  exact hpast.congr rfl

/-! ### What it ends with -/

theorem result?_of_serving (hphase : c.phase = .serving β deadline w) : c.result? = none := by
  rw [result?, hphase]

/-- Who stops reading has been asked to close, by itself if by nobody else. -/
theorem Serves.isSome_reason (h : c.Serves now closeFirst b β w turn)
    (hphase : c.phase = .serving β deadline w) (hleased : β.lease < b.leases.length)
    (hresult : turn.connection.result? ≠ none) :
    (turn.broker.lease β.lease).reason.isSome = true := by
  cases h with
  | asked hasked => exact hasked
  | unreadable | expired => exact Broker.isSome_reason_closeLease hleased _
  | finished => exact Broker.isSome_reason_closeLease hleased _
  | read hmore => exact absurd (result?_of_serving ((receive_more hmore).trans hphase)) hresult
  | @handle c' p =>
    have hlease := lease_handle b β p
    -- A handler makes no lease and drops none, so the lease is there to take the reason.
    have hfixtures : (b.handle β p).broker.leases.length = b.leases.length :=
      congrArg Prod.snd (Handled.settles_onPacket { broker := b, binding := β } p).fixtures
    unfold Connection.handle at hresult ⊢
    dsimp only at hresult ⊢
    split at hresult
    · exact absurd rfl hresult
    · next hdone =>
      let h : Handled := { broker := b, binding := β }
      exact h.isSome_reason_of_done hleased nofun hdone
    · rw [← hlease] at hleased ⊢
      exact Broker.isSome_reason_closeLease (hfixtures ▸ hleased) _

/-- Where an error meets a connection that is wanted no more, the connection has overlooked that it
has been asked to close. -/
theorem Serves.overlooks (h : c.Serves now closeFirst b β w turn)
    (hphase : c.phase = .serving β deadline w)
    (hresult : turn.connection.result? = some (.error error))
    (hreason : (turn.broker.lease β.lease).reason = some reason) (horderly : reason.IsOrderly) :
    closeFirst = false ∧ (b.lease β.lease).reason = some reason := by
  -- Nothing such a step records is orderly, so the reason was there before.
  have hbefore : (b.lease β.lease).reason = some reason :=
    (h.upholds.recorded β.lease reason hreason).resolve_right fun hnot => hnot horderly
  have hasked : (b.lease β.lease).reason.isSome = true := by rw [hbefore, Option.isSome_some]
  cases h with
  | asked | finished => cases hresult
  | read hmore =>
    cases (result?_of_serving ((receive_more hmore).trans hphase)).symm.trans hresult
  | handle _ hlooks | unreadable _ hlooks | expired hlooks => exact ⟨hlooks hasked, hbefore⟩

/-- A connection that was wanted no more ends with what it stopped reading with. -/
theorem result_conclude (hkept : (b.lease β.lease).reason = some reason)
    (horderly : reason.IsOrderly) (c : Connection) (result : Result) :
    (c.conclude b β result).connection.result? = some result := by
  cases result with
  | error => rfl
  | ok =>
    show some (resultOf ((b.lease β.lease).reason.getD _)) = _
    rw [hkept]
    rcases horderly with rfl | rfl <;> rfl

/-- A connection holds a lease that the broker has made. -/
theorem leased_of_step (hfiled : b.Filed) (hnamed : ∀ accepted ∈ c.waiting?, accepted.IsNamed)
    (hleased : ∀ β ∈ c.binding?, β.lease < b.leases.length)
    (h : c.step now closeFirst b = some turn) :
    ∀ β ∈ turn.connection.binding?, β.lease < turn.broker.leases.length := by
  have hlasts := (lasts_of_step h).leases
  have hkept : ∀ {β β' : Binding}, c.binding? = some β → β'.lease = β.lease →
      β'.lease < turn.broker.leases.length := by
    intro β β' hβ hlease
    rw [hlease]
    exact Nat.lt_of_lt_of_le (hleased β hβ) hlasts
  intro β' hβ'
  cases acts_of_step h with
  | outside _ hafter => cases hafter.symm.trans hβ'
  | @bind b' c' connect accepted hconnect hasks hadmitted =>
    have haccepted : accepted.IsNamed := hadmitted.elim (fun h => hnamed _ h.1) And.left
    obtain ⟨b'', β, bytes, hbind, -, hattaches⟩ :=
      Broker.attaches_of_bind ((Broker.frames_of_asks hasks).filed hfiled) haccepted c' connect
    rw [hbind] at hβ' ⊢
    cases hβ'
    exact hattaches.lease
  | greet hphase | activate hphase | drain hphase =>
    cases hβ'
    exact hkept (by rw [binding?, hphase]) rfl
  | read _ _ hsame => exact hkept ((binding?_congr hsame).symm.trans hβ') rfl
  | @handle c' β deadline w p hphase =>
    have hpast := isPast_handle now b c' β w p
    cases hpast with
    | serving hphase' hlease | draining hphase' hlease =>
      rw [binding?, hphase'] at hβ'
      cases hβ'
      exact hkept (by rw [binding?, hphase]) hlease
    | ended hphase' =>
      rw [binding?, hphase'] at hβ'
      cases hβ'
  | conclude => cases hβ'

end Connection

namespace Network

variable {limits : Limits} {n n' : Network} {move : Move} {moves : List Move} {i : Nat}
  {c : Connection} {l : LeaseId} {error : SessionError} {reason : CloseReason}

/-- What the `i`-th connection ends with, as far as it can tell by itself. -/
def result? (n : Network) (i : Nat) : Option Connection.Result :=
  (n.connections[i]?).bind (·.result?)

theorem result?_eq (hc : n.connections[i]? = some c) : n.result? i = c.result? := by
  rw [result?, hc, Option.bind_some]

/-- Whatever happens, what is recorded of connections stays. -/
theorem upholds_of_step (hstep : n.step move = some n') :
    Upholds (fun _ => True) n.broker n'.broker := by
  cases move with
  | accept now capacity =>
    cases hstep
    exact .refl _
  | client i inbound outbound =>
    obtain ⟨c, -, rfl⟩ := Option.map_eq_some_iff.1 hstep
    exact .refl _
  | step i now closeFirst =>
    obtain ⟨c, -, hstep⟩ := Option.bind_eq_some_iff.1 hstep
    obtain ⟨turn, hturn, rfl⟩ := Option.map_eq_some_iff.1 hstep
    exact Connection.upholds_of_step hturn
  | write i now look =>
    obtain ⟨c, -, hstep⟩ := Option.bind_eq_some_iff.1 hstep
    obtain ⟨turn, hturn, rfl⟩ := Option.map_eq_some_iff.1 hstep
    exact Connection.upholds_of_writeStep hturn
  | publish m =>
    cases hstep
    exact .of_dispatch _ m trivial
  | shutdown =>
    cases hstep
    exact .of_shutdown _ trivial

theorem upholds_of_run (hrun : run moves n = some n') :
    Upholds (fun _ => True) n.broker n'.broker :=
  kept_of_run (P := fun m => Upholds (fun _ => True) n.broker m.broker)
    (fun h hstep => h.trans (upholds_of_step hstep)) hrun (.refl _)

/-! ### One connection among others -/

/-- What a move can do to the `i`-th connection: nothing but to the other ends of its streams, or a
step of it or of its writer. -/
inductive Meets (n : Network) (i : Nat) (c : Connection) : Move → Network → Prop where
  | aside {move : Move} {n' : Network} {c' : Connection} (hc : n'.connections[i]? = some c')
    (hphase : c'.phase = c.phase) (haside : ∀ now look, move ≠ .write i now look) :
    Meets n i c move n'
  | step {now : Nat} {closeFirst : Bool} {turn : Connection.Turn}
    (hturn : c.step now closeFirst n.broker = some turn) :
    Meets n i c (.step i now closeFirst) (n.withTurn i turn)
  | write {now : Nat} {look : Writer.Look} {turn : Connection.Turn}
    (hturn : c.writeStep now look n.broker = some turn) :
    Meets n i c (.write i now look) (n.withTurn i turn)

theorem connection_withTurn (hc : n.connections[i]? = some c) (turn : Connection.Turn) :
    (n.withTurn i turn).connections[i]? = some turn.connection :=
  List.getElem?_set_self (List.getElem?_eq_some_iff.1 hc).1

theorem meets_of_step (hc : n.connections[i]? = some c) (hstep : n.step move = some n') :
    n.Meets i c move n' := by
  have hi := (List.getElem?_eq_some_iff.1 hc).1
  cases move with
  | accept now capacity =>
    cases hstep
    exact .aside ((List.getElem?_append_left hi).trans hc) rfl nofun
  | client j inbound outbound =>
    obtain ⟨c', hc', rfl⟩ := Option.map_eq_some_iff.1 hstep
    by_cases hij : j = i
    · subst hij
      cases hc.symm.trans hc'
      exact .aside (List.getElem?_set_self hi) rfl nofun
    · exact .aside ((List.getElem?_set_ne hij).trans hc) rfl nofun
  | step j now closeFirst =>
    obtain ⟨c', hc', hstep⟩ := Option.bind_eq_some_iff.1 hstep
    obtain ⟨turn, hturn, rfl⟩ := Option.map_eq_some_iff.1 hstep
    by_cases hij : j = i
    · subst hij
      cases hc.symm.trans hc'
      exact .step hturn
    · exact .aside ((List.getElem?_set_ne hij).trans hc) rfl nofun
  | write j now look =>
    obtain ⟨c', hc', hstep⟩ := Option.bind_eq_some_iff.1 hstep
    obtain ⟨turn, hturn, rfl⟩ := Option.map_eq_some_iff.1 hstep
    by_cases hij : j = i
    · subst hij
      cases hc.symm.trans hc'
      exact .write hturn
    · refine .aside ((List.getElem?_set_ne hij).trans hc) rfl ?_
      rintro _ _ ⟨⟩
      exact hij rfl
  | publish | shutdown =>
    cases hstep
    exact .aside hc rfl nofun

/-- The `i`-th connection is past its CONNACK with that lease, and once it reads no more there is a
reason on record. -/
structure InService (i : Nat) (l : LeaseId) (n : Network) : Prop where
  past : ∃ c, n.connections[i]? = some c ∧ c.IsPast l
  leased : l < n.broker.leases.length
  asked : n.result? i ≠ none → (n.broker.lease l).reason.isSome = true

namespace InService

theorem of_kept (h : n.InService i l) (hstep : n.step move = some n') {c' : Connection}
    (hc' : n'.connections[i]? = some c') (hpast : c'.IsPast l)
    (hasked : c'.result? ≠ none → n.result? i ≠ none ∨
      (n'.broker.lease l).reason.isSome = true) : n'.InService i l := by
  refine ⟨⟨c', hc', hpast⟩, Nat.lt_of_lt_of_le h.leased (lasts_of_step hstep).leases, ?_⟩
  rw [result?_eq hc']
  intro hresult
  rcases hasked hresult with hbefore | hafter
  · obtain ⟨reason, hreason⟩ := Option.isSome_iff_exists.1 (h.asked hbefore)
    rw [(upholds_of_step hstep).kept l reason hreason, Option.isSome_some]
  · exact hafter

theorem of_step (h : n.InService i l) (hstep : n.step move = some n') : n'.InService i l := by
  obtain ⟨c, hc, hpast⟩ := h.past
  have hresult := result?_eq hc
  cases meets_of_step hc hstep with
  | aside hc' hphase =>
    refine h.of_kept hstep hc' (hpast.congr hphase) fun hnot => .inl ?_
    rwa [hresult, ← Connection.result?_congr hphase]
  | write hturn =>
    refine h.of_kept hstep (connection_withTurn hc _) (Connection.isPast_of_writeStep hpast hturn)
      fun hnot => .inl ?_
    rwa [hresult, ← (Connection.result?_of_writeStep hturn).1]
  | step hturn =>
    refine h.of_kept hstep (connection_withTurn hc _) (Connection.isPast_of_step hpast hturn)
      fun hnot => ?_
    cases hpast with
    | serving hphase hlease =>
      subst hlease
      rw [Connection.step, hphase] at hturn
      exact .inr ((Connection.serves_of_serve hturn).isSome_reason hphase h.leased hnot)
    | draining hphase | ended hphase =>
      left
      rw [hresult, Connection.result?, hphase]
      exact Option.some_ne_none _

/-- Who had stopped reading had its reason then. -/
theorem reason_before (h : n.InService i l) (hstep : n.step move = some n')
    (hreason : (n'.broker.lease l).reason = some reason) (hstopped : n.result? i ≠ none) :
    (n.broker.lease l).reason = some reason := by
  obtain ⟨first, hfirst⟩ := Option.isSome_iff_exists.1 (h.asked hstopped)
  cases hreason.symm.trans ((upholds_of_step hstep).kept l first hfirst)
  exact hfirst

/-- Where a connection that is wanted no more has met an error, it had met it before, or it has just
overlooked that it had been asked to close. -/
theorem overlooks_of_step (h : n.InService i l) (hstep : n.step move = some n')
    (hresult : n'.result? i = some (.error error))
    (hreason : (n'.broker.lease l).reason = some reason) (horderly : reason.IsOrderly) :
    (n.broker.lease l).reason = some reason ∧ (n.result? i = some (.error error) ∨
      n.result? i = none ∧ ∃ now, move = .step i now false) := by
  obtain ⟨c, hc, hpast⟩ := h.past
  have hbefore := result?_eq hc
  have hfirst := h.reason_before hstep hreason
  have hkept : n.result? i = some (.error error) → (n.broker.lease l).reason = some reason ∧
      (n.result? i = some (.error error) ∨
        n.result? i = none ∧ ∃ now, move = .step i now false) := by
    intro hsame
    exact ⟨hfirst (by rw [hsame]; exact Option.some_ne_none _), .inl hsame⟩
  cases meets_of_step hc hstep with
  | aside hc' hphase =>
    rw [result?_eq hc', Connection.result?_congr hphase, ← hbefore] at hresult
    exact hkept hresult
  | write hturn =>
    rw [result?_eq (connection_withTurn hc _), (Connection.result?_of_writeStep hturn).1,
      ← hbefore] at hresult
    exact hkept hresult
  | @step now closeFirst turn hturn =>
    rw [result?_eq (connection_withTurn hc _)] at hresult
    cases hpast with
    | serving hphase hlease =>
      subst hlease
      rw [Connection.step, hphase] at hturn
      obtain ⟨rfl, hasked⟩ :=
        (Connection.serves_of_serve hturn).overlooks hphase hresult hreason horderly
      exact ⟨hasked, .inr ⟨hbefore.trans (Connection.result?_of_serving hphase), now, rfl⟩⟩
    | @draining β result w hphase hlease =>
      subst hlease
      have hsame : n.result? i = some result := by rw [hbefore, Connection.result?, hphase]
      have hasked := hfirst (by rw [hsame]; exact Option.some_ne_none _)
      rw [Connection.step, hphase] at hturn
      obtain ⟨-, hturn⟩ := Option.ite_none_right_eq_some.1 hturn
      cases hturn
      rw [Connection.result_conclude hasked horderly, ← hsame] at hresult
      exact hkept hresult
    | ended hphase =>
      rw [Connection.step, hphase] at hturn
      cases hturn

theorem of_run (h : n.InService i l) (hrun : run moves n = some n') : n'.InService i l :=
  kept_of_run of_step hrun h

theorem overlooks_of_run (h : n.InService i l) (hrun : run moves n = some n')
    (hresult : n'.result? i = some (.error error))
    (hreason : (n'.broker.lease l).reason = some reason) (horderly : reason.IsOrderly) :
    (n.broker.lease l).reason = some reason ∧ n.result? i = some (.error error) ∨
      ∃ m now m', Passes moves n m (.step i now false) m' ∧
        (m.broker.lease l).reason = some reason ∧ m.result? i = none ∧
          m'.result? i = some (.error error) := by
  -- Back from the end: either the error was there at the start, or some move brought it.
  induction moves generalizing n with
  | nil =>
    cases hrun
    exact .inl ⟨hreason, hresult⟩
  | cons move moves ih =>
    obtain ⟨n₁, hstep, hrun⟩ := Option.bind_eq_some_iff.1 hrun
    rcases ih (h.of_step hstep) hrun with ⟨hreason₁, hresult₁⟩ | ⟨m, now, m', hpasses, hm⟩
    · obtain ⟨hasked, hbefore | ⟨hnone, now, rfl⟩⟩ :=
        h.overlooks_of_step hstep hresult₁ hreason₁ horderly
      · exact .inl ⟨hasked, hbefore⟩
      · exact .inr ⟨n, now, n₁, .head hstep, hasked, hnone, hresult₁⟩
    · exact .inr ⟨m, now, m', hpasses.tail hstep, hm⟩

end InService

/-- Every connection that is bound holds a lease that the broker has made. -/
def IsLeased (n : Network) : Prop := ∀ i, ∀ β ∈ n.binding? i, β.lease < n.broker.leases.length

theorem isLeased_of_step (hsound : n.Sound limits) (h : n.IsLeased)
    (hstep : n.step move = some n') : n'.IsLeased := by
  have hlasts := (lasts_of_step hstep).leases
  have hkept : ∀ j, ∀ β ∈ n.binding? j, β.lease < n'.broker.leases.length :=
    fun j β hβ => Nat.lt_of_lt_of_le (h j β hβ) hlasts
  intro j β hβ
  cases move with
  | accept now capacity =>
    cases hstep
    rw [binding?_accept] at hβ
    exact hkept j β hβ
  | client i inbound outbound =>
    obtain ⟨c, hc, rfl⟩ := Option.map_eq_some_iff.1 hstep
    let turn : Connection.Turn :=
      { broker := n.broker, connection := { c with inbound, outbound } }
    have hsame : (n.withTurn i turn).binding? j = n.binding? j := binding?_withTurn_of_eq hc rfl j
    exact hkept j β (hsame.symm.trans hβ)
  | step i now closeFirst =>
    obtain ⟨c, hc, hstep⟩ := Option.bind_eq_some_iff.1 hstep
    obtain ⟨turn, hturn, rfl⟩ := Option.map_eq_some_iff.1 hstep
    rcases binding?_withTurn_cases hc hβ with ⟨-, hβ⟩ | ⟨-, hβ⟩
    · exact Connection.leased_of_step hsound.filed (hsound.named c (List.mem_of_getElem? hc))
        (fun β hβ => h i β ((binding?_eq_some hc).trans hβ)) hturn β hβ
    · exact hkept j β hβ
  | write i now look =>
    obtain ⟨c, hc, hstep⟩ := Option.bind_eq_some_iff.1 hstep
    obtain ⟨turn, hturn, rfl⟩ := Option.map_eq_some_iff.1 hstep
    rw [binding?_withTurn_of_eq hc (Connection.carries_of_writeStep hturn).1] at hβ
    exact hkept j β hβ
  | publish | shutdown =>
    cases hstep
    exact hkept j β hβ

theorem isLeased_of_run (hsound : n.Sound limits) (h : n.IsLeased)
    (hrun : run moves n = some n') : n'.IsLeased :=
  (kept_of_run (P := fun m => m.Sound limits ∧ m.IsLeased)
    (fun h hstep => ⟨h.1.of_step hstep, isLeased_of_step h.1 h.2 hstep⟩) hrun ⟨hsound, h⟩).2

end Network

end MqttBroker
