import MqttBroker.Proofs.Network.Charge
import MqttBroker.Proofs.Network.Wills
/-!
A connection that is left alone with its session ends in order, in whatever way it ends: nobody owns
the session any more, its will is gone, and it is kept or dropped as the client has asked for.
-/

namespace MqttBroker

/-- Is the session kept once the connection ends? Below 5.0 the CONNECT says so. At 5.0 it is a matter
of the session expiry, that of the CONNECT or what a DISCONNECT has made of it. -/
def Connect.keepsSession (connect : Connect) (level : Level) (settled? : Option UInt32) : Bool :=
  if level.isV5 then
    0 < settled?.getD ((Properties.sessionExpiryInterval? connect.properties).getD 0)
  else !connect.cleanSession

namespace Network

variable {limits : Limits} {n n' m p p' : Network} {move : Move} {moves : List Move} {i : Nat}
  {β : Binding} {connect : Connect}

/-- Those that are settled in a run. -/
def settlements (i : Nat) (moves : List Move) (n : Network) : List UInt32 :=
  (handlings moves n).filterMap (settled? i)

/-- No other connection has the session yet, and none comes to be bound for its client id in the
run, though some may wait for it. -/
structure IsLeftAlone (i : Nat) (β : Binding) (moves : List Move) (n : Network) : Prop where
  apart : ∀ j ≠ i, ∀ β' ∈ n.binding? j, β'.session ≠ β.session
  meanwhile : ∀ p move p', Passes moves n p move p' → ∀ j ≠ i, ∀ β' ∈ p'.binding? j,
    p.binding? j = none → β'.link.clientId ≠ β.link.clientId

/-- The `i`-th connection, which was bound by `β` for that CONNECT at `n` and still is at `m`, has
ended at `n'`. -/
structure EndsInOrder (i : Nat) (connect : Connect) (β : Binding) (moves : List Move)
    (n m n' : Network) : Prop where
  ended : n'.HasEnded i
  closes : m.broker.Closes β
    (connect.keepsSession β.link.level (settlements i moves n).getLast?) n'.broker
  /-- Nothing but packets of the client and its writer has touched what the client asked for and
  exchanged. -/
  contents : ∀ p move p', Passes moves n p move p' →
    (∀ now look, move ≠ .write i now look) →
    (∀ x ∈ p.handling? move p', x.connection ≠ i) →
    (p'.broker.session β.session).contents = (p.broker.session β.session).contents

/-! ### Runs -/

theorem HasEnded.of_run (h : n.HasEnded i) (hrun : run moves n = some m) : m.HasEnded i := by
  obtain ⟨c, result, hc, hphase⟩ := h
  obtain ⟨c', hc', hphase'⟩ :=
    exists_of_run (Connection.keeps_ended result) ⟨c, hc, hphase⟩ hrun
  exact ⟨c', result, hc', hphase'⟩

theorem not_hasEnded_of_bound (hrun : run moves n = some m)
    (hbound : (m.binding? i).isSome = true) : ¬ n.HasEnded i := by
  intro hended
  rw [(hended.of_run hrun).binding?_eq_none] at hbound
  cases hbound

theorem settlements_cons (i : Nat) (moves : List Move) (hstep : n.step move = some n') :
    settlements i (move :: moves) n =
      ((n.handling? move n').bind (settled? i)).toList ++ settlements i moves n' := by
  rw [settlements, handlings, hstep]
  dsimp only
  rw [List.filterMap_append]
  cases n.handling? move n' with
  | none => rfl
  | some x =>
    rw [Option.toList_some, List.filterMap_cons, Option.bind_some]
    cases settled? i x <;> rfl

/-- Below 5.0 no DISCONNECT settles anything. -/
theorem HasCharge.settled?_eq_none (h : HasCharge i β n) (hlevel : β.link.level.isV5 = false) :
    (n.handling? move n').bind (settled? i) = none := by
  refine Option.bind_eq_none_iff.2 fun x hx => ?_
  unfold settled?
  split
  · next hi =>
    have hbound := binding?_of_handling hx
    rw [hi, h.bound] at hbound
    exact Broker.settled?_of_not_v5 (Option.some.inj hbound ▸ hlevel) _
  · rfl

/-- The connection keeps charge of its session until it ends. -/
theorem HasCharge.of_run (h : HasCharge i β n) (hsound : n.Sound limits)
    (hmeanwhile : ∀ p move p', Passes moves n p move p' → ∀ j ≠ i, ∀ β' ∈ p'.binding? j,
      p.binding? j = none → β'.link.clientId ≠ β.link.clientId)
    (hrun : run moves n = some m) :
    m.HasEnded i ∨ HasCharge i (β.settle (settlements i moves n).getLast?) m ∧
      (β.link.level.isV5 = false → settlements i moves n = []) := by
  induction moves generalizing n β with
  | nil =>
    cases hrun
    exact .inr ⟨h, fun _ => rfl⟩
  | cons first moves ih =>
    obtain ⟨n₁, hstep, hrun⟩ := Option.bind_eq_some_iff.1 hrun
    rw [settlements_cons i moves hstep]
    cases h.goes hsound (hmeanwhile n first n₁ (.head hstep)) hstep with
    | ends hended => exact .inl (hended.of_run hrun)
    | on hcharge hcontents =>
      refine (ih hcharge (hsound.of_step hstep) (fun p move p' hpasses => ?_) hrun).imp_right ?_
      · rw [Binding.clientId_settle]
        exact hmeanwhile p move p' (.tail hstep hpasses)
      · rintro ⟨hlater, hnone⟩
        rw [Binding.settle_settle] at hlater
        rw [Binding.level_settle] at hnone
        refine ⟨?_, fun hlevel => ?_⟩
        · have hlast : ∀ expiry? : Option UInt32, expiry?.toList.getLast? = expiry? := by
            rintro (_ | _) <;> rfl
          rw [List.getLast?_append, hlast]
          exact hlater
        · rw [h.settled?_eq_none hlevel, hnone hlevel]
          rfl

/-- A connection that is bound and alone with the session has charge of it. -/
theorem Sound.hasCharge_of_bindsWith (h : n.Sound limits) (hbinds : BindsWith i connect n n')
    (hβ : n'.binding? i = some β) (hapart : ∀ j ≠ i, ∀ β' ∈ n'.binding? j, β'.session ≠ β.session) :
    HasCharge i β n' ∧ ∃ limits accepted, β.link = Link.negotiate limits accepted connect := by
  obtain ⟨now, closeFirst, hstep⟩ := hbinds.step
  obtain ⟨c, hc, hconnect⟩ := Option.bind_eq_some_iff.1 hbinds.connect
  obtain ⟨c', hc', hstep⟩ := Option.bind_eq_some_iff.1 hstep
  cases hc.symm.trans hc'
  obtain ⟨turn, hturn, rfl⟩ := Option.map_eq_some_iff.1 hstep
  have hunbound := Connection.binding?_of_connect? hconnect
  have hbound := (binding?_withTurn hc turn).symm.trans hβ
  cases Connection.acts_of_step hturn with
  | outside hbefore hafter => cases hafter.symm.trans hbound
  | @bind b' c' connect' accepted hconnect' hasks hadmitted =>
    cases hconnect.symm.trans hconnect'
    have hnamed : accepted.IsNamed :=
      hadmitted.elim (fun hwaits => h.named c (List.mem_of_getElem? hc) _ hwaits.1) And.left
    obtain ⟨b'', β', bytes, hbind, henters, hattaches⟩ :=
      Broker.attaches_of_bind ((Broker.frames_of_asks hasks).filed h.filed) hnamed c' connect
    rw [hbind] at hbound hβ hapart ⊢
    cases hbound
    refine ⟨⟨hβ, hattaches.owner, ?_, hattaches.lease, hapart⟩, _, _, hattaches.link⟩
    rw [hattaches.link]
    exact hattaches.registered
  | greet hphase | activate hphase | drain hphase | handle hphase | read hphase =>
    rw [Connection.binding?, hphase] at hunbound
    cases hunbound
  | conclude hbefore => cases hunbound.symm.trans hbefore

theorem persistent_settle {accepted : Accepted} {expiry? : Option UInt32}
    (hlink : β.link = Link.negotiate limits accepted connect)
    (hnone : β.link.level.isV5 = false → expiry? = none) :
    (β.settle expiry?).link.persistent = connect.keepsSession β.link.level expiry? := by
  unfold Connect.keepsSession
  cases expiry? with
  | none =>
    rw [Binding.settle, hlink]
    unfold Link.negotiate
    dsimp only
    cases accepted.level.isV5 <;> rfl
  | some expiry =>
    split
    · rfl
    · next hlevel => cases hnone (Bool.eq_false_iff.2 hlevel)

/-- Only a step of a connection itself lets it give its session back. -/
theorem binding?_of_step (hstep : n.step move = some n')
    (hmove : ∀ now closeFirst, move ≠ .step i now closeFirst) : n'.binding? i = n.binding? i := by
  cases move with
  | accept now capacity =>
    cases hstep
    exact n.binding?_accept now capacity i
  | client j inbound outbound =>
    obtain ⟨c, hc, rfl⟩ := Option.map_eq_some_iff.1 hstep
    let turn : Connection.Turn :=
      { broker := n.broker, connection := { c with inbound, outbound } }
    exact binding?_withTurn_of_eq hc (rfl : turn.connection.binding? = c.binding?) i
  | step j now closeFirst =>
    obtain ⟨c, hc, hstep⟩ := Option.bind_eq_some_iff.1 hstep
    obtain ⟨turn, hturn, rfl⟩ := Option.map_eq_some_iff.1 hstep
    refine binding?_withTurn_of_ne ?_ turn
    rintro rfl
    exact hmove now closeFirst rfl
  | write j now look =>
    obtain ⟨c, hc, hstep⟩ := Option.bind_eq_some_iff.1 hstep
    obtain ⟨turn, hturn, rfl⟩ := Option.map_eq_some_iff.1 hstep
    obtain ⟨hsame, -⟩ := Connection.carries_of_writeStep hturn
    exact binding?_withTurn_of_eq hc hsame i
  | publish | shutdown =>
    cases hstep
    rfl

/-- Whatever other connections do, a connection that is bound stays so until it ends. -/
theorem HasCharge.ended_or_bound (h : HasCharge i β n) (hsound : n.Sound limits)
    (hstep : n.step move = some n') :
    n'.HasEnded i ∨ ∃ expiry?, n'.binding? i = some (β.settle expiry?) := by
  by_cases hmove : ∃ now closeFirst, move = .step i now closeFirst
  · obtain ⟨now, closeFirst, rfl⟩ := hmove
    cases h.goes_of_step hsound hstep with
    | on hcharge => exact .inr ⟨_, hcharge.bound⟩
    | ends hended => exact .inl hended
  · have hsame := binding?_of_step hstep fun now closeFirst heq => hmove ⟨now, closeFirst, heq⟩
    exact .inr ⟨none, hsame.trans h.bound⟩

theorem Standing.hasCharge (h : n.Standing) (hβ : n.binding? i = some β) : HasCharge i β n :=
  ⟨hβ, h.owned i β hβ, h.registered i β hβ, h.leased i β hβ, fun _ hij _ hβ' heq =>
    hij (h.apart hβ' hβ heq)⟩

/-- Where connections that waited are let in only without an owner, a connection is left alone with
its session as long as it is there. -/
theorem Standing.isLeftAlone (h : n.Standing) (hsound : n.Sound limits)
    (htimely : AllTimely moves n) (hβ : n.binding? i = some β) (hrun : run moves n = some m)
    (hbound : (m.binding? i).isSome = true) : IsLeftAlone i β moves n := by
  have hcharge := h.hasCharge hβ
  refine ⟨hcharge.apart, ?_⟩
  induction moves generalizing n β with
  | nil =>
    rintro p move p' ⟨before, later, heq, -⟩
    simp at heq
  | cons first moves ih =>
    obtain ⟨n₁, hstep, hrest⟩ := Option.bind_eq_some_iff.1 hrun
    have h₁ := h.of_step htimely.1 hstep
    obtain ⟨expiry?, hβ₁⟩ := (hcharge.ended_or_bound hsound hstep).resolve_left
      (not_hasEnded_of_bound hrest hbound)
    intro p move p' hpasses j hij β' hβ' hnone heq
    obtain ⟨n₁', hstep', hpasses⟩ := hpasses.cases_cons
    cases hstep.symm.trans hstep'
    rw [← β.clientId_settle expiry?] at heq
    rcases hpasses with ⟨rfl, rfl, rfl⟩ | hlater
    · exact hij (h₁.exclusive.alone j i β' hβ' _ hβ₁ heq)
    · exact ih h₁ (hsound.of_step hstep) (htimely.2 _ hstep) hβ₁ hrest (h₁.hasCharge hβ₁) p move p'
        hlater j hij β' hβ' hnone heq

/-- While the connection is there nothing but packets and its writer touches the contents. -/
theorem HasCharge.contents_of_passes (h : HasCharge i β n) (hsound : n.Sound limits)
    (hmeanwhile : ∀ p move p', Passes moves n p move p' → ∀ j ≠ i, ∀ β' ∈ p'.binding? j,
      p.binding? j = none → β'.link.clientId ≠ β.link.clientId)
    (hrun : run moves n = some m) (hbound : (m.binding? i).isSome = true)
    (hpasses : Passes moves n p move p')
    (hwrite : ∀ now look, move ≠ .write i now look)
    (hhandling : ∀ x ∈ p.handling? move p', x.connection ≠ i) :
    (p'.broker.session β.session).contents = (p.broker.session β.session).contents := by
  have hnow := hmeanwhile p move p' hpasses
  obtain ⟨before, later, rfl, hbefore, hstep⟩ := hpasses
  have hlater : run later p' = some m := by
    rwa [run_append, hbefore, Option.bind_some, run, hstep] at hrun
  have hcharge := h.of_run hsound (fun q move q' hq => hmeanwhile q move q' (hq.append _)) hbefore
  rcases hcharge with hended | ⟨hcharge, -⟩
  · have hrest : run (move :: later) p = some m := by
      rw [run, hstep]
      exact hlater
    exact absurd hended (not_hasEnded_of_bound hrest hbound)
  · rw [← Binding.clientId_settle β (settlements i before n).getLast?] at hnow
    cases hcharge.goes (hsound.of_run hbefore) hnow hstep with
    | on _ hcontents =>
      rw [Binding.session_settle] at hcontents
      exact hcontents hwrite hhandling
    | ends hended => exact absurd hended (not_hasEnded_of_bound hlater hbound)

/-- A connection that is left alone with its session ends in order, wherever it is when it ends and
whatever ends it. With an accepted CONNECT it is bound for certain: the CONNACK can be written. -/
theorem endsInOrder_of_bound {credentials : Option Authenticator} {uuids : Nat → BitVec 128}
    {before after : List Move} {n₀ n₁ : Network}
    (hbefore : run before (start limits credentials uuids) = some n₀)
    (hbinds : BindsWith i connect n₀ n₁) (hβ : n₁.binding? i = some β)
    (hafter : run after n₁ = some m) (hbound : (m.binding? i).isSome = true)
    (hlast : m.step move = some n) (hunbound : n.binding? i = none)
    (halone : IsLeftAlone i β after n₁) : EndsInOrder i connect β after n₁ m n := by
  have h₀ := (start_sound limits credentials uuids).of_run hbefore
  obtain ⟨now, closeFirst, hstep⟩ := hbinds.step
  have h₁ := h₀.of_step hstep
  obtain ⟨hcharge, limits', accepted, hlink⟩ :=
    h₀.hasCharge_of_bindsWith hbinds hβ halone.apart
  rcases hcharge.of_run h₁ halone.meanwhile hafter with hended | ⟨hcharge', hnone⟩
  · exact absurd hended (not_hasEnded_of_bound (rfl : run [] m = some m) hbound)
  have hmove : ∃ now closeFirst, move = .step i now closeFirst := by
    by_contra hnot
    have hsame := binding?_of_step hlast fun now closeFirst heq => hnot ⟨now, closeFirst, heq⟩
    rw [← hsame, hunbound] at hbound
    cases hbound
  obtain ⟨now', closeFirst', rfl⟩ := hmove
  cases hcharge'.goes_of_step (h₁.of_run hafter) hlast with
  | on hcharge'' => cases hunbound.symm.trans hcharge''.bound
  | ends hended hcloses =>
    refine ⟨hended, ?_, fun _ _ _ =>
      hcharge.contents_of_passes h₁ halone.meanwhile hafter hbound⟩
    rw [persistent_settle hlink fun hlevel => by rw [hnone hlevel]; rfl] at hcloses
    exact hcloses.of_settle

/-- The CONNECT of a 5.0 client whose session is to be kept for a minute. -/
def lasting : Connect :=
  { Connect.plain .v5 [0x78] with properties := [⟨.sessionExpiryInterval, (60 : UInt32)⟩] }

/-- The client sends the CONNECT, and it is taken in. -/
def arriving : List Move :=
  [.accept 0 64,
    .client 0
      { capacity := 64
        held := [0x10, 0x13, 0, 4, 0x4d, 0x51, 0x54, 0x54, 5, 2, 0, 0, 5, 0x11, 0, 0, 0, 60, 0, 1,
          0x78] }
      { capacity := 64 },
    .step 0 0 false]

theorem bindsWith_lasting :
    ∃ n₀ n₁, run arriving (start {}) = some n₀ ∧ BindsWith 0 lasting n₀ n₁ ∧
      run (arriving ++ [.step 0 0 false]) (start {}) = some n₁ :=
  exists_bindsWith (by decide +kernel)

/-- A second connection of the client is about to take over. The first one is asked to close, but
reads a DISCONNECT before, by which the session is not to be kept any more. -/
def departing : List Move :=
  [.step 0 0 false, .accept 0 64] ++ connecting 1 ++
    sending 0 [0xe0, 7, 0, 5, 0x11, 0, 0, 0, 0] ++ List.replicate 7 (.write 0 0 .closeFirst)

theorem endsInOrder_of_bound_departing :
    ∃ n₀ n₁ m n β, run arriving (start {}) = some n₀ ∧ BindsWith 0 lasting n₀ n₁ ∧
      n₁.binding? 0 = some β ∧ run departing n₁ = some m ∧ (m.binding? 0).isSome = true ∧
      m.step (.step 0 0 false) = some n ∧ n.binding? 0 = none ∧ IsLeftAlone 0 β departing n₁ ∧
      settlements 0 departing n₁ = [0] ∧ EndsInOrder 0 lasting β departing n₁ m n := by
  obtain ⟨n₀, n₁, hn₀, hbinds, hn₁⟩ := bindsWith_lasting
  have hend : (run (arriving ++ [.step 0 0 false]) (start {})).map (fun n₁ =>
      (decide (AllTimely departing n₁), settlements 0 departing n₁,
        (run departing n₁).map fun m => ((m.binding? 0).isSome,
          (m.step (.step 0 0 false)).map fun n => (n.binding? 0).isNone))) =
      some (true, [0], some (true, some true)) := by
    decide +kernel
  rw [hn₁, Option.map_some, Option.some_inj, Prod.mk.injEq, Prod.mk.injEq] at hend
  obtain ⟨htimely, hsettlements, hfacts⟩ := hend
  obtain ⟨m, hm, hfacts⟩ := Option.map_eq_some_iff.1 hfacts
  obtain ⟨hstill, hfacts⟩ := Prod.mk.inj hfacts
  obtain ⟨n, hlast, hgone⟩ := Option.map_eq_some_iff.1 hfacts
  have hunbound := Option.isNone_iff_eq_none.1 hgone
  obtain ⟨β, hβ⟩ := Option.isSome_iff_exists.1 hbinds.bound
  have hstanding : n₁.Standing := (start_standing {} none _).of_run (by decide +kernel) hn₁
  have halone := hstanding.isLeftAlone ((start_sound {} none _).of_run hn₁)
    (of_decide_eq_true htimely) hβ hm hstill
  exact ⟨n₀, n₁, m, n, β, hn₀, hbinds, hβ, hm, hstill, hlast, hunbound, halone, hsettlements,
    endsInOrder_of_bound hn₀ hbinds hβ hm hstill hlast hunbound halone⟩

end Network

end MqttBroker
