import MqttBroker.Proofs.Network.Effects
/-!
The will of a connection. It comes with the CONNECT, stays with the session while the connection is
bound, and is published when the connection ends, if no DISCONNECT has taken it back.
-/

namespace MqttBroker

open Broker (Dispatches)

namespace Handling

/-- Did the packet take the will back? -/
def isGoodbye (x : Handling) : Bool := x.packet.isGoodbye x.binding.link.level.isV5

/-- Did it do so without an error? -/
def isAcceptedGoodbye (x : Handling) : Bool :=
  x.isGoodbye && (x.before.handle x.binding x.packet).verdict == .done

end Handling

namespace Network

variable {limits : Limits} {n n' : Network} {move : Move} {moves : List Move} {i : Nat}
  {β : Binding} {connect : Connect}

/-- What the `i`-th connection publishes if it gives its session back between `n` and `n'`. -/
def parting (n : Network) (i : Nat) (n' : Network) : List Message :=
  match n.binding? i, n'.binding? i with
  | some β, none => (n.broker.session β.session).will.toList
  | _, _ => []

/-- What it publishes so in a run. -/
def partings (i : Nat) : List Move → Network → List Message
  | [], _ => []
  | move :: moves, n => match n.step move with
    | some n' => n.parting i n' ++ partings i moves n'
    | none => []

/-- What is dispatched on behalf of the `i`-th connection between `n` and `n'`. -/
def words (n : Network) (i : Nat) (move : Move) (n' : Network) : List Message :=
  ((n.handling? move n').map Handling.dispatched).getD [] ++ n.parting i n'

/-- The connection whose task or writer makes the move. -/
def Move.turn? : Move → Option Nat
  | .step i _ _ | .write i _ _ => some i
  | .accept .. | .client .. | .publish _ | .shutdown => none

/-- The `i`-th connection shares its session with no other. -/
def IsAlone (i : Nat) (n : Network) : Prop :=
  ∀ β ∈ n.binding? i, ∀ j ≠ i, ∀ β' ∈ n.binding? j, β'.session ≠ β.session

/-- The same all along a run. -/
def StaysAlone (i : Nat) : List Move → Network → Prop
  | [], n => n.IsAlone i
  | move :: moves, n => n.IsAlone i ∧ ∀ n' ∈ n.step move, StaysAlone i moves n'

/-- A step of the `i`-th connection binds it to a session, for that CONNECT. -/
structure BindsWith (i : Nat) (connect : Connect) (n n' : Network) : Prop where
  connect : (n.connections[i]?).bind (·.connect?) = some connect
  step : ∃ now closeFirst, n.step (.step i now closeFirst) = some n'
  bound : (n'.binding? i).isSome = true

/-- From when the `i`-th connection is bound until the network has come to be `n'`, its will is
published once, as the connection ends, unless a packet of those that `isGoodbye` picks out was
handled for it. What a turn of it does to the sessions of others is to dispatch what its packet
brings, or the will as it ends, and nothing else. -/
structure SpeaksLast (isGoodbye : Handling → Bool) (i : Nat) (connect : Connect)
    (moves : List Move) (n n' : Network) : Prop where
  partings : partings i moves n =
    if (n'.binding? i).isSome ||
        (handlings moves n).any fun x => x.connection == i && isGoodbye x then []
    else (connect.will.map Message.ofWill).toList
  words : ∀ m move m', Passes moves n m move m' → move.turn? = some i → ∀ β ∈ m.binding? i,
    Dispatches β.session (m.words i move m') m.broker m'.broker

/-! ### One move -/

theorem parting_of_bound (hβ : n'.binding? i = some β) : n.parting i n' = [] := by
  rw [parting, hβ]
  split
  · next h => cases h
  · rfl

theorem parting_of_unbound (hβ : n.binding? i = none) : n.parting i n' = [] := by
  rw [parting, hβ]

namespace Sound

/-- A step of a connection dispatches what the packet brings that it handles, or its will. -/
theorem words_of_step (h : n.Sound limits) {now : Nat} {closeFirst : Bool}
    (hstep : n.step (.step i now closeFirst) = some n') (hβ : n.binding? i = some β) :
    Dispatches β.session (n.words i (.step i now closeFirst) n') n.broker n'.broker := by
  obtain ⟨c, hc, hstep⟩ := Option.bind_eq_some_iff.1 hstep
  obtain ⟨turn, hturn, rfl⟩ := Option.map_eq_some_iff.1 hstep
  have hn := binding?_eq_some hc
  have hn' := binding?_withTurn hc turn
  have heffect := effect_of_step h hc hturn
  rw [words, handling?_step hc]
  generalize c.handles? closeFirst n.broker = handled? at heffect ⊢
  cases heffect with
  | stays hbinding hcarries hframes =>
    rw [parting_of_bound (hn'.trans (hbinding.trans (hn.symm.trans hβ)))]
    exact (hcarries β (hn.symm.trans hβ)).dispatches h.filed
  | enters hconnect hafter henters =>
    cases (Connection.binding?_of_connect? hconnect).symm.trans (hn.symm.trans hβ)
  | handles hbefore hafter htakes =>
    cases hbefore.symm.trans (hn.symm.trans hβ)
    rw [parting_of_bound (hn'.trans hafter), List.append_nil]
    exact htakes.dispatches h.filed
  | @parts turn β' result hbefore hafter hparts =>
    cases hbefore.symm.trans (hn.symm.trans hβ)
    have hparting : n.parting i (n.withTurn i turn) =
        (n.broker.session β.session).will.toList := by
      rw [parting, hβ, hn', Connection.binding?, hafter]
    rw [hparting]
    exact hparts.dispatches h.filed

theorem words_of_turn (h : n.Sound limits) (hstep : n.step move = some n')
    (hmove : move.turn? = some i) (hβ : n.binding? i = some β) :
    Dispatches β.session (n.words i move n') n.broker n'.broker := by
  cases move with
  | step j now closeFirst =>
    cases hmove
    exact h.words_of_step hstep hβ
  | write j now look =>
    cases hmove
    obtain ⟨c, hc, hstep⟩ := Option.bind_eq_some_iff.1 hstep
    obtain ⟨turn, hturn, rfl⟩ := Option.map_eq_some_iff.1 hstep
    obtain ⟨hbinding, -, β', hβ', hcarries⟩ := Connection.carries_of_writeStep hturn
    have hsame : (n.withTurn i turn).binding? i = some β :=
      (binding?_withTurn_of_eq hc hbinding i).trans hβ
    cases hβ'.symm.trans ((binding?_eq_some hc).symm.trans hβ)
    rw [words, parting_of_bound hsame]
    exact hcarries.dispatches h.filed
  | accept | client | publish | shutdown => cases hmove

/-- While a connection is alone with its session the will is left to it: it ends, or it goes on
with the will unless it takes it back. -/
theorem will_of_step (h : n.Sound limits) (hstep : n.step move = some n')
    (hβ : n.binding? i = some β) (halone : n.IsAlone i) (halone' : n'.IsAlone i) :
    (∃ c result, n'.connections[i]? = some c ∧ c.phase = .ended result) ∧
        n.handling? move n' = none ∨
      ∃ β', n'.binding? i = some β' ∧ (n'.broker.session β'.session).will =
        if (n.handling? move n').toList.any fun x => x.connection == i && x.isGoodbye then none
        else (n.broker.session β.session).will := by
  cases affects_of_step h hstep with
  | nothing hhandling hbindings hframes =>
    refine .inr ⟨β, (hbindings i).trans hβ, ?_⟩
    rw [hhandling]
    exact hframes.will β.session
  | @turns j now closeFirst c turn hc heffect =>
    have hn := binding?_eq_some hc
    have hn' := binding?_withTurn hc turn
    rw [handling?_step hc]
    generalize c.handles? closeFirst n.broker = handled? at heffect ⊢
    by_cases hij : j = i
    · subst hij
      have hc' := (List.getElem?_set_self (List.getElem?_eq_some_iff.1 hc).1 :
        (n.withTurn j turn).connections[j]? = some turn.connection)
      cases heffect with
      | stays hbinding hcarries hframes =>
        refine .inr ⟨β, ?_, hframes.will β.session⟩
        rw [hn', hbinding, ← hn, hβ]
      | enters hconnect hafter henters =>
        cases (Connection.binding?_of_connect? hconnect).symm.trans (hn.symm.trans hβ)
      | @handles turn β' p hbefore hafter htakes =>
        cases hbefore.symm.trans (hn.symm.trans hβ)
        refine .inr ⟨_, hn'.trans hafter, ?_⟩
        rw [htakes.session, Option.map_some, Option.toList_some, List.any_cons, List.any_nil,
          Bool.or_false, beq_self_eq_true]
        exact htakes.will
      | @parts turn β' result hbefore hafter hparts =>
        exact .inl ⟨⟨_, result, hc', hafter⟩, rfl⟩
    · have hsame : (n.withTurn j turn).binding? i = some β := by
        rw [binding?_withTurn_of_ne hij, hβ]
      have hother : ∀ (x : Handling), x.connection = j →
          (x.connection == i && x.isGoodbye) = false := by
        rintro x rfl
        rw [beq_false_of_ne hij]
        rfl
      refine .inr ⟨β, hsame, ?_⟩
      cases heffect with
      | stays hbinding hcarries hframes => exact hframes.will β.session
      | enters hconnect hafter henters =>
        have hne := halone' β hsame j hij _ (hn'.trans hafter)
        exact congrArg Session.will (henters.others _ hne.symm)
      | @handles turn β' p hbefore hafter htakes =>
        have hne := halone β hβ j hij β' (hn.trans hbefore)
        rw [Option.map_some, Option.toList_some, List.any_cons, List.any_nil, hother _ rfl]
        exact congrArg (·.2.2) (htakes.own β.session fun hid => hne (List.mem_singleton.1 hid).symm)
      | @parts turn β' result hbefore hafter hparts =>
        have hne := halone β hβ j hij β' (hn.trans hbefore)
        exact (hparts.dispatches h.filed).will hne.symm

end Sound

/-! ### Runs -/

/-- A connection that has ended handles nothing more and publishes nothing more. -/
theorem silent_of_ended {result : Connection.Result}
    (hended : ∃ c, n.connections[i]? = some c ∧ c.phase = .ended result)
    (hrun : run moves n = some n') :
    partings i moves n = [] ∧ (∀ x ∈ handlings moves n, x.connection ≠ i) ∧
      n'.binding? i = none := by
  have hunbound : ∀ {m : Network}, (∃ c, m.connections[i]? = some c ∧ c.phase = .ended result) →
      m.binding? i = none := by
    rintro m ⟨c, hc, hphase⟩
    rw [binding?_eq_some hc, Connection.binding?, hphase]
  induction moves generalizing n with
  | nil =>
    cases hrun
    exact ⟨rfl, fun _ hx => absurd hx List.not_mem_nil, hunbound hended⟩
  | cons move moves ih =>
    obtain ⟨n₁, hstep, hrun⟩ := Option.bind_eq_some_iff.1 hrun
    obtain ⟨hpartings, hhandlings, hafter⟩ :=
      ih (exists_of_step (Connection.keeps_ended result) hended hstep) hrun
    refine ⟨?_, fun x hx => ?_, hafter⟩
    · rw [partings, hstep]
      dsimp only
      rw [parting_of_unbound (hunbound hended), hpartings]
      rfl
    · rw [handlings, hstep] at hx
      rcases List.mem_append.1 hx with hnow | hlater
      · rintro rfl
        have hbound := binding?_of_handling (Option.mem_toList.1 hnow)
        rw [hunbound hended] at hbound
        cases hbound
      · exact hhandlings x hlater

theorem Sound.partings_of_run (h : n.Sound limits) (hβ : n.binding? i = some β)
    (halone : StaysAlone i moves n) (hrun : run moves n = some n') :
    partings i moves n =
      if (n'.binding? i).isSome ||
          (handlings moves n).any fun x => x.connection == i && x.isGoodbye then []
      else (n.broker.session β.session).will.toList := by
  induction moves generalizing n β with
  | nil =>
    cases hrun
    rw [hβ]
    rfl
  | cons move moves ih =>
    obtain ⟨n₁, hstep, hrun⟩ := Option.bind_eq_some_iff.1 hrun
    obtain ⟨halone, hrest⟩ := halone
    have halone₁ := hrest n₁ hstep
    have hnow : n₁.IsAlone i := by
      cases moves with
      | nil => exact halone₁
      | cons => exact halone₁.1
    rw [partings, handlings, hstep]
    dsimp only
    rw [List.any_append]
    rcases h.will_of_step hstep hβ halone hnow with ⟨⟨c, result, hc, hphase⟩, hx⟩ | ⟨β₁, hβ₁, hwill⟩
    · obtain ⟨hpartings, hhandlings, hafter⟩ := silent_of_ended ⟨c, hc, hphase⟩ hrun
      have hnone :
          ((handlings moves n₁).any fun x => x.connection == i && x.isGoodbye) = false := by
        refine List.any_eq_false.2 fun x hx => ?_
        rw [beq_false_of_ne (hhandlings x hx)]
        exact Bool.false_ne_true
      have hparting : n.parting i n₁ = (n.broker.session β.session).will.toList := by
        rw [parting, hβ, binding?_eq_some hc, Connection.binding?, hphase]
      rw [hx, hafter, hnone, hparting, hpartings, List.append_nil]
      rfl
    · rw [parting_of_bound hβ₁, List.nil_append, ih (h.of_step hstep) hβ₁ halone₁ hrun, hwill]
      cases (n.handling? move n₁).toList.any fun x => x.connection == i && x.isGoodbye with
      | false => rfl
      | true => simp

theorem Sound.binding?_of_bindsWith (h : n.Sound limits) (hbinds : BindsWith i connect n n') :
    ∃ β, n'.binding? i = some β ∧
      (n'.broker.session β.session).will = connect.will.map Message.ofWill := by
  obtain ⟨now, closeFirst, hstep⟩ := hbinds.step
  obtain ⟨c, hc, hconnect⟩ := Option.bind_eq_some_iff.1 hbinds.connect
  obtain ⟨c', hc', hstep⟩ := Option.bind_eq_some_iff.1 hstep
  cases hc.symm.trans hc'
  obtain ⟨turn, hturn, rfl⟩ := Option.map_eq_some_iff.1 hstep
  have hunbound := Connection.binding?_of_connect? hconnect
  have hn' := binding?_withTurn hc turn
  have hbound := hbinds.bound
  rw [hn'] at hbound
  have heffect := effect_of_step h hc hturn
  generalize c.handles? closeFirst n.broker = handled? at heffect
  cases heffect with
  | stays hbinding =>
    rw [hbinding, hunbound] at hbound
    cases hbound
  | enters hconnect' hafter henters =>
    cases hconnect.symm.trans hconnect'
    exact ⟨_, hn'.trans hafter, henters.will⟩
  | handles hbefore | parts hbefore => cases hunbound.symm.trans hbefore

/-- The will of a connection that is alone with its session is published once, as it ends, unless
the client has said goodbye. -/
theorem speaksLast_of_bound {credentials : Option Authenticator} {uuids : Nat → BitVec 128}
    {before after : List Move} {n₀ n₁ : Network}
    (hbefore : run before (start limits credentials uuids) = some n₀)
    (hbinds : BindsWith i connect n₀ n₁) (hafter : run after n₁ = some n)
    (halone : StaysAlone i after n₁) :
    SpeaksLast Handling.isGoodbye i connect after n₁ n := by
  have h₀ := (start_sound limits credentials uuids).of_run hbefore
  obtain ⟨now, closeFirst, hstep⟩ := hbinds.step
  have h₁ := h₀.of_step hstep
  obtain ⟨β, hβ, hwill⟩ := h₀.binding?_of_bindsWith hbinds
  constructor
  case partings =>
    rw [h₁.partings_of_run hβ halone hafter, hwill]
  case words =>
    intro m move m' hpasses hmove β hβ
    exact (h₁.of_passes hpasses).words_of_turn hpasses.step_eq hmove hβ

/-- Where connections that waited are let in only without an owner, every connection is alone. -/
theorem Standing.staysAlone (h : n.Standing) (htimely : AllTimely moves n) (i : Nat) :
    StaysAlone i moves n := by
  have halone : ∀ {m : Network}, m.Standing → m.IsAlone i := fun hm β hβ j hij β' hβ' heq =>
    hij (hm.apart hβ' hβ heq)
  induction moves generalizing n with
  | nil => exact halone h
  | cons move moves ih =>
    refine ⟨halone h, fun n' hstep => ?_⟩
    exact ih (h.of_step htimely.1 hstep) (htimely.2 n' hstep)

/-- The CONNECT of a 5.0 client with a will. -/
def testament : Connect where
  protocolName := [0x4d, 0x51, 0x54, 0x54]
  protocolLevel := 5
  cleanSession := true
  keepAlive := 0
  properties := []
  clientId := [0x78]
  will := some
    { topic := [0x77], payload := [0x67], qos := .atMostOnce, retain := false, properties := [] }
  username := none
  password := none

/-- The client sends the CONNECT, and it is taken in. -/
def willing : List Move :=
  [.accept 0 64,
    .client 0
      { capacity := 64
        held := [0x10, 0x15, 0, 4, 0x4d, 0x51, 0x54, 0x54, 5, 6, 0, 0, 0, 0, 1, 0x78, 0, 0, 1, 0x77,
          0, 1, 0x67] }
      { capacity := 64 },
    .step 0 0 false]

theorem exists_bindsWith {before : List Move} {n : Network}
    (h : (run before n).map (fun n₀ => ((n₀.connections[i]?).bind (·.connect?),
      (n₀.step (.step i 0 false)).map fun n₁ => (n₁.binding? i).isSome)) =
        some (some connect, some true)) :
    ∃ n₀ n₁, run before n = some n₀ ∧ BindsWith i connect n₀ n₁ ∧
      run (before ++ [.step i 0 false]) n = some n₁ := by
  obtain ⟨n₀, hn₀, hfacts⟩ := Option.map_eq_some_iff.1 h
  obtain ⟨hconnect, hfacts⟩ := Prod.mk.inj hfacts
  obtain ⟨n₁, hstep, hbound⟩ := Option.map_eq_some_iff.1 hfacts
  refine ⟨n₀, n₁, hn₀, ⟨hconnect, ⟨0, false, hstep⟩, hbound⟩, ?_⟩
  rw [run_append, hn₀, Option.bind_some, run, hstep]
  rfl

theorem bindsWith_testament :
    ∃ n₀ n₁, run willing (start {}) = some n₀ ∧ BindsWith 0 testament n₀ n₁ ∧
      run (willing ++ [.step 0 0 false]) (start {}) = some n₁ :=
  exists_bindsWith (by decide +kernel)

/-- The greeting is over, the client is lost, and the connection ends. -/
def vanishing : List Move :=
  [.step 0 0 false,
    .client 0 { capacity := 64, closed := true } { capacity := 64, closed := true },
    .step 0 0 false] ++ leaving 0 5

theorem speaksLast_of_bound_vanishing :
    ∃ n₀ n₁ n, run willing (start {}) = some n₀ ∧ BindsWith 0 testament n₀ n₁ ∧
      run vanishing n₁ = some n ∧ StaysAlone 0 vanishing n₁ ∧
      partings 0 vanishing n₁ = [{ topic := [0x77], payload := [0x67], qos := .atMostOnce }] ∧
      SpeaksLast Handling.isGoodbye 0 testament vanishing n₁ n := by
  obtain ⟨n₀, n₁, hn₀, hbinds, hn₁⟩ := bindsWith_testament
  have hend : (run (willing ++ [.step 0 0 false]) (start {})).map (fun n₁ =>
      (decide (AllTimely vanishing n₁), (run vanishing n₁).isSome, partings 0 vanishing n₁)) =
        some (true, true, [{ topic := [0x77], payload := [0x67], qos := .atMostOnce }]) := by
    decide +kernel
  rw [hn₁, Option.map_some, Option.some_inj, Prod.mk.injEq, Prod.mk.injEq] at hend
  obtain ⟨htimely, hrun, hpartings⟩ := hend
  obtain ⟨n, hn⟩ := Option.isSome_iff_exists.1 hrun
  have hstanding : n₁.Standing :=
    (start_standing {} none _).of_run (by decide +kernel) hn₁
  have halone := hstanding.staysAlone (of_decide_eq_true htimely) 0
  exact ⟨n₀, n₁, n, hn₀, hbinds, hn, halone, hpartings,
    speaksLast_of_bound hn₀ hbinds hn halone⟩

/-- The client says goodbye, and asks for a session expiry that it may not ask for any more. -/
def overreaching : List Move :=
  .step 0 0 false :: sending 0 [0xe0, 7, 0, 5, 0x11, 0, 0, 0, 60] ++ leaving 0 7

/-- A goodbye that is an error has taken the will back already. -/
theorem not_speaksLast_of_accepted : ¬ ∀ (limits : Limits) (credentials : Option Authenticator)
    (uuids : Nat → BitVec 128) (i : Nat) (connect : Connect) (before after : List Move)
    (n₀ n₁ n : Network),
      run before (start limits credentials uuids) = some n₀ → BindsWith i connect n₀ n₁ →
        run after n₁ = some n → StaysAlone i after n₁ →
          SpeaksLast Handling.isAcceptedGoodbye i connect after n₁ n := by
  intro hall
  obtain ⟨n₀, n₁, hn₀, hbinds, hn₁⟩ := bindsWith_testament
  have hend : (run (willing ++ [.step 0 0 false]) (start {})).map (fun n₁ =>
      (decide (AllTimely overreaching n₁), (run overreaching n₁).map fun n =>
        ((n.binding? 0).isSome || (handlings overreaching n₁).any fun x =>
          x.connection == 0 && x.isAcceptedGoodbye, partings 0 overreaching n₁))) =
        some (true, some (false, [])) := by
    decide +kernel
  rw [hn₁, Option.map_some, Option.some_inj, Prod.mk.injEq] at hend
  obtain ⟨htimely, hrun⟩ := hend
  obtain ⟨n, hn, hfacts⟩ := Option.map_eq_some_iff.1 hrun
  obtain ⟨hquiet, hpartings⟩ := Prod.mk.inj hfacts
  have hstanding : n₁.Standing :=
    (start_standing {} none _).of_run (by decide +kernel) hn₁
  have halone := hstanding.staysAlone (of_decide_eq_true htimely) 0
  have hclaimed := (hall {} none _ 0 testament willing overreaching n₀ n₁ n hn₀ hbinds hn
    halone).partings
  rw [hpartings, hquiet] at hclaimed
  exact absurd hclaimed (by decide)

end Network

end MqttBroker
