import MqttBroker.Proofs.Broker.Routing
/-!
The subscriptions of a client against what it asked for: which filters are held and at which QoS is
a matter of the changes it made, and what a message is granted a matter of the filters held.
-/

namespace MqttBroker

instance : Std.IsLinearOrder QoS := .of_le
  ⟨fun _ _ hab hba => QoS.eq_of_rank_eq (Nat.le_antisymm hab hba)⟩
  ⟨fun hab hbc => Nat.le_trans hab hbc⟩
  ⟨fun a b => Nat.le_total a.rank b.rank⟩

instance : Std.LawfulOrderMax QoS where
  max_eq_or a b := by cases a <;> cases b <;> decide
  max_le_iff a b c := by cases a <;> cases b <;> cases c <;> decide

namespace Subscriptions

/-- A call on the subscriptions of a session. -/
inductive Call where
  | subscribe (requests : List (Bytes × QoS))
  | unsubscribe (filters : List Bytes)

/-- What a call is answered, position by position. -/
inductive Answer where
  | granted (qos : List (Option QoS))
  | found (held : List Bool)
deriving DecidableEq

def call (s : Subscriptions) : Call → Subscriptions × Answer
  | .subscribe requests => (s.subscribe requests, .granted (requests.map grant))
  | .unsubscribe filters => ((s.unsubscribe filters).1, .found (s.unsubscribe filters).2)

/-- Makes the calls one after the other, from no subscriptions on. -/
def run (calls : List Call) : Subscriptions := calls.foldl (fun s c => (s.call c).1) {}

def filters (s : Subscriptions) : List Bytes := s.entries.map Prod.fst

/-- What a call asks for at one of its positions. -/
inductive Change where
  | hold (filter : Bytes) (qos : QoS)
  | drop (filter : Bytes)
deriving DecidableEq

namespace Change

def filter : Change → Bytes
  | hold filter _ | drop filter => filter

def apply (s : Subscriptions) : Change → Subscriptions
  | hold filter qos => s.insert filter qos
  | drop filter => s.erase filter

/-- The change of a request, if its filter is valid. -/
def ofRequest? (request : Bytes × QoS) : Option Change :=
  if Topic.isValidFilter request.1 then some (.hold request.1 request.2) else none

end Change

/-- The changes in the order of the positions. Requests with invalid filters are none. -/
def Call.changes : Call → List Change
  | .subscribe requests => requests.filterMap Change.ofRequest?
  | .unsubscribe filters => filters.map .drop

/-- The filter was subscribed to with that QoS, and nothing after that was about it. -/
def HoldsAfter (past : List Change) (filter : Bytes) (qos : QoS) : Prop :=
  ∃ before after, past = before ++ .hold filter qos :: after ∧ ∀ c ∈ after, c.filter ≠ filter

variable {s : Subscriptions} {filter filter' : Bytes} {qos qos' : QoS} {past : List Change}
  {c : Change}

theorem not_holdsAfter_nil : ¬ HoldsAfter [] filter qos := by
  rintro ⟨before, after, hpast, -⟩
  exact List.append_ne_nil_of_right_ne_nil before (List.cons_ne_nil _ after) hpast.symm

theorem holdsAfter_concat : HoldsAfter (past ++ [c]) filter qos ↔
    c = .hold filter qos ∨ HoldsAfter past filter qos ∧ c.filter ≠ filter := by
  constructor
  · rintro ⟨before, after, hpast, hafter⟩
    rcases List.eq_nil_or_concat after with rfl | ⟨after, last, rfl⟩
    · exact .inl (List.singleton_inj.1 (List.append_inj_right' hpast rfl))
    · rw [List.concat_eq_append, ← List.cons_append, ← List.append_assoc] at hpast
      obtain ⟨rfl, hlast⟩ := List.append_inj' hpast rfl
      cases List.singleton_inj.1 hlast
      rw [List.concat_eq_append] at hafter
      exact .inr ⟨⟨before, after, rfl, fun c hc => hafter c (List.mem_append_left _ hc)⟩,
        hafter c (List.mem_append_right _ (List.mem_singleton_self c))⟩
  · rintro (rfl | ⟨⟨before, after, rfl, hafter⟩, hc⟩)
    · exact ⟨past, [], rfl, nofun⟩
    · refine ⟨before, after ++ [c], by rw [List.append_assoc, List.cons_append], ?_⟩
      intro c' hc'
      rcases List.mem_append.1 hc' with hold | hnew
      · exact hafter c' hold
      · exact List.mem_singleton.1 hnew ▸ hc

/-! ### One change -/

theorem mem_erase : (filter', qos') ∈ (s.erase filter).entries ↔
    (filter', qos') ∈ s.entries ∧ filter ≠ filter' := by
  rw [erase, List.mem_filter, bne_iff_ne, ne_comm]

theorem mem_insert : (filter', qos') ∈ (s.insert filter qos).entries ↔
    (filter', qos') = (filter, qos) ∨ (filter', qos') ∈ s.entries ∧ filter ≠ filter' := by
  rw [insert, List.mem_cons, mem_erase]

theorem mem_apply : (filter, qos) ∈ (c.apply s).entries ↔
    c = .hold filter qos ∨ (filter, qos) ∈ s.entries ∧ c.filter ≠ filter := by
  cases c with
  | hold filter' qos' =>
    rw [Change.apply, mem_insert, Prod.mk.injEq, Change.hold.injEq, eq_comm, eq_comm (a := qos)]
    rfl
  | drop filter' =>
    rw [Change.apply, mem_erase, or_iff_right nofun]
    rfl

theorem mem_filters : filter ∈ s.filters ↔ ∃ qos, (filter, qos) ∈ s.entries := by
  simp [filters]

theorem mem_filters_erase :
    filter' ∈ (s.erase filter).filters ↔ filter' ∈ s.filters ∧ filter ≠ filter' := by
  simp only [mem_filters, mem_erase, exists_and_right]

theorem nodup_erase (h : s.filters.Nodup) (filter : Bytes) : (s.erase filter).filters.Nodup :=
  (List.filter_sublist.map Prod.fst).nodup h

theorem nodup_apply (h : s.filters.Nodup) (c : Change) : (c.apply s).filters.Nodup := by
  cases c with
  | hold filter qos =>
    have hgone : filter ∉ (s.erase filter).filters := fun hmem => (mem_filters_erase.1 hmem).2 rfl
    exact List.nodup_cons.2 ⟨hgone, nodup_erase h filter⟩
  | drop filter => exact nodup_erase h filter

/-! ### One call -/

theorem subscribe_eq_foldl (s : Subscriptions) (requests : List (Bytes × QoS)) :
    s.subscribe requests = (requests.filterMap Change.ofRequest?).foldl Change.apply s := by
  rw [List.foldl_filterMap]
  refine congrArg (fun f => requests.foldl f s) (funext₂ fun s request => ?_)
  unfold grant Change.ofRequest?
  cases Topic.isValidFilter request.1 <;> rfl

theorem unsubscribe_eq_foldl (s : Subscriptions) (filters : List Bytes) :
    (s.unsubscribe filters).1 = (filters.map Change.drop).foldl Change.apply s := by
  induction filters generalizing s with
  | nil => rfl
  | cons filter filters ih => exact ih (s.erase filter)

theorem call_eq_foldl (s : Subscriptions) (c : Call) :
    (s.call c).1 = c.changes.foldl Change.apply s := by
  cases c with
  | subscribe requests => exact s.subscribe_eq_foldl requests
  | unsubscribe filters => exact s.unsubscribe_eq_foldl filters

/-- A request with an invalid filter might as well not be there. -/
theorem subscribe_valid (s : Subscriptions) (requests : List (Bytes × QoS)) :
    s.subscribe (requests.filter fun r => Topic.isValidFilter r.1) = s.subscribe requests := by
  rw [subscribe_eq_foldl, subscribe_eq_foldl, List.filterMap_filter]
  refine congrArg (List.foldl Change.apply s) (List.filterMap_congr fun request _ => ?_)
  unfold Change.ofRequest?
  split <;> rfl

theorem isSome_get?_iff : (s.get? filter).isSome = true ↔ filter ∈ s.filters := by
  rw [get?, List.lookup_isSome_iff, filters, List.mem_map]
  exact exists_congr fun entry => and_congr_right fun _ => beq_iff_eq.trans eq_comm

theorem unsubscribe_found (s : Subscriptions) (filters : List Bytes) :
    (s.unsubscribe filters).2 = filters.mapIdx fun i filter =>
      decide (filter ∈ s.filters ∧ filter ∉ filters.take i) := by
  induction filters generalizing s with
  | nil => rfl
  | cons filter filters ih =>
    have hhead : (s.get? filter).isSome = decide (filter ∈ s.filters ∧ filter ∉ []) :=
      Bool.eq_iff_iff.2 (isSome_get?_iff.trans (by simp))
    rw [unsubscribe, List.mapIdx_cons, List.take_zero, ← hhead]
    refine congrArg (_ :: ·) ((ih (s.erase filter)).trans ?_)
    refine List.mapIdx_eq_mapIdx_iff.2 fun i _ => decide_eq_decide.2 ?_
    rw [mem_filters_erase, List.take_succ_cons, List.mem_cons, not_or, and_assoc, ne_comm]

theorem get?_insert (s : Subscriptions) (filter filter' : Bytes) (qos : QoS) :
    (s.insert filter qos).get? filter' =
      if filter' = filter then some qos else s.get? filter' := by
  rw [get?, insert, List.lookup_cons]
  split
  · next hsame => rw [if_pos (eq_of_beq hsame)]
  · next hother =>
    have hne : filter' ≠ filter := ne_of_beq_false hother
    rw [if_neg hne]
    exact lookup_filter_of_ne hne

/-- A valid filter is held with the QoS of the last request for it, if there is one. -/
theorem get?_subscribe (s : Subscriptions) (requests : List (Bytes × QoS)) {filter : Bytes}
    (hvalid : Topic.isValidFilter filter = true) : (s.subscribe requests).get? filter =
      (requests.reverse.lookup filter).or (s.get? filter) := by
  induction requests generalizing s with
  | nil => rfl
  | cons request requests ih =>
    have hhead : (s.subscribe [request]).get? filter =
        (List.lookup filter [request]).or (s.get? filter) := by
      rw [List.lookup_cons]
      by_cases hfilter : filter = request.1
      · subst hfilter
        have hgrant : grant request = some request.2 := if_pos hvalid
        rw [subscribe, List.foldl_cons, List.foldl_nil, hgrant, beq_self_eq_true, get?_insert,
          if_pos rfl]
        rfl
      · rw [subscribe, List.foldl_cons, List.foldl_nil, beq_false_of_ne hfilter]
        split
        · rw [get?_insert, if_neg hfilter]
          rfl
        · rfl
    calc (s.subscribe (request :: requests)).get? filter
        = ((s.subscribe [request]).subscribe requests).get? filter := rfl
      _ = (requests.reverse.lookup filter).or
            ((List.lookup filter [request]).or (s.get? filter)) := by rw [ih, hhead]
      _ = ((request :: requests).reverse.lookup filter).or (s.get? filter) := by
        rw [List.reverse_cons, List.lookup_append, Option.or_assoc]

/-! ### What a message is granted -/

theorem matchMax_eq_max? (s : Subscriptions) (topic : Bytes) : s.matchMax topic =
    ((s.entries.filter fun entry => Topic.isMatch topic entry.1).map Prod.snd).max? := by
  refine Option.ext fun qos => ?_
  rw [matchMax_eq_some, List.max?_eq_some_iff, Grants]
  simp only [List.mem_map, List.mem_filter, Prod.exists, exists_eq_right, forall_exists_index,
    and_imp, Prod.forall]
  exact and_congr_right fun _ => forall_comm

theorem matchMax_perm {entries : List (Bytes × QoS)} (h : entries.Perm s.entries) (topic : Bytes) :
    matchMax ⟨entries⟩ topic = s.matchMax topic := by
  refine Option.ext fun qos => ?_
  rw [matchMax_eq_some, matchMax_eq_some, Grants, Grants]
  simp only [h.mem_iff]

/-! ### Runs -/

/-- What a client's subscriptions are once it has made the changes, and what its next call is
answered. -/
structure KeepsTable (s : Subscriptions) (past : List Change) : Prop where
  /-- No filter is there twice. -/
  nodup : s.filters.Nodup
  /-- What is held was subscribed to and not given up since, and its QoS is that of the last
  subscription. -/
  held (filter : Bytes) (qos : QoS) : (filter, qos) ∈ s.entries ↔ HoldsAfter past filter qos
  granted (requests : List (Bytes × QoS)) : (s.call (.subscribe requests)).2 =
    .granted (requests.map fun r => if Topic.isValidFilter r.1 then some r.2 else none)
  /-- Requests with invalid filters make no difference to the others. -/
  valid (requests : List (Bytes × QoS)) : (s.call (.subscribe requests)).1 =
    (s.call (.subscribe (requests.filter fun r => Topic.isValidFilter r.1))).1
  /-- A filter is found if it was there and is not given up at an earlier position already. -/
  found (filters : List Bytes) : (s.call (.unsubscribe filters)).2 =
    .found (filters.mapIdx fun i filter =>
      decide (filter ∈ s.filters ∧ filter ∉ filters.take i))
  /-- A message is granted the highest QoS of the filters that select its topic. -/
  matched (topic : Bytes) : s.matchMax topic =
    ((s.entries.filter fun entry => Topic.isMatch topic entry.1).map Prod.snd).max?
  /-- The order in which the filters are looked at is of no account. -/
  reordered (entries : List (Bytes × QoS)) (hperm : entries.Perm s.entries) (topic : Bytes) :
    matchMax ⟨entries⟩ topic = s.matchMax topic

theorem KeepsTable.of_held (hnodup : s.filters.Nodup)
    (hheld : ∀ filter qos, (filter, qos) ∈ s.entries ↔ HoldsAfter past filter qos) :
    KeepsTable s past where
  nodup := hnodup
  held := hheld
  granted _ := rfl
  valid requests := (s.subscribe_valid requests).symm
  found filters := congrArg Answer.found (s.unsubscribe_found filters)
  matched topic := s.matchMax_eq_max? topic
  reordered _ hperm topic := matchMax_perm hperm topic

theorem run_eq_foldl (calls : List Call) :
    run calls = (calls.flatMap Call.changes).foldl Change.apply {} := by
  rw [List.foldl_flatMap]
  exact congrArg (fun f => calls.foldl f {}) (funext₂ call_eq_foldl)

/-- For every sequence of calls. -/
theorem keepsTable_of_calls (calls : List Call) :
    KeepsTable (run calls) (calls.flatMap Call.changes) := by
  rw [run_eq_foldl]
  generalize calls.flatMap Call.changes = past
  induction past using List.reverseRecOn with
  | nil => exact .of_held List.nodup_nil fun _ _ => iff_of_false List.not_mem_nil not_holdsAfter_nil
  | append_singleton past c ih =>
    rw [List.foldl_concat]
    refine .of_held (nodup_apply ih.nodup c) fun filter qos => ?_
    rw [mem_apply, holdsAfter_concat, ih.held]

/-- Of two requests for "a" in one call the later one counts, and "a" is given up only once. -/
example :
    let s := run [.subscribe [([0x61], .exactlyOnce), ([], .exactlyOnce), ([0x61], .atLeastOnce)]]
    s.matchMax [0x61] = some .atLeastOnce ∧
      (s.call (.unsubscribe [[0x61], [0x61]])).2 = .found [true, false] := by
  decide

end Subscriptions

end MqttBroker
