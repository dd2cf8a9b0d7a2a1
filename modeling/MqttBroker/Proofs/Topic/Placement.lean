import MqttBroker.Proofs.Topic.Selection
/-!
Which filters are valid, position by position. The broker takes a filter apart into its levels and
looks at each of them; what it finds is what the bytes beside each wildcard say.
-/

namespace MqttBroker.Topic

variable {f level rest tail : Bytes} {i : Nat}

/-- A level begins at this position: it is the first, or a separator stands before it. -/
def BeginsAt (f : Bytes) (i : Nat) : Prop := i = 0 ∨ f[i - 1]? = some separator

/-- A level ends at this position: it is the last, or a separator stands behind it. -/
def EndsAt (f : Bytes) (i : Nat) : Prop := i + 1 = f.length ∨ f[i + 1]? = some separator

/-- What stands at this position may stand there: a `+` is a level of its own, a `#` begins a level
and is the last byte. -/
structure PlacedAt (f : Bytes) (i : Nat) : Prop where
  single : f[i]? = some singleLevel → BeginsAt f i ∧ EndsAt f i
  multi : f[i]? = some multiLevel → i + 1 = f.length ∧ BeginsAt f i

/-- A filter as the protocol describes it: not empty, without the null character, and with every
wildcard in its place. -/
structure IsFilter (f : Bytes) : Prop where
  nonempty : f ≠ []
  noNull : ∀ i : Nat, f[i]? ≠ some 0
  placed : ∀ i, PlacedAt f i

/-! ### Positions of one level -/

/-- Within a level the only position where a level begins is the first. -/
theorem beginsAt_append_iff (hlevel : separator ∉ level) (hi : i < level.length) :
    BeginsAt (level ++ tail) i ↔ i = 0 := by
  apply or_iff_left
  intro hbefore
  rw [List.getElem?_append_left (by omega)] at hbefore
  exact hlevel (List.mem_of_getElem? hbefore)

/-- Within a level the only position where a level ends is the last. -/
theorem endsAt_append_iff (hlevel : separator ∉ level) (htail : IsTail tail)
    (hi : i < level.length) : EndsAt (level ++ tail) i ↔ i + 1 = level.length := by
  constructor
  · rintro (hend | hbehind)
    · rw [List.length_append] at hend
      omega
    · apply Classical.byContradiction
      intro hlast
      rw [List.getElem?_append_left (by omega)] at hbehind
      exact hlevel (List.mem_of_getElem? hbehind)
  · intro hlast
    cases tail with
    | nil =>
      left
      rw [List.append_nil]
      exact hlast
    | cons x tail =>
      right
      rw [hlast, List.getElem?_append_right (Nat.le_refl _), Nat.sub_self, htail x rfl]
      rfl

/-- A byte of a level that stands where the level begins and ends is all of the level. -/
theorem eq_singleton_of_getElem? {x : UInt8} (hx : level[i]? = some x) (hfirst : i = 0)
    (hlast : i + 1 = level.length) : level = [x] := by
  subst hfirst
  obtain ⟨y, rfl⟩ := List.length_eq_one_iff.1 hlast.symm
  simpa using hx

/-- The positions of a level are in order when a wildcard fills the level, and when nothing is
behind a `#`. -/
theorem placedAt_level_iff (hlevel : separator ∉ level) (htail : IsTail tail) :
    (∀ i < level.length, PlacedAt (level ++ tail) i) ↔
      (singleLevel ∈ level → level = [singleLevel]) ∧
        (multiLevel ∈ level → level = [multiLevel] ∧ tail = []) := by
  constructor
  · intro h
    constructor
    · intro hsingle
      obtain ⟨i, hx⟩ := List.mem_iff_getElem?.1 hsingle
      obtain ⟨hi, -⟩ := List.getElem?_eq_some_iff.1 hx
      obtain ⟨hbegins, hends⟩ := (h i hi).single (by rwa [List.getElem?_append_left hi])
      rw [beginsAt_append_iff hlevel hi] at hbegins
      rw [endsAt_append_iff hlevel htail hi] at hends
      exact eq_singleton_of_getElem? hx hbegins hends
    · intro hmulti
      obtain ⟨i, hx⟩ := List.mem_iff_getElem?.1 hmulti
      obtain ⟨hi, -⟩ := List.getElem?_eq_some_iff.1 hx
      obtain ⟨hlast, hbegins⟩ := (h i hi).multi (by rwa [List.getElem?_append_left hi])
      rw [beginsAt_append_iff hlevel hi] at hbegins
      rw [List.length_append] at hlast
      constructor
      · apply eq_singleton_of_getElem? hx hbegins
        omega
      · apply List.eq_nil_of_length_eq_zero
        omega
  · rintro ⟨hsingle, hmulti⟩ i hi
    constructor
    all_goals
      intro hx
      rw [List.getElem?_append_left hi] at hx
      have hmem := List.mem_of_getElem? hx
      rw [beginsAt_append_iff hlevel hi]
    · rw [endsAt_append_iff hlevel htail hi]
      rw [hsingle hmem] at hi ⊢
      simp only [List.length_singleton] at hi ⊢
      omega
    · obtain ⟨heq, rfl⟩ := hmulti hmem
      rw [heq] at hi ⊢
      simp only [List.append_nil, List.length_singleton] at hi ⊢
      omega

/-! ### Positions behind a level -/

theorem getElem?_behind (level rest : Bytes) (j : Nat) :
    (level ++ separator :: rest)[level.length + 1 + j]? = rest[j]? := by
  rw [List.getElem?_append_right (by omega), show level.length + 1 + j - level.length = j + 1 by
    omega]
  rfl

theorem beginsAt_behind (level rest : Bytes) (j : Nat) :
    BeginsAt (level ++ separator :: rest) (level.length + 1 + j) ↔ BeginsAt rest j := by
  cases j with
  | zero =>
    apply iff_of_true
    · right
      rw [show level.length + 1 + 0 - 1 = level.length by omega,
        List.getElem?_append_right (Nat.le_refl _), Nat.sub_self]
      rfl
    · exact Or.inl rfl
  | succ j =>
    have hbefore : level.length + 1 + (j + 1) - 1 = level.length + 1 + j := by omega
    unfold BeginsAt
    rw [hbefore, getElem?_behind, Nat.add_sub_cancel]
    simp

theorem endsAt_behind (level rest : Bytes) (j : Nat) :
    EndsAt (level ++ separator :: rest) (level.length + 1 + j) ↔ EndsAt rest j := by
  unfold EndsAt
  rw [Nat.add_assoc _ j 1, getElem?_behind, List.length_append, List.length_cons]
  apply or_congr_left
  omega

/-- Behind a level and its separator a position is in order when it is in what is left. -/
theorem placedAt_behind (level rest : Bytes) (j : Nat) :
    PlacedAt (level ++ separator :: rest) (level.length + 1 + j) ↔ PlacedAt rest j := by
  have hlast : level.length + 1 + j + 1 = (level ++ separator :: rest).length ↔
      j + 1 = rest.length := by
    rw [List.length_append, List.length_cons]
    omega
  constructor
  · intro h
    have hsingle := h.single
    have hmulti := h.multi
    rw [getElem?_behind, beginsAt_behind] at hsingle hmulti
    rw [endsAt_behind] at hsingle
    rw [hlast] at hmulti
    exact ⟨hsingle, hmulti⟩
  · intro h
    constructor
    · rw [getElem?_behind, beginsAt_behind, endsAt_behind]
      exact h.single
    · rw [getElem?_behind, beginsAt_behind, hlast]
      exact h.multi

/-- A separator may stand anywhere. -/
theorem placedAt_separator (level rest : Bytes) :
    PlacedAt (level ++ separator :: rest) level.length := by
  have hhere : (level ++ separator :: rest)[level.length]? = some separator := by
    rw [List.getElem?_append_right (Nat.le_refl _), Nat.sub_self]
    rfl
  constructor
  all_goals
    rw [hhere]
    intro h
    exact absurd (Option.some.inj h) (by decide)

/-- All positions are in order when those of the first level and those behind it are. -/
theorem placed_append_iff (level rest : Bytes) :
    (∀ i, PlacedAt (level ++ separator :: rest) i) ↔
      (∀ i < level.length, PlacedAt (level ++ separator :: rest) i) ∧
        ∀ j, PlacedAt rest j := by
  constructor
  · intro h
    exact ⟨fun i _ => h i, fun j => (placedAt_behind level rest j).1 (h _)⟩
  · rintro ⟨hfirst, hbehind⟩ i
    rcases Nat.lt_trichotomy i level.length with hlt | rfl | hgt
    · exact hfirst i hlt
    · exact placedAt_separator level rest
    · rw [show i = level.length + 1 + (i - level.length - 1) by omega]
      exact (placedAt_behind level rest _).2 (hbehind _)

theorem placed_of_level (h : ∀ i < level.length, PlacedAt level i) (i : Nat) :
    PlacedAt level i := by
  by_cases hi : i < level.length
  · exact h i hi
  · constructor
    all_goals
      rw [List.getElem?_eq_none (by omega)]
      exact nofun

/-! ### All levels -/

theorem validLevels_cons_iff (level : Bytes) (others : List Bytes) :
    validLevels (level :: others) = true ↔
      ((singleLevel ∈ level → level = [singleLevel]) ∧
        (multiLevel ∈ level → level = [multiLevel] ∧ others = [])) ∧
          validLevels others = true := by
  simp only [validLevels, Bool.and_eq_true, Bool.or_eq_true, Bool.not_eq_true',
    List.contains_eq_mem, decide_eq_false_iff_not, beq_iff_eq, List.isEmpty_iff,
    Decidable.imp_iff_not_or]
  apply and_congr_left'
  exact and_comm

theorem validLevels_iff_placed (f : Bytes) :
    validLevels (f.splitOn separator) = true ↔ ∀ i, PlacedAt f i := by
  induction hlength : f.length using Nat.strongRecOn generalizing f with
  | ind length ih => ?_
  rcases splitOn_cases f with ⟨hf, hlevels⟩ | ⟨level, rest, hlevel, rfl, hlevels⟩
  all_goals rw [hlevels, validLevels_cons_iff]
  · -- Only one level: nothing is behind it.
    have hplaced := placedAt_level_iff hf isTail_nil
    simp only [List.append_nil, and_true] at hplaced
    simp only [and_true, ← hplaced, show validLevels [] = true from rfl]
    constructor
    · exact placed_of_level
    · exact fun h i _ => h i
  · have hshorter : rest.length < length := by
      rw [← hlength, List.length_append, List.length_cons]
      omega
    rw [placed_append_iff, placedAt_level_iff hlevel (isTail_cons rest),
      ih rest.length hshorter rest rfl]
    simp only [List.splitOn_ne_nil, reduceCtorEq]

/-- A filter is valid when it is not empty, has no null character, each `+` in it has a separator
or the start before it and a separator or the end behind it, and each `#` is its last byte and has
a separator or the start before it. -/
theorem isValidFilter_iff_isFilter (f : Bytes) : isValidFilter f = true ↔ IsFilter f := by
  have hnull : 0 ∉ f ↔ ∀ i : Nat, f[i]? ≠ some 0 := by
    rw [List.mem_iff_getElem?, not_exists]
  rw [isValidFilter, levels_eq_splitOn, Bool.and_eq_true, Bool.and_eq_true,
    validLevels_iff_placed]
  simp only [Bool.not_eq_true', List.isEmpty_eq_false_iff, List.contains_eq_mem,
    decide_eq_false_iff_not, hnull]
  constructor
  · rintro ⟨⟨hnonempty, hnoNull⟩, hplaced⟩
    exact ⟨hnonempty, hnoNull, hplaced⟩
  · intro h
    exact ⟨⟨h.nonempty, h.noNull⟩, h.placed⟩

end MqttBroker.Topic
