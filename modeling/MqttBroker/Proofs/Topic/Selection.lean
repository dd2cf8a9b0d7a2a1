import MqttBroker.Topic
/-!
Which topics a filter selects, level by level. The broker reads a filter and a topic byte by byte
and in one pass; what it finds is what the levels between the separators say.
-/

namespace MqttBroker.Topic

/-- A filter, by its levels, selects a topic, by its levels. -/
inductive Selects : List Bytes → List Bytes → Prop where
  | finished : Selects [] []
  | literal {filter topic : List Bytes} (level : Bytes) (hothers : Selects filter topic) :
    Selects (level :: filter) (level :: topic)
  /-- `+` stands for one level, which may be empty. -/
  | single {filter topic : List Bytes} (level : Bytes) (hothers : Selects filter topic) :
    Selects ([singleLevel] :: filter) (level :: topic)
  /-- `#` comes last and stands for all levels that are left, or for none. -/
  | multi (topic : List Bytes) : Selects [[multiLevel]] topic

variable {filter topic : List Bytes} {f level rest tail b : Bytes}

theorem selects_cons_iff (hf : f ≠ [multiLevel]) :
    Selects (f :: filter) (level :: topic) ↔
      (f = [singleLevel] ∨ f = level) ∧ Selects filter topic := by
  constructor
  · intro h
    cases h with
    | literal _ hothers => exact ⟨.inr rfl, hothers⟩
    | single _ hothers => exact ⟨.inl rfl, hothers⟩
    | multi => exact absurd rfl hf
  · rintro ⟨rfl | rfl, hothers⟩
    · exact .single level hothers
    · exact .literal f hothers

theorem selects_nil_iff : Selects filter [] ↔ filter = [] ∨ filter = [[multiLevel]] := by
  constructor
  · intro h
    cases h with
    | finished => exact .inl rfl
    | multi => exact .inr rfl
  · rintro (rfl | rfl)
    · exact .finished
    · exact .multi []

/-! ### Levels -/

theorem levels_eq_splitOn (b : Bytes) : levels b = b.splitOn separator := by
  induction b with
  | nil => rfl
  | cons x b ih =>
    rw [levels, ih, List.splitOn_cons_eq_if_modifyHead]
    by_cases hx : x = separator
    · rw [if_pos hx, if_pos (beq_iff_eq.2 hx)]
    · rw [if_neg hx, if_neg (mt beq_iff_eq.1 hx)]
      cases hlevels : b.splitOn separator with
      | nil => exact absurd hlevels (List.splitOn_ne_nil separator b)
      | cons => rfl

/-- Bytes are one level, or a level with a separator and other levels behind it. -/
theorem splitOn_cases (b : Bytes) :
    (separator ∉ b ∧ b.splitOn separator = [b]) ∨
      ∃ level rest, separator ∉ level ∧ b = level ++ separator :: rest ∧
        b.splitOn separator = level :: rest.splitOn separator := by
  by_cases hb : separator ∈ b
  · obtain ⟨level, rest, rfl, hlevel⟩ := List.eq_append_cons_of_mem hb
    exact .inr ⟨level, rest, hlevel, rfl, List.splitOn_append_cons_self_of_not_mem hlevel rest⟩
  · exact .inl ⟨hb, List.splitOn_eq_singleton hb⟩

theorem splitOn_eq_multi_iff : b.splitOn separator = [[multiLevel]] ↔ b = [multiLevel] := by
  constructor
  · intro h
    have hb : [separator].intercalate (b.splitOn separator) = b :=
      List.intercalate_splitOn separator
    rw [h] at hb
    exact hb.symm
  · rintro rfl
    rfl

/-- A level of a filter that stands for one level: `+`, or one without wildcards. -/
def IsOne (f : Bytes) : Prop := f = [singleLevel] ∨ ∀ x ∈ f, x ≠ multiLevel ∧ x ≠ singleLevel

theorem IsOne.ne_multi (h : IsOne f) : f ≠ [multiLevel] := by
  rintro rfl
  rcases h with heq | hplain
  · exact absurd heq (by decide)
  · exact (hplain multiLevel (List.mem_singleton_self _)).1 rfl

/-- A level of a valid filter stands for one level, or it is `#` and comes last. -/
theorem level_cases {others : List Bytes} (h : validLevels (f :: others) = true) :
    ((f = [multiLevel] ∧ others = []) ∨ IsOne f) ∧ validLevels others = true := by
  rw [validLevels, Bool.and_eq_true, Bool.and_eq_true] at h
  obtain ⟨⟨hmulti, hsingle⟩, hothers⟩ := h
  refine ⟨?_, hothers⟩
  by_cases hm : multiLevel ∈ f
  · left
    simpa [hm] using hmulti
  by_cases hs : singleLevel ∈ f
  · right; left
    simpa [hs] using hsingle
  · right; right
    rintro x hx
    exact ⟨fun heq => hm (heq ▸ hx), fun heq => hs (heq ▸ hx)⟩

/-- What follows a level is nothing, or starts with the separator. -/
def IsTail (tail : Bytes) : Prop := ∀ x ∈ tail.head?, x = separator

theorem isTail_nil : IsTail [] := nofun

theorem isTail_cons (rest : Bytes) : IsTail (separator :: rest) := by
  rintro _ ⟨⟩
  rfl

theorem dropWhile_level (hlevel : separator ∉ level) (htail : IsTail tail) :
    (level ++ tail).dropWhile (· != separator) = tail := by
  have hpass : ∀ x ∈ level, (x != separator) = true := by
    intro x hx
    exact bne_iff_ne.2 fun heq => hlevel (heq ▸ hx)
  rw [List.dropWhile_append_of_pos hpass]
  cases tail with
  | nil => rfl
  | cons x tail =>
    obtain rfl := htail x rfl
    rfl

/-- Where a level ends can be told from the bytes. -/
theorem level_append_inj {level' tail' : Bytes} (hlevel : separator ∉ level)
    (hlevel' : separator ∉ level') (htail : IsTail tail) (htail' : IsTail tail')
    (h : level ++ tail = level' ++ tail') : level = level' ∧ tail = tail' := by
  have hsame := congrArg (List.dropWhile (· != separator)) h
  rw [dropWhile_level hlevel htail, dropWhile_level hlevel' htail'] at hsame
  subst hsame
  exact ⟨List.append_cancel_right h, rfl⟩

/-! ### One pass -/

theorem scan_nil (topic : Bytes) : scan topic [] = topic.isEmpty := by
  cases topic <;> rfl

theorem scan_multi (topic filter : Bytes) : scan topic (multiLevel :: filter) = true := by
  rw [scan.eq_def]
  exact if_pos rfl

theorem scan_single (topic filter : Bytes) :
    scan topic (singleLevel :: filter) = scan (topic.dropWhile (· != separator)) filter := by
  rw [scan.eq_def]
  simp only [if_neg (show singleLevel ≠ multiLevel by decide), if_true]

/-- Any other byte has to be the topic's next one. The topic may only end where `/#` begins. -/
theorem scan_byte {x : UInt8} (hx : x ≠ multiLevel ∧ x ≠ singleLevel) (topic filter : Bytes) :
    scan topic (x :: filter) = true ↔
      (∃ rest, topic = x :: rest ∧ scan rest filter = true) ∨
        topic = [] ∧ x = separator ∧ filter = [multiLevel] := by
  rw [scan.eq_def]
  simp only [if_neg hx.1, if_neg hx.2]
  cases topic with
  | nil => simp
  | cons t topic =>
    simp only [Bool.and_eq_true, decide_eq_true_eq, List.cons.injEq, reduceCtorEq, false_and,
      or_false]
    constructor
    · rintro ⟨rfl, hscan⟩
      exact ⟨topic, ⟨rfl, rfl⟩, hscan⟩
    · rintro ⟨_, ⟨rfl, rfl⟩, hscan⟩
      exact ⟨rfl, hscan⟩

theorem scan_separator (topic filter : Bytes) :
    scan topic (separator :: filter) = true ↔
      (∃ rest, topic = separator :: rest ∧ scan rest filter = true) ∨
        topic = [] ∧ filter = [multiLevel] := by
  rw [scan_byte (by decide)]
  simp only [true_and]

theorem scan_literal {topic : Bytes}
    (hf : ∀ x ∈ f, x ≠ separator ∧ x ≠ multiLevel ∧ x ≠ singleLevel) :
    scan topic (f ++ rest) = true ↔ ∃ tail, topic = f ++ tail ∧ scan tail rest = true := by
  induction f generalizing topic with
  | nil => simp
  | cons x f ih =>
    obtain ⟨hx, hf⟩ := List.forall_mem_cons.1 hf
    rw [List.cons_append, scan_byte hx.2]
    constructor
    · rintro (⟨_, rfl, hscan⟩ | ⟨-, heq, -⟩)
      · obtain ⟨tail, rfl, htail⟩ := (ih hf).1 hscan
        exact ⟨tail, rfl, htail⟩
      · exact absurd heq hx.1
    · rintro ⟨tail, rfl, hscan⟩
      exact .inl ⟨f ++ tail, rfl, (ih hf).2 ⟨tail, rfl, hscan⟩⟩

theorem isTail_of_scan (hrest : IsTail rest) (h : scan tail rest = true) : IsTail tail := by
  cases rest with
  | nil =>
    rw [scan_nil, List.isEmpty_iff] at h
    exact h ▸ isTail_nil
  | cons x rest =>
    obtain rfl := hrest x rfl
    rcases (scan_separator _ _).1 h with ⟨left, rfl, -⟩ | ⟨rfl, -⟩
    · exact isTail_cons left
    · exact isTail_nil

/-- The pass takes a level of the filter for a level of the topic. -/
theorem scan_level (hf : separator ∉ f) (hlevel : separator ∉ level) (hone : IsOne f)
    (htail : IsTail tail) (hrest : IsTail rest) :
    scan (level ++ tail) (f ++ rest) = true ↔
      (f = [singleLevel] ∨ f = level) ∧ scan tail rest = true := by
  rcases hone with rfl | hplain
  · rw [List.singleton_append, scan_single, dropWhile_level hlevel htail]
    simp only [true_or, true_and]
  have hliteral : ∀ x ∈ f, x ≠ separator ∧ x ≠ multiLevel ∧ x ≠ singleLevel :=
    fun x hx => ⟨fun heq => hf (heq ▸ hx), hplain x hx⟩
  rw [scan_literal hliteral]
  constructor
  · rintro ⟨tail', heq, hscan⟩
    obtain ⟨rfl, rfl⟩ := level_append_inj hlevel hf htail (isTail_of_scan hrest hscan) heq
    exact ⟨.inr rfl, hscan⟩
  · rintro ⟨rfl | rfl, hscan⟩
    · exact absurd rfl (hplain singleLevel (List.mem_singleton_self _)).2
    · exact ⟨tail, rfl, hscan⟩

/-- One level of a topic is left with one level of the filter. -/
theorem selects_singleton_iff (hone : IsOne f) :
    Selects [f] (level :: topic) ↔ (f = [singleLevel] ∨ f = level) ∧ topic = [] := by
  rw [selects_cons_iff hone.ne_multi]
  refine and_congr_right fun _ => ⟨fun h => ?_, fun h => h ▸ .finished⟩
  cases h
  rfl

theorem scan_iff_selects (filter topic : Bytes)
    (hvalid : validLevels (filter.splitOn separator) = true) :
    scan topic filter = true ↔
      Selects (filter.splitOn separator) (topic.splitOn separator) := by
  induction hlength : filter.length using Nat.strongRecOn generalizing filter topic with
  | ind length ih => ?_
  rcases splitOn_cases filter with ⟨hf, hlevels⟩ | ⟨f, rest, hf, rfl, hlevels⟩
  all_goals rw [hlevels] at hvalid ⊢
  · obtain ⟨⟨rfl, -⟩ | hone, -⟩ := level_cases hvalid
    · exact iff_of_true (scan_multi topic []) (.multi _)
    -- The last level of the filter and no `#`: it has to be the topic's last.
    rcases splitOn_cases topic with ⟨ht, hlevels'⟩ | ⟨level, left, hlevel, rfl, hlevels'⟩
    · have hscan := scan_level hf ht hone isTail_nil isTail_nil
      rw [List.append_nil, List.append_nil] at hscan
      rw [hscan, hlevels', selects_singleton_iff hone, scan_nil, List.isEmpty_nil]
      simp only [and_true]
    · have hscan := scan_level hf hlevel hone (isTail_cons left) isTail_nil
      rw [List.append_nil] at hscan
      rw [hscan, hlevels', selects_singleton_iff hone, scan_nil, List.isEmpty_cons]
      simp only [Bool.false_eq_true, List.splitOn_ne_nil]
  · obtain ⟨⟨-, hnone⟩ | hone, hothers⟩ := level_cases hvalid
    · exact absurd hnone (List.splitOn_ne_nil separator rest)
    have hshorter : rest.length < length := by
      rw [← hlength, List.length_append, List.length_cons]
      omega
    rcases splitOn_cases topic with ⟨ht, hlevels'⟩ | ⟨level, left, hlevel, rfl, hlevels'⟩
    · -- The topic ends here: what is left of the filter has to be `#`.
      have hscan := scan_level hf ht hone isTail_nil (isTail_cons rest)
      rw [List.append_nil] at hscan
      rw [hscan, hlevels', selects_cons_iff hone.ne_multi, selects_nil_iff, splitOn_eq_multi_iff,
        scan_separator]
      simp only [reduceCtorEq, false_and, exists_false, true_and, List.splitOn_ne_nil]
    · rw [scan_level hf hlevel hone (isTail_cons left) (isTail_cons rest), hlevels',
        selects_cons_iff hone.ne_multi, ← ih rest.length hshorter rest left hothers rfl,
        scan_separator]
      simp only [List.cons.injEq, true_and, exists_eq_left', reduceCtorEq, false_and, or_false]

/-- A valid filter selects just those topics that its levels select, where `+` stands for one level
and `#` for any number of levels. A topic whose first byte is `$` is selected by no filter that
starts with a wildcard. -/
theorem isMatch_iff_selects {filter : Bytes} (hvalid : isValidFilter filter = true)
    (topic : Bytes) : isMatch topic filter = true ↔
      ¬ (topic.head? = some reserved ∧
          (filter.head? = some singleLevel ∨ filter.head? = some multiLevel)) ∧
        Selects (filter.splitOn separator) (topic.splitOn separator) := by
  have hlevels : validLevels (filter.splitOn separator) = true := by
    rw [isValidFilter, Bool.and_eq_true, levels_eq_splitOn] at hvalid
    exact hvalid.2
  rw [← scan_iff_selects filter topic hlevels, isMatch]
  split
  · next hreserved => simp_all
  · next hreserved => simp_all

/-- The filter `a/+/#` selects the topic `a/`, where `+` stands for the empty level behind the
separator and `#` for none. -/
theorem isMatch_parent :
    isValidFilter [0x61, 0x2f, 0x2b, 0x2f, 0x23] = true ∧
      isMatch [0x61, 0x2f] [0x61, 0x2f, 0x2b, 0x2f, 0x23] = true ∧
        Selects [[0x61], [0x2b], [0x23]] [[0x61], []] := by
  have hvalid : isValidFilter [0x61, 0x2f, 0x2b, 0x2f, 0x23] = true := by decide
  have hmatch : isMatch [0x61, 0x2f] [0x61, 0x2f, 0x2b, 0x2f, 0x23] = true := by decide
  exact ⟨hvalid, hmatch, ((isMatch_iff_selects hvalid [0x61, 0x2f]).1 hmatch).2⟩

end MqttBroker.Topic
