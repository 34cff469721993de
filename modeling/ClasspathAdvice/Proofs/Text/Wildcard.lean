import ClasspathAdvice.Text.Wildcard

/-!
# The texts that a pattern stands for

`Expands` is the language of patterns: a text is had from a pattern by putting some run of
characters in the place of each star. The matcher commits to the leftmost occurrence of each
part between two stars. That loses nothing: the pattern that is left begins with a star, and
what such a pattern expands to may grow at its front (`Expands.of_suffix`), so the longest
rest is as good as any other (`afterFirst_longest`). Hence the matcher accepts exactly the
texts that the pattern expands to (`isMatch_iff_expands`).
-/

namespace ClasspathAdvice.Text.Wildcard
set_option autoImplicit false

/-- The text is had from the pattern by putting a run of characters in the place of each star. -/
inductive Expands : List Char → List Char → Prop where
  | nil : Expands [] []
  | char {c : Char} {pattern text : List Char} (literal : c ≠ '*') (h : Expands pattern text) :
      Expands (c :: pattern) (c :: text)
  | star {pattern text : List Char} (run : List Char) (h : Expands pattern text) :
      Expands ('*' :: pattern) (run ++ text)

variable {pattern text part rest r : List Char} {parts : List (List Char)}

theorem expands_star_iff : Expands ('*' :: pattern) text ↔ ∃ r, r <:+ text ∧ Expands pattern r := by
  constructor
  · intro h
    cases h with
    | char literal => exact absurd rfl literal
    | star run h => exact ⟨_, List.suffix_append run _, h⟩
  · rintro ⟨r, ⟨run, rfl⟩, h⟩
    exact .star run h

/-- What a pattern expands to may grow at its front if the pattern begins with a star. -/
theorem Expands.of_suffix (h : Expands ('*' :: pattern) rest) (suffix : rest <:+ text) :
    Expands ('*' :: pattern) text := by
  obtain ⟨r, hr, h⟩ := expands_star_iff.1 h
  exact expands_star_iff.2 ⟨r, hr.trans suffix, h⟩

/-- A part without stars stands for itself. -/
theorem expands_append_iff (literal : '*' ∉ part) :
    Expands (part ++ pattern) text ↔ ∃ rest, text = part ++ rest ∧ Expands pattern rest := by
  induction part generalizing text with
  | nil => simp
  | cons c part ih =>
    have ne : c ≠ '*' := (List.ne_of_not_mem_cons literal).symm
    have word : '*' ∉ part := List.not_mem_of_not_mem_cons literal
    constructor
    · intro h
      cases h with
      | char _ h =>
        obtain ⟨rest, rfl, onward⟩ := (ih word).1 h
        exact ⟨rest, rfl, onward⟩
      | star => exact absurd rfl ne
    · rintro ⟨rest, rfl, h⟩
      exact .char ne ((ih word).2 ⟨rest, rfl, h⟩)

theorem expands_nil_iff : Expands [] text ↔ text = [] :=
  ⟨fun h => by cases h; rfl, fun h => h ▸ .nil⟩

/-- A pattern without stars stands for itself only. -/
theorem expands_literal_iff (literal : '*' ∉ part) : Expands part text ↔ text = part := by
  have whole : Expands (part ++ []) text ↔ _ := expands_append_iff literal
  simpa [expands_nil_iff] using whole

/-! ## The leftmost occurrence -/

theorem occurs_cons_iff {c : Char} :
    part ++ r <:+ c :: text ↔ part ++ r = c :: text ∨ part ++ r <:+ text := List.suffix_cons_iff

/-- What follows the leftmost occurrence follows an occurrence, and is the longest such rest. -/
theorem afterFirst_longest (h : afterFirst part text = some rest) :
    part ++ rest <:+ text ∧ ∀ r, part ++ r <:+ text → r <:+ rest := by
  induction text with
  | nil =>
    simp only [afterFirst] at h
    split at h
    · rename_i empty
      cases h
      rw [List.isEmpty_iff.1 empty]
      exact ⟨List.suffix_rfl, fun r hr => hr⟩
    · cases h
  | cons c text ih =>
    simp only [afterFirst] at h
    split at h
    · rename_i here
      obtain ⟨after, split⟩ := List.isPrefixOf_iff_prefix.1 here
      have drop : rest = after := by
        rw [← Option.some.inj h, ← split, List.drop_left]
      subst drop
      refine ⟨split ▸ List.suffix_rfl, fun r hr => ?_⟩
      -- both rests end the text, and no occurrence is further left
      refine List.suffix_of_suffix_length_le ((List.suffix_append part r).trans hr)
        (split ▸ List.suffix_append part rest) ?_
      have len := hr.length_le
      rw [← split, List.length_append, List.length_append] at len
      omega
    · rename_i elsewhere
      obtain ⟨occurs, longest⟩ := ih h
      refine ⟨occurs.trans (List.suffix_cons c text), fun r hr => ?_⟩
      rcases occurs_cons_iff.1 hr with here | hr
      · exact absurd (List.isPrefixOf_iff_prefix.2 ⟨r, here⟩) elsewhere
      · exact longest r hr

/-- Nothing is found only if there is no occurrence. -/
theorem not_occurs_of_afterFirst (h : afterFirst part text = none) : ¬ part ++ r <:+ text := by
  induction text with
  | nil =>
    simp only [afterFirst] at h
    split at h
    · cases h
    · rename_i notEmpty
      intro hr
      have none := List.suffix_nil.1 hr
      exact notEmpty (List.isEmpty_iff.2 (List.append_eq_nil_iff.1 none).1)
  | cons c text ih =>
    simp only [afterFirst] at h
    split at h
    · cases h
    · rename_i elsewhere
      intro hr
      rcases occurs_cons_iff.1 hr with here | hr
      · exact elsewhere (List.isPrefixOf_iff_prefix.2 ⟨r, here⟩)
      · exact ih h hr

/-! ## The parts of a pattern -/

/-- The pattern of parts that each stand behind a star. -/
def behindStars (parts : List (List Char)) : List Char := parts.flatMap ('*' :: ·)

theorem joinWith_eq (first : List Char) (parts : List (List Char)) :
    joinWith '*' (first :: parts) = first ++ behindStars parts := by
  induction parts generalizing first with
  | nil => simp [joinWith, behindStars]
  | cons part parts ih =>
    rw [joinWith, ih]
    · rfl
    · exact List.cons_ne_nil _ _

/-- To take the leftmost occurrence of each part is to expand the pattern of the parts. -/
theorem matchesParts_iff (literal : ∀ part ∈ parts, '*' ∉ part) :
    matchesParts parts text = true ↔ Expands (behindStars parts) text := by
  fun_induction matchesParts parts text with
  | case1 text => rw [List.isEmpty_iff, behindStars, List.flatMap_nil, expands_nil_iff]
  | case2 last text =>
    have word := literal last List.mem_cons_self
    have pattern : behindStars [last] = '*' :: last := by simp [behindStars]
    rw [pattern, expands_star_iff, List.isSuffixOf_iff_suffix]
    simp only [expands_literal_iff word]
    exact ⟨fun h => ⟨last, h, rfl⟩, fun ⟨_, h, eq⟩ => eq ▸ h⟩
  | case3 part parts text notLast rest found ih =>
    obtain ⟨word, words⟩ := List.forall_mem_cons.1 literal
    obtain ⟨occurs, longest⟩ := afterFirst_longest found
    obtain ⟨next, others, rfl⟩ := List.exists_cons_of_ne_nil notLast
    rw [ih words]
    change _ ↔ Expands ('*' :: (part ++ behindStars (next :: others))) text
    rw [expands_star_iff]
    simp only [expands_append_iff word]
    constructor
    · intro h
      exact ⟨part ++ rest, occurs, rest, rfl, h⟩
    · -- another choice for this part leaves a rest that ends the one taken
      rintro ⟨_, hr, r, rfl, h⟩
      exact h.of_suffix (longest r hr)
  | case4 part parts text notLast missing =>
    obtain ⟨word, -⟩ := List.forall_mem_cons.1 literal
    change _ ↔ Expands ('*' :: (part ++ behindStars parts)) text
    rw [expands_star_iff]
    simp only [expands_append_iff word, Bool.false_eq_true, false_iff]
    rintro ⟨_, hr, r, rfl, -⟩
    exact not_occurs_of_afterFirst missing hr

/-- A text is accepted exactly if the pattern expands to it. A pattern without stars accepts
itself only. -/
theorem isMatch_iff_expands (pattern text : String) :
    (isMatch pattern text = true ↔ Expands pattern.toList text.toList) ∧
      ('*' ∉ pattern.toList → (isMatch pattern text = true ↔ text = pattern)) := by
  have accepts : isMatch pattern text = true ↔ Expands pattern.toList text.toList := by
    have join := joinWith_splitAt '*' pattern.toList
    have literal : ∀ part ∈ splitAt '*' pattern.toList, '*' ∉ part :=
      fun part => not_mem_of_mem_splitAt
    rw [isMatch]
    split
    · rename_i none
      exact absurd none (splitAt_ne_nil _ _)
    · rename_i whole eq
      rw [eq] at join literal
      rw [← join, joinWith, expands_literal_iff (literal whole List.mem_cons_self), beq_iff_eq]
    · rename_i first parts _ eq
      rw [eq] at join literal
      obtain ⟨word, words⟩ := List.forall_mem_cons.1 literal
      rw [← join, joinWith_eq, expands_append_iff word, Bool.and_eq_true,
        List.isPrefixOf_iff_prefix, matchesParts_iff words]
      constructor
      · rintro ⟨⟨rest, eq⟩, h⟩
        rw [← eq, List.drop_left] at h
        exact ⟨rest, eq.symm, h⟩
      · rintro ⟨rest, eq, h⟩
        rw [eq, List.drop_left]
        exact ⟨List.prefix_append first rest, h⟩
  refine ⟨accepts, fun literal => ?_⟩
  rw [accepts, expands_literal_iff literal, String.toList_inj]

/-- The beginning and the end of a text may not overlap, and the first occurrence of a middle
part need not be the one that is meant. -/
theorem isMatch_iff_expands_overlap :
    ¬ Expands "aba*aba".toList "ababa".toList ∧ Expands "*ab*abc".toList "abxababc".toList ∧
      '*' ∉ ":login".toList ∧ ":logout" ≠ ":login" := by
  have literal : '*' ∉ ":login".toList := by decide
  refine ⟨fun h => ?_, ?_, literal, fun h => ?_⟩
  · exact absurd ((isMatch_iff_expands "aba*aba" "ababa").1.2 h) (by decide)
  · exact (isMatch_iff_expands "*ab*abc" "abxababc").1.1 (by decide)
  · exact absurd (((isMatch_iff_expands ":login" ":logout").2 literal).2 h) (by decide)

end ClasspathAdvice.Text.Wildcard
