import ClasspathAdvice.Survey
import Mathlib.Data.List.Induction

/-!
# What the completed observations hold

Usages are added in some order, some of them more than once, and a variant without one gets a
placeholder. A placeholder only goes where no usage of the variant is, neither one that was
observed nor one that was put there before, so the order of variants does not matter either.
Each dependency comes out with the usages that were added and the placeholders of the variants
that none of these is in, each once and in order (`complete_ofAdditions`).
-/

namespace ClasspathAdvice
set_option autoImplicit false

namespace Observations

/-- The observations that additions make, in their order. -/
def ofAdditions (variants : List Variant) (additions : List (Coordinates × Usage)) : Observations :=
  additions.foldl (fun seen x => seen.add x.1 x.2) (ofVariants variants)

/-- The usages of a dependency among additions. -/
def usagesOf (c : Coordinates) (additions : List (Coordinates × Usage)) : List Usage :=
  additions.filterMap fun x => if x.1 = c then some x.2 else none

/-- The usages with a placeholder for a variant, unless one of them is in it. -/
def withPlaceholder (usages : List Usage) (variant : Variant) : List Usage :=
  if usages.any (fun u => u.variant == variant) then usages
  else usages ++ [Usage.undeclared variant]

/-- The usages of a dependency are those that were added, and the placeholders of the variants
that none of these is in. -/
structure Completes (variants : List Variant) (additions : List (Coordinates × Usage))
    (c : Coordinates) (usages : List Usage) : Prop where
  ascending : usages.Pairwise Before
  mem_iff : ∀ u, u ∈ usages ↔ (c, u) ∈ additions ∨
    ∃ v ∈ variants, (∀ w, (c, w) ∈ additions → w.variant ≠ v) ∧ u = Usage.undeclared v

variable {variants variants' : List Variant} {additions additions' : List (Coordinates × Usage)}
  {c : Coordinates} {u : Usage} {usages usages' : List Usage} {v : Variant}

/-! ## Additions -/

theorem mem_usagesOf : u ∈ usagesOf c additions ↔ (c, u) ∈ additions := by
  simp only [usagesOf, List.mem_filterMap, Option.ite_none_right_eq_some, Option.some.injEq]
  constructor
  · rintro ⟨x, mem, rfl, rfl⟩
    exact mem
  · exact fun mem => ⟨_, mem, rfl, rfl⟩

theorem ofAdditions_append_singleton (x : Coordinates × Usage) :
    ofAdditions variants (additions ++ [x]) = (ofAdditions variants additions).add x.1 x.2 := by
  rw [ofAdditions, List.foldl_append]
  rfl

theorem variants_ofAdditions :
    (ofAdditions variants additions).variants = firstOccurrences variants := by
  induction additions using List.reverseRecOn with
  | nil => rfl
  | append_singleton additions x ih =>
    rw [ofAdditions_append_singleton]
    exact ih

/-- A dependency has the first occurrences of its usages, if there are any. -/
theorem get?_ofAdditions : (ofAdditions variants additions).usages.get? c =
    if usagesOf c additions = [] then none
    else some (firstOccurrences (usagesOf c additions)) := by
  induction additions using List.reverseRecOn with
  | nil => rfl
  | append_singleton additions x ih =>
    rw [ofAdditions_append_singleton, add, OrderedMap.get?_alter]
    by_cases here : c = x.1
    · subst here
      have known : ((ofAdditions variants additions).usages.get? x.1).getD [] =
          firstOccurrences (usagesOf x.1 additions) := by
        rw [ih]
        split
        · rename_i none
          rw [none]
          rfl
        · rfl
      have more : usagesOf x.1 (additions ++ [x]) = usagesOf x.1 additions ++ [x.2] := by
        simp [usagesOf]
      have some : usagesOf x.1 additions ++ [x.2] ≠ [] :=
        List.append_ne_nil_of_right_ne_nil _ (List.cons_ne_nil _ _)
      rw [if_pos rfl, known, more, if_neg some, firstOccurrences_append_singleton]
    · have same : usagesOf c (additions ++ [x]) = usagesOf c additions := by
        simp [usagesOf, Ne.symm here]
      rw [if_neg here, ih, same]

/-! ## Placeholders -/

theorem fillGaps_eq : fillGaps variants usages =
    Usage.sorted (variants.foldl withPlaceholder usages) := rfl

/-- A placeholder is added exactly if no usage is in the variant. -/
theorem mem_withPlaceholder : u ∈ withPlaceholder usages v ↔
    u ∈ usages ∨ (∀ w ∈ usages, w.variant ≠ v) ∧ u = Usage.undeclared v := by
  rw [withPlaceholder]
  split
  · rename_i known
    obtain ⟨w, mem, same⟩ := List.any_eq_true.1 known
    refine (or_iff_left ?_).symm
    exact fun missing => missing.1 w mem (beq_iff_eq.1 same)
  · rename_i unknown
    rw [List.mem_append, List.mem_singleton]
    refine or_congr_right (iff_and_self.2 fun _ w mem same => unknown ?_)
    exact List.any_eq_true.2 ⟨w, mem, beq_iff_eq.2 same⟩

theorem nodup_withPlaceholder (nodup : usages.Nodup) : (withPlaceholder usages v).Nodup := by
  rw [withPlaceholder]
  split
  · exact nodup
  · rename_i unknown
    refine List.nodup_append.2 ⟨nodup, by simp, ?_⟩
    rintro u mem _ last rfl
    rw [List.mem_singleton.1 last] at mem
    exact unknown (List.any_eq_true.2 ⟨_, mem, beq_self_eq_true v⟩)

/-- The placeholders that are there at the end are those of the variants that were missing at the
start: one that was added meanwhile only fills its own gap. -/
theorem mem_foldl_withPlaceholder : u ∈ variants.foldl withPlaceholder usages ↔
    u ∈ usages ∨ ∃ v ∈ variants, (∀ w ∈ usages, w.variant ≠ v) ∧ u = Usage.undeclared v := by
  induction variants generalizing usages with
  | nil => simp
  | cons v variants ih =>
    rw [List.foldl_cons, ih]
    simp only [mem_withPlaceholder, List.mem_cons, exists_eq_or_imp, or_imp, forall_and, or_assoc]
    refine or_congr_right ?_
    constructor
    · rintro (first | ⟨v', mem, ⟨missing, -⟩, eq⟩)
      · exact .inl first
      · exact .inr ⟨v', mem, missing, eq⟩
    · rintro (first | ⟨v', mem, missing, eq⟩)
      · exact .inl first
      · by_cases same : v' = v
        · subst same
          exact .inl ⟨missing, eq⟩
        · refine .inr ⟨v', mem, ⟨missing, ?_⟩, eq⟩
          rintro _ ⟨-, rfl⟩
          exact Ne.symm same

theorem nodup_foldl_withPlaceholder (nodup : usages.Nodup) :
    (variants.foldl withPlaceholder usages).Nodup := by
  induction variants generalizing usages with
  | nil => exact nodup
  | cons v variants ih => exact ih (nodup_withPlaceholder nodup)

/-! ## The completed observations -/

theorem get?_complete : (ofAdditions variants additions).complete.get? c =
    if usagesOf c additions = [] then none
    else some (fillGaps (firstOccurrences variants) (firstOccurrences (usagesOf c additions))) := by
  rw [complete, OrderedMap.get?_mapValues, variants_ofAdditions, get?_ofAdditions]
  split <;> rfl

theorem get?_complete_eq_none_iff :
    (ofAdditions variants additions).complete.get? c = none ↔ ∀ u, (c, u) ∉ additions := by
  rw [get?_complete]
  simp only [ite_eq_left_iff, reduceCtorEq, imp_false, not_not, List.eq_nil_iff_forall_not_mem,
    mem_usagesOf]

/-- There are usages of the dependencies for which some were added. -/
theorem mem_keys_complete :
    c ∈ (ofAdditions variants additions).complete.keys ↔ ∃ u, (c, u) ∈ additions := by
  rw [← not_iff_not, ← OrderedMap.get?_eq_none_iff, get?_complete_eq_none_iff, not_exists]

theorem completes_of_get? (found : (ofAdditions variants additions).complete.get? c = some usages) :
    Completes variants additions c usages := by
  rw [get?_complete] at found
  split at found
  · cases found
  · obtain rfl := Option.some.inj found
    rw [fillGaps_eq]
    constructor
    case ascending => exact Usage.sorted_ascending (nodup_foldl_withPlaceholder nodup_firstOccurrences)
    case mem_iff =>
      intro u
      rw [Usage.mem_sorted, mem_foldl_withPlaceholder]
      simp only [mem_firstOccurrences, mem_usagesOf]

theorem exists_completes (variants : List Variant) (mem : (c, u) ∈ additions) :
    ∃ usages, (ofAdditions variants additions).complete.get? c = some usages ∧
      Completes variants additions c usages := by
  cases found : (ofAdditions variants additions).complete.get? c with
  | none => exact absurd mem (get?_complete_eq_none_iff.1 found u)
  | some usages => exact ⟨usages, rfl, completes_of_get? found⟩

/-- Additions that are the same as sets, for the same variants, complete the same usages. -/
theorem Completes.eq_of_same (h : Completes variants additions c usages)
    (h' : Completes variants' additions' c usages') (known : ∀ v, v ∈ variants ↔ v ∈ variants')
    (added : ∀ x, x ∈ additions ↔ x ∈ additions') : usages = usages' := by
  refine OrderedSet.eq_of_mem_iff h.ascending h'.ascending fun u => ?_
  rw [h.mem_iff, h'.mem_iff]
  simp only [known, added]

/-- For all variants and additions, the completed observations are of the dependencies for which a
usage was added. The usages of each are in strictly ascending order, and are those that were added
for it and the placeholders of the variants that none of these is in. So neither the order of the
additions nor that of the variants matters, nor do repetitions. -/
theorem complete_ofAdditions (variants : List Variant) (additions : List (Coordinates × Usage)) :
    (∀ c, c ∈ (ofAdditions variants additions).complete.keys ↔ ∃ u, (c, u) ∈ additions) ∧
    (∀ c u, (c, u) ∈ additions →
      ∃ usages, (ofAdditions variants additions).complete.get? c = some usages ∧
        Completes variants additions c usages) ∧
    ∀ variants' additions', (∀ v, v ∈ variants ↔ v ∈ variants') →
      (∀ x, x ∈ additions ↔ x ∈ additions') →
      (ofAdditions variants additions).complete = (ofAdditions variants' additions').complete := by
  refine ⟨fun c => mem_keys_complete, fun c u => exists_completes variants, ?_⟩
  intro variants' additions' known added
  apply OrderedMap.ext_get?
  intro c
  by_cases some : ∃ u, (c, u) ∈ additions
  · obtain ⟨u, mem⟩ := some
    obtain ⟨usages, found, completes⟩ := exists_completes variants mem
    obtain ⟨usages', found', completes'⟩ := exists_completes variants' ((added (c, u)).1 mem)
    rw [found, found', completes.eq_of_same completes' known added]
  · have none : ∀ u, (c, u) ∉ additions := not_exists.1 some
    have none' : ∀ u, (c, u) ∉ additions' := fun u mem => none u ((added (c, u)).2 mem)
    rw [get?_complete_eq_none_iff.2 none, get?_complete_eq_none_iff.2 none']

/-- A library is used in a variant in two ways, one of which is added twice. However that is
ordered, it has both usages, and a placeholder for the other variant alone. -/
theorem complete_ofAdditions_reordered :
    let debug : Variant := ⟨"debug"⟩
    let release : Variant := ⟨"release"⟩
    let lib := Coordinates.library "g:lib" "1"
    let other := Coordinates.library "g:other" "1"
    let api := Usage.mk debug .api []
    let implementation := Usage.mk debug .implementation [.imported ["g.Lib"]]
    let additions := [(lib, api), (lib, implementation), (other, .mk .main .unused [])]
    let additions' :=
      [(lib, implementation), (other, .mk .main .unused []), (lib, api), (lib, implementation)]
    (∀ v, v ∈ [debug, release] ↔ v ∈ [release, debug, release]) ∧
      (∀ x, x ∈ additions ↔ x ∈ additions') ∧
      (ofAdditions [debug, release] additions).complete =
        (ofAdditions [release, debug, release] additions').complete ∧
      (ofAdditions [debug, release] additions).complete.get? lib =
        some [api, implementation, .undeclared release] := by
  intro debug release lib other api implementation additions additions'
  have known : ∀ v, v ∈ [debug, release] ↔ v ∈ [release, debug, release] := by
    intro v
    simp only [List.mem_cons, List.not_mem_nil, or_false]
    tauto
  have added : ∀ x, x ∈ additions ↔ x ∈ additions' := by
    intro x
    simp only [additions, additions', List.mem_cons, List.not_mem_nil, or_false]
    tauto
  obtain ⟨-, usages, same⟩ := complete_ofAdditions [debug, release] additions
  obtain ⟨listed, found, completes⟩ := usages lib api List.mem_cons_self
  refine ⟨known, added, same _ _ known added, found.trans (congrArg some ?_)⟩
  refine OrderedSet.eq_of_mem_iff completes.ascending (by decide) fun u => ?_
  have inDebug : ∀ w, (lib, w) ∈ additions ↔ w = api ∨ w = implementation := by
    intro w
    simp [additions, lib, other, Coordinates.library]
  rw [completes.mem_iff]
  simp [inDebug, api, implementation, debug, release, or_assoc]

end Observations

/-- A survey completes the usages that it observed. -/
theorem Survey.completeUsages_eq (s : Survey) : s.completeUsages =
    (Observations.ofAdditions s.knownVariants s.observed).complete := rfl

end ClasspathAdvice
