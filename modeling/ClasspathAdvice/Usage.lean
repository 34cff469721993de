import ClasspathAdvice.Coordinates
import ClasspathAdvice.Usage.Reason

/-!
# Usages of a dependency

A usage says in which bucket a variant uses a dependency and why. `Observations`
collects the usages of many dependencies; its `complete` form has a usage of every
dependency for every known variant.
-/

namespace ClasspathAdvice
set_option autoImplicit false

/-- The first occurrence of each element, in order. -/
def firstOccurrences {α : Type} [DecidableEq α] (l : List α) : List α :=
  l.foldl (fun seen x => if x ∈ seen then seen else seen ++ [x]) []

section

variable {α : Type} [DecidableEq α] {l : List α} {a b : α}

/-- One more element comes last, unless it is there. -/
theorem firstOccurrences_append_singleton : firstOccurrences (l ++ [a]) =
    if a ∈ firstOccurrences l then firstOccurrences l else firstOccurrences l ++ [a] := by
  rw [firstOccurrences, List.foldl_append]
  rfl

theorem mem_firstOccurrences : a ∈ firstOccurrences l ↔ a ∈ l := by
  have folded : ∀ seen : List α,
      a ∈ l.foldl (fun seen x => if x ∈ seen then seen else seen ++ [x]) seen ↔
        a ∈ seen ∨ a ∈ l := by
    induction l with
    | nil => simp
    | cons x l ih =>
      intro seen
      rw [List.foldl_cons, ih, List.mem_cons, ← or_assoc]
      refine or_congr_left ?_
      split
      · rename_i mem
        constructor
        · exact .inl
        · rintro (old | rfl)
          · exact old
          · exact mem
      · rw [List.mem_append, List.mem_singleton]
  simpa [firstOccurrences] using folded []

theorem nodup_firstOccurrences : (firstOccurrences l).Nodup := by
  have folded : ∀ seen : List α, seen.Nodup →
      (l.foldl (fun seen x => if x ∈ seen then seen else seen ++ [x]) seen).Nodup := by
    induction l with
    | nil => exact fun _ nodup => nodup
    | cons x l ih =>
      intro seen nodup
      apply ih
      dsimp only
      split
      · exact nodup
      · rename_i new
        refine List.nodup_append.2 ⟨nodup, by simp, ?_⟩
        rintro y mem z last rfl
        exact new (List.mem_singleton.1 last ▸ mem)
  exact folded [] List.nodup_nil

end

/-- How a dependency is used in one variant. -/
structure Usage where
  variant : Variant
  bucket : Bucket
  reasons : List Reason
  deriving DecidableEq, Repr

namespace Usage

/-- A usage whose reasons are listed once each. -/
def ofReasons (variant : Variant) (bucket : Bucket) (reasons : List Reason) : Usage :=
  { variant, bucket, reasons := firstOccurrences reasons }

/-- The usage that stands for a variant without any observation. -/
def undeclared (variant : Variant) : Usage := ofReasons variant .unused [.undeclared]

/-- The configuration that the usage calls for. -/
def configuration (u : Usage) : String := u.bucket.configuration u.variant

/-- Whether the dependency is used. -/
def isUsed (u : Usage) : Bool := u.bucket.isUsed

/-- Whether one of the reasons is that compile-time annotations are provided. -/
def providesCompileTimeAnnotations (u : Usage) : Bool :=
  u.reasons.any Reason.isCompileTimeAnnotations

/-- By variant, bucket and reasons. -/
def order : Usage → Usage → Ordering :=
  compareLex (compareOn (·.variant.name)) <| compareLex (compareOn (·.bucket.rank))
    (compareOn reasons)

instance : Ord Usage := ⟨order⟩

instance : Std.TransOrd Usage := by
  unfold Std.TransOrd
  change Std.TransCmp order
  unfold order
  infer_instance

instance : Std.LawfulEqOrd Usage where
  eq_of_compare {a b} h := by
    replace h : order a b = .eq := h
    simp only [order, compareLex, compareOn, Ordering.then_eq_eq] at h
    obtain ⟨name, bucket, reasons⟩ := h
    have name := Std.LawfulEqCmp.eq_of_compare name
    have bucket := Bucket.rank_inj (Std.LawfulEqCmp.eq_of_compare bucket)
    have reasons := Std.LawfulEqCmp.eq_of_compare reasons
    cases a with | mk va ba ra => cases b with | mk vb bb rb =>
    cases va; cases vb
    simp_all

/-- The usages in ascending order; equal ones keep their places. -/
def sorted (usages : List Usage) : List Usage :=
  usages.mergeSort (fun a b => (compare a b).isLE)

theorem mem_sorted {u : Usage} {usages : List Usage} : u ∈ sorted usages ↔ u ∈ usages :=
  (List.mergeSort_perm _ _).mem_iff

theorem sorted_ordered {usages : List Usage} :
    (sorted usages).Pairwise fun u w => (compare u w).isLE := pairwise_mergeSort_isLE usages

/-- Different usages are put in strictly ascending order. -/
theorem sorted_ascending {usages : List Usage} (nodup : usages.Nodup) :
    (sorted usages).Pairwise Before := by
  have apart : (sorted usages).Nodup := (List.mergeSort_perm _ _).nodup_iff.2 nodup
  refine (sorted_ordered.and apart).imp ?_
  rintro u w ⟨le, ne⟩
  cases order : compare u w with
  | lt => exact order
  | eq => exact absurd (Std.LawfulEqCmp.eq_of_compare order) ne
  | gt =>
    rw [order] at le
    cases le

end Usage

/-- The usages of dependencies, by coordinates. -/
abbrev UsageMap := OrderedMap Coordinates (List Usage)

/-- Usages as they are observed, and the variants that each dependency is to have one for. -/
structure Observations where
  variants : List Variant
  usages : UsageMap

namespace Observations

/-- No observations yet. -/
def ofVariants (variants : List Variant) : Observations :=
  { variants := firstOccurrences variants, usages := ∅ }

/-- Adds a usage, unless the same one is there. -/
def add (o : Observations) (coordinates : Coordinates) (usage : Usage) : Observations :=
  { o with usages := o.usages.alter coordinates fun found =>
      let usages := found.getD []
      if usage ∈ usages then usages else usages ++ [usage] }

/-- The usages with a placeholder for each variant that has none, in ascending order. -/
def fillGaps (variants : List Variant) (usages : List Usage) : List Usage :=
  Usage.sorted <| variants.foldl (fun usages variant =>
    if usages.any (fun u => u.variant == variant) then usages
    else usages ++ [Usage.undeclared variant]) usages

/-- The usages of each dependency, one at least for each variant. -/
def complete (o : Observations) : UsageMap :=
  o.usages.mapValues fun _ usages => fillGaps o.variants usages

end Observations

end ClasspathAdvice
