import ClasspathAdvice.Proofs.Reduction.Application
import ClasspathAdvice.Proofs.Reduction.Coverage

/-!
# What advice depends on

The plan reads the variant and the bucket of a usage and not its reasons. The reasons have a
say in the order of usages only where variant and bucket are the same, and there it does not
matter. So the plan is the same for usages that are the same once they are `bare`, in any order
(`plan_eq_of_perm`), and advice depends on the declarations of the dependency as a set and on
the usages as a multiset of variants and buckets (`reduce_eq_of_same`).
-/

namespace ClasspathAdvice.Reduction
set_option autoImplicit false

/-- A usage without its reasons. -/
def bare (u : Usage) : Usage := { u with reasons := [] }

variable {usages usages' : List Usage} {declared : List Declaration} {u w : Usage}

@[simp] theorem variant_bare : (bare u).variant = u.variant := rfl

@[simp] theorem bucket_bare : (bare u).bucket = u.bucket := rfl

/-! ## Usages in order -/

theorem bare_eq_of_compare (h : compare (bare u) (bare w) = .eq) : bare u = bare w := by
  rw [compare_usage, Ordering.then_eq_eq, Ordering.then_eq_eq] at h
  obtain ⟨name, rank, -⟩ := h
  have name : u.variant.name = w.variant.name := Std.LawfulEqCmp.eq_of_compare name
  have bucket : u.bucket = w.bucket := Bucket.rank_inj (Std.LawfulEqCmp.eq_of_compare rank)
  unfold bare
  rw [Usage.mk.injEq, bucket]
  exact ⟨congrArg Variant.mk name, rfl, rfl⟩

/-- Usages in order are in order without their reasons. -/
theorem compare_bare_isLE (h : (compare u w).isLE) : (compare (bare u) (bare w)).isLE := by
  rw [compare_usage] at h ⊢
  simp only [variant_bare, bucket_bare]
  cases name : compare u.variant.name w.variant.name with
  | lt => rfl
  | gt => simp [name] at h
  | eq =>
    cases rank : compare u.bucket.rank w.bucket.rank with
    | lt => rfl
    | gt => simp [name, rank] at h
    | eq => rfl

/-- Usages that are the same without their reasons, in any order, are so in order. -/
theorem map_bare_sorted (perm : (usages.map bare).Perm (usages'.map bare)) :
    (Usage.sorted usages).map bare = (Usage.sorted usages').map bare := by
  have ordered : ∀ l : List Usage, ((Usage.sorted l).map bare).Pairwise fun u w =>
      (compare u w).isLE := by
    intro l
    exact List.pairwise_map.2 (Usage.sorted_ordered.imp compare_bare_isLE)
  have sorted : ∀ l : List Usage, ((Usage.sorted l).map bare).Perm (l.map bare) := fun l =>
    (List.mergeSort_perm l _).map bare
  have same := (sorted usages).trans (perm.trans (sorted usages').symm)
  refine List.Perm.eq_of_pairwise (fun a b ha hb le ge => ?_) (ordered _) (ordered _) same
  obtain ⟨u, -, rfl⟩ := List.mem_map.1 ha
  obtain ⟨w, -, rfl⟩ := List.mem_map.1 hb
  exact bare_eq_of_compare (Std.OrientedCmp.isLE_antisymm le ge)

/-! ## The plan does not read reasons -/

theorem find?_map_bare (v : Variant) : (usages.map bare).find? (·.variant == v) =
    (usages.find? (·.variant == v)).map bare := by
  rw [List.find?_map]
  rfl

theorem eraseP_map_bare (v : Variant) : (usages.map bare).eraseP (·.variant == v) =
    (usages.eraseP (·.variant == v)).map bare := by
  rw [List.eraseP_map]
  rfl

/-- Declarations are paired with the same usages when these are without reasons. -/
theorem pair_map_bare : pair declared (usages.map bare) =
    { pairs := (pair declared usages).pairs.map fun e => (e.1, bare e.2)
      unpaired := (pair declared usages).unpaired
      remaining := (pair declared usages).remaining.map bare } := by
  induction declared generalizing usages with
  | nil => rfl
  | cons d declared ih =>
    unfold pair
    rw [find?_map_bare]
    cases usages.find? (·.variant == d.variant) with
    | some u =>
      simp only [Option.map_some]
      rw [eraseP_map_bare, ih]
      rfl
    | none =>
      simp only [Option.map_none]
      rw [ih]

theorem filter_isUsed_map_bare :
    (usages.map bare).filter Usage.isUsed = (usages.filter Usage.isUsed).map bare := by
  rw [List.filter_map]
  rfl

theorem steps_map_bare : (pair declared (usages.map bare)).steps = (pair declared usages).steps := by
  have leftover : (pair declared (usages.map bare)).leftover =
      (pair declared usages).leftover.map bare := by
    rw [Pairing.leftover, pair_map_bare]
    exact filter_isUsed_map_bare
  have main : (pair declared (usages.map bare)).main? = (pair declared usages).main? := by
    rw [Pairing.main?, pair_map_bare]
    rfl
  rw [Pairing.steps, leftover, main, pair_map_bare, List.map_map, List.map_map]
  rfl

theorem differingPlan_map_bare :
    differingPlan (usages.map bare) declared = differingPlan usages declared := by
  match declared with
  | [] =>
    simp only [differingPlan]
    rw [filter_isUsed_map_bare, List.map_map]
    rfl
  | [d] =>
    simp only [differingPlan]
    rw [filter_isUsed_map_bare, List.map_map]
    rfl
  | d :: e :: rest => exact steps_map_bare

/-! ## Usages that agree -/

theorem agree_eq_of_perm (perm : (usages.map (·.bucket)).Perm (usages'.map (·.bucket))) :
    agree usages = agree usages' := by
  have buckets : ∀ l : List Usage, agree l ↔ ∃ b, ∀ k ∈ l.map (·.bucket), k = b := by
    intro l
    rw [agree_iff]
    simp
  rw [Bool.eq_iff_iff, buckets, buckets]
  simp only [perm.mem_iff]

theorem sharedBucket_eq_of_perm (perm : (usages.map (·.bucket)).Perm (usages'.map (·.bucket)))
    (h : agree usages) : sharedBucket usages = sharedBucket usages' := by
  obtain ⟨b, all⟩ := agree_iff.1 h
  have all' : ∀ u ∈ usages', u.bucket = b := by
    intro u mem
    obtain ⟨w, isUsage, eq⟩ := List.mem_map.1 (perm.mem_iff.2 (List.mem_map.2 ⟨u, mem, rfl⟩))
    exact eq.symm.trans (all w isUsage)
  by_cases none : usages = []
  · subst none
    obtain rfl : usages' = [] := by simpa using perm
    rfl
  · have none' : usages' ≠ [] := by
      rintro rfl
      exact none (by simpa using perm)
    rw [sharedBucket_eq all none, sharedBucket_eq all' none']

/-! ## Two runs -/

/-- The plan is the same for usages that are the same without their reasons, in any order. -/
theorem plan_eq_of_perm (perm : (usages.map bare).Perm (usages'.map bare)) :
    plan declared usages = plan declared usages' := by
  have buckets : (usages.map (·.bucket)).Perm (usages'.map (·.bucket)) := by
    simpa [Function.comp_def] using perm.map (·.bucket)
  unfold plan
  by_cases h : agree usages = true
  · have h' : agree usages' = true := (agree_eq_of_perm buckets).symm.trans h
    rw [if_pos h, if_pos h', sharedBucket_eq_of_perm buckets h]
  · have h' : ¬ agree usages' = true := by rwa [← agree_eq_of_perm buckets]
    rw [if_neg h, if_neg h', ← differingPlan_map_bare, map_bare_sorted perm, differingPlan_map_bare]

theorem matching_eq_of_same {coordinates : Coordinates} {declarations declarations' : List Declaration}
    (same : ∀ d : Declaration, d.identifier = coordinates.identifier →
      (d ∈ declarations ↔ d ∈ declarations')) :
    matching coordinates declarations = matching coordinates declarations' := by
  refine OrderedSet.eq_of_mem_iff (OrderedSet.ascending _) (OrderedSet.ascending _) fun d => ?_
  rw [mem_matching, mem_matching]
  constructor
  · exact fun ⟨mem, identifier⟩ => ⟨(same d identifier).1 mem, identifier⟩
  · exact fun ⟨mem, identifier⟩ => ⟨(same d identifier).2 mem, identifier⟩

/-- Two reductions with the same declarations of the dependency, as sets, and the same variants
and buckets of usages, as multisets, come to the same. -/
theorem reduce_eq_of_same (coordinates : Coordinates) (declarations declarations' : List Declaration)
    (usages usages' : List Usage)
    (declared : ∀ d : Declaration, d.identifier = coordinates.identifier →
      (d ∈ declarations ↔ d ∈ declarations'))
    (observed : (usages.map fun u => (u.variant, u.bucket)).Perm
      (usages'.map fun u => (u.variant, u.bucket))) :
    reduce coordinates declarations usages = reduce coordinates declarations' usages' := by
  have perm : (usages.map bare).Perm (usages'.map bare) := by
    have made := observed.map fun p => Usage.mk p.1 p.2 []
    rw [List.map_map, List.map_map] at made
    exact made
  by_cases none : usages = []
  · subst none
    obtain rfl : usages' = [] := by simpa using observed.symm.eq_nil
    rw [reduce_nil, reduce_nil]
  · have none' : usages' ≠ [] := by
      rintro rfl
      exact none (by simpa using observed.eq_nil)
    rw [reduce_eq_simplify none, reduce_eq_simplify none', matching_eq_of_same declared,
      plan_eq_of_perm perm]

/-- Neither the order of two usages of a variant nor their reasons matter, nor do a declaration
that is repeated and one of another dependency. -/
theorem reduce_eq_of_same_lib :
    let other : Declaration :=
      { identifier := "com.example:other", configuration := "api", variant := .main, bucket := .api
        bucket_eq := by decide }
    let declarations' := [libDeclared, other, libDeclared]
    let usages := [Usage.mk .main .implementation [.imported ["a"]],
      Usage.mk .main .implementation [], Usage.mk ⟨"debug"⟩ .api []]
    let usages' := [Usage.mk ⟨"debug"⟩ .api [.abi ["b"]], Usage.mk .main .implementation [],
      Usage.mk .main .implementation [.constant ["c"]]]
    (∀ d : Declaration, d.identifier = lib.identifier →
      (d ∈ [libDeclared] ↔ d ∈ declarations')) ∧
    (usages.map fun u => (u.variant, u.bucket)).Perm (usages'.map fun u => (u.variant, u.bucket)) ∧
    reduce lib [libDeclared] usages = reduce lib declarations' usages' := by
  intro other declarations' usages usages'
  have declared : ∀ d : Declaration, d.identifier = lib.identifier →
      (d ∈ [libDeclared] ↔ d ∈ declarations') := by
    intro d identifier
    have foreign : d ≠ other := by
      rintro rfl
      exact absurd identifier (by decide)
    simp [declarations', foreign]
  have observed : (usages.map fun u => (u.variant, u.bucket)).Perm
      (usages'.map fun u => (u.variant, u.bucket)) := by decide
  exact ⟨declared, observed,
    reduce_eq_of_same lib [libDeclared] declarations' usages usages' declared observed⟩

end ClasspathAdvice.Reduction
