import ClasspathAdvice.Proofs.Reduction.Stability

/-!
# Declarations that are correct already

A dependency is declared correctly if each variant that uses it declares it just where its usage
calls for it (`calledFor`). Every case of the reduction meets such declarations, and each tells in
its own way that they are right: by the bucket of the only one, by configurations that are the
same, by pairs without leftovers. Only where the main variant is among several that agree is there
something to say, since its declaration covers the others (`reduce_calledFor`).
-/

namespace ClasspathAdvice.Reduction
set_option autoImplicit false

/-- The declarations that the used usages of a dependency call for, in the variants of the
usages. -/
def calledFor (identifier : String) (usages : List Usage) : List Declaration :=
  (usages.filter Usage.isUsed).filterMap fun u =>
    (Declaration.ofVariant identifier u.configuration u.variant).toOption

/-- Several variants agree on a bucket, and the main one is among them. -/
structure CoveredByMain (usages : List Usage) : Prop where
  agree : agree usages = true
  main : .main ∈ usages.map (·.variant)
  several : 2 ≤ usages.length

variable {identifier : String} {c : Coordinates} {usages : List Usage} {declared : List Declaration}
  {d : Declaration} {u w : Usage} {b : Bucket}

/-! ## What is called for -/

/-- The declaration that a used usage calls for is the one on its configuration. -/
theorem ofVariant_toOption (used : u.isUsed = true) :
    (Declaration.ofVariant identifier u.configuration u.variant).toOption =
      declarationOn? identifier u.configuration := by
  have named : Variant.named? u.configuration = some u.variant := Variant.named?_configuration used
  rw [declarationOn?, named, Option.bind_some]

theorem mem_calledFor : d ∈ calledFor identifier usages ↔
    ∃ u ∈ usages, u.isUsed ∧ declarationOn? identifier u.configuration = some d := by
  rw [calledFor, List.mem_filterMap]
  constructor
  · intro h
    obtain ⟨u, mem, made⟩ := h
    obtain ⟨isUsage, used⟩ := List.mem_filter.1 mem
    rw [ofVariant_toOption used] at made
    exact ⟨u, isUsage, used, made⟩
  · intro h
    obtain ⟨u, isUsage, used, made⟩ := h
    refine ⟨u, List.mem_filter.2 ⟨isUsage, used⟩, ?_⟩
    rw [ofVariant_toOption used]
    exact made

/-- Each used usage has its declaration. -/
theorem map_configuration_calledFor :
    (calledFor identifier usages).map (·.configuration) =
      (usages.filter Usage.isUsed).map Usage.configuration := by
  rw [calledFor, List.map_filterMap, ← List.filterMap_eq_map]
  apply List.filterMap_congr
  intro u mem
  have used : u.isUsed = true := (List.mem_filter.1 mem).2
  obtain ⟨d, made, -, at_u, -⟩ := declarationOn?_configuration identifier u.variant used
  have isMade : declarationOn? identifier u.configuration = some d := made
  rw [ofVariant_toOption used, isMade, Option.map_some, at_u]
  rfl

/-! ## One usage in each variant -/

section

variable (single : (usages.map (·.variant)).Nodup)
include single

theorem eq_of_configuration (hu : u ∈ usages) (hw : w ∈ usages) (uUsed : u.isUsed = true)
    (wUsed : w.isUsed = true) (same : u.configuration = w.configuration) : u = w := by
  have variant : u.variant = w.variant := (Bucket.configuration_inj uUsed wUsed same).2
  exact List.inj_on_of_nodup_map single hu hw variant

/-- No two usages call for one configuration. -/
theorem nodup_called : ((usages.filter Usage.isUsed).map Usage.configuration).Nodup := by
  apply (List.nodup_map_iff_inj_on (single.of_map.filter _)).2
  intro u hu w hw same
  obtain ⟨isUsage, used⟩ := List.mem_filter.1 hu
  obtain ⟨isUsage', used'⟩ := List.mem_filter.1 hw
  exact eq_of_configuration single isUsage isUsage' used used' same

theorem declarable_of_single : Declarable usages := by
  refine .inr ⟨nodup_called single, ?_⟩
  intro u hu w hw variant implementation
  rw [← List.inj_on_of_nodup_map single hu hw variant, implementation]
  decide

end

/-! ## Usages that agree -/

section

variable (called : Called identifier usages declared) (all : ∀ u ∈ usages, u.bucket = b)
include called all

theorem eq_nil_of_unused (unused : b.isUsed = false) : declared = [] := by
  apply List.eq_nil_iff_forall_not_mem.2
  intro d isDeclared
  obtain ⟨u, isUsage, used, -⟩ := called.exists_usage isDeclared
  rw [Usage.isUsed, all u isUsage, unused] at used
  cases used

/-- All declarations are on configurations of the bucket that the usages agree on. -/
theorem configuration_of_called (isDeclared : d ∈ declared) :
    d.configuration = b.configuration d.variant := by
  obtain ⟨u, isUsage, -, at_u, variant, -⟩ := called.exists_usage isDeclared
  rw [at_u, variant, ← all u isUsage]
  rfl

variable (used : b.isUsed = true)
include used

theorem exists_declared (isUsage : u ∈ usages) :
    ∃ d ∈ declared, d.configuration = u.configuration ∧ d.variant = u.variant := by
  apply called.exists_declaration isUsage
  rw [Usage.isUsed, all u isUsage]
  exact used

/-- Without the main variant, or in the main variant alone, the declarations rest. -/
theorem rests_of_called (some : usages ≠ [])
    (alone : .main ∈ usages.map (·.variant) → usages.length < 2) : Rests b declared := by
  by_cases main : .main ∈ usages.map (·.variant)
  · obtain ⟨u, rfl⟩ : ∃ u, usages = [u] := by
      apply List.length_eq_one_iff.1
      have pos := List.length_pos_iff.2 some
      have lt := alone main
      omega
    obtain ⟨d, isDeclared, -⟩ := exists_declared called all used List.mem_cons_self
    -- all declarations are on the configuration of the only usage
    have same : ∀ e ∈ declared, e = d := by
      intro e he
      have at_e := called.exists_usage he
      have at_d := called.exists_usage isDeclared
      simp only [List.mem_singleton, exists_eq_left] at at_e at_d
      exact called.configuration_inj he isDeclared (at_e.2.1.trans at_d.2.1.symm)
    have one : declared = [d] := by
      refine OrderedSet.eq_of_mem_iff called.ascending (List.pairwise_singleton _ _) fun e => ?_
      rw [List.mem_singleton]
      exact ⟨same e, fun eq => eq ▸ isDeclared⟩
    rw [one]
    exact trusted_of_configuration used (configuration_of_called called all isDeclared)
  · have notMain : ∀ d ∈ declared, d.isMain = false := by
      intro d isDeclared
      obtain ⟨u, isUsage, -, -, variant, -⟩ := called.exists_usage isDeclared
      apply beq_eq_false_iff_ne.2
      intro isMain
      exact main (List.mem_map.2 ⟨u, isUsage, variant.symm.trans isMain⟩)
    obtain ⟨u, isUsage⟩ := List.exists_mem_of_ne_nil _ some
    obtain ⟨d, isDeclared, -⟩ := exists_declared called all used isUsage
    apply rests_of_configuration (List.ne_nil_of_mem isDeclared) used
    intro e he
    exact ⟨notMain e he, configuration_of_called called all he⟩

/-- With the main variant among others, all declarations but its own are dropped. -/
theorem agreedPlan_of_main (single : (usages.map (·.variant)).Nodup)
    (main : .main ∈ usages.map (·.variant)) (several : 2 ≤ usages.length) :
    agreedPlan b declared = (declared.filter (!·.isMain)).map (.drop ·.configuration) := by
  obtain ⟨u, isUsage, isMain⟩ := List.mem_map.1 main
  obtain ⟨d, isDeclared, -, variant⟩ := exists_declared called all used isUsage
  have mainDeclared : declared.any Declaration.isMain = true := by
    apply List.any_eq_true.2
    exact ⟨d, isDeclared, beq_iff_eq.2 (variant.trans isMain)⟩
  match declared with
  | [] => cases isDeclared
  | [e] =>
    -- two usages are declared in two variants
    exfalso
    have one : ∀ w ∈ usages, w.variant = e.variant := by
      intro w hw
      obtain ⟨f, hf, -, variant⟩ := exists_declared called all used hw
      rw [← variant, List.mem_singleton.1 hf]
    match usages with
    | [] => cases isUsage
    | [_] => simp at several
    | w :: w' :: rest =>
      have same : w.variant = w'.variant := (one w (by simp)).trans (one w' (by simp)).symm
      simp [same] at single
  | e :: f :: rest =>
    show consolidatingSteps b (e :: f :: rest) = _
    rw [consolidatingSteps, used, mainDeclared]
    rfl

end

/-! ## The plan -/

/-- What is called for is what the plan leaves alone, unless the main variant covers others. -/
theorem quiet_of_called (called : Called identifier usages declared) (some : usages ≠ [])
    (single : (usages.map (·.variant)).Nodup) (notCovered : ¬ CoveredByMain usages) :
    Quiet (plan declared usages) := by
  apply quiet_plan_iff.2
  by_cases same : agree usages = true
  · obtain ⟨b, all⟩ := agree_iff.1 same
    rw [if_pos same, sharedBucket_eq all some]
    cases used : b.isUsed with
    | false =>
      rw [eq_nil_of_unused called all used]
      exact rests_nil_of_unused used
    | true =>
      apply rests_of_called called all used some
      intro main
      by_contra several
      exact notCovered ⟨same, main, Nat.le_of_not_lt several⟩
  · have differ : agree usages = false := Bool.eq_false_iff.2 same
    rw [if_neg same]
    exact (inPlace_iff_declarable called (exists_used_of_differ differ)).2
      (declarable_of_single single)

/-- Where the main variant covers others, the plan is to drop their declarations. -/
theorem plan_of_covered (called : Called identifier usages declared)
    (single : (usages.map (·.variant)).Nodup) (covered : CoveredByMain usages) :
    plan declared usages = (declared.filter (!·.isMain)).map (.drop ·.configuration) := by
  obtain ⟨b, all⟩ := agree_iff.1 covered.agree
  have some : usages ≠ [] := List.ne_nil_of_length_pos (Nat.lt_of_succ_lt covered.several)
  rw [plan, if_pos covered.agree, sharedBucket_eq all some]
  cases used : b.isUsed with
  | false =>
    have nothing : ¬ (b = .api ∨ b = .implementation) := by
      revert used
      cases b <;> decide
    rw [eq_nil_of_unused called all used, agreedPlan, if_neg nothing]
    rfl
  | true => exact agreedPlan_of_main called all used single covered.main covered.several

/-! ## The advice -/

/-- Where the main variant covers others, the removals of the declarations of these are given,
each once. -/
theorem perm_of_covered {advice : AdviceSet} (single : (usages.map (·.variant)).Nodup)
    (called : Called identifier usages declared)
    (mem : ∀ a, a ∈ advice ↔
      ∃ d ∈ declared.filter (!·.isMain), a = .remove c d.configuration) :
    advice.toList.Perm (((calledFor identifier usages).filter (!·.isMain)).map
      fun d => .remove c d.configuration) := by
  have removals : (((calledFor identifier usages).filter (!·.isMain)).map
      fun d => Advice.remove c d.configuration).Nodup := by
    have configurations : ((calledFor identifier usages).map (·.configuration)).Nodup := by
      rw [map_configuration_calledFor]
      exact nodup_called single
    have remove_inj : Function.Injective (Advice.remove c) := by
      intro x y same
      simpa [Advice.remove] using same
    have others :
        (((calledFor identifier usages).filter (!·.isMain)).map (·.configuration)).Nodup :=
      configurations.sublist (List.filter_sublist.map _)
    have apart := others.map remove_inj
    rwa [List.map_map] at apart
  apply (List.perm_ext_iff_of_nodup (nodup_of_ascending advice.ascending) removals).2
  intro a
  rw [← OrderedSet.mem_def, mem, List.mem_map]
  simp only [List.mem_filter, mem_calledFor, called.mem]
  exact exists_congr fun d => and_congr_right fun _ => eq_comm

/-- Usages in different variants give no advice on a dependency that is declared just where they
call for it. Only where several variants agree and the main one is among them are there removals,
one for each declaration of another variant. -/
theorem reduce_calledFor (coordinates : Coordinates) (declarations : List Declaration)
    (usages : List Usage) (observed : usages ≠ []) (single : (usages.map (·.variant)).Nodup)
    (correct : ∀ d : Declaration, d.identifier = coordinates.identifier →
      (d ∈ declarations ↔ d ∈ calledFor coordinates.identifier usages)) :
    ∃ advice, reduce coordinates declarations usages = .ok advice ∧
      (¬ CoveredByMain usages → advice = ∅) ∧
      (CoveredByMain usages → advice.toList.Perm
        (((calledFor coordinates.identifier usages).filter (!·.isMain)).map
          fun d => .remove coordinates.withoutDefaultCapability d.configuration)) := by
  have called : Called coordinates.identifier usages (matching coordinates declarations) := by
    refine ⟨OrderedSet.ascending _, fun d => ?_⟩
    rw [mem_matching, ← mem_calledFor]
    constructor
    · intro h
      exact (correct d h.2).1 h.1
    · intro h
      obtain ⟨u, -, -, made⟩ := mem_calledFor.1 h
      have identifier := (of_declarationOn? made).1
      exact ⟨(correct d identifier).2 h, identifier⟩
  by_cases covered : CoveredByMain usages
  · obtain ⟨advice, eq, mem⟩ := @simplify_drops coordinates.withoutDefaultCapability
      ((matching coordinates declarations).filter (!·.isMain))
    rw [← plan_of_covered called single covered, ← reduce_eq_simplify observed] at eq
    exact ⟨advice, eq, fun not => absurd covered not, fun _ => perm_of_covered single called mem⟩
  · obtain ⟨advice, eq, follows⟩ := @reduce_follows coordinates declarations usages observed
    have none : advice = ∅ :=
      follows.eq_empty_iff.2 (quiet_of_called called observed single covered)
    exact ⟨advice, eq, fun _ => none, fun is => absurd is covered⟩

/-- A library that is declared where it is called for is left alone when the usages differ. When
they agree, the declarations beside that of the main variant go, also one whose configuration
looks like a compile-only one. -/
theorem reduce_calledFor_lib :
    let differing := [Usage.mk .main .implementation [], .mk ⟨"debug"⟩ .api [],
      .mk ⟨"release"⟩ .unused []]
    let agreeing := [Usage.mk ⟨"debug"⟩ .api [], .mk ⟨"compileOnly"⟩ .api [], .mk .main .api []]
    let declarations (usages : List Usage) :=
      (calledFor lib.identifier usages).reverse ++ calledFor lib.identifier usages
    (∀ usages ∈ [differing, agreeing], usages ≠ [] ∧ (usages.map (·.variant)).Nodup ∧
      ∀ d : Declaration, d.identifier = lib.identifier →
        (d ∈ declarations usages ↔ d ∈ calledFor lib.identifier usages)) ∧
    reduce lib (declarations differing) differing = .ok ∅ ∧
    ∃ advice, reduce lib (declarations agreeing) agreeing = .ok advice ∧
      advice.toList.Perm [.remove lib "debugApi", .remove lib "compileOnlyApi"] := by
  intro differing agreeing declarations
  have correct : ∀ (usages : List Usage) (d : Declaration), d.identifier = lib.identifier →
      (d ∈ declarations usages ↔ d ∈ calledFor lib.identifier usages) := by
    intro usages d _
    simp [declarations]
  have conditions : ∀ usages ∈ [differing, agreeing],
      usages ≠ [] ∧ (usages.map (·.variant)).Nodup := by decide
  obtain ⟨some, single⟩ := conditions differing (by simp)
  obtain ⟨some', single'⟩ := conditions agreeing (by simp)
  obtain ⟨advice, eq, none, -⟩ :=
    reduce_calledFor lib (declarations differing) differing some single (correct _)
  obtain ⟨advice', eq', -, removals⟩ :=
    reduce_calledFor lib (declarations agreeing) agreeing some' single' (correct _)
  refine ⟨fun usages mem => ?_, ?_, advice', eq', ?_⟩
  · obtain ⟨some, single⟩ := conditions usages mem
    exact ⟨some, single, correct usages⟩
  · have notCovered : ¬ CoveredByMain differing := by
      intro covered
      exact absurd covered.agree (by decide)
    rw [eq, none notCovered]
  · exact removals ⟨by decide, by decide, by decide⟩

end ClasspathAdvice.Reduction
