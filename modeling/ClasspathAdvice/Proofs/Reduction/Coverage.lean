import ClasspathAdvice.Proofs.Reduction.Merging
import ClasspathAdvice.Proofs.Reduction.Pairing

/-!
# Whether following the advice leaves what the usages call for

When usages differ, each that is used calls for a declaration on a configuration of its own.
The plan has a step for each: a declaration is moved there, made there or is there already.
That it stays there is not said: `Keeps` is the condition, and the only one, under which the
configurations after following the advice are those that the usages call for
(`reduce_keeps_iff`).
-/

namespace ClasspathAdvice.Reduction
set_option autoImplicit false

/-- The configurations with a declaration after following advice: those that no advice takes
it off and those that some puts it on. -/
def configurationsAfter (declared : List Declaration) (advice : AdviceSet) : List String :=
  (declared.map (·.configuration)).filter (fun x => !advice.toList.any (·.source == some x)) ++
    advice.toList.filterMap (·.target)

/-- When usages differ: following the advice leaves a declaration on each configuration that
a usage calls for. A single declaration must not be on one of several such configurations. Of
several declarations none may leave such a configuration unless another arrives there. -/
def Keeps (usages : List Usage) : List Declaration → Prop
  | [] => True
  | [d] =>
    (∀ u ∈ usages, u.isUsed → u.configuration = d.configuration) ∨
      ∀ u ∈ usages, u.isUsed → u.configuration ≠ d.configuration
  | declared => ∀ u ∈ usages, u.isUsed →
      Leaves (pair declared (Usage.sorted usages)).steps u.configuration →
        Arrives (pair declared (Usage.sorted usages)).steps u.configuration

variable {steps : List Step} {declared : List Declaration} {usages : List Usage} {u : Usage}
  {advice : AdviceSet} {x : String}

theorem Follows.mem_configurationsAfter (h : Follows steps advice) :
    x ∈ configurationsAfter declared advice ↔
      ((∃ d ∈ declared, d.configuration = x) ∧ ¬ Leaves steps x) ∨ Arrives steps x := by
  rw [← h.source_iff, ← h.target_iff]
  simp [configurationsAfter, OrderedSet.mem_def]

theorem compare_usage (u w : Usage) : compare u w = (compare u.variant.name w.variant.name).then
    ((compare u.bucket.rank w.bucket.rank).then (compare u.reasons w.reasons)) := rfl

/-! ## The steps of a pairing -/

section

variable {p : Pairing} {y : String}

theorem move_mem_steps : .move x y ∈ p.steps ↔
    (∃ e ∈ p.pairs, e.2.isUsed ∧ e.1.configuration = x ∧ e.2.configuration = y) ∨
      ∃ d, p.main? = some d ∧ d.configuration = x ∧ ∃ u ∈ p.leftover, u.configuration = y := by
  rw [Pairing.steps, List.mem_append, List.mem_map, List.mem_map]
  refine or_congr (exists_congr fun e => and_congr_right fun _ => ?_) ?_
  · unfold pairStep
    cases e.2.isUsed <;> simp
  · unfold leftoverStep
    cases p.main? with
    | none => simp
    | some d =>
      simp only [Step.move.injEq, Option.some.injEq, exists_eq_left']
      constructor
      · rintro ⟨u, mem, source, target⟩
        exact ⟨source, u, mem, target⟩
      · rintro ⟨source, u, mem, target⟩
        exact ⟨u, mem, source, target⟩

theorem drop_mem_steps : .drop x ∈ p.steps ↔
    ∃ e ∈ p.pairs, e.2.isUsed = false ∧ e.1.configuration = x := by
  rw [Pairing.steps, List.mem_append, List.mem_map, List.mem_map]
  constructor
  · rintro (⟨e, mem, eq⟩ | ⟨u, _, eq⟩)
    · refine ⟨e, mem, ?_⟩
      unfold pairStep at eq
      cases used : e.2.isUsed <;> simp_all
    · unfold leftoverStep at eq
      split at eq <;> cases eq
  · rintro ⟨e, mem, unused, rfl⟩
    exact .inl ⟨e, mem, by simp [pairStep, unused]⟩

theorem declare_mem_steps : .declare x ∈ p.steps ↔
    p.main? = none ∧ ∃ u ∈ p.leftover, u.configuration = x := by
  rw [Pairing.steps, List.mem_append, List.mem_map, List.mem_map]
  constructor
  · rintro (⟨e, _, eq⟩ | ⟨u, mem, eq⟩)
    · unfold pairStep at eq
      split at eq <;> cases eq
    · unfold leftoverStep at eq
      cases none : p.main? with
      | none => exact ⟨rfl, u, mem, by simpa [none] using eq⟩
      | some d => simp [none] at eq
  · rintro ⟨none, u, mem, rfl⟩
    exact .inr ⟨u, mem, by simp [leftoverStep, none]⟩

end

theorem mem_of_leftover (h : u ∈ (pair declared usages).leftover) : u ∈ usages ∧ u.isUsed = true := by
  obtain ⟨remaining, used⟩ := List.mem_filter.1 h
  exact ⟨mem_of_remaining remaining, used⟩

/-- Pairing puts declarations on configurations that used usages call for. -/
theorem usage_of_arrives (h : Arrives (pair declared usages).steps x) :
    ∃ u ∈ usages, u.isUsed = true ∧ u.configuration = x := by
  rcases h with ⟨source, -, mem⟩ | ⟨mem, -⟩
  · rcases move_mem_steps.1 mem with ⟨e, paired, used, -, at_x⟩ | ⟨d, -, -, u, left, at_x⟩
    · exact ⟨e.2, snd_mem_of_pair paired, used, at_x⟩
    · exact ⟨u, (mem_of_leftover left).1, (mem_of_leftover left).2, at_x⟩
  · obtain ⟨-, u, left, at_x⟩ := declare_mem_steps.1 mem
    exact ⟨u, (mem_of_leftover left).1, (mem_of_leftover left).2, at_x⟩

/-! ## What is called for -/

theorem main?_mem {p : Pairing} {d : Declaration} (h : p.main? = some d) :
    d ∈ p.unpaired ∧ d.isMain = true :=
  ⟨List.mem_of_find?_eq_some h, List.find?_some h⟩

/-- A configuration that a usage calls for has a declaration, or the plan puts one there. -/
theorem declared_or_arrives (declared : List Declaration) (mem : u ∈ usages) (used : u.isUsed = true) :
    (∃ d ∈ declared, d.configuration = u.configuration) ∨
      Arrives (differingPlan usages declared) u.configuration := by
  have moved : ∀ d ∈ declared,
      .move d.configuration u.configuration ∈ differingPlan usages declared →
        (∃ d ∈ declared, d.configuration = u.configuration) ∨
          Arrives (differingPlan usages declared) u.configuration := by
    intro d isDeclared step
    by_cases same : d.configuration = u.configuration
    · exact .inl ⟨d, isDeclared, same⟩
    · exact .inr (.inl ⟨_, same, step⟩)
  have needed : u ∈ usages.filter Usage.isUsed := List.mem_filter.2 ⟨mem, used⟩
  match declared with
  | [] =>
    refine .inr ((arrives_iff_of_no_drop fun y => by simp [differingPlan]).2 (.inr ?_))
    exact List.mem_map.2 ⟨u, needed, rfl⟩
  | [d] => exact moved d List.mem_cons_self (List.mem_map.2 ⟨u, needed, rfl⟩)
  | d :: e :: rest =>
    rcases paired_or_remaining (d :: e :: rest) mem with ⟨f, paired⟩ | left
    · refine moved f (fst_mem_of_pair paired) ?_
      exact move_mem_steps.2 (.inl ⟨_, paired, used, rfl, rfl⟩)
    · have leftover : u ∈ (pair (d :: e :: rest) usages).leftover := List.mem_filter.2 ⟨left, used⟩
      cases main : (pair (d :: e :: rest) usages).main? with
      | some f =>
        refine moved f (mem_of_unpaired (main?_mem main).1) ?_
        exact move_mem_steps.2 (.inr ⟨f, main, rfl, u, leftover, rfl⟩)
      | none =>
        by_cases same : Cancelled (pair (d :: e :: rest) usages).steps u.configuration
        · obtain ⟨f, paired, _, at_u⟩ := drop_mem_steps.1 (merged_mem same).2
          exact .inl ⟨f.1, fst_mem_of_pair paired, at_u⟩
        · exact .inr (.inr ⟨declare_mem_steps.2 ⟨main, u, leftover, rfl⟩, same⟩)

theorem mem_needed : u ∈ (Usage.sorted usages).filter Usage.isUsed ↔ u ∈ usages ∧ u.isUsed := by
  rw [List.mem_filter, Usage.mem_sorted]

/-- A single declaration leaves its configuration for each other one that is called for. -/
theorem leaves_differingPlan_singleton {d : Declaration} :
    Leaves (differingPlan (Usage.sorted usages) [d]) x ↔
      d.configuration = x ∧ ∃ u ∈ usages, u.isUsed ∧ u.configuration ≠ x := by
  simp only [Leaves, differingPlan, List.mem_map, mem_needed, Step.move.injEq, reduceCtorEq,
    and_false, exists_false, false_and, or_false]
  constructor
  · rintro ⟨_, ne, u, ⟨mem, used⟩, source, rfl⟩
    exact ⟨source, u, mem, used, Ne.symm ne⟩
  · rintro ⟨source, u, mem, used, ne⟩
    exact ⟨_, Ne.symm ne, u, ⟨mem, used⟩, source, rfl⟩

theorem arrives_differingPlan_singleton {d : Declaration} :
    Arrives (differingPlan (Usage.sorted usages) [d]) x ↔
      d.configuration ≠ x ∧ ∃ u ∈ usages, u.isUsed ∧ u.configuration = x := by
  simp only [Arrives, differingPlan, List.mem_map, mem_needed, Step.move.injEq, reduceCtorEq,
    and_false, exists_false, false_and, or_false]
  constructor
  · rintro ⟨_, ne, u, ⟨mem, used⟩, rfl, target⟩
    exact ⟨ne, u, mem, used, target⟩
  · rintro ⟨ne, u, mem, used, target⟩
    exact ⟨_, ne, u, ⟨mem, used⟩, rfl, target⟩

/-- What is called for is kept if what leaves it is replaced. -/
theorem keeps_iff : Keeps usages declared ↔ ∀ u ∈ usages, u.isUsed →
    Leaves (differingPlan (Usage.sorted usages) declared) u.configuration →
      Arrives (differingPlan (Usage.sorted usages) declared) u.configuration := by
  match declared with
  | [] =>
    refine iff_of_true trivial fun u _ _ leaves => ?_
    simp [Leaves, differingPlan] at leaves
  | [d] =>
    simp only [leaves_differingPlan_singleton, arrives_differingPlan_singleton, Keeps]
    constructor
    · rintro (all | none) u mem used ⟨source, v, vMem, vUsed, ne⟩
      · exact absurd ((all v vMem vUsed).trans source) ne
      · exact absurd source.symm (none u mem used)
    · intro kept
      by_cases h : ∃ u ∈ usages, u.isUsed ∧ u.configuration = d.configuration
      · obtain ⟨u, mem, used, at_d⟩ := h
        refine .inl fun v vMem vUsed => ?_
        by_contra ne
        exact (kept u mem used ⟨at_d.symm, v, vMem, vUsed, at_d ▸ ne⟩).1 at_d.symm
      · exact .inr fun u mem used at_d => h ⟨u, mem, used, at_d⟩
  | d :: e :: rest => exact Iff.rfl

theorem agree_of_differ (differ : ∃ u ∈ usages, ∃ v ∈ usages, u.bucket ≠ v.bucket) :
    agree usages = false := by
  obtain ⟨u, uMem, v, vMem, ne⟩ := differ
  by_contra same
  obtain ⟨b, all⟩ := agree_iff.1 (by simpa using same)
  exact ne ((all u uMem).trans (all v vMem).symm)

/-- Advice that follows the plan leaves what is called for if and only if `Keeps` holds. -/
theorem Follows.keeps_iff (h : Follows (differingPlan (Usage.sorted usages) declared) advice) :
    (∀ u ∈ usages, u.bucket ≠ .unused → u.configuration ∈ configurationsAfter declared advice) ↔
      Keeps usages declared := by
  rw [Reduction.keeps_iff]
  refine forall₂_congr fun u mem => ?_
  have used : u.isUsed = true ↔ u.bucket ≠ .unused := by simp [Usage.isUsed, Bucket.isUsed]
  rw [h.mem_configurationsAfter, used]
  refine forall_congr' fun isUsed => ?_
  constructor
  · rintro (⟨-, stays⟩ | arrives) leaves
    · exact absurd leaves stays
    · exact arrives
  · intro replaced
    rcases declared_or_arrives declared (Usage.mem_sorted.2 mem) (used.2 isUsed) with
      there | arrives
    · by_cases leaves : Leaves (differingPlan (Usage.sorted usages) declared) u.configuration
      · exact .inr (replaced leaves)
      · exact .inl ⟨there, leaves⟩
    · exact .inr arrives

/-- Following the advice on usages that differ leaves a declaration on each configuration that
a usage calls for under the condition `Keeps`, and only then. -/
theorem reduce_keeps_iff (coordinates : Coordinates) (declarations : List Declaration)
    (usages : List Usage) (differ : ∃ u ∈ usages, ∃ v ∈ usages, u.bucket ≠ v.bucket) :
    ∃ advice, reduce coordinates declarations usages = .ok advice ∧
      ((∀ u ∈ usages, u.bucket ≠ .unused → u.configuration ∈
          configurationsAfter (matching coordinates declarations) advice) ↔
        Keeps usages (matching coordinates declarations)) := by
  have some : usages ≠ [] := by
    rintro rfl
    simp at differ
  obtain ⟨advice, eq, follows⟩ :=
    @reduce_follows coordinates declarations usages some
  rw [plan, agree_of_differ differ] at follows
  exact ⟨advice, eq, follows.keeps_iff⟩

theorem ofConfiguration_debugImplementation :
    Bucket.ofConfiguration "debugImplementation" = .ok .implementation := rfl

theorem ofConfiguration_releaseApi : Bucket.ofConfiguration "releaseApi" = .ok .api := rfl

/-- A library declared in the main variant. -/
def libDeclared : Declaration where
  identifier := "com.example:lib"
  configuration := "implementation"
  variant := .main
  bucket := .implementation
  bucket_eq := Bucket.ofConfiguration_implementation

def lib : Coordinates := { kind := .library, identifier := "com.example:lib", version := some "1.0" }

theorem matching_lib : matching lib [libDeclared] = [libDeclared] := by decide

/-- A declaration in the main variant is kept neither for the usage of the main variant when
another variant needs its own, nor needed when each of two variants has its own. -/
theorem reduce_keeps_iff_lib :
    let needed := [Usage.mk .main .implementation [], Usage.mk ⟨"debug"⟩ .api []]
    let split := [Usage.mk ⟨"debug"⟩ .api [], Usage.mk ⟨"release"⟩ .implementation []]
    (∃ u ∈ needed, ∃ v ∈ needed, u.bucket ≠ v.bucket) ∧
    (∃ u ∈ split, ∃ v ∈ split, u.bucket ≠ v.bucket) ∧
    (∃ advice, reduce lib [libDeclared] needed = .ok advice ∧
      ¬ ∀ u ∈ needed, u.bucket ≠ .unused →
        u.configuration ∈ configurationsAfter [libDeclared] advice) ∧
    ∃ advice, reduce lib [libDeclared] split = .ok advice ∧
      ∀ u ∈ split, u.bucket ≠ .unused →
        u.configuration ∈ configurationsAfter [libDeclared] advice := by
  intro needed split
  have needed_differ : ∃ u ∈ needed, ∃ v ∈ needed, u.bucket ≠ v.bucket := by decide
  have split_differ : ∃ u ∈ split, ∃ v ∈ split, u.bucket ≠ v.bucket := by decide
  obtain ⟨advice, eq, keeps⟩ := reduce_keeps_iff lib [libDeclared] needed needed_differ
  obtain ⟨advice', eq', keeps'⟩ := reduce_keeps_iff lib [libDeclared] split split_differ
  rw [matching_lib] at keeps keeps'
  refine ⟨needed_differ, split_differ, ⟨advice, eq, fun all => ?_⟩, advice', eq', keeps'.2 ?_⟩
  · have lost : ¬ Keeps needed [libDeclared] := by
      unfold Keeps
      decide
    exact lost (keeps.1 all)
  · unfold Keeps
    decide

end ClasspathAdvice.Reduction
