import ClasspathAdvice.Proofs.Reduction.Orderly

/-!
# Whether advice leads to what is declared already

A step from a declaration to its own configuration asks for nothing. A step to the configuration
of another declaration does: what several declarations are paired with, and what is left over, is
not looked up among the declarations again. `Heeds` is the condition, and the only one, under
which no advice leads to a configuration that is declared (`reduce_heeds_iff`). A single
declaration meets it, and so do declarations and usages that are orderly.
-/

namespace ClasspathAdvice.Reduction
set_option autoImplicit false

/-- When usages agree on a bucket: no declaration is to move to where another is. Next to one in
the main variant none is to move at all. -/
def HeedsAgreed (b : Bucket) (declared : List Declaration) : Prop :=
  b.isUsed → declared.any Declaration.isMain = false → ∀ d ∈ declared, ∀ e ∈ declared,
    e.configuration = b.configuration d.variant → e.configuration = d.configuration

/-- When usages differ: a usage that calls for a declared configuration is paired with a
declaration there. If it is left over, the declaration of the main variant is there, or without
one the declarations there are dropped and nothing else is made of that. -/
structure Pairing.Heeds (p : Pairing) (declared : List Declaration) : Prop where
  paired : ∀ f ∈ p.pairs, f.2.isUsed → ∀ e ∈ declared, e.configuration = f.2.configuration →
    e.configuration = f.1.configuration
  covered : ∀ d, p.main? = some d → ∀ u ∈ p.leftover, ∀ e ∈ declared,
    e.configuration = u.configuration → e.configuration = d.configuration
  cancelled : p.main? = none → ∀ u ∈ p.leftover, ∀ e ∈ declared,
    e.configuration = u.configuration → Cancelled p.steps e.configuration

/-- No usage makes advice lead to a configuration that is declared. -/
def Heeds (usages : List Usage) : List Declaration → Prop
  | [] => True
  | [_] => True
  | declared =>
    if agree usages then HeedsAgreed (sharedBucket usages) declared
    else (pair declared (Usage.sorted usages)).Heeds declared

variable {b : Bucket} {p : Pairing} {declared : List Declaration} {usages : List Usage}
  {x y : String}

/-! ## What the steps lead to -/

theorem move_mem_consolidatingSteps : .move x y ∈ consolidatingSteps b declared ↔
    b.isUsed ∧ declared.any Declaration.isMain = false ∧
      ∃ d ∈ declared, d.configuration = x ∧ b.configuration d.variant = y := by
  rw [consolidatingSteps]
  cases b.isUsed with
  | false => simp
  | true =>
    cases declared.any Declaration.isMain with
    | true => simp
    | false => simp

theorem heedsAgreed_iff : HeedsAgreed b declared ↔
    ∀ e ∈ declared, ¬ Arrives (consolidatingSteps b declared) e.configuration := by
  have none : ∀ y, .declare y ∉ consolidatingSteps b declared := by
    intro y
    rw [consolidatingSteps]
    split
    · simp
    · split <;> simp
  simp only [arrives_iff_of_no_declare none, move_mem_consolidatingSteps]
  constructor
  · rintro heeds e isDeclared ⟨source, ne, used, noMain, d, mem, rfl, at_e⟩
    exact ne (heeds used noMain d mem e isDeclared at_e.symm).symm
  · intro still used noMain d mem e isDeclared at_e
    by_contra ne
    exact still e isDeclared ⟨_, Ne.symm ne, used, noMain, d, mem, rfl, at_e.symm⟩

theorem Pairing.heeds_iff : p.Heeds declared ↔
    ∀ e ∈ declared, ¬ Arrives p.steps e.configuration := by
  constructor
  · rintro heeds e isDeclared (⟨source, ne, move⟩ | ⟨declare, alone⟩)
    · rcases move_mem_steps.1 move with ⟨f, mem, used, rfl, at_e⟩ | ⟨d, main, rfl, u, left, at_e⟩
      · exact ne (heeds.paired f mem used e isDeclared at_e.symm).symm
      · exact ne (heeds.covered d main u left e isDeclared at_e.symm).symm
    · obtain ⟨main, u, left, at_e⟩ := declare_mem_steps.1 declare
      exact alone (heeds.cancelled main u left e isDeclared at_e.symm)
  · intro still
    refine ⟨fun f mem used e isDeclared at_e => ?_, fun d main u left e isDeclared at_e => ?_,
      fun main u left e isDeclared at_e => ?_⟩
    · by_contra ne
      have move := move_mem_steps.2 (.inl ⟨f, mem, used, rfl, at_e.symm⟩)
      exact still e isDeclared (.inl ⟨_, Ne.symm ne, move⟩)
    · by_contra ne
      have move := move_mem_steps.2 (.inr ⟨d, main, rfl, u, left, at_e.symm⟩)
      exact still e isDeclared (.inl ⟨_, Ne.symm ne, move⟩)
    · by_contra alone
      have declare := declare_mem_steps.2 ⟨main, u, left, at_e.symm⟩
      exact still e isDeclared (.inr ⟨declare, alone⟩)

/-- A single declaration is moved away from its configuration or not at all. -/
theorem not_arrives_plan_singleton {d : Declaration} :
    ¬ Arrives (plan [d] usages) d.configuration := by
  rw [plan]
  split
  · rw [agreedPlan]
    split
    · simp [Arrives]
    · split
      · simp [Arrives]
      · simp [Arrives]
  · exact fun arrives => (arrives_differingPlan_singleton.1 arrives).1 rfl

theorem heeds_cons_cons {d e : Declaration} {rest : List Declaration} :
    Heeds usages (d :: e :: rest) =
      if agree usages then HeedsAgreed (sharedBucket usages) (d :: e :: rest)
      else (pair (d :: e :: rest) (Usage.sorted usages)).Heeds (d :: e :: rest) :=
  rfl

theorem heeds_iff : Heeds usages declared ↔
    ∀ e ∈ declared, ¬ Arrives (plan declared usages) e.configuration := by
  match declared with
  | [] => simp [Heeds]
  | [d] =>
    refine iff_of_true trivial fun e mem => ?_
    rw [List.mem_singleton.1 mem]
    exact not_arrives_plan_singleton
  | d :: e :: rest =>
    rw [heeds_cons_cons, plan]
    split
    · exact heedsAgreed_iff
    · exact Pairing.heeds_iff

/-! ## Orderly declarations -/

/-- Where each variant has one declaration and one usage at most, what is called for on a declared
configuration is called for in the variant of the declaration. -/
theorem heeds_of_orderly (h : Orderly declared usages) : Heeds usages declared := by
  match declared, h with
  | [], _ => trivial
  | [_], _ => trivial
  | d :: e :: rest, h =>
    rw [heeds_cons_cons]
    split
    · intro used _ f hf g hg at_f
      have named : Variant.named? g.configuration = some f.variant := by
        rw [at_f]
        exact Variant.named?_configuration used
      rw [h.declaration_eq hg hf (h.named g hg f.variant named)]
    · refine ⟨fun f mem used g hg at_f => ?_, fun f _ u left g hg at_u => ?_,
        fun _ u left g hg at_u => ?_⟩
      · have variant := (h.variant_eq hg used at_f).trans (variant_of_mem_pairs mem)
        rw [h.declaration_eq hg (fst_mem_of_pair mem) variant]
      · exact absurd at_u (h.not_at_leftover hg left)
      · exact absurd at_u (h.not_at_leftover hg left)

/-- No advice leads to a configuration that is declared under the condition `Heeds`, and only
then. Orderly declarations and usages meet it. -/
theorem reduce_heeds_iff (coordinates : Coordinates) (declarations : List Declaration)
    (usages : List Usage) (observed : usages ≠ []) :
    ∃ advice, reduce coordinates declarations usages = .ok advice ∧
      ((∀ a ∈ advice, ∀ d ∈ matching coordinates declarations, a.target ≠ some d.configuration) ↔
        Heeds usages (matching coordinates declarations)) ∧
      (Orderly (matching coordinates declarations) usages →
        ∀ a ∈ advice, ∀ d ∈ matching coordinates declarations, a.target ≠ some d.configuration) := by
  obtain ⟨advice, eq, follows⟩ := @reduce_follows coordinates declarations usages observed
  have heeds : (∀ a ∈ advice, ∀ d ∈ matching coordinates declarations,
      a.target ≠ some d.configuration) ↔ Heeds usages (matching coordinates declarations) := by
    rw [heeds_iff]
    simp only [← follows.target_iff]
    constructor
    · rintro never d isDeclared ⟨a, mem, target⟩
      exact never a mem d isDeclared target
    · intro never a mem d isDeclared target
      exact never d isDeclared ⟨a, mem, target⟩
  exact ⟨advice, eq, heeds, fun orderly => heeds.2 (heeds_of_orderly orderly)⟩

/-- The library declared in two variants. -/
def libInVariants : List Declaration :=
  [{ identifier := "com.example:lib", configuration := "debugImplementation", variant := ⟨"debug"⟩
     bucket := .implementation, bucket_eq := ofConfiguration_debugImplementation },
    { identifier := "com.example:lib", configuration := "releaseApi", variant := ⟨"release"⟩
      bucket := .api, bucket_eq := ofConfiguration_releaseApi }]

/-- With two usages in one variant the declaration follows the first of them, and the second is
called for anew where the declaration was. With one usage in each variant it is not so. -/
theorem reduce_heeds_iff_lib :
    let twice := [Usage.mk ⟨"debug"⟩ .api [], .mk ⟨"debug"⟩ .implementation [],
      .mk ⟨"release"⟩ .api []]
    let once := [Usage.mk ⟨"debug"⟩ .api [], .mk ⟨"release"⟩ .implementation []]
    twice ≠ [] ∧ once ≠ [] ∧
    (∃ advice, reduce lib libInVariants twice = .ok advice ∧
      ∃ a ∈ advice, ∃ d ∈ libInVariants, a.target = some d.configuration) ∧
    ∃ advice, reduce lib libInVariants once = .ok advice ∧
      ∀ a ∈ advice, ∀ d ∈ libInVariants, a.target ≠ some d.configuration := by
  intro twice once
  have isMatching : matching lib libInVariants = libInVariants := by decide
  have some_twice : twice ≠ [] := List.cons_ne_nil _ _
  have some_once : once ≠ [] := List.cons_ne_nil _ _
  obtain ⟨advice, eq, heeds, -⟩ := reduce_heeds_iff lib libInVariants twice some_twice
  obtain ⟨advice', eq', -, heeds'⟩ := reduce_heeds_iff lib libInVariants once some_once
  rw [isMatching] at heeds heeds'
  refine ⟨some_twice, some_once, ⟨advice, eq, ?_⟩, advice', eq', heeds' ?_⟩
  · by_contra never
    push Not at never
    have sorted : Usage.sorted twice = twice := List.mergeSort_of_pairwise (by decide)
    have met : (pair libInVariants twice).Heeds libInVariants := by
      have met := heeds.1 never
      rw [libInVariants, heeds_cons_cons, if_neg (by decide), sorted] at met
      exact met
    have cancelled : Cancelled (pair libInVariants twice).steps "debugImplementation" :=
      met.cancelled (by decide) (.mk ⟨"debug"⟩ .implementation []) (by decide)
        libInVariants[0] (by decide) (by decide)
    exact absurd (merged_mem cancelled).2 (by decide)
  · refine ⟨?_, ?_, ?_⟩
    · decide
    · decide
    · decide

end ClasspathAdvice.Reduction
