import ClasspathAdvice.Proofs.Reduction.Application
import ClasspathAdvice.Proofs.Reduction.Quiet

/-!
# Advice on usages that agree, followed

A dependency that is declared once at most needs no further advice after its advice was
followed. Of several declarations those of the main variant stay as they are and all others
go; the main ones may then be what a single declaration must not be (`AgreedStable`).
-/

namespace ClasspathAdvice.Reduction
set_option autoImplicit false

/-- The declarations that stay when all but those of the main variant are dropped. -/
def mainOnly (declared : List Declaration) : List Declaration :=
  declared.filter fun d =>
    d.configuration ∉ (declared.filter (!·.isMain)).map (·.configuration)

/-- The declarations left of several are as the usages want them. -/
def AgreedStable (b : Bucket) : List Declaration → Prop
  | [] => True
  | [_] => True
  | declared => b.isUsed → declared.any Declaration.isMain → Rests b (mainOnly declared)

variable {identifier x : String} {steps : List Step} {declared : List Declaration}
  {d : Declaration} {b : Bucket}

theorem afterwards_eq {l : List Declaration} (ascending : l.Pairwise Before)
    (mem : ∀ d, d ∈ l ↔ (d ∈ declared ∧ ¬ Leaves steps d.configuration) ∨
      ∃ x, Arrives steps x ∧ declarationOn? identifier x = some d) :
    afterwards identifier steps declared = l :=
  OrderedSet.eq_of_mem_iff ascending_afterwards ascending fun d => by rw [mem_afterwards, mem]

/-- A plan that asks for nothing changes nothing. -/
theorem afterwards_of_quiet (quiet : Quiet steps) (ascending : declared.Pairwise Before) :
    afterwards identifier steps declared = declared := by
  refine afterwards_eq ascending fun d => ⟨fun mem => .inl ⟨mem, (quiet _).1⟩, ?_⟩
  rintro (⟨mem, -⟩ | ⟨x, arrives, -⟩)
  · exact mem
  · exact absurd arrives (quiet x).2

/-- Where all declarations are taken away and none is made, none is left. -/
theorem afterwards_eq_nil (gone : ∀ d ∈ declared, Leaves steps d.configuration)
    (none : ∀ x, ¬ Arrives steps x) : afterwards identifier steps declared = [] := by
  refine afterwards_eq .nil fun d => iff_of_false List.not_mem_nil ?_
  rintro (⟨mem, stays⟩ | ⟨x, arrives, -⟩)
  · exact stays (gone d mem)
  · exact none x arrives

/-- Where all declarations are taken away and one is made, this is left. -/
theorem afterwards_eq_singleton {y : String} (gone : ∀ d ∈ declared, Leaves steps d.configuration)
    (one : ∀ x, Arrives steps x ↔ x = y) (made : declarationOn? identifier y = some d) :
    afterwards identifier steps declared = [d] := by
  refine afterwards_eq (List.pairwise_singleton _ _) fun e => ?_
  rw [List.mem_singleton]
  constructor
  · rintro rfl
    exact .inr ⟨y, (one y).2 rfl, made⟩
  · rintro (⟨mem, stays⟩ | ⟨x, arrives, is⟩)
    · exact absurd (gone e mem) stays
    · rw [(one x).1 arrives, made] at is
      exact (Option.some.inj is).symm

/-! ## Never and once declared -/

theorem rests_singleton_of_bucket (h : d.bucket = b ∨ d.bucket = .compileOnly) : Rests b [d] :=
  h.elim .inl fun compileOnly => .inr (.inl compileOnly)

theorem rests_nil_of_unused (unused : b.isUsed = false) : Rests b [] := by
  show b ≠ .api ∧ b ≠ .implementation
  revert unused
  cases b <;> decide

theorem rests_afterwards_nil : Rests b (afterwards identifier (agreedPlan b []) []) := by
  by_cases h : b = .api ∨ b = .implementation
  · have used : b.isUsed = true := by
      rcases h with rfl | rfl <;> rfl
    obtain ⟨d, made, -, -, -, bucket⟩ := declarationOn?_configuration identifier .main used
    have steps : agreedPlan b [] = [.declare b.value] := if_pos h
    have arrives : ∀ x, Arrives (agreedPlan b []) x ↔ x = b.value := by
      intro x
      rw [arrives_iff_of_no_drop fun y => by simp [steps], steps]
      simp
    rw [afterwards_eq_singleton (fun _ h => absurd h List.not_mem_nil) arrives made]
    exact rests_singleton_of_bucket bucket
  · have quiet : Quiet (agreedPlan b []) := quiet_agreedPlan_iff.2 (not_or.1 h)
    rw [afterwards_of_quiet quiet .nil]
    exact not_or.1 h

theorem rests_afterwards_singleton : Rests b (afterwards identifier (agreedPlan b [d]) [d]) := by
  by_cases trusted : Trusted d b
  · have quiet : Quiet (agreedPlan b [d]) := quiet_agreedPlan_iff.2 trusted
    rw [afterwards_of_quiet quiet (List.pairwise_singleton _ _)]
    exact trusted
  · cases used : b.isUsed with
    | false =>
      have steps : agreedPlan b [d] = [.drop d.configuration] := by
        simp [agreedPlan, trusted, used]
      have noDeclare : ∀ y, Step.declare y ∉ agreedPlan b [d] := fun y => by simp [steps]
      rw [afterwards_eq_nil]
      · exact rests_nil_of_unused used
      · intro e mem
        rw [leaves_iff_of_no_declare noDeclare, steps, List.mem_singleton.1 mem]
        exact .inr List.mem_cons_self
      · intro x
        rw [arrives_iff_of_no_declare noDeclare, steps]
        simp
    | true =>
      obtain ⟨e, made, -, -, -, bucket⟩ := declarationOn?_configuration identifier d.variant used
      have ne : d.configuration ≠ b.configuration d.variant :=
        fun h => trusted (trusted_of_configuration used h)
      have steps : agreedPlan b [d] = [.move d.configuration (b.configuration d.variant)] := by
        simp [agreedPlan, trusted, used]
      have noDeclare : ∀ y, Step.declare y ∉ agreedPlan b [d] := fun y => by simp [steps]
      have gone : ∀ f ∈ [d], Leaves (agreedPlan b [d]) f.configuration := by
        intro f mem
        rw [leaves_iff_of_no_declare noDeclare, steps, List.mem_singleton.1 mem]
        exact .inl ⟨_, ne, List.mem_cons_self⟩
      have one : ∀ x, Arrives (agreedPlan b [d]) x ↔ x = b.configuration d.variant := by
        intro x
        rw [arrives_iff_of_no_declare noDeclare, steps]
        constructor
        · rintro ⟨_, -, mem⟩
          cases List.mem_singleton.1 mem
          rfl
        · rintro rfl
          exact ⟨_, ne, List.mem_cons_self⟩
      rw [afterwards_eq_singleton gone one made]
      exact rests_singleton_of_bucket bucket

/-! ## Several declarations -/

theorem consolidatingSteps_no_declare (y : String) : .declare y ∉ consolidatingSteps b declared := by
  unfold consolidatingSteps
  split
  · simp
  · split <;> simp

/-- Of several declarations with main ones among them these stay. -/
theorem afterwards_main (ascending : declared.Pairwise Before) (used : b.isUsed = true)
    (main : declared.any Declaration.isMain = true) :
    afterwards identifier (consolidatingSteps b declared) declared = mainOnly declared := by
  have steps : consolidatingSteps b declared =
      (declared.filter (!·.isMain)).map (.drop ·.configuration) := by
    simp [consolidatingSteps, used, main]
  have leaves : ∀ x, Leaves (consolidatingSteps b declared) x ↔
      x ∈ (declared.filter (!·.isMain)).map (·.configuration) := by
    intro x
    rw [leaves_iff_of_no_declare consolidatingSteps_no_declare, steps]
    simp
  have arrives : ∀ x, ¬ Arrives (consolidatingSteps b declared) x := by
    intro x
    rw [arrives_iff_of_no_declare consolidatingSteps_no_declare, steps]
    simp
  refine afterwards_eq (ascending.filter _) fun d => ?_
  rw [mainOnly, List.mem_filter, decide_eq_true_eq, leaves]
  simp only [arrives, false_and, exists_false, or_false]

/-- Declarations of other variants on the bucket that is called for rest. -/
theorem rests_of_configuration (some : declared ≠ []) (used : b.isUsed = true)
    (all : ∀ d ∈ declared, d.isMain = false ∧ d.configuration = b.configuration d.variant) :
    Rests b declared := by
  match declared with
  | [d] => exact trusted_of_configuration used (all d List.mem_cons_self).2
  | d :: e :: rest =>
    have none : (d :: e :: rest).any Declaration.isMain = false :=
      List.any_eq_false.2 fun f mem => by simp [(all f mem).1]
    refine ⟨used, ?_⟩
    rw [none]
    exact fun f mem => (all f mem).2

section

variable (used : b.isUsed = true) (none : declared.any Declaration.isMain = false)
include used none

theorem consolidatingSteps_eq_moves : consolidatingSteps b declared =
    declared.map fun d => .move d.configuration (b.configuration d.variant) := by
  simp [consolidatingSteps, used, none]

theorem arrives_moved : Arrives (consolidatingSteps b declared) x ↔
    ∃ d ∈ declared, d.configuration ≠ b.configuration d.variant ∧ b.configuration d.variant = x := by
  rw [arrives_iff_of_no_declare consolidatingSteps_no_declare,
    consolidatingSteps_eq_moves used none]
  simp only [List.mem_map, Step.move.injEq]
  constructor
  · rintro ⟨_, ne, d, mem, rfl, rfl⟩
    exact ⟨d, mem, ne, rfl⟩
  · rintro ⟨d, mem, ne, rfl⟩
    exact ⟨_, ne, d, mem, rfl, rfl⟩

theorem leaves_moved : Leaves (consolidatingSteps b declared) x ↔
    ∃ d ∈ declared, d.configuration ≠ b.configuration d.variant ∧ d.configuration = x := by
  rw [leaves_iff_of_no_declare consolidatingSteps_no_declare,
    consolidatingSteps_eq_moves used none]
  simp only [List.mem_map, Step.move.injEq, reduceCtorEq, and_false, exists_false, or_false]
  constructor
  · rintro ⟨_, ne, d, mem, rfl, rfl⟩
    exact ⟨d, mem, ne, rfl⟩
  · rintro ⟨d, mem, ne, rfl⟩
    exact ⟨_, ne, d, mem, rfl, rfl⟩

/-- What leaves arrives elsewhere, so not all is gone. -/
theorem afterwards_moved_ne_nil (some : declared ≠ []) :
    afterwards identifier (consolidatingSteps b declared) declared ≠ [] := by
  obtain ⟨d, mem⟩ := List.exists_mem_of_ne_nil _ some
  by_cases leaves : Leaves (consolidatingSteps b declared) d.configuration
  · obtain ⟨e, isDeclared, ne, -⟩ := (leaves_moved used none).1 leaves
    have arrives := (arrives_moved used none).2 ⟨e, isDeclared, ne, rfl⟩
    obtain ⟨f, made, -⟩ := declarationOn?_configuration identifier e.variant used
    exact List.ne_nil_of_mem (mem_afterwards.2 (.inr ⟨_, arrives, made⟩))
  · exact List.ne_nil_of_mem (mem_afterwards.2 (.inl ⟨mem, leaves⟩))

/-- Several declarations without a main one all move to the bucket. -/
theorem rests_afterwards_moved (some : declared ≠ []) :
    Rests b (afterwards identifier (consolidatingSteps b declared) declared) := by
  have notMain : ∀ d ∈ declared, d.isMain = false := by simpa using none
  refine rests_of_configuration (afterwards_moved_ne_nil used none some) used fun e mem => ?_
  rcases mem_afterwards.1 mem with ⟨isDeclared, stays⟩ | ⟨x, arrives, is⟩
  · refine ⟨notMain e isDeclared, ?_⟩
    by_contra ne
    exact stays ((leaves_moved used none).2 ⟨e, isDeclared, ne, rfl⟩)
  · obtain ⟨d, isDeclared, -, rfl⟩ := (arrives_moved used none).1 arrives
    obtain ⟨f, made, -, configuration, variant, -⟩ :=
      declarationOn?_configuration identifier d.variant used
    obtain rfl : f = e := Option.some.inj (made.symm.trans is)
    refine ⟨?_, by rw [configuration, variant]⟩
    rw [Declaration.isMain, variant]
    exact notMain d isDeclared

end

/-- When the usages agree, the declarations are as they want them after the advice was
followed, unless main declarations that stay are not. -/
theorem rests_afterwards_iff (ascending : declared.Pairwise Before) :
    Rests b (afterwards identifier (agreedPlan b declared) declared) ↔ AgreedStable b declared := by
  match declared with
  | [] => exact iff_of_true rests_afterwards_nil trivial
  | [d] => exact iff_of_true rests_afterwards_singleton trivial
  | d :: e :: rest =>
    have some : d :: e :: rest ≠ [] := List.cons_ne_nil _ _
    show Rests b (afterwards identifier (consolidatingSteps b (d :: e :: rest)) (d :: e :: rest)) ↔
      (b.isUsed → (d :: e :: rest).any Declaration.isMain → Rests b (mainOnly (d :: e :: rest)))
    cases used : b.isUsed with
    | false =>
      have steps : consolidatingSteps b (d :: e :: rest) =
          (d :: e :: rest).map (.drop ·.configuration) := by simp [consolidatingSteps, used]
      refine iff_of_true ?_ (by simp)
      rw [afterwards_eq_nil]
      · exact rests_nil_of_unused used
      · intro f mem
        rw [leaves_iff_of_no_declare consolidatingSteps_no_declare, steps]
        exact .inr (List.mem_map.2 ⟨f, mem, rfl⟩)
      · intro x
        rw [arrives_iff_of_no_declare consolidatingSteps_no_declare, steps]
        simp
    | true =>
      cases main : (d :: e :: rest).any Declaration.isMain with
      | true =>
        rw [afterwards_main ascending used main]
        simp
      | false => exact iff_of_true (rests_afterwards_moved used main some) (by simp)

end ClasspathAdvice.Reduction
