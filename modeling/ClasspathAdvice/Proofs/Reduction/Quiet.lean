import ClasspathAdvice.Proofs.Declaration.Naming
import ClasspathAdvice.Proofs.Reduction.Coverage

/-!
# When a plan asks for nothing

A plan asks for nothing when every move stays where it is and what it drops is what it
declares (`quiet_iff`). In each case of the reduction this says that the declarations are as
the usages want them: `Rests` when the usages agree, `InPlace` when they differ.
-/

namespace ClasspathAdvice.Reduction
set_option autoImplicit false

/-- The plan neither takes a declaration off a configuration nor puts one on it. -/
def Quiet (steps : List Step) : Prop := ∀ x, ¬ Leaves steps x ∧ ¬ Arrives steps x

variable {steps : List Step} {declared : List Declaration} {usages : List Usage} {x : String}
  {d : Declaration} {b : Bucket}

theorem zip_self_mem {l : List String} (h : x ∈ l) : (x, x) ∈ l.zip l := by
  obtain ⟨i, hi, rfl⟩ := List.mem_iff_getElem.1 h
  exact List.mem_iff_getElem.2 ⟨i, by simpa using hi, List.getElem_zip⟩

theorem quiet_iff : Quiet steps ↔
    (∀ source target, .move source target ∈ steps → source = target) ∧
      ∀ x, .declare x ∈ steps ↔ .drop x ∈ steps := by
  constructor
  · intro quiet
    refine ⟨fun source target mem => ?_, fun x => ⟨fun declare => ?_, fun drop => ?_⟩⟩
    · by_contra ne
      exact (quiet source).1 (.inl ⟨target, ne, mem⟩)
    · by_contra notDropped
      exact (quiet x).2 (.inr ⟨declare, fun same => notDropped (merged_mem same).2⟩)
    · by_contra notDeclared
      exact (quiet x).1 (.inr ⟨drop, fun same => notDeclared (merged_mem same).1⟩)
  · rintro ⟨still, same⟩ x
    have lists : (declares steps).toList = (drops steps).toList := by
      refine OrderedSet.eq_of_mem_iff (OrderedSet.ascending _) (OrderedSet.ascending _) fun y => ?_
      rw [mem_declares, mem_drops, same]
    have cancelled : ∀ y, .declare y ∈ steps → Cancelled steps y := by
      intro y declare
      rw [Cancelled, merged, ← lists]
      exact zip_self_mem (mem_declares.2 declare)
    constructor
    · rintro (⟨target, ne, mem⟩ | ⟨drop, alone⟩)
      · exact ne (still _ _ mem)
      · exact alone (cancelled x ((same x).2 drop))
    · rintro (⟨source, ne, mem⟩ | ⟨declare, alone⟩)
      · exact ne (still _ _ mem)
      · exact alone (cancelled x declare)

/-! ## Usages that agree -/

/-- Several declarations, and none to be consolidated when the usages agree on a bucket. -/
def Consolidated (b : Bucket) (declared : List Declaration) : Prop :=
  b.isUsed ∧ if declared.any Declaration.isMain then ∀ d ∈ declared, d.isMain
    else ∀ d ∈ declared, d.configuration = b.configuration d.variant

/-- The declarations are as usages that agree on a bucket want them. -/
def Rests (b : Bucket) : List Declaration → Prop
  | [] => b ≠ .api ∧ b ≠ .implementation
  | [d] => Trusted d b
  | declared => Consolidated b declared

/-- A declaration on a configuration of the bucket that is called for is trusted. -/
theorem trusted_of_configuration (used : b.isUsed = true)
    (h : d.configuration = b.configuration d.variant) : Trusted d b := by
  have known := d.bucket_eq
  rw [h] at known
  rcases Bucket.ofConfiguration_configuration (v := d.variant) used with ok | ⟨-, ok⟩
  · exact .inl (Except.ok.inj (known.symm.trans ok))
  · exact .inr (.inl (Except.ok.inj (known.symm.trans ok)))

theorem quiet_consolidatingSteps_iff (some : declared ≠ []) :
    Quiet (consolidatingSteps b declared) ↔ Consolidated b declared := by
  rw [quiet_iff, consolidatingSteps, Consolidated]
  cases used : b.isUsed with
  | false =>
    simp only [Bool.not_false, if_true]
    obtain ⟨d, mem⟩ := List.exists_mem_of_ne_nil _ some
    refine iff_of_false (fun h => ?_) (by simp)
    have declared := (h.2 d.configuration).2 (List.mem_map.2 ⟨d, mem, rfl⟩)
    simp at declared
  | true =>
    cases main : declared.any Declaration.isMain with
    | true =>
      simp only [Bool.not_true, Bool.false_eq_true, if_false, if_true, true_and]
      constructor
      · intro h d mem
        by_contra notMain
        have drop : Step.drop d.configuration ∈
            (declared.filter (!·.isMain)).map (.drop ·.configuration) :=
          List.mem_map.2 ⟨d, List.mem_filter.2 ⟨mem, by simpa using notMain⟩, rfl⟩
        have declared := (h.2 _).2 drop
        simp at declared
      · intro all
        have none : declared.filter (!·.isMain) = [] :=
          List.filter_eq_nil_iff.2 fun d mem => by simp [all d mem]
        simp [none]
    | false =>
      simp only [Bool.not_true, Bool.false_eq_true, if_false, true_and]
      constructor
      · intro h d mem
        exact h.1 _ _ (List.mem_map.2 ⟨d, mem, rfl⟩)
      · intro all
        refine ⟨fun source target mem => ?_, fun x => by simp⟩
        obtain ⟨d, isDeclared, eq⟩ := List.mem_map.1 mem
        cases eq
        exact all d isDeclared

theorem quiet_agreedPlan_iff : Quiet (agreedPlan b declared) ↔ Rests b declared := by
  match declared with
  | [] =>
    rw [quiet_iff]
    by_cases h : b = .api ∨ b = .implementation
    · simp only [agreedPlan, if_pos h, Rests]
      have some : ¬ (b ≠ .api ∧ b ≠ .implementation) := by
        rintro ⟨api, implementation⟩
        exact h.elim api implementation
      simpa using some
    · simp only [agreedPlan, if_neg h, Rests]
      simpa using h
  | [d] =>
    rw [quiet_iff]
    by_cases trusted : Trusted d b
    · simp [agreedPlan, Rests, trusted]
    · have moves : b.isUsed = true → d.configuration ≠ b.configuration d.variant :=
        fun used h => trusted (trusted_of_configuration used h)
      cases used : b.isUsed with
      | true => simpa [agreedPlan, Rests, trusted, used] using moves used
      | false => simp [agreedPlan, Rests, trusted, used]
  | d :: e :: rest => exact quiet_consolidatingSteps_iff (List.cons_ne_nil _ _)

/-! ## Usages that differ -/

/-- The declarations of a pairing are where its usages call for them. -/
structure Pairing.Settled (p : Pairing) : Prop where
  paired : ∀ e ∈ p.pairs, e.2.isUsed → e.1.configuration = e.2.configuration
  covered : ∀ d, p.main? = some d → ∀ u ∈ p.leftover, d.configuration = u.configuration
  exchanged : ∀ x, (p.main? = none ∧ ∃ u ∈ p.leftover, u.configuration = x) ↔
    ∃ e ∈ p.pairs, e.2.isUsed = false ∧ e.1.configuration = x

/-- The declarations are as usages that differ want them. -/
def InPlace (usages : List Usage) : List Declaration → Prop
  | [] => ∀ u ∈ usages, ¬ u.isUsed
  | [d] => ∀ u ∈ usages, u.isUsed → u.configuration = d.configuration
  | declared => (pair declared (Usage.sorted usages)).Settled

theorem quiet_steps_iff {p : Pairing} : Quiet p.steps ↔ p.Settled := by
  rw [quiet_iff]
  constructor
  · rintro ⟨still, same⟩
    refine ⟨fun e mem used => ?_, fun d main u left => ?_, fun x => ?_⟩
    · exact still _ _ (move_mem_steps.2 (.inl ⟨e, mem, used, rfl, rfl⟩))
    · exact still _ _ (move_mem_steps.2 (.inr ⟨d, main, rfl, u, left, rfl⟩))
    · rw [← declare_mem_steps, ← drop_mem_steps]
      exact same x
  · rintro ⟨paired, covered, exchanged⟩
    refine ⟨fun source target mem => ?_, fun x => ?_⟩
    · rcases move_mem_steps.1 mem with ⟨e, isPair, used, rfl, rfl⟩ | ⟨d, main, rfl, u, left, rfl⟩
      · exact paired e isPair used
      · exact covered d main u left
    · rw [declare_mem_steps, drop_mem_steps]
      exact exchanged x

theorem quiet_differingPlan_iff :
    Quiet (differingPlan (Usage.sorted usages) declared) ↔ InPlace usages declared := by
  match declared with
  | [] =>
    rw [quiet_iff]
    simp only [differingPlan, InPlace, List.mem_map, List.mem_filter, Usage.mem_sorted]
    constructor
    · rintro ⟨-, same⟩ u mem used
      have drop := (same u.configuration).1 ⟨u, ⟨mem, used⟩, rfl⟩
      simp at drop
    · intro none
      refine ⟨fun _ _ h => ?_, fun x => ⟨?_, ?_⟩⟩
      · obtain ⟨u, ⟨mem, used⟩, -⟩ := h
        exact absurd used (none u mem)
      · rintro ⟨u, ⟨mem, used⟩, -⟩
        exact absurd used (none u mem)
      · rintro ⟨u, ⟨mem, used⟩, -⟩
        exact absurd used (none u mem)
  | [d] =>
    rw [quiet_iff]
    simp only [differingPlan, InPlace, List.mem_map, List.mem_filter, Usage.mem_sorted]
    constructor
    · rintro ⟨still, -⟩ u mem used
      exact (still _ _ ⟨u, ⟨mem, used⟩, rfl⟩).symm
    · intro all
      refine ⟨?_, fun x => by simp⟩
      rintro source target ⟨u, ⟨mem, used⟩, eq⟩
      cases eq
      exact (all u mem used).symm
  | d :: e :: rest => exact quiet_steps_iff

/-- The plan asks for nothing when the declarations are as the usages want them. -/
theorem quiet_plan_iff : Quiet (plan declared usages) ↔
    if agree usages then Rests (sharedBucket usages) declared else InPlace usages declared := by
  unfold plan
  split
  · exact quiet_agreedPlan_iff
  · exact quiet_differingPlan_iff

end ClasspathAdvice.Reduction
