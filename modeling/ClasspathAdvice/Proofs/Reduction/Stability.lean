import ClasspathAdvice.Proofs.Reduction.Provenance
import ClasspathAdvice.Proofs.Reduction.Stability.Agreed
import ClasspathAdvice.Proofs.Reduction.Stability.Called

/-!
# Whether advice that was followed is followed by more

Following the advice and asking again can give new advice. `Stable` tells from the
declarations and usages whether it does (`reduce_follow_iff`): when the usages agree, only
main declarations that stay beside others can be wrong; when they differ and the dependency
is declared once at most, only usages that cannot be declared side by side, or a declaration
on one of several configurations that are called for.
-/

namespace ClasspathAdvice.Reduction
set_option autoImplicit false

/-- What the advice on usages that differ leads to is as the usages want it. -/
def DifferingStable (identifier : String) (usages : List Usage) : List Declaration → Prop
  | [] => Declarable usages
  | [d] =>
    (∀ u ∈ usages, u.isUsed → u.configuration = d.configuration) ∨
      ((∀ u ∈ usages, u.isUsed → u.configuration ≠ d.configuration) ∧ Declarable usages)
  | declared =>
    InPlace usages
      (afterwards identifier (pair declared (Usage.sorted usages)).steps declared)

/-- What the advice leads to is as the usages want it. -/
def Stable (identifier : String) (declared : List Declaration) (usages : List Usage) : Prop :=
  if agree usages then AgreedStable (sharedBucket usages) declared
  else DifferingStable identifier usages declared

variable {identifier x : String} {usages : List Usage} {declared : List Declaration}
  {d : Declaration} {u : Usage} {steps : List Step}

/-- Where the declarations are in place each used usage has one on its configuration. -/
theorem exists_of_inPlace (h : InPlace usages declared) (mem : u ∈ usages) (used : u.isUsed = true) :
    ∃ d ∈ declared, d.configuration = u.configuration := by
  match declared with
  | [] => exact absurd used (h u mem)
  | [d] => exact ⟨d, List.mem_cons_self, (h u mem used).symm⟩
  | d :: e :: rest =>
    rcases paired_or_remaining (d :: e :: rest) (Usage.mem_sorted.2 mem) with ⟨f, paired⟩ | left
    · exact ⟨f, fst_mem_of_pair paired, h.paired _ paired used⟩
    · have leftover := List.mem_filter.2 ⟨left, used⟩
      cases main : (pair (d :: e :: rest) (Usage.sorted usages)).main? with
      | some f =>
        exact ⟨f, mem_of_unpaired (main?_mem main).1, h.covered f main u leftover⟩
      | none =>
        obtain ⟨f, paired, -, at_u⟩ := (h.exchanged _).1 ⟨main, u, leftover, rfl⟩
        exact ⟨f.1, fst_mem_of_pair paired, at_u⟩

/-! ## Usages that differ, declared once at most -/

/-- Where all declarations are taken away, what is called for and not there is declared. -/
theorem called_of_arrives (gone : ∀ d ∈ declared, Leaves steps d.configuration)
    (arrives : ∀ x, Arrives steps x ↔ ∃ u ∈ usages, u.isUsed ∧ u.configuration = x) :
    Called identifier usages (afterwards identifier steps declared) := by
  refine ⟨ascending_afterwards, fun d => ?_⟩
  rw [mem_afterwards]
  constructor
  · rintro (⟨mem, stays⟩ | ⟨x, h, is⟩)
    · exact absurd (gone d mem) stays
    · obtain ⟨u, mem, used, rfl⟩ := (arrives x).1 h
      exact ⟨u, mem, used, is⟩
  · rintro ⟨u, mem, used, is⟩
    exact .inr ⟨_, (arrives _).2 ⟨u, mem, used, rfl⟩, is⟩

theorem inPlace_afterwards_nil (some : ∃ u ∈ usages, u.isUsed) :
    InPlace usages (afterwards identifier (differingPlan (Usage.sorted usages) []) []) ↔
      Declarable usages := by
  refine inPlace_iff_declarable (@called_of_arrives identifier _ _ _ ?_ fun x => ?_) some
  · exact fun d mem => absurd mem List.not_mem_nil
  · rw [arrives_iff_of_no_drop fun y => by simp [differingPlan]]
    simp [differingPlan, Usage.mem_sorted, and_assoc]

theorem inPlace_afterwards_singleton (some : ∃ u ∈ usages, u.isUsed) :
    InPlace usages (afterwards identifier (differingPlan (Usage.sorted usages) [d]) [d]) ↔
      (∀ u ∈ usages, u.isUsed → u.configuration = d.configuration) ∨
        ((∀ u ∈ usages, u.isUsed → u.configuration ≠ d.configuration) ∧ Declarable usages) := by
  by_cases all : ∀ u ∈ usages, u.isUsed → u.configuration = d.configuration
  · have quiet : Quiet (differingPlan (Usage.sorted usages) [d]) := quiet_differingPlan_iff.2 all
    rw [afterwards_of_quiet quiet (List.pairwise_singleton _ _)]
    exact iff_of_true all (.inl all)
  · have moves : ∃ u ∈ usages, u.isUsed ∧ u.configuration ≠ d.configuration := by
      simpa using all
    have gone : ∀ e ∈ [d], Leaves (differingPlan (Usage.sorted usages) [d]) e.configuration := by
      intro e mem
      rw [List.mem_singleton.1 mem]
      exact leaves_differingPlan_singleton.2 ⟨rfl, moves⟩
    by_cases none : ∀ u ∈ usages, u.isUsed → u.configuration ≠ d.configuration
    · have called : Called identifier usages
          (afterwards identifier (differingPlan (Usage.sorted usages) [d]) [d]) := by
        refine called_of_arrives gone fun x => arrives_differingPlan_singleton.trans ?_
        refine and_iff_right_of_imp ?_
        rintro ⟨u, mem, used, rfl⟩
        exact Ne.symm (none u mem used)
      rw [inPlace_iff_declarable called some]
      exact ⟨fun declarable => .inr ⟨none, declarable⟩, fun h => (h.resolve_left all).2⟩
    · -- what was called for where the declaration was is not declared any more
      refine iff_of_false (fun inPlace => ?_) (by simp [all, none])
      obtain ⟨u, mem, used, at_d⟩ : ∃ u ∈ usages, u.isUsed ∧ u.configuration = d.configuration := by
        simpa using none
      obtain ⟨e, isDeclared, at_u⟩ := exists_of_inPlace inPlace mem used
      rcases mem_afterwards.1 isDeclared with ⟨isD, stays⟩ | ⟨x, arrives, is⟩
      · exact stays (gone e isD)
      · have at_e := (of_declarationOn? is).2
        rw [at_u, at_d] at at_e
        exact (arrives_differingPlan_singleton.1 arrives).1 at_e

theorem inPlace_afterwards_iff (some : ∃ u ∈ usages, u.isUsed) :
    InPlace usages (afterwards identifier (differingPlan (Usage.sorted usages) declared) declared) ↔
      DifferingStable identifier usages declared := by
  match declared with
  | [] => exact inPlace_afterwards_nil some
  | [d] => exact inPlace_afterwards_singleton some
  | d :: e :: rest => exact Iff.rfl

/-- Of usages that differ at most those in one bucket are not used. -/
theorem exists_used_of_differ (differ : agree usages = false) : ∃ u ∈ usages, u.isUsed := by
  by_contra none
  have unused : ∀ u ∈ usages, u.bucket = .unused := by
    intro u mem
    by_contra used
    exact none ⟨u, mem, by simpa [Usage.isUsed, Bucket.isUsed] using used⟩
  have same : agree usages = true := agree_iff.2 ⟨.unused, unused⟩
  rw [same] at differ
  cases differ

/-- The declarations after following the plan ask for nothing more if and only if they are
stable. -/
theorem quiet_afterwards_iff (ascending : declared.Pairwise Before) :
    Quiet (plan (afterwards identifier (plan declared usages) declared) usages) ↔
      Stable identifier declared usages := by
  rw [quiet_plan_iff, Stable]
  by_cases h : agree usages = true
  · simp only [if_pos h, plan]
    exact rests_afterwards_iff ascending
  · simp only [if_neg h, plan]
    exact inPlace_afterwards_iff (exists_used_of_differ (by simpa using h))

/-! ## The variants that advice names -/

/-- Declarations are only put on configurations of buckets in use. -/
theorem bucket_of_arrives (h : Arrives (plan declared usages) x) :
    ∃ b v, Bucket.isUsed b ∧ x = b.configuration v := by
  obtain ⟨b, v, eq, wanted⟩ := wanted_of_arrives h
  exact ⟨b, v, by simpa [Bucket.isUsed] using wanted.used, eq⟩

/-- Advice names the variants that declarations are to be made in, and following it leads to
declarations that the same usages ask no more of if and only if `Stable` holds. -/
theorem reduce_follow_iff (coordinates : Coordinates) (declarations : List Declaration)
    (usages : List Usage) (some : usages ≠ []) :
    ∃ advice again, reduce coordinates declarations usages = .ok advice ∧
      (∀ a ∈ advice, ∀ x, a.target = .some x → ∃ b v, Bucket.isUsed b ∧ x = b.configuration v) ∧
      reduce coordinates (follow coordinates.identifier advice declarations) usages = .ok again ∧
      (again = ∅ ↔
        Stable coordinates.identifier (matching coordinates declarations) usages) := by
  obtain ⟨advice, eq, follows⟩ := @reduce_follows coordinates declarations usages some
  obtain ⟨again, eq', follows'⟩ :=
    @reduce_follows coordinates (follow coordinates.identifier advice declarations) usages some
  refine ⟨advice, again, eq, fun a mem x target => ?_, eq', ?_⟩
  · exact bucket_of_arrives ((follows.target_iff x).1 ⟨a, mem, target⟩)
  · rw [follows'.eq_empty_iff, matching_follow follows]
    exact quiet_afterwards_iff (OrderedSet.ascending _)

/-- A library declared in two variants. -/
def libDeclaredTwice : List Declaration :=
  [{ identifier := "com.example:lib", configuration := "api", variant := .main, bucket := .api
     bucket_eq := Bucket.ofConfiguration_api },
   { identifier := "com.example:lib", configuration := "debugImplementation", variant := ⟨"debug"⟩
     bucket := .implementation, bucket_eq := ofConfiguration_debugImplementation }]

theorem matching_libDeclaredTwice : matching lib libDeclaredTwice = libDeclaredTwice := by decide

/-- An API declaration that all variants use as an implementation is moved when it is the only
one. Beside another it stays, and is moved when the other is gone. -/
theorem reduce_follow_iff_lib :
    let usages := [Usage.mk ⟨"debug"⟩ .implementation [], Usage.mk ⟨"release"⟩ .implementation []]
    usages ≠ [] ∧
    (∃ advice again, reduce lib (libDeclaredTwice.take 1) usages = .ok advice ∧
      reduce lib (follow lib.identifier advice (libDeclaredTwice.take 1)) usages = .ok again ∧
      again = ∅) ∧
    ∃ advice again, reduce lib libDeclaredTwice usages = .ok advice ∧
      reduce lib (follow lib.identifier advice libDeclaredTwice) usages = .ok again ∧ again ≠ ∅ := by
  intro usages
  have some : usages ≠ [] := List.cons_ne_nil _ _
  have agrees : agree usages = true := by decide
  obtain ⟨once, onceAgain, onceEq, -, onceEq', onceIff⟩ :=
    reduce_follow_iff lib (libDeclaredTwice.take 1) usages some
  obtain ⟨twice, twiceAgain, twiceEq, -, twiceEq', twiceIff⟩ :=
    reduce_follow_iff lib libDeclaredTwice usages some
  refine ⟨some, ⟨once, onceAgain, onceEq, onceEq', onceIff.2 ?_⟩, twice, twiceAgain, twiceEq,
    twiceEq', fun none => ?_⟩
  · have alone : matching lib (libDeclaredTwice.take 1) = libDeclaredTwice.take 1 := by decide
    rw [alone, Stable, if_pos agrees]
    trivial
  · have stable := twiceIff.1 none
    rw [matching_libDeclaredTwice, Stable, if_pos agrees] at stable
    have rests : Rests .implementation (mainOnly libDeclaredTwice) := stable (by decide) (by decide)
    have left : mainOnly libDeclaredTwice = libDeclaredTwice.take 1 := by decide
    rw [left] at rests
    have trusted : Trusted libDeclaredTwice[0] .implementation := rests
    exact absurd trusted (by decide)

end ClasspathAdvice.Reduction
