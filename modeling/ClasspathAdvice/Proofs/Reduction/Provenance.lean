import ClasspathAdvice.Proofs.Reduction.Application
import ClasspathAdvice.Proofs.Reduction.Coverage

/-!
# Where the configurations in advice are read off

Each step of a plan takes a declaration off the configuration that it is on, and puts one on a
configuration that the usages call for (`Grounds`). Merging adds no configuration, and leaves
additions or removals but not both. So all advice is founded on what is declared and observed
(`reduce_founded`).
-/

namespace ClasspathAdvice.Reduction
set_option autoImplicit false

/-- A dependency may be advised into a bucket in a variant. -/
structure Wanted (declared : List Declaration) (usages : List Usage) (b : Bucket) (v : Variant) :
    Prop where
  used : b ≠ .unused
  observed : ∃ u ∈ usages, u.bucket = b
  /-- The variant is that of a usage in the bucket. Where all usages are in the bucket, it is
  the main one or that of a declaration. -/
  variant : (∃ u ∈ usages, u.bucket = b ∧ u.variant = v) ∨
    (∀ u ∈ usages, u.bucket = b) ∧ (v = .main ∨ ∃ d ∈ declared, d.variant = v)

/-- What a step is read off. -/
inductive Grounds (declared : List Declaration) (usages : List Usage) : Step → Prop where
  | move {d : Declaration} {b : Bucket} {v : Variant} (isDeclared : d ∈ declared)
      (wanted : Wanted declared usages b v) :
      Grounds declared usages (.move d.configuration (b.configuration v))
  | drop {d : Declaration} (isDeclared : d ∈ declared) :
      Grounds declared usages (.drop d.configuration)
  | declare {b : Bucket} {v : Variant} (wanted : Wanted declared usages b v) :
      Grounds declared usages (.declare (b.configuration v))

/-- What a piece of advice is founded on. -/
structure Founded (coordinates : Coordinates) (declarations : List Declaration)
    (usages : List Usage) (a : Advice) : Prop where
  coordinates_eq : a.coordinates = coordinates.withoutDefaultCapability
  named : a.source.isSome ∨ a.target.isSome
  apart : a.source ≠ a.target
  declared : ∀ x, a.source = some x →
    ∃ d ∈ declarations, d.identifier = coordinates.identifier ∧ d.configuration = x
  wanted : ∀ x, a.target = some x → ∃ b v, x = Bucket.configuration b v ∧
    Wanted (matching coordinates declarations) usages b v

variable {x : String} {b : Bucket} {v : Variant} {d : Declaration} {u : Usage} {step : Step}
  {steps : List Step} {declared : List Declaration} {usages : List Usage}

/-! ## The steps of the plan -/

theorem Wanted.of_usage (mem : u ∈ usages) (used : u.isUsed = true) :
    Wanted declared usages u.bucket u.variant where
  used := by simpa [Usage.isUsed, Bucket.isUsed] using used
  observed := ⟨u, mem, rfl⟩
  variant := .inl ⟨u, mem, rfl, rfl⟩

/-- Usages that agree on a bucket in use want it in the main variant and where there are
declarations. -/
theorem Wanted.of_agree (h : agree usages = true) (used : (sharedBucket usages).isUsed = true)
    (variant : v = .main ∨ ∃ d ∈ declared, d.variant = v) :
    Wanted declared usages (sharedBucket usages) v := by
  obtain ⟨b, all⟩ := agree_iff.1 h
  have some : usages ≠ [] := by
    rintro rfl
    cases used
  obtain ⟨u, mem⟩ := List.exists_mem_of_ne_nil usages some
  rw [sharedBucket_eq all some] at used ⊢
  refine ⟨?_, ⟨u, mem, all u mem⟩, .inr ⟨all, variant⟩⟩
  simpa [Bucket.isUsed] using used

theorem grounds_of_mem_agreedPlan
    (wanted : ∀ v, b.isUsed = true → (v = .main ∨ ∃ d ∈ declared, d.variant = v) →
      Wanted declared usages b v)
    (mem : step ∈ agreedPlan b declared) : Grounds declared usages step := by
  match declared with
  | [] =>
    simp only [agreedPlan] at mem
    split at mem
    · rename_i h
      have used : b.isUsed = true := by rcases h with rfl | rfl <;> rfl
      rw [List.mem_singleton.1 mem, ← Bucket.configuration_main]
      exact .declare (wanted .main used (.inl rfl))
    · cases mem
  | [d] =>
    simp only [agreedPlan] at mem
    split at mem
    · cases mem
    · split at mem
      · rename_i used
        rw [List.mem_singleton.1 mem]
        exact .move List.mem_cons_self (wanted d.variant used (.inr ⟨d, List.mem_cons_self, rfl⟩))
      · rw [List.mem_singleton.1 mem]
        exact .drop List.mem_cons_self
  | d :: e :: rest =>
    replace mem : step ∈ consolidatingSteps b (d :: e :: rest) := mem
    unfold consolidatingSteps at mem
    split at mem
    · obtain ⟨f, isDeclared, rfl⟩ := List.mem_map.1 mem
      exact .drop isDeclared
    · rename_i used
      split at mem
      · obtain ⟨f, other, rfl⟩ := List.mem_map.1 mem
        exact .drop (List.mem_filter.1 other).1
      · obtain ⟨f, isDeclared, rfl⟩ := List.mem_map.1 mem
        exact .move isDeclared (wanted f.variant (by simpa using used) (.inr ⟨f, isDeclared, rfl⟩))

theorem grounds_of_mem_steps (mem : step ∈ (pair declared usages).steps) :
    Grounds declared usages step := by
  have ofLeftover : ∀ u ∈ (pair declared usages).leftover,
      Wanted declared usages u.bucket u.variant := by
    intro u left
    obtain ⟨isUsage, used⟩ := mem_of_leftover left
    exact .of_usage isUsage used
  cases step with
  | move source target =>
    rcases move_mem_steps.1 mem with ⟨e, paired, used, rfl, rfl⟩ | ⟨d, main, rfl, u, left, rfl⟩
    · exact .move (fst_mem_of_pair paired) (.of_usage (snd_mem_of_pair paired) used)
    · exact .move (mem_of_unpaired (main?_mem main).1) (ofLeftover u left)
  | drop source =>
    obtain ⟨e, paired, -, rfl⟩ := drop_mem_steps.1 mem
    exact .drop (fst_mem_of_pair paired)
  | declare target =>
    obtain ⟨-, u, left, rfl⟩ := declare_mem_steps.1 mem
    exact .declare (ofLeftover u left)

theorem grounds_of_mem_differingPlan (mem : step ∈ differingPlan usages declared) :
    Grounds declared usages step := by
  match declared with
  | [] =>
    obtain ⟨u, needed, rfl⟩ := List.mem_map.1 mem
    obtain ⟨isUsage, used⟩ := List.mem_filter.1 needed
    exact .declare (.of_usage isUsage used)
  | [d] =>
    obtain ⟨u, needed, rfl⟩ := List.mem_map.1 mem
    obtain ⟨isUsage, used⟩ := List.mem_filter.1 needed
    exact .move List.mem_cons_self (.of_usage isUsage used)
  | d :: e :: rest => exact grounds_of_mem_steps mem

theorem Wanted.of_sorted (h : Wanted declared (Usage.sorted usages) b v) :
    Wanted declared usages b v where
  used := h.used
  observed := by simpa only [Usage.mem_sorted] using h.observed
  variant := by simpa only [Usage.mem_sorted] using h.variant

theorem Grounds.of_sorted (h : Grounds declared (Usage.sorted usages) step) :
    Grounds declared usages step := by
  cases h with
  | move isDeclared wanted => exact .move isDeclared wanted.of_sorted
  | drop isDeclared => exact .drop isDeclared
  | declare wanted => exact .declare wanted.of_sorted

theorem grounds_of_mem_plan (mem : step ∈ plan declared usages) : Grounds declared usages step := by
  unfold plan at mem
  split at mem
  · rename_i same
    exact grounds_of_mem_agreedPlan (fun v => Wanted.of_agree same) mem
  · exact (grounds_of_mem_differingPlan mem).of_sorted

/-- Declarations are only taken off configurations that they are on. -/
theorem declared_of_leaves (h : Leaves (plan declared usages) x) :
    ∃ d ∈ declared, d.configuration = x := by
  rcases h with ⟨target, -, mem⟩ | ⟨mem, -⟩
  · cases grounds_of_mem_plan mem with
    | move isDeclared wanted => exact ⟨_, isDeclared, rfl⟩
  · cases grounds_of_mem_plan mem with
    | drop isDeclared => exact ⟨_, isDeclared, rfl⟩

/-- Declarations are only put on configurations that are wanted. -/
theorem wanted_of_arrives (h : Arrives (plan declared usages) x) :
    ∃ b v, x = Bucket.configuration b v ∧ Wanted declared usages b v := by
  rcases h with ⟨source, -, mem⟩ | ⟨mem, -⟩
  · cases grounds_of_mem_plan mem with
    | move isDeclared wanted => exact ⟨_, _, rfl, wanted⟩
  · cases grounds_of_mem_plan mem with
    | declare wanted => exact ⟨_, _, rfl, wanted⟩

/-! ## What merging leaves of the plan -/

variable {c : Coordinates} {advice : AdviceSet}

/-- Merged advice has the coordinates that the plan is for and never a configuration twice. -/
theorem shape_of_simplify
    (h : simplify (.ofList (steps.filterMap (Step.advice? c))) = .ok advice) :
    ∀ a ∈ advice, a.coordinates = c ∧ a.source ≠ a.target := by
  obtain ⟨merged, eq, mem⟩ := @simplify_spec c steps
  obtain rfl : advice = merged := Except.ok.inj (h.symm.trans eq)
  intro a isAdvice
  rcases (mem a).1 isAdvice with ⟨s, t, ne, rfl, -⟩ | ⟨s, -, rfl, -⟩ | ⟨t, -, rfl, -⟩
  · exact ⟨rfl, by simpa using ne⟩
  · exact ⟨rfl, by simp [Advice.remove]⟩
  · exact ⟨rfl, by simp [Advice.add]⟩

/-- All advice on a dependency has its coordinates, without the default capability. -/
theorem coordinates_of_reduce {coordinates : Coordinates} {declarations : List Declaration}
    {a : Advice} (ok : reduce coordinates declarations usages = .ok advice) (mem : a ∈ advice) :
    a.coordinates = coordinates.withoutDefaultCapability := by
  have some : usages ≠ [] := by
    rintro rfl
    cases reduce_nil.symm.trans ok
  rw [reduce_eq_simplify some] at ok
  exact (shape_of_simplify ok a mem).1

/-- Additions and removals are merged until one kind is used up. -/
theorem used_up_of_simplify
    (h : simplify (.ofList (steps.filterMap (Step.advice? c))) = .ok advice) :
    ¬ ((∃ a ∈ advice, a.isAnyAdd) ∧ ∃ a ∈ advice, a.isAnyRemove) := by
  obtain ⟨left, eq, mem⟩ := @simplify_spec c steps
  obtain rfl : advice = left := Except.ok.inj (h.symm.trans eq)
  rintro ⟨⟨a, isAdvice, add⟩, a', isAdvice', remove⟩
  obtain ⟨t, declare, lone⟩ : ∃ t, .declare t ∈ steps ∧ ∀ s, (t, s) ∉ merged steps := by
    rcases (mem a).1 isAdvice with ⟨_, _, _, rfl, _⟩ | ⟨_, _, rfl, _⟩ | ⟨t, declare, _, lone⟩
    · cases add
    · cases add
    · exact ⟨t, declare, lone⟩
  obtain ⟨s, drop, lone'⟩ : ∃ s, .drop s ∈ steps ∧ ∀ t, (t, s) ∉ merged steps := by
    rcases (mem a').1 isAdvice' with ⟨_, _, _, rfl, _⟩ | ⟨s, drop, _, lone⟩ | ⟨_, _, rfl, _⟩
    · cases remove
    · exact ⟨s, drop, lone⟩
    · cases remove
  rcases zip_covers (mem_declares.2 declare) (mem_drops.2 drop) with ⟨s', pair⟩ | ⟨t', pair⟩
  · exact lone s' pair
  · exact lone' t' pair

/-- The reduction fails only where there are no usages. All its advice is founded on what is
declared and observed, and never has both additions and removals. -/
theorem reduce_founded (coordinates : Coordinates) (declarations : List Declaration)
    (usages : List Usage) :
    (usages = [] →
      reduce coordinates declarations usages = .error (.noUsages coordinates.identifier)) ∧
    (usages ≠ [] → ∃ advice, reduce coordinates declarations usages = .ok advice ∧
      (∀ a ∈ advice, Founded coordinates declarations usages a) ∧
      ¬ ((∃ a ∈ advice, a.isAnyAdd) ∧ ∃ a ∈ advice, a.isAnyRemove)) := by
  refine ⟨?_, fun some => ?_⟩
  · rintro rfl
    exact reduce_nil
  · obtain ⟨advice, eq, follows⟩ := @reduce_follows coordinates declarations usages some
    have merged := (reduce_eq_simplify some).symm.trans eq
    refine ⟨advice, eq, fun a isAdvice => ?_, used_up_of_simplify merged⟩
    obtain ⟨coordinates_eq, apart⟩ := shape_of_simplify merged a isAdvice
    refine ⟨coordinates_eq, ?_, apart, fun x source => ?_, fun x target => ?_⟩
    · obtain ⟨x, source | target⟩ := follows.named a isAdvice
      · exact .inl (by simp [source])
      · exact .inr (by simp [target])
    · have leaves := (follows.source_iff x).1 ⟨a, isAdvice, source⟩
      obtain ⟨d, isDeclared, at_x⟩ := declared_of_leaves leaves
      obtain ⟨isDeclaration, identifier⟩ := mem_matching.1 isDeclared
      exact ⟨d, isDeclaration, identifier, at_x⟩
    · exact wanted_of_arrives ((follows.target_iff x).1 ⟨a, isAdvice, target⟩)

/-- An implementation that two variants use as an API is moved to the bucket they share, in the
variant of the declaration. -/
theorem reduce_founded_lib :
    let usages := [Usage.mk .main .api [], Usage.mk ⟨"debug"⟩ .api []]
    let advice : Advice := { coordinates := lib, source := some "implementation", target := some "api" }
    usages ≠ [] ∧ reduce lib [libDeclared] [] = .error (.noUsages "com.example:lib") ∧
      reduce lib [libDeclared] usages = .ok (.ofList [advice]) ∧
      Founded lib [libDeclared] usages advice := by
  intro usages advice
  have some : usages ≠ [] := List.cons_ne_nil _ _
  have moved : reduce lib [libDeclared] usages = .ok (.ofList [advice]) := rfl
  obtain ⟨given, eq, founded, -⟩ := (reduce_founded lib [libDeclared] usages).2 some
  have same : given = .ofList [advice] := Except.ok.inj (eq.symm.trans moved)
  refine ⟨some, (reduce_founded lib [libDeclared] []).1 rfl, moved, founded advice ?_⟩
  rw [same, OrderedSet.mem_ofList]
  exact List.mem_cons_self

end ClasspathAdvice.Reduction
