import ClasspathAdvice.Proofs.ProjectModule.Locality
import Mathlib.Data.List.Count

/-!
# Declared dependencies that nothing was observed of

A dependency that a module declares and has no usages of counts as unused in every variant the
module has. It is one of the dependencies, once however often it is declared, and the advice on
it is to drop it from each configuration that it is declared on (`analyze_unobserved`). A
declaration for compile time is trusted instead, but only while it is the only one.
-/

namespace ClasspathAdvice
set_option autoImplicit false

namespace Reduction

variable {declared : List Declaration} {usages : List Usage}

/-- One declaration is all there is, and it is for compile time. -/
def LoneCompileOnly (declared : List Declaration) : Prop :=
  ∃ d, declared = [d] ∧ d.bucket = .compileOnly

theorem trusted_unused_iff {d : Declaration} : Trusted d .unused ↔ d.bucket = .compileOnly := by
  have used : d.bucket.isUsed = true := Bucket.isUsed_of_ofConfiguration d.bucket_eq
  have other : d.bucket ≠ .unused := by
    intro unused
    rw [unused] at used
    cases used
  simp [Trusted, other, Bucket.isUsed]

theorem agreedPlan_unused_of_lone (lone : LoneCompileOnly declared) :
    agreedPlan .unused declared = [] := by
  obtain ⟨d, rfl, compileOnly⟩ := lone
  rw [agreedPlan, if_pos (trusted_unused_iff.2 compileOnly)]

/-- Declarations of what is not used are all dropped. -/
theorem agreedPlan_unused (several : ¬ LoneCompileOnly declared) :
    agreedPlan .unused declared = declared.map (.drop ·.configuration) := by
  match declared with
  | [] => rfl
  | [d] =>
    have untrusted : ¬ Trusted d .unused :=
      fun trusted => several ⟨d, rfl, trusted_unused_iff.1 trusted⟩
    rw [agreedPlan, if_neg untrusted]
    rfl
  | _ :: _ :: _ => rfl

theorem plan_unused (some : usages ≠ []) (unused : ∀ u ∈ usages, u.bucket = .unused) :
    plan declared usages = agreedPlan .unused declared := by
  rw [plan, if_pos (agree_iff.2 ⟨_, unused⟩), sharedBucket_eq unused some]

/-- A dependency that is not used is removed from wherever it is declared, unless there is but
one declaration and that one is for compile time. -/
theorem reduce_unused (coordinates : Coordinates) (declarations : List Declaration)
    (some : usages ≠ []) (unused : ∀ u ∈ usages, u.bucket = .unused) :
    ∃ advice, reduce coordinates declarations usages = .ok advice ∧
      ∀ a, a ∈ advice ↔ ¬ LoneCompileOnly (matching coordinates declarations) ∧
        ∃ d ∈ matching coordinates declarations,
          a = .remove coordinates.withoutDefaultCapability d.configuration := by
  rw [reduce_eq_simplify some, plan_unused some unused]
  by_cases lone : LoneCompileOnly (matching coordinates declarations)
  · obtain ⟨advice, eq, mem⟩ := @simplify_drops coordinates.withoutDefaultCapability []
    refine ⟨advice, ?_, fun a => ?_⟩
    · rw [agreedPlan_unused_of_lone lone]
      exact eq
    · rw [mem]
      exact iff_of_false (by simp) fun h => h.1 lone
  · obtain ⟨advice, eq, mem⟩ := @simplify_drops coordinates.withoutDefaultCapability
      (matching coordinates declarations)
    refine ⟨advice, ?_, fun a => ?_⟩
    · rw [agreedPlan_unused lone]
      exact eq
    · rw [mem, and_iff_right lone]

end Reduction

namespace ProjectModule

variable {m : ProjectModule} {x : String}

/-- The configurations that a dependency is declared on. -/
def configurationsOf (m : ProjectModule) (x : String) : OrderedSet String :=
  .ofList ((m.declarations.filter (·.identifier == x)).map (·.configuration))

/-- All declarations of a dependency are one, and it is for compile time. -/
def DeclaredForCompileTime (m : ProjectModule) (x : String) : Prop :=
  ∃ d : Declaration, d.bucket = .compileOnly ∧
    ∀ e, e ∈ m.declarations ∧ e.identifier = x ↔ e = d

instance : Decidable (m.DeclaredForCompileTime x) :=
  decidable_of_iff (∃ d ∈ m.declarations, (d.identifier = x ∧ d.bucket = .compileOnly) ∧
      ∀ e ∈ m.declarations, e.identifier = x → e = d) <| by
    constructor
    · rintro ⟨d, declared, ⟨at_x, compileOnly⟩, only⟩
      refine ⟨d, compileOnly, fun e => ⟨fun h => only e h.1 h.2, ?_⟩⟩
      rintro rfl
      exact ⟨declared, at_x⟩
    · rintro ⟨d, compileOnly, only⟩
      obtain ⟨declared, at_x⟩ := (only d).2 rfl
      exact ⟨d, declared, ⟨at_x, compileOnly⟩, fun e mem same => (only e).1 ⟨mem, same⟩⟩

/-- The usages of a dependency that nothing was observed of. -/
def unusedEverywhere (m : ProjectModule) : List Usage :=
  m.knownVariants.map (Usage.ofReasons · .unused [.unused])

theorem mem_configurationsOf {configuration : String} : configuration ∈ m.configurationsOf x ↔
    ∃ d ∈ m.declarations, d.identifier = x ∧ d.configuration = configuration := by
  rw [configurationsOf, OrderedSet.mem_ofList, List.mem_map]
  simp only [List.mem_filter, beq_iff_eq, and_assoc]

theorem loneCompileOnly_iff {c : Coordinates} (at_x : c.identifier = x) :
    Reduction.LoneCompileOnly (Reduction.matching c m.declarations) ↔
      m.DeclaredForCompileTime x := by
  have same : ∀ d : Declaration, Reduction.matching c m.declarations = [d] ↔
      ∀ e, e ∈ m.declarations ∧ e.identifier = x ↔ e = d := by
    intro d
    constructor
    · intro one e
      rw [← at_x, ← Reduction.mem_matching, one, List.mem_singleton]
    · intro all
      refine OrderedSet.eq_of_mem_iff (OrderedSet.ascending _) (List.pairwise_singleton _ _)
        fun e => ?_
      rw [Reduction.mem_matching, List.mem_singleton, at_x]
      exact all e
  rw [Reduction.LoneCompileOnly, DeclaredForCompileTime]
  exact exists_congr fun d => (and_congr_left fun _ => same d).trans and_comm

/-- Where there is one dependency with an identifier, the advice on it is what that is reduced
to. -/
theorem mem_rawAdvice_of_only {advice part : AdviceSet} {e : Coordinates × List Usage} {a : Advice}
    (ok : m.rawAdvice = .ok advice)
    (only : ∀ d, d ∈ m.dependencies ∧ d.1.identifier = x ↔ d = e)
    (reduced : Reduction.reduce e.1 m.declarations e.2 = .ok part)
    (at_x : a.coordinates.identifier = x) : a ∈ advice ↔ a ∈ part := by
  rw [mem_rawAdvice ok]
  constructor
  · rintro ⟨d, isDependency, part', reduced', mem⟩
    have on_x : d.1.identifier = x := by
      rw [← at_x, Reduction.coordinates_of_reduce reduced' mem,
        Coordinates.identifier_withoutDefaultCapability]
    obtain rfl := (only d).1 ⟨isDependency, on_x⟩
    obtain rfl : part = part' := Except.ok.inj (reduced.symm.trans reduced')
    exact mem
  · exact fun mem => ⟨e, ((only e).2 rfl).1, part, reduced, mem⟩

section

variable (unobserved : x ∈ m.unobserved)
include unobserved

/-- The dependency is there once, unused in every variant. -/
theorem filter_dependencies : m.dependencies.filter (·.1.identifier == x) =
    [(.ofIdentifier x, m.unusedEverywhere)] := by
  have unused := (mem_unobserved.1 unobserved).2
  have observed : m.usages.entries.filter (·.1.identifier == x) = [] := by
    apply List.filter_eq_nil_iff.2
    intro e mem at_x
    exact unused e.1 (List.mem_map_of_mem mem) (beq_iff_eq.1 at_x)
  have once : m.unobserved.count x = 1 :=
    List.count_eq_one_of_mem (nodup_of_ascending (OrderedSet.ascending _)) unobserved
  rw [dependencies, List.filter_append, observed, List.nil_append, List.filter_map]
  simp only [Function.comp_def, Coordinates.identifier_ofIdentifier]
  rw [List.filter_beq, once]
  rfl

/-- The advice on the dependency that there is before any is set aside. -/
theorem mem_rawAdvice_of_unobserved {advice : AdviceSet} {a : Advice} (ok : m.rawAdvice = .ok advice)
    (at_x : a.coordinates.identifier = x) : a ∈ advice ↔ ¬ m.DeclaredForCompileTime x ∧
      ∃ configuration ∈ m.configurationsOf x, a = .remove (.ofIdentifier x) configuration := by
  have only : ∀ e, e ∈ m.dependencies ∧ e.1.identifier = x ↔
      e = (.ofIdentifier x, m.unusedEverywhere) := by
    intro e
    have filtered : e ∈ m.dependencies.filter (·.1.identifier == x) ↔
        e ∈ [(.ofIdentifier x, m.unusedEverywhere)] := by rw [filter_dependencies unobserved]
    rwa [List.mem_filter, beq_iff_eq, List.mem_singleton] at filtered
  have some : m.unusedEverywhere ≠ [] :=
    fun none => knownVariants_ne_nil (List.map_eq_nil_iff.1 none)
  have unused : ∀ u ∈ m.unusedEverywhere, u.bucket = .unused := by
    intro u mem
    obtain ⟨v, -, rfl⟩ := List.mem_map.1 mem
    rfl
  obtain ⟨part, reduced, removals⟩ :=
    Reduction.reduce_unused (.ofIdentifier x) m.declarations some unused
  rw [loneCompileOnly_iff (Coordinates.identifier_ofIdentifier x)] at removals
  rw [mem_rawAdvice_of_only ok only reduced at_x, removals]
  simp only [Reduction.mem_matching, mem_configurationsOf, Coordinates.identifier_ofIdentifier,
    Coordinates.withoutDefaultCapability_ofIdentifier]
  refine and_congr_right fun _ => ?_
  constructor
  · rintro ⟨d, ⟨declared, on_x⟩, rfl⟩
    exact ⟨d.configuration, ⟨d, declared, on_x, rfl⟩, rfl⟩
  · rintro ⟨_, ⟨d, declared, on_x, rfl⟩, rfl⟩
    exact ⟨d, ⟨declared, on_x⟩, rfl⟩

end

/-- A filter without exclusions and predicates sets nothing aside. -/
theorem mem_of_analyze {advice : ModuleAdvice} {raw : AdviceSet} {a : Advice}
    (kept : advice.advice = (({} : AdviceFilter).split raw).kept) : a ∈ advice.advice ↔ a ∈ raw := by
  have none : ({} : AdviceFilter).setsAside a = false := by
    simp [AdviceFilter.setsAside, Exclusions.excludes, Exclusions.ruleMatches]
  rw [kept, AdviceFilter.split, OrderedSet.mem_filter, none]
  exact and_iff_left rfl

/-- A dependency that is declared and not observed is one of the dependencies once. If nothing is
set aside, the advice on it is to remove it from each configuration that it is declared on, once,
or none if its only declaration is for compile time. -/
theorem analyze_unobserved {m : ProjectModule} {x : String} {advice : ModuleAdvice}
    (declared : ∃ d ∈ m.declarations, d.identifier = x)
    (unused : ∀ c ∈ m.usages.keys, c.identifier ≠ x) (ok : m.analyze {} = .ok advice) :
    m.dependencies.filter (·.1.identifier == x) = [(.ofIdentifier x, m.unusedEverywhere)] ∧
      (m.DeclaredForCompileTime x → advice.adviceFor x = []) ∧
      (¬ m.DeclaredForCompileTime x →
        advice.adviceFor x = (m.configurationsOf x).toList.map (.remove (.ofIdentifier x))) := by
  have unobserved : x ∈ m.unobserved := mem_unobserved.2 ⟨declared, unused⟩
  obtain ⟨raw, isRaw, kept, -⟩ := rawAdvice_of_analyze ok
  have removals : ∀ a : Advice, a ∈ advice.adviceFor x ↔ ¬ m.DeclaredForCompileTime x ∧
      ∃ configuration ∈ m.configurationsOf x, a = .remove (.ofIdentifier x) configuration := by
    intro a
    rw [ModuleAdvice.adviceFor, List.mem_filter, beq_iff_eq, ← OrderedSet.mem_def,
      mem_of_analyze kept]
    constructor
    · rintro ⟨mem, at_x⟩
      exact (mem_rawAdvice_of_unobserved unobserved isRaw at_x).1 mem
    · rintro ⟨several, configuration, isDeclared, rfl⟩
      have at_x : (Advice.remove (.ofIdentifier x) configuration).coordinates.identifier = x :=
        Coordinates.identifier_ofIdentifier x
      refine ⟨(mem_rawAdvice_of_unobserved unobserved isRaw at_x).2 ?_, at_x⟩
      exact ⟨several, configuration, isDeclared, rfl⟩
  refine ⟨filter_dependencies unobserved, fun lone => ?_, fun several => ?_⟩
  · exact List.eq_nil_iff_forall_not_mem.2 fun a mem => ((removals a).1 mem).1 lone
  · refine OrderedSet.eq_of_mem_iff (advice.advice.ascending.filter _) ?_ fun a => ?_
    · refine List.pairwise_map.2 ((m.configurationsOf x).ascending.imp fun {y z} before => ?_)
      exact Reduction.compare_remove.trans before
    · rw [removals, and_iff_right several, List.mem_map]
      exact exists_congr fun _ => and_congr_right fun _ => eq_comm

/-- A module without variants. It declares `com.example:a` on one configuration in two variants
and on another, `:b` for compile time twice over, and `c` for compile time in two variants. -/
def mostlyUnobserved : ProjectModule :=
  let compileOnly (identifier : String) (variant : Variant) : Declaration :=
    { identifier, configuration := "compileOnly", variant, bucket := .compileOnly
      bucket_eq := Bucket.ofConfiguration_compileOnly }
  let implementation (variant : Variant) : Declaration :=
    { identifier := "com.example:a", configuration := "implementation", variant
      bucket := .implementation, bucket_eq := Bucket.ofConfiguration_implementation }
  let api : Declaration :=
    { identifier := "com.example:a", configuration := "api", variant := .main, bucket := .api
      bucket_eq := Bucket.ofConfiguration_api }
  { project := { kind := .project, identifier := ":app" }
    declarations := [implementation .main, implementation ⟨"debug"⟩, api, compileOnly ":b" .main,
      compileOnly ":b" .main, compileOnly "c" .main, compileOnly "c" ⟨"debug"⟩]
    usages := .ofList [(.library "com.example:lib" "1.0", [.mk .main .api []])] }

theorem analyze_unobserved_mostlyUnobserved :
    (∀ x ∈ ["com.example:a", ":b", "c"], (∃ d ∈ mostlyUnobserved.declarations, d.identifier = x) ∧
      ∀ c ∈ mostlyUnobserved.usages.keys, c.identifier ≠ x) ∧
    ∃ advice, mostlyUnobserved.analyze {} = .ok advice ∧
      advice.adviceFor "com.example:a" = [.remove (.ofIdentifier "com.example:a") "api",
        .remove (.ofIdentifier "com.example:a") "implementation"] ∧
      advice.adviceFor ":b" = [] ∧
      advice.adviceFor "c" = [.remove (.flat "c") "compileOnly"] ∧
      ∀ x ∈ ["com.example:a", ":b", "c"],
        mostlyUnobserved.dependencies.filter (·.1.identifier == x) =
          [(.ofIdentifier x, [.mk .main .unused [.unused]])] := by
  have conditions : ∀ x ∈ ["com.example:a", ":b", "c"],
      (∃ d ∈ mostlyUnobserved.declarations, d.identifier = x) ∧
        ∀ c ∈ mostlyUnobserved.usages.keys, c.identifier ≠ x := by decide
  obtain ⟨advice, ok⟩ : ∃ advice, mostlyUnobserved.analyze {} = .ok advice := ⟨_, rfl⟩
  have answers : ∀ x ∈ ["com.example:a", ":b", "c"], _ := fun x mem =>
    analyze_unobserved (conditions x mem).1 (conditions x mem).2 ok
  obtain ⟨-, -, removed⟩ := answers "com.example:a" (by simp)
  obtain ⟨-, trusted, -⟩ := answers ":b" (by simp)
  obtain ⟨-, -, removed'⟩ := answers "c" (by simp)
  refine ⟨conditions, advice, ok, ?_, trusted (by decide), ?_, fun x mem => (answers x mem).1⟩
  · rw [removed (by decide)]
    decide
  · rw [removed' (by decide)]
    decide

end ProjectModule

end ClasspathAdvice
