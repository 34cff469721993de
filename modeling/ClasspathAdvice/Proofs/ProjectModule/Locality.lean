import ClasspathAdvice.Proofs.ProjectModule
import ClasspathAdvice.Proofs.Reduction.Independence
import ClasspathAdvice.Proofs.Reduction.Provenance

/-!
# What the advice on an identifier depends on

The dependencies of a module with some identifier are those that it has usages of or, if there
are none, the one that stands for its declarations. Each is reduced on its own, and the advice
keeps its identifier. So the advice on an identifier, kept or set aside, is the same in modules
that agree on the declarations and usages with that identifier (`analyze_agreesOn`).
-/

namespace ClasspathAdvice.ProjectModule
set_option autoImplicit false

/-- Two modules have the same variants, and the same declarations and usages of the dependencies
with an identifier. -/
structure AgreesOn (x : String) (m n : ProjectModule) : Prop where
  variants : m.variants = n.variants
  declarations : ∀ d : Declaration, d.identifier = x → (d ∈ m.declarations ↔ d ∈ n.declarations)
  usages : ∀ c : Coordinates, c.identifier = x → m.usages.get? c = n.usages.get? c

variable {x : String} {m n : ProjectModule} {d : Coordinates × List Usage} {a : Advice}

theorem mem_unobserved : x ∈ m.unobserved ↔
    (∃ e ∈ m.declarations, e.identifier = x) ∧ ∀ c ∈ m.usages.keys, c.identifier ≠ x := by
  rw [unobserved, ← OrderedSet.mem_def, OrderedSet.mem_ofList, List.mem_filter]
  simp

/-- A dependency is one with usages, or stands for declarations without any. -/
theorem mem_dependencies : d ∈ m.dependencies ↔ m.usages.get? d.1 = some d.2 ∨
    d = (Coordinates.ofIdentifier d.1.identifier,
      m.knownVariants.map (Usage.ofReasons · .unused [.unused])) ∧
      d.1.identifier ∈ m.unobserved := by
  rw [dependencies, List.mem_append, List.mem_map, OrderedMap.get?_eq_some_iff]
  refine or_congr_right ?_
  constructor
  · rintro ⟨identifier, mem, rfl⟩
    rw [Coordinates.identifier_ofIdentifier]
    exact ⟨rfl, mem⟩
  · rintro ⟨eq, mem⟩
    exact ⟨d.1.identifier, mem, eq.symm⟩

namespace AgreesOn

theorem symm (h : AgreesOn x m n) : AgreesOn x n m where
  variants := h.variants.symm
  declarations e at_x := (h.declarations e at_x).symm
  usages c at_x := (h.usages c at_x).symm

variable (h : AgreesOn x m n)
include h

theorem unobserved (mem : x ∈ m.unobserved) : x ∈ n.unobserved := by
  obtain ⟨⟨e, declared, at_x⟩, unused⟩ := mem_unobserved.1 mem
  refine mem_unobserved.2 ⟨⟨e, (h.declarations e at_x).1 declared, at_x⟩, fun c key at_x => ?_⟩
  have absent : n.usages.get? c = none := by
    rw [← h.usages c at_x, OrderedMap.get?_eq_none_iff]
    exact fun key => unused c key at_x
  exact OrderedMap.get?_eq_none_iff.1 absent key

theorem dependency (mem : d ∈ m.dependencies) (at_x : d.1.identifier = x) : d ∈ n.dependencies := by
  rw [mem_dependencies, at_x] at mem ⊢
  have known : n.knownVariants = m.knownVariants := by rw [knownVariants, knownVariants, h.variants]
  rw [known, ← h.usages d.1 at_x]
  exact mem.imp_right (And.imp_right h.unobserved)

theorem reduce_eq {c : Coordinates} (usages : List Usage) (at_x : c.identifier = x) :
    Reduction.reduce c m.declarations usages = Reduction.reduce c n.declarations usages := by
  have matching : Reduction.matching c m.declarations = Reduction.matching c n.declarations :=
    Reduction.matching_eq_of_same fun e same => h.declarations e (same.trans at_x)
  rw [Reduction.reduce, Reduction.reduce, matching]

/-- Advice on the identifier in one module is advice in the other. -/
theorem mem_rawAdvice {advice advice' : AdviceSet} (ok : m.rawAdvice = .ok advice)
    (ok' : n.rawAdvice = .ok advice') (at_x : a.coordinates.identifier = x) (mem : a ∈ advice) :
    a ∈ advice' := by
  obtain ⟨d, isDependency, part, reduced, mem⟩ := (ProjectModule.mem_rawAdvice ok).1 mem
  -- the advice has the identifier of the dependency that it was reduced from
  have on_x : d.1.identifier = x := by
    rw [← at_x, Reduction.coordinates_of_reduce reduced mem,
      Coordinates.identifier_withoutDefaultCapability]
  rw [h.reduce_eq d.2 on_x] at reduced
  exact (ProjectModule.mem_rawAdvice ok').2 ⟨d, h.dependency isDependency on_x, part, reduced, mem⟩

end AgreesOn

theorem rawAdvice_of_analyze {filter : AdviceFilter} {advice : ModuleAdvice}
    (ok : m.analyze filter = .ok advice) : ∃ raw, m.rawAdvice = .ok raw ∧
      advice.advice = (filter.split raw).kept ∧ advice.filtered = (filter.split raw).filtered := by
  rw [analyze] at ok
  cases raw : m.rawAdvice with
  | error e =>
    rw [raw] at ok
    cases ok
  | ok set =>
    rw [raw] at ok
    cases ok
    exact ⟨set, rfl, rfl, rfl⟩

/-- The advice on an identifier and what a filter sets aside of it are the same in two modules
that agree on the identifier, whatever else they declare and use. -/
theorem analyze_agreesOn {x : String} {m n : ProjectModule} (h : AgreesOn x m n)
    (filter : AdviceFilter) {advice advice' : ModuleAdvice} (ok : m.analyze filter = .ok advice)
    (ok' : n.analyze filter = .ok advice') :
    advice.adviceFor x = advice'.adviceFor x ∧
      advice.filtered.filter (·.coordinates.identifier == x) =
        advice'.filtered.filter (·.coordinates.identifier == x) := by
  obtain ⟨raw, isRaw, kept, filtered⟩ := rawAdvice_of_analyze ok
  obtain ⟨raw', isRaw', kept', filtered'⟩ := rawAdvice_of_analyze ok'
  have same : ∀ a : Advice, a.coordinates.identifier = x → (a ∈ raw ↔ a ∈ raw') := fun a at_x =>
    ⟨h.mem_rawAdvice isRaw isRaw' at_x, h.symm.mem_rawAdvice isRaw' isRaw at_x⟩
  have selected : ∀ keep : Advice → Bool,
      (raw.filter keep).filter (·.coordinates.identifier == x) =
        (raw'.filter keep).filter (·.coordinates.identifier == x) := by
    intro keep
    refine OrderedSet.ext fun a => ?_
    simp only [OrderedSet.mem_filter, beq_iff_eq]
    exact and_congr_left fun at_x => and_congr_left fun _ => same a at_x
  constructor
  · rw [ModuleAdvice.adviceFor, ModuleAdvice.adviceFor, kept, kept']
    exact congrArg OrderedSet.toList (selected _)
  · rw [filtered, filtered']
    exact selected _

open Reduction (lib libDeclared)

/-- A library in two versions, one of which is used as an API and the other not at all. -/
def twoVersions : ProjectModule where
  project := { kind := .project, identifier := ":a" }
  declarations := [libDeclared]
  usages := .ofList [(lib, [.mk .main .api []]),
    ({ lib with version := some "2.0" }, [.mk .main .unused []])]

/-- The same library in a project that declares and uses another one besides. -/
def besides : ProjectModule where
  project := { kind := .project, identifier := ":b" }
  declarations :=
    [{ identifier := "com.example:a", configuration := "api", variant := .main, bucket := .api
       bucket_eq := Bucket.ofConfiguration_api }, libDeclared, libDeclared]
  usages := .ofList [(lib, [.mk .main .api []]),
    ({ lib with version := some "2.0" }, [.mk .main .unused []]),
    (.library "com.example:a" "1.0", [.mk .main .runtimeOnly [.asset ["b"]]])]

/-- With removals set aside, both keep the move of one version and set the removal of the other
aside. -/
theorem analyze_agreesOn_twoVersions :
    AgreesOn lib.identifier twoVersions besides ∧
      ∃ advice advice', twoVersions.analyze { predicates := [Advice.isAnyRemove] } = .ok advice ∧
        besides.analyze { predicates := [Advice.isAnyRemove] } = .ok advice' ∧
        (advice.adviceFor lib.identifier).length = 1 ∧ advice.filtered.size = 1 ∧
        advice.adviceFor lib.identifier = advice'.adviceFor lib.identifier ∧
        advice.filtered.filter (·.coordinates.identifier == lib.identifier) =
          advice'.filtered.filter (·.coordinates.identifier == lib.identifier) := by
  have agree : AgreesOn lib.identifier twoVersions besides := by
    refine ⟨rfl, fun d at_lib => ?_, fun c at_lib => ?_⟩
    · simp only [twoVersions, besides, List.mem_cons, List.not_mem_nil, or_false, or_self]
      refine (or_iff_right ?_).symm
      rintro rfl
      exact absurd at_lib (by decide)
    · have other : Coordinates.library "com.example:a" "1.0" ≠ c := by
        rintro rfl
        exact absurd at_lib (by decide)
      have entries : besides.usages.entries =
          (.library "com.example:a" "1.0", [.mk .main .runtimeOnly [.asset ["b"]]]) ::
            twoVersions.usages.entries := by decide
      rw [OrderedMap.get?, OrderedMap.get?, entries, List.find?_cons, decide_eq_false other]
  refine ⟨agree, _, _, rfl, rfl, by decide, by decide, ?_⟩
  exact analyze_agreesOn agree { predicates := [Advice.isAnyRemove] } rfl rfl

end ClasspathAdvice.ProjectModule
