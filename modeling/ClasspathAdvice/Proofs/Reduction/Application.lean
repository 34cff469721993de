import ClasspathAdvice.Proofs.Declaration.Naming
import ClasspathAdvice.Proofs.Reduction.Merging

/-!
# Following advice

To follow advice is to delete the declarations on its sources and to declare the dependency
on its targets, each in the variant that the configuration names (`follow`). What the
dependency's declarations are afterwards can be told from the plan (`matching_follow`).
-/

namespace ClasspathAdvice.Reduction
set_option autoImplicit false

/-- A dependency declared on a configuration, in the variant that the configuration is named
for. -/
def declarationOn? (identifier configuration : String) : Option Declaration :=
  (Variant.named? configuration).bind fun v =>
    (Declaration.ofVariant identifier configuration v).toOption

/-- Declarations after following the advice on the dependency with an identifier. -/
def follow (identifier : String) (advice : AdviceSet) (declarations : List Declaration) :
    List Declaration :=
  declarations.filter (fun d =>
    !(d.identifier == identifier && advice.toList.any (·.source == some d.configuration))) ++
      (advice.toList.filterMap (·.target)).filterMap (declarationOn? identifier)

/-- The configurations that declarations are put on. -/
def arriving (steps : List Step) : List String :=
  steps.filterMap fun
    | .move source target => if source = target then none else some target
    | .drop _ => none
    | .declare target => if (target, target) ∈ merged steps then none else some target

/-- The configurations that declarations are taken off. -/
def leaving (steps : List Step) : List String :=
  steps.filterMap fun
    | .move source target => if source = target then none else some source
    | .drop source => if (source, source) ∈ merged steps then none else some source
    | .declare _ => none

/-- The declarations of a dependency after the steps of a plan. -/
def afterwards (identifier : String) (steps : List Step) (declared : List Declaration) :
    List Declaration :=
  (OrderedSet.ofList (declared.filter (·.configuration ∉ leaving steps) ++
    (arriving steps).filterMap (declarationOn? identifier))).toList

variable {identifier x : String} {steps : List Step} {declared declarations : List Declaration}
  {advice : AdviceSet} {coordinates : Coordinates} {d : Declaration} {b : Bucket} {v : Variant}

theorem mem_arriving : x ∈ arriving steps ↔ Arrives steps x := by
  rw [arriving, List.mem_filterMap]
  constructor
  · rintro ⟨step, mem, eq⟩
    cases step with
    | move source target =>
      by_cases same : source = target
      · simp [same] at eq
      · obtain rfl : target = x := by simpa [same] using eq
        exact .inl ⟨source, same, mem⟩
    | drop source => cases eq
    | declare target =>
      by_cases cancelled : (target, target) ∈ merged steps
      · simp [cancelled] at eq
      · obtain rfl : target = x := by simpa [cancelled] using eq
        exact .inr ⟨mem, cancelled⟩
  · rintro (⟨source, ne, mem⟩ | ⟨mem, alone⟩)
    · exact ⟨_, mem, if_neg ne⟩
    · exact ⟨_, mem, if_neg alone⟩

theorem mem_leaving : x ∈ leaving steps ↔ Leaves steps x := by
  rw [leaving, List.mem_filterMap]
  constructor
  · rintro ⟨step, mem, eq⟩
    cases step with
    | move source target =>
      by_cases same : source = target
      · simp [same] at eq
      · obtain rfl : source = x := by simpa [same] using eq
        exact .inl ⟨target, same, mem⟩
    | drop source =>
      by_cases cancelled : (source, source) ∈ merged steps
      · simp [cancelled] at eq
      · obtain rfl : source = x := by simpa [cancelled] using eq
        exact .inr ⟨mem, cancelled⟩
    | declare target => cases eq
  · rintro (⟨target, ne, mem⟩ | ⟨mem, alone⟩)
    · exact ⟨_, mem, if_neg ne⟩
    · exact ⟨_, mem, if_neg alone⟩

/-! ## The declarations afterwards -/

theorem mem_afterwards : d ∈ afterwards identifier steps declared ↔
    (d ∈ declared ∧ ¬ Leaves steps d.configuration) ∨
      ∃ x, Arrives steps x ∧ declarationOn? identifier x = some d := by
  rw [afterwards, ← OrderedSet.mem_def, OrderedSet.mem_ofList, List.mem_append, List.mem_filter,
    List.mem_filterMap, decide_eq_true_eq, mem_leaving]
  simp only [mem_arriving]

theorem ascending_afterwards : (afterwards identifier steps declared).Pairwise Before :=
  OrderedSet.ascending _

theorem mem_matching : d ∈ matching coordinates declarations ↔
    d ∈ declarations ∧ d.identifier = coordinates.identifier := by
  rw [matching, ← OrderedSet.mem_def, OrderedSet.mem_ofList, List.mem_filter, beq_iff_eq]

theorem of_declarationOn? (h : declarationOn? identifier x = some d) :
    d.identifier = identifier ∧ d.configuration = x := by
  obtain ⟨v, -, made⟩ := Option.bind_eq_some_iff.1 h
  unfold Declaration.ofVariant at made
  split at made
  · cases made
    exact ⟨rfl, rfl⟩
  · cases made

/-- On a configuration of a bucket in a variant, the dependency is declared in that variant. -/
theorem declarationOn?_configuration (identifier : String) (v : Variant) (used : b.isUsed = true) :
    ∃ d, declarationOn? identifier (b.configuration v) = some d ∧ d.identifier = identifier ∧
      d.configuration = b.configuration v ∧ d.variant = v ∧
      (d.bucket = b ∨ d.bucket = .compileOnly) := by
  obtain ⟨k, known, is⟩ : ∃ k, Bucket.ofConfiguration (b.configuration v) = .ok k ∧
      (k = b ∨ k = .compileOnly) := by
    rcases Bucket.ofConfiguration_configuration (v := v) used with ok | ⟨-, ok⟩
    · exact ⟨b, ok, .inl rfl⟩
    · exact ⟨_, ok, .inr rfl⟩
  refine ⟨⟨identifier, b.configuration v, v, k, known⟩, ?_, rfl, rfl, rfl, is⟩
  unfold declarationOn? Declaration.ofVariant
  rw [Variant.named?_configuration used, Option.bind_some]
  split
  · rename_i k' known'
    have same : k = k' := by simpa [known] using known'
    subst same
    rfl
  · rename_i e unknown
    rw [known] at unknown
    cases unknown

/-- Following advice does to the declarations what the plan says. -/
theorem matching_follow (follows : Follows steps advice) :
    matching coordinates (follow coordinates.identifier advice declarations) =
      afterwards coordinates.identifier steps (matching coordinates declarations) := by
  refine OrderedSet.eq_of_mem_iff (OrderedSet.ascending _) ascending_afterwards fun d => ?_
  have source : (∃ a ∈ advice.toList, a.source = some d.configuration) ↔
      Leaves steps d.configuration := follows.source_iff d.configuration
  have target : ∀ x, (∃ a ∈ advice.toList, a.target = some x) ↔ Arrives steps x :=
    follows.target_iff
  rw [mem_matching, follow, List.mem_append, List.mem_filter, mem_afterwards, mem_matching,
    List.mem_filterMap]
  simp only [List.mem_filterMap, target, Bool.not_eq_true', Bool.and_eq_false_iff, List.any_eq_false,
    beq_iff_eq, beq_eq_false_iff_ne]
  rw [← source]
  constructor
  · rintro ⟨⟨mem, kept⟩ | ⟨x, arrives, is⟩, identifier⟩
    · refine .inl ⟨⟨mem, identifier⟩, ?_⟩
      rintro ⟨a, isAdvice, same⟩
      exact (kept.resolve_left fun ne => ne identifier) a isAdvice same
    · exact .inr ⟨x, arrives, is⟩
  · rintro (⟨⟨mem, identifier⟩, kept⟩ | ⟨x, arrives, is⟩)
    · exact ⟨.inl ⟨mem, .inr fun a isAdvice same => kept ⟨a, isAdvice, same⟩⟩, identifier⟩
    · exact ⟨.inr ⟨x, arrives, is⟩, (of_declarationOn? is).1⟩

end ClasspathAdvice.Reduction
