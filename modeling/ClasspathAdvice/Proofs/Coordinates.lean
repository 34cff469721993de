import ClasspathAdvice.Proofs.Reduction.Provenance

/-!
# Coordinates without their default capabilities

Taking the default capabilities off coordinates picks one of all coordinates that select the same
variant (`SameVariant`): two have the same left exactly if they select the same. What selects the
same is advised alike, since advice names what is left (`withoutDefaultCapability_normalizes`).
-/

namespace ClasspathAdvice
set_option autoImplicit false

namespace Coordinates

variable {c d : Coordinates} {x : String}

/-- Some capability is selected that the component would not have anyway. -/
def SelectsMore (c : Coordinates) : Prop := ∃ x ∈ c.capabilities, c.isDefaultCapability x = false

/-- Two coordinates of one version select the same, default capabilities aside. Attributes only
count beside a capability that is no default. -/
structure SameVariant (c d : Coordinates) : Prop where
  kind : d.kind = c.kind
  identifier : d.identifier = c.identifier
  version : d.version = c.version
  others : ∀ x, c.isDefaultCapability x = false → (x ∈ c.capabilities ↔ x ∈ d.capabilities)
  attributes : c.SelectsMore → d.identification.attributes = c.identification.attributes

/-- The coordinates with other capabilities selected. -/
def withCapabilities (c : Coordinates) (selected : OrderedSet String) : Coordinates :=
  { c with identification := { c.identification with capabilities := selected } }

/-! ## What is left -/

/-- Only the variant identification can change. -/
theorem withoutDefaultCapability_eq_mk (c : Coordinates) : c.withoutDefaultCapability =
    ⟨c.kind, c.identifier, c.version, c.withoutDefaultCapability.identification⟩ := by
  rw [withoutDefaultCapability]
  split <;> rfl

/-- Whether a capability is a default one hangs on the kind and the identifier alone. -/
theorem isDefaultCapability_congr (kind : d.kind = c.kind) (identifier : d.identifier = c.identifier)
    (x : String) : d.isDefaultCapability x = c.isDefaultCapability x := by
  rw [isDefaultCapability, isDefaultCapability, kind, identifier]

@[simp] theorem isDefaultCapability_withoutDefaultCapability (c : Coordinates) (x : String) :
    c.withoutDefaultCapability.isDefaultCapability x = c.isDefaultCapability x :=
  isDefaultCapability_congr (by simp) (by simp) x

theorem isEmpty_others_iff :
    (c.capabilities.filter fun x => !c.isDefaultCapability x).isEmpty = true ↔ ¬ c.SelectsMore := by
  simp [OrderedSet.isEmpty, OrderedSet.filter, SelectsMore, OrderedSet.mem_def]

theorem identification_of_selectsMore (more : c.SelectsMore) :
    c.withoutDefaultCapability.identification =
      { capabilities := c.capabilities.filter fun x => !c.isDefaultCapability x
        attributes := c.identification.attributes } := by
  rw [withoutDefaultCapability, if_neg (mt isEmpty_others_iff.1 (not_not_intro more))]

theorem identification_of_not_selectsMore (none : ¬ c.SelectsMore) :
    c.withoutDefaultCapability.identification = {} := by
  rw [withoutDefaultCapability, if_pos (isEmpty_others_iff.2 none)]

/-- The default capabilities go and all others stay. -/
theorem mem_withoutDefaultCapability :
    x ∈ c.withoutDefaultCapability.capabilities ↔
      x ∈ c.capabilities ∧ c.isDefaultCapability x = false := by
  by_cases more : c.SelectsMore
  · rw [capabilities, identification_of_selectsMore more, OrderedSet.mem_filter, Bool.not_eq_true']
  · rw [capabilities, identification_of_not_selectsMore more]
    exact iff_of_false List.not_mem_nil fun ⟨mem, other⟩ => more ⟨x, mem, other⟩

/-! ## What has the same left -/

theorem SameVariant.selectsMore_iff (same : SameVariant c d) : c.SelectsMore ↔ d.SelectsMore := by
  have defaults := isDefaultCapability_congr same.kind same.identifier
  simp only [SelectsMore, defaults]
  constructor
  · rintro ⟨x, mem, other⟩
    exact ⟨x, (same.others x other).1 mem, other⟩
  · rintro ⟨x, mem, other⟩
    exact ⟨x, (same.others x other).2 mem, other⟩

theorem SameVariant.identification_eq (same : SameVariant c d) :
    c.withoutDefaultCapability.identification = d.withoutDefaultCapability.identification := by
  by_cases more : c.SelectsMore
  · have defaults := isDefaultCapability_congr same.kind same.identifier
    have others : (c.capabilities.filter fun x => !c.isDefaultCapability x) =
        d.capabilities.filter fun x => !d.isDefaultCapability x := by
      refine OrderedSet.ext fun x => ?_
      simp only [OrderedSet.mem_filter, defaults, Bool.not_eq_true']
      exact and_congr_left (same.others x)
    have more' := same.selectsMore_iff.1 more
    rw [identification_of_selectsMore more, identification_of_selectsMore more', others,
      same.attributes more]
  · rw [identification_of_not_selectsMore more,
      identification_of_not_selectsMore (mt same.selectsMore_iff.2 more)]

theorem SameVariant.withoutDefaultCapability_eq (same : SameVariant c d) :
    c.withoutDefaultCapability = d.withoutDefaultCapability :=
  calc c.withoutDefaultCapability
      = ⟨c.kind, c.identifier, c.version, c.withoutDefaultCapability.identification⟩ :=
        c.withoutDefaultCapability_eq_mk
    _ = ⟨d.kind, d.identifier, d.version, d.withoutDefaultCapability.identification⟩ := by
        rw [same.kind, same.identifier, same.version, same.identification_eq]
    _ = d.withoutDefaultCapability := d.withoutDefaultCapability_eq_mk.symm

theorem SameVariant.of_withoutDefaultCapability_eq
    (eq : c.withoutDefaultCapability = d.withoutDefaultCapability) : SameVariant c d := by
  have kind : d.kind = c.kind := by
    rw [← d.kind_withoutDefaultCapability, ← eq, kind_withoutDefaultCapability]
  have identifier : d.identifier = c.identifier := by
    rw [← d.identifier_withoutDefaultCapability, ← eq, identifier_withoutDefaultCapability]
  have version : d.version = c.version := by
    rw [← d.version_withoutDefaultCapability, ← eq, version_withoutDefaultCapability]
  have others : ∀ x, c.isDefaultCapability x = false →
      (x ∈ c.capabilities ↔ x ∈ d.capabilities) := by
    intro x other
    have left : x ∈ c.withoutDefaultCapability.capabilities ↔
        x ∈ d.withoutDefaultCapability.capabilities := by rw [eq]
    simpa [mem_withoutDefaultCapability, other, isDefaultCapability_congr kind identifier] using left
  refine ⟨kind, identifier, version, others, fun more => ?_⟩
  have more' : d.SelectsMore := by
    obtain ⟨x, mem, other⟩ := more
    exact ⟨x, (others x other).1 mem, (isDefaultCapability_congr kind identifier x).trans other⟩
  have attributes := congrArg (·.identification.attributes) eq
  simp only [identification_of_selectsMore more, identification_of_selectsMore more'] at attributes
  exact attributes.symm

/-- What is left tells the selected variants apart, and nothing else. -/
theorem withoutDefaultCapability_eq_iff :
    c.withoutDefaultCapability = d.withoutDefaultCapability ↔ SameVariant c d :=
  ⟨SameVariant.of_withoutDefaultCapability_eq, SameVariant.withoutDefaultCapability_eq⟩

/-- What is left selects the same variant. -/
theorem sameVariant_withoutDefaultCapability (c : Coordinates) :
    SameVariant c c.withoutDefaultCapability where
  kind := c.kind_withoutDefaultCapability
  identifier := c.identifier_withoutDefaultCapability
  version := c.version_withoutDefaultCapability
  others x other := by simp [mem_withoutDefaultCapability, other]
  attributes more := by rw [identification_of_selectsMore more]

/-- So does whatever differs in default capabilities. -/
theorem sameVariant_withCapabilities {selected : OrderedSet String}
    (others : ∀ x, c.isDefaultCapability x = false → (x ∈ c.capabilities ↔ x ∈ selected)) :
    SameVariant c (c.withCapabilities selected) where
  kind := rfl
  identifier := rfl
  version := rfl
  others := others
  attributes _ := rfl

end Coordinates

/-! ## Advice -/

/-- Advice on the same coordinates is told apart by its configurations. -/
theorem Advice.compare_eq_iff {a b : Advice} (same : a.coordinates = b.coordinates) :
    compare a b = .eq ↔ a.source = b.source ∧ a.target = b.target := by
  rw [Std.compare_eq_iff_eq]
  constructor
  · rintro rfl
    exact ⟨rfl, rfl⟩
  · rintro ⟨source, target⟩
    cases a
    cases b
    simp_all

theorem Reduction.reduce_eq_of_sameVariant {c d : Coordinates} (same : c.SameVariant d)
    (declarations : List Declaration) (usages : List Usage) :
    reduce c declarations usages = reduce d declarations usages := by
  have matched : matching c declarations = matching d declarations := by
    rw [matching, matching, same.identifier]
  rw [reduce, reduce, same.identifier, same.withoutDefaultCapability_eq, matched]

namespace Coordinates

/-- Without their default capabilities, coordinates keep their kind, identifier, version and all
other capabilities, with the attributes if there are any, and have no default capability left to
lose. However many default capabilities are added or taken off first, the same is left; and in
general the same is left of two coordinates exactly if they select the same variant. Then both are
advised alike, and all advice on either, whatever is declared and observed, differs in its
configurations or is equal. -/
theorem withoutDefaultCapability_normalizes (c : Coordinates) :
    (c.withoutDefaultCapability.kind = c.kind ∧
      c.withoutDefaultCapability.identifier = c.identifier ∧
      c.withoutDefaultCapability.version = c.version) ∧
    c.withoutDefaultCapability.withoutDefaultCapability = c.withoutDefaultCapability ∧
    (∀ x, x ∈ c.withoutDefaultCapability.capabilities ↔
      x ∈ c.capabilities ∧ c.isDefaultCapability x = false) ∧
    (c.SelectsMore →
      c.withoutDefaultCapability.identification.attributes = c.identification.attributes) ∧
    (¬ c.SelectsMore → c.withoutDefaultCapability.identification = {}) ∧
    (∀ x ∈ c.withoutDefaultCapability.capabilities,
      c.withoutDefaultCapability.isDefaultCapability x = false) ∧
    (∀ defaults : OrderedSet String, (∀ x ∈ defaults, c.isDefaultCapability x = true) →
      (c.withCapabilities (c.capabilities.union defaults)).withoutDefaultCapability =
        c.withoutDefaultCapability ∧
      (c.withCapabilities
        (c.capabilities.filter (!defaults.toList.contains ·))).withoutDefaultCapability =
        c.withoutDefaultCapability) ∧
    (∀ d, c.withoutDefaultCapability = d.withoutDefaultCapability ↔ c.SameVariant d) ∧
    ∀ d, c.SameVariant d →
      (∀ declarations usages,
        Reduction.reduce c declarations usages = Reduction.reduce d declarations usages) ∧
      ∀ declarations declarations' usages usages' advice advice',
        Reduction.reduce c declarations usages = .ok advice →
        Reduction.reduce d declarations' usages' = .ok advice' → ∀ a ∈ advice, ∀ b ∈ advice',
          (compare a b = .eq ↔ a.source = b.source ∧ a.target = b.target) := by
  refine ⟨⟨c.kind_withoutDefaultCapability, c.identifier_withoutDefaultCapability,
    c.version_withoutDefaultCapability⟩, ?idempotent, fun x => mem_withoutDefaultCapability,
    c.sameVariant_withoutDefaultCapability.attributes, identification_of_not_selectsMore, ?free,
    ?changed, fun d => withoutDefaultCapability_eq_iff, ?advised⟩
  case idempotent =>
    exact c.sameVariant_withoutDefaultCapability.withoutDefaultCapability_eq.symm
  case free =>
    intro x mem
    rw [isDefaultCapability_withoutDefaultCapability]
    exact (mem_withoutDefaultCapability.1 mem).2
  case changed =>
    intro defaults allDefault
    have notAdded : ∀ x, c.isDefaultCapability x = false → x ∉ defaults := by
      intro x other mem
      rw [allDefault x mem] at other
      cases other
    constructor
    · refine (sameVariant_withCapabilities fun x other => ?_).withoutDefaultCapability_eq.symm
      simp [notAdded x other]
    · refine (sameVariant_withCapabilities fun x other => ?_).withoutDefaultCapability_eq.symm
      have kept := notAdded x other
      rw [OrderedSet.mem_def] at kept
      simp [kept]
  case advised =>
    intro d same
    refine ⟨Reduction.reduce_eq_of_sameVariant same, ?_⟩
    intro declarations declarations' usages usages' advice advice' ok ok' a mem b mem'
    apply Advice.compare_eq_iff
    rw [Reduction.coordinates_of_reduce ok mem, Reduction.coordinates_of_reduce ok' mem',
      same.withoutDefaultCapability_eq]

/-- Beside default capabilities alone, attributes do not count. -/
example :
    let selected : VariantIdentification :=
      { capabilities := .ofList ["g:a"], attributes := .ofList [("usage", "api")] }
    withoutDefaultCapability { library "g:a" "1" with identification := selected } =
      library "g:a" "1" := by
  decide

/-- A project that selects two default capabilities and another. -/
def login : Coordinates where
  kind := .project
  identifier := ":feature:login"
  identification :=
    { capabilities := .ofList ["app:login", "app:login-fixtures", "shop:login"]
      attributes := .ofList [("usage", "api")] }

/-- The project is the same with a third default capability and with the other one alone, and an
addition of it is the same in both cases. -/
theorem withoutDefaultCapability_normalizes_login :
    let fixtures := login.withCapabilities (.ofList ["app:login-fixtures"])
    let thirdDefault := OrderedSet.ofList ["third:login"]
    let usages := [Usage.mk .main .api []]
    (∀ x ∈ thirdDefault, login.isDefaultCapability x = true) ∧ login.SameVariant fixtures ∧
      (login.withCapabilities (login.capabilities.union thirdDefault)).withoutDefaultCapability =
        fixtures ∧
      Reduction.reduce login [] usages = .ok (.ofList [Advice.add fixtures "api"]) ∧
      Reduction.reduce fixtures [] usages = .ok (.ofList [Advice.add fixtures "api"]) := by
  intro fixtures thirdDefault usages
  obtain ⟨-, -, -, -, -, -, changed, left, advised⟩ := withoutDefaultCapability_normalizes login
  have isDefault : ∀ x ∈ thirdDefault, login.isDefaultCapability x = true := by
    intro x mem
    obtain rfl : x = "third:login" := by simpa [thirdDefault] using mem
    decide
  have stripped : login.withoutDefaultCapability = fixtures := by decide
  have same : login.SameVariant fixtures := (left fixtures).1 (by decide)
  have added :
      Reduction.reduce fixtures [] usages = .ok (.ofList [Advice.add fixtures "api"]) := by
    have settled : fixtures.withoutDefaultCapability = fixtures := by decide
    rw [Reduction.reduce, settled]
    rfl
  refine ⟨isDefault, same, ?_, ?_, added⟩
  · exact (changed thirdDefault isDefault).1.trans stripped
  · exact ((advised fixtures same).1 [] usages).trans added

end Coordinates

end ClasspathAdvice
