import ClasspathAdvice.Proofs.ProjectModule.Locality
import ClasspathAdvice.Proofs.Survey.Traces

/-!
# Inquiries about one of several namesakes

Dependencies in different versions share their identifier. An inquiry by text form is about the
dependency with that text form. Its usages and the advice are looked up by identifier alone,
though: the usages are those of the first dependency with it, and of the advice the first piece
is explained. So the answer is about one dependency exactly if its usages are those of the first
of its namesakes and no advice on a namesake stands before the advice on it (`isOwn_iff`).
-/

namespace ClasspathAdvice
set_option autoImplicit false

/-- A text does not stand before what it begins with. -/
theorem before_of_isPrefix {a b : String} (h : a.toList <+: b.toList) : b = a ∨ Before a b := by
  cases order : compare a b with
  | lt => exact .inr order
  | eq => exact .inl (Std.LawfulEqCmp.eq_of_compare order).symm
  | gt =>
    have after : compare b a = .lt := Std.OrientedCmp.gt_iff_lt.1 order
    have lt : b < a := compareOfLessAndEq_eq_lt.1 after
    exact absurd (String.lt_iff.1 lt) h.le

/-! ## What is asked about -/

namespace Survey

variable {s : Survey} {c : Coordinates}

/-- A dependency with usages is one that the survey has under its text form. -/
theorem of_mem_keys_completeUsages (key : c ∈ s.completeUsages.keys) :
    c.gav ∈ s.usages.keys ∧ Coordinates.parse c.gav = c := by
  rw [completeUsages_eq, Observations.mem_keys_complete] at key
  obtain ⟨u, observed⟩ := key
  obtain ⟨e, mem, used⟩ := List.mem_flatMap.1 observed
  obtain ⟨_, -, same⟩ := List.mem_map.1 used
  obtain ⟨rfl, -⟩ := Prod.mk.inj same
  rw [Coordinates.gav_parse]
  exact ⟨List.mem_map_of_mem mem, rfl⟩

/-- A text that the survey has usages for is found as itself, whatever else it has. -/
theorem resolve_of_mem_keys {raw : String} (key : raw ∈ s.usages.keys) :
    s.resolve raw = Coordinates.parse raw := by
  have first : s.usages.keys.find? (fun k => (Coordinates.parse k).identifier == raw ||
      (Coordinates.parse k).gav == raw) = some raw := by
    refine (OrderedSet.find?_eq_some_iff s.usages.ascending).2 ⟨key, ?_, fun k _ meant => ?_⟩
    · simp
    · -- what has the text as its identifier begins with it
      rw [Coordinates.gav_parse, Bool.or_eq_true, beq_iff_eq, beq_iff_eq] at meant
      rcases meant with rfl | rfl
      · have starts := (Coordinates.parse k).identifier_isPrefix_gav
        rw [Coordinates.gav_parse] at starts
        exact before_of_isPrefix starts
      · exact .inl rfl
  have found : (s.usages.keys.map Coordinates.parse).find?
      (fun c => c.identifier == raw || c.gav == raw) = some (Coordinates.parse raw) := by
    rw [List.find?_map]
    exact congrArg _ first
  rw [resolve, named, List.find?_append, List.find?_append, found]
  rfl

end Survey

/-! ## What is looked up for it -/

namespace ProjectModule

variable {m : ProjectModule} {c : Coordinates}

/-- Of the dependencies with usages that have an identifier, the first. -/
structure IsFirst (m : ProjectModule) (x : String) (k : Coordinates) : Prop where
  mem : k ∈ m.usages.keys
  at_x : k.identifier = x
  least : ∀ l ∈ m.usages.keys, l.identifier = x → l = k ∨ Before k l

/-- Where one dependency with an identifier has usages, the first of them is found. -/
theorem find?_dependencies (key : c ∈ m.usages.keys) :
    ∃ k usages, m.IsFirst c.identifier k ∧ m.usages.get? k = some usages ∧
      m.dependencies.find? (fun d => d.1.identifier == c.identifier) = some (k, usages) := by
  obtain ⟨e, mem, rfl⟩ := List.mem_map.1 key
  have isSome : (m.usages.entries.find? fun d => d.1.identifier == e.1.identifier).isSome := by
    rw [List.find?_isSome]
    exact ⟨e, mem, beq_self_eq_true _⟩
  obtain ⟨d, found⟩ := Option.isSome_iff_exists.1 isSome
  have first : m.usages.keys.find? (fun k => k.identifier == e.1.identifier) = some d.1 := by
    rw [OrderedMap.keys, List.find?_map]
    exact congrArg _ found
  obtain ⟨isKey, at_x, least⟩ := (OrderedSet.find?_eq_some_iff m.usages.ascending).1 first
  refine ⟨d.1, d.2, ⟨isKey, beq_iff_eq.1 at_x, ?_⟩, ?_, ?_⟩
  · intro l mem at_x
    exact least l mem (beq_iff_eq.2 at_x)
  · exact OrderedMap.get?_eq_some_iff.2 (List.mem_of_find?_eq_some found)
  · rw [dependencies, List.find?_append, found]
    rfl

/-- Where no other dependency has the identifier, all advice on the identifier is on it. -/
theorem coordinates_of_only {filter : AdviceFilter} {advice : ModuleAdvice} {a : Advice}
    (ok : m.analyze filter = .ok advice) (key : c ∈ m.usages.keys)
    (only : ∀ k ∈ m.usages.keys, k.identifier = c.identifier → k = c) (mem : a ∈ advice.advice)
    (at_c : a.coordinates.identifier = c.identifier) :
    a.coordinates = c.withoutDefaultCapability := by
  obtain ⟨raw, isRaw, kept, -⟩ := rawAdvice_of_analyze ok
  rw [kept] at mem
  obtain ⟨d, isDependency, part, reduced, isPart⟩ :=
    (mem_rawAdvice isRaw).1 (OrderedSet.mem_filter.1 mem).1
  have on_d := Reduction.coordinates_of_reduce reduced isPart
  rw [on_d, Coordinates.identifier_withoutDefaultCapability] at at_c
  rcases mem_dependencies.1 isDependency with used | ⟨-, unobserved⟩
  · have isKey : d.1 ∈ m.usages.keys :=
      List.mem_map.2 ⟨_, OrderedMap.get?_eq_some_iff.1 used, rfl⟩
    rw [on_d, only d.1 isKey at_c]
  · exact absurd at_c.symm ((mem_unobserved.1 unobserved).2 c key)

end ProjectModule

namespace ModuleAdvice

variable {advice : ModuleAdvice} {c : Coordinates}

/-- Where there is advice on other coordinates with the same identifier, there is advice on `c`,
and it stands before the other. -/
def Leads (advice : ModuleAdvice) (c : Coordinates) : Prop :=
  ∀ a ∈ advice.advice, a.coordinates.identifier = c.identifier → a.coordinates = c ∨
    Before c a.coordinates ∧ ∃ b ∈ advice.advice, b.coordinates = c

/-- The first advice on an identifier is on given coordinates with it, unless there is none,
exactly if the advice on the coordinates leads. -/
theorem leads_iff : advice.Leads c ↔
    ∀ a ∈ (advice.adviceFor c.identifier).head?, a.coordinates = c := by
  have first : ∀ a, a ∈ (advice.adviceFor c.identifier).head? ↔
      a ∈ advice.advice ∧ a.coordinates.identifier = c.identifier ∧
        ∀ b ∈ advice.advice, b.coordinates.identifier = c.identifier → b = a ∨ Before a b := by
    intro a
    rw [adviceFor, List.head?_filter, Option.mem_def,
      OrderedSet.find?_eq_some_iff advice.advice.ascending]
    simp only [beq_iff_eq, OrderedSet.mem_def]
  constructor
  · intro behind a isFirst
    obtain ⟨mem, at_c, least⟩ := (first a).1 isFirst
    rcases behind a mem at_c with on_c | ⟨before, b, isAdvice, on_c⟩
    · exact on_c
    · -- the advice on `c` would stand before the first
      have earlier : Before b a := Advice.before_iff.2 (.inl (on_c ▸ before))
      rcases least b isAdvice (congrArg _ on_c) with rfl | later
      · exact on_c
      · exact absurd later earlier.asymm
  · intro own a mem at_c
    have some : advice.adviceFor c.identifier ≠ [] :=
      List.ne_nil_of_mem (List.mem_filter.2 ⟨mem, beq_iff_eq.2 at_c⟩)
    obtain ⟨b, isFirst⟩ := Option.isSome_iff_exists.1 (List.isSome_head?.2 some)
    obtain ⟨isAdvice, -, least⟩ := (first b).1 isFirst
    have on_c : b.coordinates = c := own b isFirst
    rcases least a mem at_c with rfl | before
    · exact .inl on_c
    · rcases Advice.before_iff.1 before with before | ⟨same, -⟩
      · exact .inr ⟨on_c ▸ before, b, isAdvice, on_c⟩
      · exact .inl (same.symm.trans on_c)

end ModuleAdvice

/-! ## Whether it is about what is asked about -/

/-- A question is about a dependency of a module alone: it draws on its usages, and on advice on
it if there is any. -/
structure Question.IsOwn (q : Question) (m : ProjectModule) (advice : ModuleAdvice)
    (c : Coordinates) : Prop where
  requested : q.requested = c
  target : q.target = c
  usages : m.usages.get? c = some q.usages
  given : ∀ a ∈ q.advice, a ∈ advice.advice ∧ a.coordinates = c
  silent : q.advice = none → ∀ a ∈ advice.advice, a.coordinates ≠ c

/-- A question that draws on the usages of one namesake and on the first advice on the identifier
is about `c` alone if the usages are those of `c` and the advice on `c` leads. -/
theorem Question.isOwn_iff_leads {q : Question} {m : ProjectModule} {advice : ModuleAdvice}
    {c namesake : Coordinates} (requested : q.requested = c) (target : q.target = c)
    (drawn : m.usages.get? namesake = some q.usages)
    (explained : q.advice = (advice.adviceFor c.identifier).head?) :
    q.IsOwn m advice c ↔ m.usages.get? namesake = m.usages.get? c ∧ advice.Leads c := by
  rw [ModuleAdvice.leads_iff, drawn, ← explained]
  constructor
  · exact fun own => ⟨own.usages.symm, fun a isGiven => (own.given a isGiven).2⟩
  · rintro ⟨same, own⟩
    refine ⟨requested, target, same.symm, fun a isGiven => ⟨?_, own a isGiven⟩,
      fun none a mem on_c => ?_⟩
    · rw [explained] at isGiven
      exact List.mem_of_mem_filter (List.mem_of_head? isGiven)
    · rw [explained, List.head?_eq_none_iff, ModuleAdvice.adviceFor, List.filter_eq_nil_iff] at none
      exact none a mem (beq_iff_eq.2 (congrArg _ on_c))

namespace Survey

theorem analyze_of_analyze {s : Survey} {m : ProjectModule} {settings : Settings}
    {advice : ModuleAdvice} (analyzed : s.analyze settings = .ok (m, advice)) :
    m.analyze settings.filter = .ok advice := by
  rw [analyze] at analyzed
  cases described : s.toModule with
  | error e =>
    rw [described] at analyzed
    cases analyzed
  | ok n =>
    cases ok : n.analyze settings.filter with
    | error e =>
      rw [described] at analyzed
      simp only [Except.mapError, bind, Except.bind, ok] at analyzed
      cases analyzed
    | ok given =>
      rw [described] at analyzed
      simp only [Except.mapError, bind, Except.bind, ok] at analyzed
      cases analyzed
      exact ok

/-- An inquiry by text form asks about the dependency with that text form. It is answered with the
usages of the dependency and the advice on it exactly if the first dependency with its identifier
has the same usages and no advice on another dependency with its identifier stands before the
advice on it. So it is where no other dependency has the identifier. -/
theorem isOwn_iff {s : Survey} {m : ProjectModule} (h : s.toModule = .ok m) (settings : Settings)
    {c : Coordinates} (key : c ∈ m.usages.keys) :
    ∃ advice first, s.analyze settings = .ok (m, advice) ∧ m.IsFirst c.identifier first ∧
      let q := s.question settings { name := c.gav } m advice
      s.explain settings { name := c.gav } = q.explain.mapError .explanation ∧
      q.requested = c ∧ q.target = c ∧
      (q.IsOwn m advice c ↔ m.usages.get? first = m.usages.get? c ∧ advice.Leads c) ∧
      ((∀ k ∈ m.usages.keys, k.identifier = c.identifier → k = c) → q.IsOwn m advice c) := by
  obtain ⟨advice, analyzed⟩ := exists_analyze h settings
  obtain ⟨first, usages, isFirst, has, found⟩ := ProjectModule.find?_dependencies key
  have surveyed : c.gav ∈ s.usages.keys ∧ Coordinates.parse c.gav = c := by
    rw [(of_toModule h).2] at key
    exact of_mem_keys_completeUsages key
  have resolved : s.resolve c.gav = c := (resolve_of_mem_keys surveyed.1).trans surveyed.2
  have target : s.target { name := c.gav } = c := resolved
  have own_iff : (s.question settings { name := c.gav } m advice).IsOwn m advice c ↔
      m.usages.get? first = m.usages.get? c ∧ advice.Leads c := by
    refine Question.isOwn_iff_leads resolved target ?_ ?_
    · rw [has, question]
      dsimp only
      rw [target, found]
      rfl
    · rw [question]
      dsimp only
      rw [target]
  refine ⟨advice, first, analyzed, isFirst, ?_, resolved, target, own_iff, ?_⟩
  · rw [explain, analyzed]
    rfl
  · intro only
    refine own_iff.2 ⟨?_, fun a mem at_c => .inl ?_⟩
    · rw [only first isFirst.mem isFirst.at_x]
    · rw [ProjectModule.coordinates_of_only (analyze_of_analyze analyzed) key only mem at_c,
        ← surveyed.2, Coordinates.withoutDefaultCapability_parse]

/-- A survey with two versions of a library that are used differently. -/
def versions : Survey where
  project := ":app"
  declarations := [{ identifier := "g:a", configuration := "api" }]
  usages := .ofList [("g:a:1", [.mk .main .implementation []]),
    ("g:a:2", [.mk .main .compileOnly []])]

/-- The module that it describes. -/
def versionsModule : ProjectModule where
  project := { kind := .project, identifier := ":app" }
  variants := [.main]
  declarations := [{ identifier := "g:a", configuration := "api", variant := .main, bucket := .api
                     bucket_eq := Bucket.ofConfiguration_api }]
  usages := .ofList [(.library "g:a" "1", [.mk .main .implementation []]),
    (.library "g:a" "2", [.mk .main .compileOnly []])]

theorem toModule_versions : versions.toModule = .ok versionsModule := by
  have filled : ∀ u : Usage, Observations.fillGaps [u.variant] [u] = [u] := fun u => by
    simp [Observations.fillGaps, Usage.sorted]
  have usages : versions.completeUsages = versionsModule.usages := by
    have entries : versions.completeUsages.entries =
        [(Coordinates.library "g:a" "1", Observations.fillGaps [.main] [.mk .main .implementation []]),
          (.library "g:a" "2", Observations.fillGaps [.main] [.mk .main .compileOnly []])] := rfl
    rw [filled (.mk .main .implementation []), filled (.mk .main .compileOnly [])] at entries
    generalize versions.completeUsages = found at entries
    cases found
    cases entries
    rfl
  have described : versions.toModule =
      .ok { versionsModule with usages := versions.completeUsages } := rfl
  rw [described, usages]

/-- What is told of the first version is its own, what is told of the second is not. -/
theorem isOwn_iff_versions :
    let one := Coordinates.library "g:a" "1"
    let two := Coordinates.library "g:a" "2"
    ∃ m advice, versions.toModule = .ok m ∧ versions.analyze {} = .ok (m, advice) ∧
      one ∈ m.usages.keys ∧ two ∈ m.usages.keys ∧
      (versions.question {} { name := one.gav } m advice).IsOwn m advice one ∧
      ¬(versions.question {} { name := two.gav } m advice).IsOwn m advice two := by
  intro one two
  have keys : versionsModule.usages.keys = [one, two] := by decide
  have isKey : one ∈ versionsModule.usages.keys ∧ two ∈ versionsModule.usages.keys := by
    rw [keys]
    simp
  have isOne : ∀ k, versionsModule.IsFirst "g:a" k → k = one := by
    intro k isFirst
    have mem := isFirst.mem
    rw [keys, List.mem_pair] at mem
    rcases mem with rfl | rfl
    · rfl
    · exact absurd (isFirst.least one isKey.1 rfl) (by decide)
  have leads : ∃ given, versionsModule.analyze {} = .ok given ∧ given.Leads one := by
    refine ⟨_, rfl, ModuleAdvice.leads_iff.2 ?_⟩
    decide
  obtain ⟨given, analysis, leads⟩ := leads
  have analyzed : ∀ advice, versions.analyze {} = .ok (versionsModule, advice) → advice = given := by
    intro advice analyzed
    exact Except.ok.inj ((analyze_of_analyze analyzed).symm.trans analysis)
  obtain ⟨advice, first, ok, isFirst, -, -, -, own, -⟩ := isOwn_iff toModule_versions {} isKey.1
  obtain ⟨advice', first', ok', isFirst', -, -, -, own', -⟩ := isOwn_iff toModule_versions {} isKey.2
  obtain rfl := analyzed advice ok
  obtain rfl := analyzed advice' ok'
  refine ⟨versionsModule, advice', toModule_versions, ok, isKey.1, isKey.2, own.2 ⟨?_, leads⟩, ?_⟩
  · rw [isOne first isFirst]
  · intro isOwn
    have same := (own'.1 isOwn).1
    rw [isOne first' isFirst'] at same
    exact absurd same (by decide)

end Survey

end ClasspathAdvice
