import ClasspathAdvice.Proofs.Explanation.View
import ClasspathAdvice.Proofs.ProjectModule

/-!
# When there is an explanation, and what it tells

The advice, or there being none, has to fit the traces of bundles and to name a configuration
(`Misadvised`), and each view has to hold the project. Nothing else is in the way of an
explanation (`explain_error_iff`): every sort of advice has its sentence, and a path is asked for
between nodes of the view. An explanation tells the views one by one (`explain_tells`).
-/

namespace ClasspathAdvice
set_option autoImplicit false

open Text

/-- Whether the traces of bundles do not fit what they are to explain. -/
def ExplanationError.isAboutBundle : ExplanationError → Bool
  | missingBundleTrace _ _ | unexpectedBundleTrace _ => true
  | unknownAdvice _ | graph _ => false

namespace Question

/-- What keeps the advice, or there being none, from being put into words. -/
inductive Misadvised (q : Question) : ExplanationError → Prop where
  /-- There is no advice, and none of the traces that there are involves the dependency. -/
  | untraced (unadvised : q.advice = none) (traced : q.traces ≠ [])
      (foreign : ∀ t ∈ q.traces, t.involves q.target = false) :
      Misadvised q (.missingBundleTrace q.target.gav
        (joined ", " (q.traces.map fun t => t.top.gav ++ " -> " ++ t.bottom.gav)))
  /-- The dependency is to be added, and the first trace that involves it is not about a primary
  dependency. -/
  | mistraced {a : Advice} {configuration : String} {t : BundleTrace Coordinates}
      {before after : List (BundleTrace Coordinates)} (advised : q.advice = some a)
      (undeclared : a.source = none) (added : a.target = some configuration)
      (split : q.traces = before ++ t :: after)
      (foreign : ∀ u ∈ before, u.involves q.target = false) (involved : t.involves q.target = true)
      (other : t.rule ≠ .primaryMap) : Misadvised q (.unexpectedBundleTrace q.target.gav)
  /-- The advice names no configuration. -/
  | unnamed {a : Advice} (advised : q.advice = some a) (undeclared : a.source = none)
      (dropped : a.target = none) : Misadvised q (.unknownAdvice a.text)

/-- Whether something succeeds, or fails only for a bundle of which there are traces. -/
def OkOrBundle {α : Type} (q : Question) (result : Except ExplanationError α) : Prop :=
  (∃ x, result = .ok x) ∨ q.traces ≠ [] ∧ ∃ e, result = .error e ∧ e.isAboutBundle = true

variable {q : Question} {a : Advice} {e : ExplanationError} {g : Graph} {view : String}

/-! ## The advice in words -/

theorem noAdvice_eq_error_iff (unadvised : q.advice = none) :
    q.noAdvice = .error e ↔ q.Misadvised e := by
  constructor
  · intro fails
    rw [noAdvice] at fails
    split at fails
    · split at fails <;> cases fails
    · rename_i traced
      split at fails
      · cases fails
      · rename_i none
        obtain rfl := Except.error.inj fails
        rw [trace?, List.find?_eq_none] at none
        exact .untraced unadvised (by simpa using traced) (by simpa using none)
  · intro misadvised
    cases misadvised with
    | untraced _ traced foreign =>
      have none : q.trace? = none := by simpa [trace?] using foreign
      have some : q.traces.isEmpty = false := List.isEmpty_eq_false_iff.2 traced
      rw [noAdvice, some, none]
      rfl
    | mistraced advised => cases unadvised.symm.trans advised
    | unnamed advised => cases unadvised.symm.trans advised

/-- Advice with a source has its sentence: what is to go is a removal or an annotation processor,
and what is to move goes to a compile-only, a runtime-only or another configuration. -/
theorem exists_givenAdvice {source : String} (declared : a.source = some source) :
    ∃ lines, q.givenAdvice a = .ok lines := by
  rw [givenAdvice, declared]
  cases target : a.target with
  | none =>
    have known : (a.isRemove || a.isProcessor) = true := by
      simp [Advice.isRemove, Advice.isAnyRemove, Advice.isCompileOnly, Advice.targetEndsWith, target]
    simp only [known, if_true]
    exact ⟨_, rfl⟩
  | some configuration =>
    have known : (a.isChange || a.isRuntimeOnly || a.isCompileOnly) = true := by
      rw [Advice.isChange, Advice.isAnyChange, declared, target]
      cases a.isCompileOnly <;> cases a.isRuntimeOnly <;> rfl
    simp only [known, if_true]
    exact ⟨_, rfl⟩

theorem additionLines_eq_error_iff (configuration : String) :
    q.additionLines configuration = .error e ↔
      (∃ t, q.trace? = some t ∧ t.rule ≠ .primaryMap) ∧ e = .unexpectedBundleTrace q.target.gav := by
  rw [additionLines]
  cases q.trace? with
  | none => exact iff_of_false (fun fails => by cases fails) (by simp)
  | some t =>
    by_cases primary : t.rule = .primaryMap
    · simp [primary]
    · simp only [if_neg primary, Except.error.injEq, Option.some.injEq, exists_eq_left']
      exact ⟨fun same => ⟨primary, same.symm⟩, fun h => h.2.symm⟩

/-- The first trace that involves the dependency. -/
theorem trace?_eq_some_iff {t : BundleTrace Coordinates} :
    q.trace? = some t ↔ t.involves q.target = true ∧ ∃ before after,
      q.traces = before ++ t :: after ∧ ∀ u ∈ before, u.involves q.target = false := by
  rw [trace?, List.find?_eq_some_iff_append]
  simp only [Bool.not_eq_true']

/-- What keeps advice from being put into words depends on its source and target, and on the first
trace if it is to add a declaration. -/
theorem misadvised_iff (advised : q.advice = some a) : q.Misadvised e ↔ a.source = none ∧
    ((∃ configuration, a.target = some configuration) ∧
        (∃ t, q.trace? = some t ∧ t.rule ≠ .primaryMap) ∧ e = .unexpectedBundleTrace q.target.gav ∨
      a.target = none ∧ e = .unknownAdvice a.text) := by
  constructor
  · intro misadvised
    cases misadvised with
    | untraced unadvised => cases advised.symm.trans unadvised
    | mistraced advised' undeclared added split foreign involved other =>
      cases advised.symm.trans advised'
      have first := trace?_eq_some_iff.2 ⟨involved, _, _, split, foreign⟩
      exact ⟨undeclared, .inl ⟨⟨_, added⟩, ⟨_, first, other⟩, rfl⟩⟩
    | unnamed advised' undeclared dropped =>
      cases advised.symm.trans advised'
      exact ⟨undeclared, .inr ⟨dropped, rfl⟩⟩
  · rintro ⟨undeclared, ⟨⟨configuration, added⟩, ⟨t, first, other⟩, rfl⟩ | ⟨dropped, rfl⟩⟩
    · obtain ⟨involved, before, after, split, foreign⟩ := trace?_eq_some_iff.1 first
      exact .mistraced advised undeclared added split foreign involved other
    · exact .unnamed advised undeclared dropped

theorem givenAdvice_eq_error_iff (advised : q.advice = some a) :
    q.givenAdvice a = .error e ↔ q.Misadvised e := by
  rw [misadvised_iff advised]
  cases declared : a.source with
  | some source =>
    obtain ⟨lines, ok⟩ := exists_givenAdvice (q := q) declared
    rw [ok]
    exact iff_of_false (fun fails => by cases fails) (fun misadvised => by cases misadvised.1)
  | none =>
    cases added : a.target with
    | none =>
      rw [givenAdvice, declared, added, Except.error.injEq]
      simp [eq_comm]
    | some configuration =>
      have words : q.givenAdvice a = q.additionLines configuration := by
        rw [givenAdvice, declared, added]
      rw [words, additionLines_eq_error_iff]
      simp

theorem adviceLines_eq_error_iff : q.adviceLines = .error e ↔ q.Misadvised e := by
  rw [adviceLines]
  split
  · rename_i a advised
    exact givenAdvice_eq_error_iff advised
  · rename_i unadvised
    exact noAdvice_eq_error_iff unadvised

/-- Where no trace is at odds with it, advice that names a configuration is put into words. -/
theorem Misadvised.isAboutBundle (misadvised : q.Misadvised e) (named : ∀ a ∈ q.advice, a.IsNamed) :
    q.traces ≠ [] ∧ e.isAboutBundle = true := by
  cases misadvised with
  | untraced _ traced => exact ⟨traced, rfl⟩
  | mistraced _ _ _ split =>
    rw [split]
    exact ⟨List.append_ne_nil_of_right_ne_nil _ (List.cons_ne_nil _ _), rfl⟩
  | unnamed advised undeclared dropped =>
    obtain ⟨x, isSource | isTarget⟩ := named _ advised
    · cases undeclared.symm.trans isSource
    · cases dropped.symm.trans isTarget

/-! ## The views -/

theorem viewLines_of_not_contains (absent : g.contains q.project.identifier = false) :
    q.viewLines view g = .error (.graph (.missingNode q.project.identifier)) := by
  rw [viewLines, path, if_neg (by simp [absent])]
  rfl

theorem viewLines_eq_error_iff :
    q.viewLines view g = .error e ↔ g.contains q.project.identifier = false ∧
      e = .graph (.missingNode q.project.identifier) := by
  cases known : g.contains q.project.identifier with
  | false =>
    rw [viewLines_of_not_contains known, Except.error.injEq]
    simp [eq_comm]
  | true =>
    obtain ⟨block, ok, -⟩ := exists_viewLines view known
    rw [ok]
    exact iff_of_false (fun fails => by cases fails) (by simp)

theorem tells_of_viewLines {block : List StyledText} (ok : q.viewLines view g = .ok block) :
    q.Tells view g block := by
  cases known : g.contains q.project.identifier with
  | false =>
    rw [viewLines_of_not_contains known] at ok
    cases ok
  | true =>
    obtain ⟨told, ok', tells⟩ := exists_viewLines view known
    obtain rfl := Except.ok.inj (ok.symm.trans ok')
    exact tells

/-- Some view does not hold the project. -/
def IsUnrooted (q : Question) : Prop :=
  ∃ v ∈ q.views.entries, v.2.contains q.project.identifier = false

theorem views_eq_error_iff :
    (q.views.entries.mapM fun v => q.viewLines v.1 v.2) = .error e ↔
      q.IsUnrooted ∧ e = .graph (.missingNode q.project.identifier) := by
  rw [mapM_eq_error_iff fun v _ e fails => (viewLines_eq_error_iff.1 fails).2]
  simp only [viewLines_eq_error_iff, and_true]
  rfl

/-! ## The whole explanation -/

/-- What was asked and the advice. -/
def opening (q : Question) (advice : List StyledText) : List StyledText :=
  [[], [Style.bold.span rule], [Style.bold.span q.sentence]] ++ advice ++ [[Style.bold.span rule]]

theorem explain_of_error (fails : q.adviceLines = .error e) : q.explain = .error e := by
  rw [explain, fails]
  rfl

theorem explain_of_ok {advice : List StyledText} (ok : q.adviceLines = .ok advice) :
    q.explain = (q.views.entries.mapM fun v => q.viewLines v.1 v.2).map fun blocks =>
      unlines (q.opening advice ++ blocks.flatten ++ usagesLines q.usages) := by
  rw [explain, ok]
  cases q.views.entries.mapM fun v => q.viewLines v.1 v.2 <;> rfl

theorem explain_eq_error_iff : q.explain = .error e ↔ q.Misadvised e ∨
    (∀ e', ¬ q.Misadvised e') ∧ q.IsUnrooted ∧ e = .graph (.missingNode q.project.identifier) := by
  rw [← views_eq_error_iff]
  simp only [← adviceLines_eq_error_iff]
  cases advice : q.adviceLines with
  | error x =>
    rw [explain_of_error advice]
    simp only [Except.error.injEq]
    exact ⟨.inl, fun fails => fails.resolve_right fun h => absurd rfl (h.1 x)⟩
  | ok lines =>
    rw [explain_of_ok advice]
    cases q.views.entries.mapM fun v => q.viewLines v.1 v.2 <;>
      simp only [Except.map, Except.error.injEq, reduceCtorEq, not_false_eq_true, implies_true,
        true_and, false_or]

/-- Only the traces of bundles can be in the way of an explanation. -/
theorem explain_ok_or (named : ∀ a ∈ q.advice, a.IsNamed)
    (rooted : ∀ e ∈ q.views.entries, e.2.contains q.project.identifier = true) :
    q.OkOrBundle q.explain := by
  cases answer : q.explain with
  | ok text => exact .inl ⟨text, rfl⟩
  | error e =>
    rcases explain_eq_error_iff.1 answer with misadvised | ⟨-, ⟨v, mem, absent⟩, -⟩
    · obtain ⟨traced, about⟩ := misadvised.isAboutBundle named
      exact .inr ⟨traced, e, rfl, about⟩
    · rw [rooted v mem] at absent
      cases absent

/-- An explanation fails exactly if the advice, or there being none, does not fit the traces or
names no configuration, with the error for that; and otherwise exactly if some view does not hold
the project, with the error that it is missing. In every other case there is an explanation. -/
theorem explain_error_iff (q : Question) :
    (∀ e, q.explain = .error e ↔ q.Misadvised e ∨ (∀ e', ¬ q.Misadvised e') ∧
      (∃ v ∈ q.views.entries, v.2.contains q.project.identifier = false) ∧
      e = .graph (.missingNode q.project.identifier)) ∧
    ((∃ text, q.explain = .ok text) ↔ (∀ e, ¬ q.Misadvised e) ∧
      ∀ v ∈ q.views.entries, v.2.contains q.project.identifier = true) := by
  refine ⟨fun e => explain_eq_error_iff, ?_⟩
  constructor
  · rintro ⟨text, ok⟩
    have fine : ∀ e, q.explain ≠ .error e := fun e fails => by cases ok.symm.trans fails
    have advised : ∀ e, ¬ q.Misadvised e :=
      fun e misadvised => fine e (explain_eq_error_iff.2 (.inl misadvised))
    refine ⟨advised, fun v mem => ?_⟩
    rw [← Bool.not_eq_false]
    intro absent
    exact fine _ (explain_eq_error_iff.2 (.inr ⟨advised, ⟨v, mem, absent⟩, rfl⟩))
  · rintro ⟨advised, rooted⟩
    cases answer : q.explain with
    | ok text => exact ⟨text, rfl⟩
    | error e =>
      rcases explain_eq_error_iff.1 answer with misadvised | ⟨-, ⟨v, mem, absent⟩, -⟩
      · exact absurd misadvised (advised e)
      · cases (rooted v mem).symm.trans absent

/-- An explanation has, between the advice and the usages, one block for each view, in the order
of their names. A block says that there is no path exactly if no node of the view is the dependency
that is meant and is reached from the project, and otherwise shows a path to such a node along
edges of the view, on which no node is repeated. -/
theorem explain_tells {q : Question} {text : StyledText} (h : q.explain = .ok text) :
    ∃ advice blocks, q.adviceLines = .ok advice ∧
      text = unlines (q.opening advice) ++ blocks.flatMap unlines ++ unlines (usagesLines q.usages) ∧
      (q.views.entries.map Prod.fst).Pairwise Before ∧
      List.Forall₂ (fun v block => q.Tells v.1 v.2 block) q.views.entries blocks := by
  cases advice : q.adviceLines with
  | error e => cases (explain_of_error advice).symm.trans h
  | ok lines =>
    rw [explain_of_ok advice] at h
    cases views : q.views.entries.mapM fun v => q.viewLines v.1 v.2 with
    | error e =>
      rw [views] at h
      cases h
    | ok blocks =>
      rw [views] at h
      obtain rfl := Except.ok.inj h
      refine ⟨lines, blocks, rfl, ?_, q.views.ascending, ?_⟩
      · show unlines (q.opening lines ++ blocks.flatten ++ usagesLines q.usages) = _
        rw [unlines_append, unlines_append, unlines_flatten]
      · exact (forall₂_of_mapM views).imp fun _ _ => tells_of_viewLines

/-- Two nodes that nothing joins. -/
def parted : Graph := .ofNodesAndEdges [.flat "s", .flat "x"] []

theorem listing_parted : parted.listing = ⟨[.flat "s", .flat "x"], []⟩ := by
  rw [parted, Graph.listing_ofNodesAndEdges]
  decide

theorem ascending_asked : ["compileClasspath", "runtimeClasspath"].Pairwise Before := by decide

/-- A question about the last node of a view with a cycle, which is not reached in another. -/
def asked : Question where
  project := .flat "s"
  requested := .flat "x"
  target := .flat "x"
  views := ⟨[("compileClasspath", Routes.detour), ("runtimeClasspath", parted)], ascending_asked⟩

theorem indexOf?_detour : Routes.detour.indexOf? "s" = some 0 := by
  rw [Graph.indexOf?_eq, Routes.listing_detour]
  decide

theorem indexOf?_parted : parted.indexOf? "s" = some 0 := by
  rw [Graph.indexOf?_eq, listing_parted]
  decide

theorem not_isCutOff_detour : ¬ asked.IsCutOff Routes.detour := by
  have x : Routes.detour.nodes[5]? = some (.flat "x") := by
    rw [Graph.getElem?_nodes, Routes.listing_detour]
    rfl
  have edge : ∀ e ∈ [(0, 4), (4, 3), (3, 5)], e ∈ Routes.detour.edges := by
    simp [Routes.edges_detour]
  have start : Routes.detour.Reaches 0 0 := ⟨_, .start (Graph.indexOf?_lt indexOf?_detour)⟩
  have reached : Routes.detour.Reaches 0 5 :=
    ((start.step (edge (0, 4) (by decide))).step (edge (4, 3) (by decide))).step
      (edge (3, 5) (by decide))
  rw [isCutOff_iff (q := asked) indexOf?_detour x (by decide)]
  exact not_not_intro reached

theorem isCutOff_parted : asked.IsCutOff parted := by
  have x : parted.nodes[1]? = some (.flat "x") := by
    rw [Graph.getElem?_nodes, listing_parted]
    rfl
  rw [isCutOff_iff (q := asked) indexOf?_parted x (by decide)]
  rintro ⟨l, p⟩
  cases p with
  | step p e =>
    rw [Graph.mem_edges, listing_parted] at e
    cases e

/-- The view with the cycle is told by a path, the other has none. -/
theorem explain_tells_asked :
    ∃ text hops, asked.explain = .ok text ∧
      text = unlines (asked.opening [[plain "There is no advice regarding this dependency."]]) ++
        (unlines (asked.pathBlock "compileClasspath" hops) ++
          unlines (asked.noPathBlock "runtimeClasspath")) ++ unlines (usagesLines []) := by
  have rooted : ∀ v ∈ asked.views.entries, v.2.contains "s" = true := by
    simp [asked, Graph.contains_eq_isSome, indexOf?_detour, indexOf?_parted]
  obtain ⟨text, ok⟩ := (explain_ok_or (q := asked) (fun a mem => by cases mem) rooted).resolve_right
    fun traced => traced.1 rfl
  obtain ⟨advice, blocks, words, split, -, told⟩ := explain_tells ok
  obtain rfl := Except.ok.inj words
  cases told with
  | cons first rest =>
    cases rest with
    | cons second none =>
      cases none
      obtain ⟨-, -, -, -, hops, -, -, -, -, -, rfl⟩ := first.path not_isCutOff_detour
      obtain rfl := second.noPath_iff.2 isCutOff_parted
      refine ⟨text, hops, ok, split.trans ?_⟩
      rw [List.flatMap_cons, List.flatMap_cons, List.flatMap_nil, List.append_nil]
      rfl

end Question

end ClasspathAdvice
