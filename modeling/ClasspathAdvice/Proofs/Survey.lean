import ClasspathAdvice.Proofs.Explanation
import ClasspathAdvice.Proofs.Graph.History
import ClasspathAdvice.Survey.Inquiry

/-!
# A survey that describes a module is enough

From a survey that describes a module, advice can be given whatever the filter, and explained
whatever is asked, unless the traces of bundles are in the way (`toModule_answers`).
-/

namespace ClasspathAdvice
set_option autoImplicit false

namespace Graph

variable {g : Graph} {s : String}

theorem contains_foldl_insertEdge (l : List (Coordinates × Coordinates))
    (h : g.contains s = true) : (l.foldl (fun g e => g.insertEdge e.1 e.2) g).contains s = true := by
  induction l generalizing g with
  | nil => exact h
  | cons e l ih =>
    apply ih
    rw [contains_insertEdge, h]
    rfl

/-- The graph of texts holds its root, with whatever edges. -/
theorem contains_ofTexts (root : String) (edges : List (String × String)) :
    (ofTexts (some root) [] edges).contains (Coordinates.parse root).identifier = true := by
  apply contains_foldl_insertEdge
  show (Graph.insertNode ∅ (Coordinates.parse root)).contains _ = true
  rw [contains_insertNode]
  simp

end Graph

namespace Survey

variable {s : Survey} {m : ProjectModule}

/-- What a module that a survey describes has from it. -/
theorem of_toModule (h : s.toModule = .ok m) :
    Coordinates.project s.project = .ok m.project ∧ m.usages = s.completeUsages := by
  rw [toModule, projectCoordinates] at h
  cases project : Coordinates.project s.project with
  | error e =>
    rw [project] at h
    cases h
  | ok c =>
    cases located : s.locatedDeclarations with
    | error e =>
      rw [project, located] at h
      cases h
    | ok declarations =>
      rw [project, located] at h
      cases h
      exact ⟨rfl, rfl⟩

/-- Every view holds the project. -/
theorem contains_project (h : s.toModule = .ok m) :
    ∀ e ∈ s.graphs.entries, e.2.contains m.project.identifier = true := by
  have same : (Coordinates.parse s.project).identifier = m.project.identifier := by
    have valid := (of_toModule h).1
    rw [Coordinates.project] at valid
    split at valid
    · rename_i colon
      rw [Coordinates.parse, if_pos colon, ← Except.ok.inj valid]
    · cases valid
  intro e mem
  obtain ⟨view, -, rfl⟩ := List.mem_map.1 mem
  rw [← same]
  exact Graph.contains_ofTexts _ _

/-- A survey that describes a module never stops the advice, and its explanation only where the
traces of bundles do not fit. -/
theorem toModule_answers {s : Survey} {m : ProjectModule} (h : s.toModule = .ok m) :
    (∀ filter : AdviceFilter, ∃ advice, m.analyze filter = .ok advice) ∧
    (∀ (settings : Settings) (i : Inquiry) (e : InquiryError), s.explain settings i = .error e →
      s.traces ≠ [] ∧ ∃ x : ExplanationError, e = .explanation x ∧ x.isAboutBundle = true) := by
  have usages : ∀ e ∈ m.usages.entries, e.2 ≠ [] := by
    rw [(of_toModule h).2]
    exact s.completeUsages_ne_nil
  constructor
  · intro filter
    obtain ⟨advice, ok, -⟩ := ProjectModule.exists_analyze usages filter
    exact ⟨advice, ok⟩
  · intro settings i e fails
    obtain ⟨advice, ok, named⟩ := ProjectModule.exists_analyze usages settings.filter
    have analyzed : s.analyze settings = .ok (m, advice) := by
      rw [analyze, h]
      simp only [Except.mapError, bind, Except.bind, ok]
      rfl
    have chosen : ∀ a ∈ (s.question settings i m advice).advice, a.IsNamed := by
      intro a mem
      have isOne : a ∈ advice.adviceFor (s.target i).identifier := List.mem_of_head? mem
      exact named a (List.mem_of_mem_filter isOne)
    have answer : s.explain settings i =
        (s.question settings i m advice).explain.mapError .explanation := by
      rw [explain, analyzed]
      rfl
    rw [answer] at fails
    rcases Question.explain_ok_or chosen (contains_project h) with ⟨text, found⟩ | ⟨traces, x, error, about⟩
    · rw [found] at fails
      cases fails
    · rw [error] at fails
      refine ⟨?_, x, (Except.error.inj fails).symm, about⟩
      intro none
      apply traces
      show s.bundleTraces = []
      rw [bundleTraces, none]
      rfl

/-- A survey with a cycle in one view and no edge in another, a dependency without usages and one
with a usage in a variant that the project does not have. -/
def looped : Survey where
  project := ":app"
  variants := [⟨"debug"⟩]
  views := .ofList [
    ("debugRuntimeClasspath", [(":app", "g:a:1"), ("g:a:1", "g:b:1"), ("g:b:1", "g:a:1"),
      ("g:c:1", "g:d:1")]),
    ("releaseRuntimeClasspath", [])]
  declarations := [{ identifier := "g:a", configuration := "debugApi" }]
  usages := .ofList [("g:b:1", []), ("g:c:1", [.ofReasons ⟨"free"⟩ .api []])]

/-- Without traces, every inquiry into it is answered. -/
theorem toModule_answers_looped :
    ∃ m, looped.toModule = .ok m ∧
      (∀ filter : AdviceFilter, ∃ advice, m.analyze filter = .ok advice) ∧
      ∀ (settings : Settings) (i : Inquiry), ∃ text, looped.explain settings i = .ok text := by
  have described : ∃ m, looped.toModule = .ok m := ⟨_, rfl⟩
  obtain ⟨m, h⟩ := described
  obtain ⟨advice, failure⟩ := toModule_answers h
  refine ⟨m, h, advice, ?_⟩
  intro settings i
  cases explained : looped.explain settings i with
  | ok text => exact ⟨text, rfl⟩
  | error e => exact absurd rfl (failure settings i e explained).1

end Survey

end ClasspathAdvice
