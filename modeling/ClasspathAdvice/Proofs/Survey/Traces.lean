import ClasspathAdvice.Proofs.Survey

/-!
# Traces about other dependencies

A trace of a bundle that does not involve the dependency asked about is passed over where the
first one that does is looked for. It is not passed over where there is no advice: then the
answer asks first whether there are traces at all. So such a trace leaves the outcome of an
inquiry as it is if there is advice or another trace, and spoils it otherwise
(`outcome_foreign_iff`).
-/

namespace ClasspathAdvice
set_option autoImplicit false

/-- The error without the list of all traces. -/
def ExplanationError.unlisted : ExplanationError → ExplanationError
  | missingBundleTrace target _ => missingBundleTrace target ""
  | e => e

/-- The error without the list of all traces. -/
def InquiryError.unlisted : InquiryError → InquiryError
  | explanation e => explanation e.unlisted
  | e => e

theorem mapError_bind {α β ε ε' : Type} (u : ε → ε') (x : Except ε α) (f : α → Except ε β) :
    (x >>= f).mapError u = x.mapError u >>= fun a => (f a).mapError u := by
  cases x <;> rfl

namespace Question

/-- The question with other traces. -/
def withTraces (q : Question) (traces : List (BundleTrace Coordinates)) : Question :=
  { q with traces }

/-- The answer, or the error without the list of all traces. -/
def outcome (q : Question) : Except ExplanationError Text.StyledText :=
  q.explain.mapError ExplanationError.unlisted

variable {q : Question} {t : BundleTrace Coordinates} {l l' before after : List (BundleTrace Coordinates)}

@[simp] theorem withTraces_advice : (q.withTraces l).advice = q.advice := rfl

@[simp] theorem withTraces_traces : (q.withTraces l).traces = l := rfl

/-- A trace that does not involve the dependency is passed over. -/
theorem trace?_foreign (foreign : t.involves q.target = false) :
    (q.withTraces (before ++ t :: after)).trace? = (q.withTraces (before ++ after)).trace? := by
  simp only [trace?, withTraces, List.find?_append, List.find?_cons, foreign]

/-- Advice is put into words alike when the first trace of the dependency is the same. -/
theorem givenAdvice_withTraces (a : Advice)
    (same : (q.withTraces l).trace? = (q.withTraces l').trace?) :
    (q.withTraces l).givenAdvice a = (q.withTraces l').givenAdvice a := by
  have addition : ∀ target,
      (q.withTraces l).additionLines target = (q.withTraces l').additionLines target := by
    intro target
    rw [additionLines, additionLines, same]
    rfl
  simp only [givenAdvice, addition]

/-- Where there are traces, why there is no advice is told alike when the first of the dependency
is the same. -/
theorem noAdvice_withTraces (traces : l ≠ []) (traces' : l' ≠ [])
    (same : (q.withTraces l).trace? = (q.withTraces l').trace?) :
    (q.withTraces l).noAdvice.mapError ExplanationError.unlisted =
      (q.withTraces l').noAdvice.mapError ExplanationError.unlisted := by
  have some : l.isEmpty = false := List.isEmpty_eq_false_iff.2 traces
  have some' : l'.isEmpty = false := List.isEmpty_eq_false_iff.2 traces'
  rw [noAdvice, noAdvice, withTraces_traces, withTraces_traces, some, some', same]
  cases (q.withTraces l').trace? <;> rfl

/-- Of an answer only the advice depends on the traces. -/
theorem outcome_withTraces (same : (q.withTraces l).adviceLines.mapError ExplanationError.unlisted =
      (q.withTraces l').adviceLines.mapError ExplanationError.unlisted) :
    (q.withTraces l).outcome = (q.withTraces l').outcome := by
  rw [outcome, outcome, explain, explain, mapError_bind, mapError_bind, same]
  rfl

/-- With advice, or with another trace, the answer is the same. -/
theorem outcome_foreign (foreign : t.involves q.target = false)
    (kept : q.advice ≠ none ∨ before ++ after ≠ []) :
    (q.withTraces (before ++ t :: after)).outcome = (q.withTraces (before ++ after)).outcome := by
  apply outcome_withTraces
  have first : (q.withTraces (before ++ t :: after)).trace? = (q.withTraces (before ++ after)).trace? :=
    trace?_foreign foreign
  cases advice : q.advice with
  | some a =>
    have given : ∀ l, (q.withTraces l).adviceLines = (q.withTraces l).givenAdvice a := by
      intro l
      rw [adviceLines, withTraces_advice, advice]
    rw [given, given, givenAdvice_withTraces a first]
  | none =>
    have silent : ∀ l, (q.withTraces l).adviceLines = (q.withTraces l).noAdvice := by
      intro l
      rw [adviceLines, withTraces_advice, advice]
    have others := kept.resolve_left (fun some => some advice)
    have present : before ++ t :: after ≠ [] :=
      List.append_ne_nil_of_right_ne_nil _ (List.cons_ne_nil _ _)
    rw [silent, silent]
    exact noAdvice_withTraces present others first

/-- Without advice, a trace about other dependencies and no further one leave no answer. -/
theorem explain_only_foreign (foreign : t.involves q.target = false) (advice : q.advice = none) :
    (q.withTraces [t]).explain =
      .error (.missingBundleTrace q.target.gav (t.top.gav ++ " -> " ++ t.bottom.gav)) := by
  have first : (q.withTraces [t]).trace? = none := by
    simp only [trace?, withTraces, List.find?_cons, foreign, List.find?_nil]
  have lines : (q.withTraces [t]).adviceLines =
      .error (.missingBundleTrace q.target.gav (t.top.gav ++ " -> " ++ t.bottom.gav)) := by
    rw [adviceLines, withTraces_advice, advice, noAdvice, first]
    rfl
  rw [explain, lines]
  rfl

end Question

namespace Survey

/-- The survey with other traces. -/
def withTraces (s : Survey) (traces : List (BundleTrace String)) : Survey := { s with traces }

/-- The answer to an inquiry, or the error without the list of all traces. -/
def outcome (s : Survey) (settings : Settings) (i : Inquiry) :
    Except InquiryError Text.StyledText :=
  (s.explain settings i).mapError InquiryError.unlisted

variable {s : Survey} {m : ProjectModule} {settings : Settings}

theorem exists_analyze (h : s.toModule = .ok m) (settings : Settings) :
    ∃ advice, s.analyze settings = .ok (m, advice) := by
  have usages : ∀ e ∈ m.usages.entries, e.2 ≠ [] := by
    rw [(of_toModule h).2]
    exact s.completeUsages_ne_nil
  obtain ⟨advice, ok, -⟩ := ProjectModule.exists_analyze usages settings.filter
  refine ⟨advice, ?_⟩
  rw [analyze, h]
  simp only [Except.mapError, bind, Except.bind, ok]
  rfl

/-- The traces are no part of the analysis. -/
theorem explain_withTraces {advice : ModuleAdvice} (analyzed : s.analyze settings = .ok (m, advice))
    (i : Inquiry) (traces : List (BundleTrace String)) :
    (s.withTraces traces).explain settings i =
      (((s.question settings i m advice).withTraces
        (traces.map (·.map Coordinates.parse))).explain).mapError .explanation := by
  rw [explain, show (s.withTraces traces).analyze settings = _ from analyzed]
  rfl

theorem outcome_withTraces {advice : ModuleAdvice} (analyzed : s.analyze settings = .ok (m, advice))
    (i : Inquiry) (traces : List (BundleTrace String)) :
    (s.withTraces traces).outcome settings i =
      ((s.question settings i m advice).withTraces
        (traces.map (·.map Coordinates.parse))).outcome.mapError InquiryError.explanation := by
  rw [outcome, explain_withTraces analyzed, Question.outcome]
  cases ((s.question settings i m advice).withTraces (traces.map (·.map Coordinates.parse))).explain <;> rfl

/-- Where there is no advice and no trace, there is an answer. -/
theorem exists_explain {advice : ModuleAdvice} (h : s.toModule = .ok m)
    (analyzed : s.analyze settings = .ok (m, advice)) (i : Inquiry)
    (silent : advice.adviceFor (s.target i).identifier = []) :
    ∃ text, (s.withTraces []).explain settings i = .ok text := by
  have unadvised : (s.question settings i m advice).advice = none := List.head?_eq_none_iff.2 silent
  have answers := Question.explain_ok_or (q := (s.question settings i m advice).withTraces [])
    (fun a mem => by rw [Question.withTraces, unadvised] at mem; cases mem) (contains_project h)
  obtain ⟨text, ok⟩ := answers.resolve_right fun traced => traced.1 rfl
  refine ⟨text, ?_⟩
  rw [explain_withTraces analyzed]
  exact congrArg (Except.mapError InquiryError.explanation) ok

/-- A trace about other dependencies leaves the outcome of an inquiry as it is, wherever it
stands, exactly if there is advice on the dependency asked about or another trace. With neither,
there is an answer without the trace and none with it. -/
theorem outcome_foreign_iff {s : Survey} {m : ProjectModule} (h : s.toModule = .ok m)
    (settings : Settings) (i : Inquiry) {t : BundleTrace String}
    (foreign : (t.map Coordinates.parse).involves (s.target i) = false) :
    ∃ advice, s.analyze settings = .ok (m, advice) ∧
      (∀ before after, (s.withTraces (before ++ t :: after)).outcome settings i =
          (s.withTraces (before ++ after)).outcome settings i ↔
        advice.adviceFor (s.target i).identifier ≠ [] ∨ before ++ after ≠ []) ∧
      (advice.adviceFor (s.target i).identifier = [] →
        (∃ text, (s.withTraces []).explain settings i = .ok text) ∧
        (s.withTraces [t]).explain settings i = .error (.explanation (.missingBundleTrace
          (s.target i).gav
          ((Coordinates.parse t.top).gav ++ " -> " ++ (Coordinates.parse t.bottom).gav)))) := by
  obtain ⟨advice, analyzed⟩ := exists_analyze h settings
  have spoiled : advice.adviceFor (s.target i).identifier = [] →
      (∃ text, (s.withTraces []).explain settings i = .ok text) ∧
      (s.withTraces [t]).explain settings i = .error (.explanation (.missingBundleTrace
        (s.target i).gav
        ((Coordinates.parse t.top).gav ++ " -> " ++ (Coordinates.parse t.bottom).gav))) := by
    intro silent
    refine ⟨exists_explain h analyzed i silent, ?_⟩
    have unanswered := Question.explain_only_foreign (q := s.question settings i m advice) foreign
      (List.head?_eq_none_iff.2 silent)
    rw [explain_withTraces analyzed]
    exact congrArg (Except.mapError InquiryError.explanation) unanswered
  refine ⟨advice, analyzed, fun before after => ⟨fun same => ?_, fun kept => ?_⟩, spoiled⟩
  · by_contra neither
    obtain ⟨silent, alone⟩ : advice.adviceFor (s.target i).identifier = [] ∧ before ++ after = [] := by
      simpa only [not_or, not_not] using neither
    obtain ⟨rfl, rfl⟩ := List.append_eq_nil_iff.1 alone
    obtain ⟨⟨text, ok⟩, error⟩ := spoiled silent
    simp only [outcome, List.nil_append, ok, error] at same
    cases same
  · rw [outcome_withTraces analyzed, outcome_withTraces analyzed, List.map_append, List.map_append,
      List.map_cons]
    refine congrArg _ (Question.outcome_foreign (q := s.question settings i m advice) foreign ?_)
    refine kept.imp (fun given none => given (List.head?_eq_none_iff.1 none)) fun others none => ?_
    rw [← List.map_append, List.map_eq_nil_iff] at none
    exact others none

/-- A survey with a dependency on the classpath that is neither declared nor used. -/
def transitive : Survey where
  project := ":app"
  views := .ofList [("compileClasspath", [(":app", "g:a:1")])]

/-- A trace between two dependencies that are not on the classpath. -/
def elsewhere : BundleTrace String := { rule := .declaredParent, top := "g:x:1", bottom := "g:y:1" }

theorem analyze_transitive : ∃ m advice, transitive.toModule = .ok m ∧
    transitive.analyze {} = .ok (m, advice) ∧ advice.adviceFor "g:a" = [] := by
  refine ⟨_, _, rfl, rfl, ?_⟩
  rfl

/-- The trace alone spoils the answer; a second one like it makes no difference. -/
theorem outcome_foreign_iff_transitive :
    ∃ m, transitive.toModule = .ok m ∧
      (elsewhere.map Coordinates.parse).involves (transitive.target { name := "g:a" }) = false ∧
      (transitive.withTraces [elsewhere]).outcome {} { name := "g:a" } ≠
        (transitive.withTraces []).outcome {} { name := "g:a" } ∧
      (transitive.withTraces [elsewhere, elsewhere]).outcome {} { name := "g:a" } =
        (transitive.withTraces [elsewhere]).outcome {} { name := "g:a" } := by
  obtain ⟨m, advice, described, analyzed, silent⟩ := analyze_transitive
  have foreign : (elsewhere.map Coordinates.parse).involves
      (transitive.target { name := "g:a" }) = false := by decide
  obtain ⟨given, analyzed', same, -⟩ := outcome_foreign_iff described {} { name := "g:a" } foreign
  rw [analyzed] at analyzed'
  cases analyzed'
  refine ⟨m, described, foreign, fun alike => ?_, (same [] [elsewhere]).2 (.inr (List.cons_ne_nil _ _))⟩
  rcases (same [] []).1 alike with some | others
  · exact some silent
  · exact others rfl

end Survey

end ClasspathAdvice
