import ClasspathAdvice.Explanation
import ClasspathAdvice.Settings
import ClasspathAdvice.Survey

/-!
# Inquiries into a survey

An inquiry asks about one dependency of a survey. The dependency is looked up by what it
is called; its usages and the advice on it are then found by its identifier.
-/

namespace ClasspathAdvice
set_option autoImplicit false

/-- What is asked. -/
structure Inquiry where
  /-- The dependency, by identifier or text form. -/
  name : String
  /-- The capability that is meant, if not the default one. -/
  capability : Option String := none
  deriving DecidableEq, Repr

/-- Why advice cannot be given or explained. -/
inductive InquiryError where
  | survey (error : SurveyError)
  | advice (error : AdviceError)
  | explanation (error : ExplanationError)
  deriving DecidableEq

namespace Survey

/-- The module that the survey describes, and the advice for it. -/
def analyze (s : Survey) (settings : Settings) : Except InquiryError (ProjectModule × ModuleAdvice) := do
  let module ← s.toModule.mapError .survey
  let advice ← (module.analyze settings.filter).mapError .advice
  return (module, advice)

/-- The dependency that an inquiry is about. -/
def target (s : Survey) (i : Inquiry) : Coordinates :=
  let requested := s.resolve i.name
  match i.capability with
  | some capability => { requested with identification := .ofCapability capability }
  | none => requested

/-- The question that an inquiry puts, given the module and the advice for it. -/
def question (s : Survey) (settings : Settings) (i : Inquiry) (module : ProjectModule)
    (advice : ModuleAdvice) : Question :=
  let target := s.target i
  let dependency := module.dependencies.find? fun (c, _) => c.identifier == target.identifier
  { project := module.project
    requested := s.resolve i.name
    target
    capability := i.capability
    usages := (dependency.map Prod.snd).getD []
    advice := (advice.adviceFor target.identifier).head?
    views := s.graphs
    traces := s.bundleTraces
    wasFiltered := advice.wasFiltered target.identifier
    aliases := settings.aliases }

/-- The answer to an inquiry. -/
def explain (s : Survey) (settings : Settings) (i : Inquiry) : Except InquiryError Text.StyledText := do
  let (module, advice) ← s.analyze settings
  (s.question settings i module advice).explain.mapError .explanation

end Survey

end ClasspathAdvice
