import ClasspathAdvice.Exchange.Coordinates
import ClasspathAdvice.Exchange.Usage
import ClasspathAdvice.Survey

/-!
# Surveys as documents

Every part of a survey may be left out. An edge of a graph is a list of two texts.
-/

namespace ClasspathAdvice
set_option autoImplicit false

open Document

namespace SurveyedDeclaration

/-- Reads a declaration. -/
def ofDocument? (m : Manner) (d : Document) : Option SurveyedDeclaration := do
  match ← d.fields? m ["identifier", "configuration", "variant"] with
  | [identifier, configuration, variant] =>
    return {
      identifier := ← required toText? identifier
      configuration := ← required toText? configuration
      variant := (← withDefault none (toOption? toText?) variant).map Variant.mk }
  | _ => none

/-- Writes a declaration; an absent variant is left out. -/
def toDocument (d : SurveyedDeclaration) : Document :=
  .object <|
    [("identifier", .text d.identifier), ("configuration", .text d.configuration)] ++
    (d.variant.map fun variant => ("variant", Document.text variant.name)).toList

end SurveyedDeclaration

namespace Survey

/-- Reads a survey. -/
def ofDocument? (m : Manner) (d : Document) : Option Survey := do
  let names := ["project", "variants", "graphs", "declarations", "usages", "sizes", "bundle_traces"]
  match ← d.fields? m names with
  | [project, variants, graphs, declarations, usages, sizes, traces] =>
    let project ← withDefault "" toText? project
    let variants ← withDefault [] (toList? toText?) variants
    let views ← withDefault ∅ (toMap? (toList? (toPair? m toText? toText?))) graphs
    let declarations ← withDefault [] (toList? (SurveyedDeclaration.ofDocument? m)) declarations
    let usages ← withDefault ∅ (toMap? (toList? (Usage.ofDocument? m))) usages
    let sizes ← withDefault ∅ (toMap? toSize?) sizes
    let traces ← withDefault [] (toList? (BundleTrace.ofDocument? toText?)) traces
    return { project, variants := variants.map Variant.mk, views, declarations, usages, sizes, traces }
  | _ => none

/-- Writes a survey. -/
def toDocument (s : Survey) : Document :=
  .object [("project", .text s.project), ("variants", .texts (s.variants.map Variant.name)),
    ("graphs", s.views.toDocument fun edges => .list (edges.map fun (a, b) => .texts [a, b])),
    ("declarations", .list (s.declarations.map SurveyedDeclaration.toDocument)),
    ("usages", s.usages.toDocument fun usages => .list (usages.map Usage.toDocument)),
    ("sizes", s.sizes.toDocument .nat),
    ("bundle_traces", .list (s.traces.map (BundleTrace.toDocument .text)))]

end Survey

end ClasspathAdvice
