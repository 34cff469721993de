import ClasspathAdvice.Explanation.BundleTrace
import ClasspathAdvice.Graph.Basic
import ClasspathAdvice.ProjectModule

/-!
# Surveys

A survey is what is known about one project: its declarations, the usages observed in
its variants, the classpath of each view as a graph, the sizes of artifacts and the
traces of bundles. Dependencies are named by raw text.
-/

namespace ClasspathAdvice
set_option autoImplicit false

/-- A declaration as it was surveyed. -/
structure SurveyedDeclaration where
  identifier : String
  configuration : String
  /-- The variant, if it is not to be read off the configuration name. -/
  variant : Option Variant := none
  deriving DecidableEq, Repr

/-- What is known about one project. -/
structure Survey where
  /-- The path of the project. -/
  project : String := ""
  variants : List Variant := []
  /-- The edges of the graph of each view. -/
  views : OrderedMap String (List (String × String)) := ∅
  declarations : List SurveyedDeclaration := []
  usages : OrderedMap String (List Usage) := ∅
  /-- The sizes of artifacts, by text form or identifier. -/
  sizes : OrderedMap String Nat := ∅
  traces : List (BundleTrace String) := []

instance : Inhabited Survey := ⟨{}⟩

/-- Why a survey describes no module. -/
inductive SurveyError where
  | project (error : InvalidProjectPath)
  | configuration (error : UnknownConfiguration)
  deriving DecidableEq

/-- The wording of the error. -/
def SurveyError.message : SurveyError → String
  | project error => error.message
  | configuration error => error.message

/-- The declaration in a build with some variants. -/
def SurveyedDeclaration.declaration (variants : List Variant) (d : SurveyedDeclaration) :
    Except UnknownConfiguration Declaration :=
  match d.variant with
  | some variant => Declaration.ofVariant d.identifier d.configuration variant
  | none => Declaration.infer d.identifier d.configuration variants

namespace Survey

/-- The coordinates of the project. -/
def projectCoordinates (s : Survey) : Except InvalidProjectPath Coordinates :=
  Coordinates.project s.project

/-- The variants of the project; `main` alone if none are given. -/
def knownVariants (s : Survey) : List Variant := Variant.orMain s.variants

/-- The graph of each view. The project is a node of each, and the first. -/
def graphs (s : Survey) : OrderedMap String Graph :=
  s.views.mapValues fun _ edges => .ofTexts (some s.project) [] edges

/-- The declarations with their variants and buckets. -/
def locatedDeclarations (s : Survey) : Except UnknownConfiguration (List Declaration) :=
  s.declarations.mapM (·.declaration s.knownVariants)

/-- Every usage that was observed, with its dependency. -/
def observed (s : Survey) : List (Coordinates × Usage) :=
  s.usages.entries.flatMap fun (raw, usages) => usages.map (Coordinates.parse raw, ·)

/-- The usages of each dependency, one at least for each variant. -/
def completeUsages (s : Survey) : UsageMap :=
  let start := Observations.ofVariants s.knownVariants
  (s.observed.foldl (fun seen (c, usage) => seen.add c usage) start).complete

/-- The module that the survey describes. -/
def toModule (s : Survey) : Except SurveyError ProjectModule := do
  let project ← s.projectCoordinates.mapError .project
  let declarations ← s.locatedDeclarations.mapError .configuration
  return { project, variants := s.knownVariants, declarations, usages := s.completeUsages }

/-- The traces of bundles between coordinates. -/
def bundleTraces (s : Survey) : List (BundleTrace Coordinates) :=
  s.traces.map (·.map Coordinates.parse)

/-- The size of an artifact, by text form first. -/
def sizeOf (s : Survey) (c : Coordinates) : Option Nat :=
  (s.sizes.get? c.gav).or (s.sizes.get? c.identifier)

/-- All dependencies that the survey names: those with usages, those in the graphs and those
that are declared. -/
def named (s : Survey) : List Coordinates :=
  s.usages.keys.map Coordinates.parse ++
  s.views.entries.flatMap (fun (_, edges) =>
    edges.flatMap fun (a, b) => [Coordinates.parse a, Coordinates.parse b]) ++
  s.declarations.map (Coordinates.ofIdentifier ·.identifier)

/-- The first dependency that the survey names with an identifier or text form; if there is none,
what the text itself says. -/
def resolve (s : Survey) (requested : String) : Coordinates :=
  let isMeant (c : Coordinates) : Bool := c.identifier == requested || c.gav == requested
  (s.named.find? isMeant).getD (Coordinates.parse requested)

end Survey

end ClasspathAdvice
