import ClasspathAdvice.Advice
import ClasspathAdvice.Explanation.BundleTrace
import ClasspathAdvice.Graph.Route
import ClasspathAdvice.Text.Blank
import ClasspathAdvice.Text.Styled
import ClasspathAdvice.Usage

/-!
# Explanations

An explanation answers a question about one dependency: what is advised, or why nothing
is; on which shortest path the dependency comes into each view of the classpath; and the
usages that led to the advice.
-/

namespace ClasspathAdvice
set_option autoImplicit false

open Text

/-- Why there is no explanation. -/
inductive ExplanationError where
  /-- The advice neither adds, removes nor changes a declaration. -/
  | unknownAdvice (advice : String)
  /-- There are bundle traces, and none involves the dependency. -/
  | missingBundleTrace (target available : String)
  /-- The trace of a dependency to be added does not name a primary dependency. -/
  | unexpectedBundleTrace (target : String)
  | graph (error : GraphError)
  deriving DecidableEq

/-- The wording of the error. -/
def ExplanationError.message : ExplanationError → String
  | unknownAdvice advice => "unknown advice type: " ++ advice
  | missingBundleTrace target available =>
    "no bundle trace involves '" ++ target ++ "' (available: " ++ available ++ ")"
  | unexpectedBundleTrace target =>
    "expected a primary map bundle trace for added dependency '" ++ target ++ "'"
  | graph error => error.message

/-- A question about one dependency and all that its answer draws on. -/
structure Question where
  project : Coordinates
  /-- What was asked about. -/
  requested : Coordinates
  /-- The dependency that is meant. -/
  target : Coordinates
  capability : Option String := none
  usages : List Usage := []
  advice : Option Advice := none
  /-- The graph of each view of the classpath. -/
  views : OrderedMap String Graph := ∅
  traces : List (BundleTrace Coordinates) := []
  wasFiltered : Bool := false
  aliases : OrderedMap String String := ∅

namespace Question

/-- A line across the page. -/
def rule : String := "------------------------------------------------------------"

/-- The text form of a dependency, with its alias if it has one that is not blank. -/
def display (q : Question) (c : Coordinates) : String :=
  let found := (q.aliases.get? c.gav).or (q.aliases.get? c.identifier)
  match found.filter (!allBlank ·) with
  | some shown => c.gav ++ " (" ++ shown ++ ")"
  | none => c.gav

/-- The question itself. -/
def sentence (q : Question) : String :=
  "You asked about the dependency '" ++ q.display q.requested ++ "'" ++
    (match q.capability.filter (!allBlank ·) with
      | some capability => ", with the capability '" ++ capability ++ "'"
      | none => "") ++ "."

/-- The first trace that involves the dependency. -/
def trace? (q : Question) : Option (BundleTrace Coordinates) := q.traces.find? (·.involves q.target)

/-- The word that stands for bundle rules. -/
def bundle : Span := Style.bold.span "bundle"

/-- How a bundle rule made advice unnecessary: for which dependency, and what it is. -/
def suppression (t : BundleTrace Coordinates) : Coordinates × String :=
  match t.rule with
  | .declaredParent => (t.top, "which is already declared")
  | .usedChild => (t.bottom, "which is declared and used")
  | .primaryMap => (t.top, "which is already present in the dependency graph")

/-- Why there is no advice. -/
def noAdvice (q : Question) : Except ExplanationError (List StyledText) :=
  let opening := [plain "There is no advice regarding this dependency."]
  if q.traces.isEmpty then
    if q.wasFiltered then
      .ok [opening, [plain "It was removed because it matched an ", Style.bold.span "exclude",
        plain " rule."]]
    else .ok [opening]
  else match q.trace? with
    | some t =>
      let (subject, clause) := suppression t
      .ok [opening, [plain "It was removed because it matched a ", bundle, plain " rule for ",
        Style.bold.span (q.display subject), plain (", " ++ clause ++ ".")]]
    | none =>
      .error (.missingBundleTrace q.target.gav
        (joined ", " (q.traces.map fun t => t.top.gav ++ " -> " ++ t.bottom.gav)))

/-- The advice to declare the dependency. -/
def additionLines (q : Question) (target : String) : Except ExplanationError (List StyledText) :=
  let opening := [plain "You have been advised to add this dependency to '",
    Style.green.span target, plain "'."]
  match q.trace? with
  | none => .ok [opening]
  | some t =>
    if t.rule = .primaryMap then
      .ok [opening, [plain "It matched a ", bundle, plain " rule: ",
        Style.bold.span (q.display t.top), plain " was substituted for ",
        Style.bold.span (q.display t.bottom), plain "."]]
    else .error (.unexpectedBundleTrace q.target.gav)

/-- The advice in words. -/
def givenAdvice (q : Question) (a : Advice) : Except ExplanationError (List StyledText) :=
  match a.source, a.target with
  | none, some target => q.additionLines target
  | some source, none =>
    if a.isRemove || a.isProcessor then
      .ok [[plain "You have been advised to remove this dependency from '", Style.red.span source,
        plain "'."]]
    else .error (.unknownAdvice a.text)
  | some source, some target =>
    if a.isChange || a.isRuntimeOnly || a.isCompileOnly then
      .ok [[plain "You have been advised to change this dependency to '", Style.green.span target,
        plain "' from '", Style.yellow.span source, plain "'."]]
    else .error (.unknownAdvice a.text)
  | none, none => .error (.unknownAdvice a.text)

/-- The advice, or why there is none. -/
def adviceLines (q : Question) : Except ExplanationError (List StyledText) :=
  match q.advice with
  | some a => q.givenAdvice a
  | none => q.noAdvice

/-- Whether a node is the dependency that is meant: it selects the same variant, or no
capability is asked for and the node has its default one. -/
def isTarget (q : Question) (c : Coordinates) : Bool :=
  c.identifier == q.target.identifier &&
    (decide (c.identification = q.target.identification) ||
      (q.target.capabilities.isEmpty && c.hasDefaultCapability))

/-- The capabilities of a node other than its default one, without the identifier they start
with. -/
def capabilitySuffix (c : Coordinates) : String :=
  let own := (c.identifier ++ "-").toList
  let shown := (c.capabilities.toList.filter (· != c.identifier)).map fun capability =>
    if own.isPrefixOf capability.toList then String.ofList (capability.toList.drop own.length)
    else capability
  if shown.isEmpty then "" else " (capabilities: [" ++ joined ", " shown ++ "])"

/-- A number of blanks. -/
def blanks (n : Nat) : String := String.ofList (List.replicate n ' ')

/-- The line of a node on a path, further in by its depth. -/
def hop (depth : Nat) (c : Coordinates) : StyledText :=
  [plain (blanks (6 * depth) ++ "\\--- " ++ c.gav ++ capabilitySuffix c)]

/-- What the project is called. -/
def projectName (q : Question) : String :=
  if q.project.gav = ":" then "root project" else q.project.gav

/-- The path to the dependency in a view; it is empty if there is none. -/
def path (q : Question) (g : Graph) : Except ExplanationError (List Coordinates) :=
  if g.contains q.project.identifier then
    match g.nodes.find? q.isTarget with
    | some target => (g.route q.project.identifier target.identifier).mapError .graph
    | none => .ok []
  else .error (.graph (.missingNode q.project.identifier))

/-- The lines on a path, or on there being none. -/
def pathLines (q : Question) (view : String) : List Coordinates → List StyledText
  | [] =>
    [[], [Style.bold.span ("There is no path from " ++ q.projectName ++ " to " ++
      q.display q.target ++ " for " ++ view)]]
  | _ :: hops =>
    [[], [Style.bold.span ("Shortest path from " ++ q.projectName ++ " to " ++
      q.display q.requested ++ " for " ++ view ++ ":")], [plain q.project.gav]] ++
    hops.zipIdx.map fun (c, depth) => hop depth c

/-- The lines on a view. Every view has to hold the project. -/
def viewLines (q : Question) (view : String) (g : Graph) : Except ExplanationError (List StyledText) :=
  (q.path g).map (q.pathLines view)

/-- The lines on a usage: a line for each reason that is no marker. -/
def usageLines (u : Usage) : List StyledText :=
  let source := "Source: " ++ u.variant.name
  let reasons := u.reasons.filter (!·.isMarker)
  let isCompileOnly := reasons.any Reason.isCompileTimeAnnotations
  [[], [Style.bold.span source],
    [Style.bold.span (String.ofList (List.replicate source.utf8ByteSize '-'))]] ++
  if reasons.isEmpty then [[plain "(no usages)"]]
  else reasons.map fun r => [plain ("* " ++ r.describe u.variant isCompileOnly)]

/-- The lines on all usages, or on there being none. -/
def usagesLines (usages : List Usage) : List StyledText :=
  if usages.isEmpty then
    [[], [plain "No compile-time usages detected for this runtime-only dependency."]]
  else usages.flatMap usageLines

/-- The answer to a question. -/
def explain (q : Question) : Except ExplanationError StyledText := do
  let advice ← q.adviceLines
  let views ← q.views.entries.mapM fun (view, g) => q.viewLines view g
  return unlines <|
    [[], [Style.bold.span rule], [Style.bold.span q.sentence]] ++ advice ++
      [[Style.bold.span rule]] ++ views.flatten ++ usagesLines q.usages

end Question

end ClasspathAdvice
