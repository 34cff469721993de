import ClasspathAdvice.Advice.Report
import ClasspathAdvice.Command.Arguments
import ClasspathAdvice.Files.Source
import ClasspathAdvice.Footprint.Drawing
import ClasspathAdvice.Graph.DominatorMemo

/-!
# The command

A task loads settings and a survey, and prints advice, an explanation or the footprints
of views. What was printed before an error stays.
-/

namespace ClasspathAdvice.Command
set_option autoImplicit false

open Text

/-- Why a task failed. -/
inductive CommandError where
  | load (error : LoadError)
  | inquiry (error : InquiryError)
  | unknownView (view : String) (available : List String)
  | dominators (view : String) (error : GraphError)

/-- The wording of the error. -/
def CommandError.message : CommandError → String
  | load error => error.message
  | inquiry (.survey error) => "Invalid analysis input: " ++ error.message
  | inquiry (.advice error) => "Failed to compute advice: " ++ error.message
  | inquiry (.explanation error) => "Failed to explain: " ++ error.message
  | unknownView view available =>
    "No classpath view named '" ++ view ++ "' (available: " ++ joined ", " available ++ ")"
  | dominators view error =>
    "Failed to compute dominance tree for " ++ view ++ ": " ++ error.message

/-- What a task printed, and why it ended early if it did. -/
structure Outcome where
  printed : String
  error : Option CommandError := none

/-- The exit code. -/
def Outcome.exitCode (o : Outcome) : Nat := if o.error.isSome then 1 else 0

/-- The outcome of printing a text, or of failing to make one. -/
def Outcome.ofText {ε : Type} (colors : Bool) (cause : ε → CommandError) :
    Except ε StyledText → Outcome
  | .ok text => { printed := text.render colors }
  | .error e => { printed := "", error := some (cause e) }

/-- The footprints of views, drawn each on its own, up to the first view that has none. -/
def drawViews (s : Survey) : List (String × Graph) → DominatorMemo →
    List (String × String) × Option CommandError
  | [], _ => ([], none)
  | (view, g) :: rest, memo =>
    match memo.getOrCompute g s.project with
    | (.error e, _) => ([], some (.dominators view e))
    | (.ok tree, memo) =>
      let footprint := Footprint.ofDominatorTree tree s.sizeOf Footprint.bySizeDescending
      let (drawn, error) := drawViews s rest memo
      ((view, footprint.draw none) :: drawn, error)

/-- Prints the footprints of views. Several have headings, and an empty line between. -/
def printViews (s : Survey) (colors : Bool) (views : List (String × Graph)) : Outcome :=
  let (drawn, error) := drawViews s views ∅
  let heading (view : String) : String :=
    if views.length > 1 then (unlines [[Style.bold.span (view ++ ":")]]).render colors else ""
  { printed := joined "\n" (drawn.map fun (view, drawing) => heading view ++ drawing), error }

/-- Prints the footprint of one view, or of all. -/
def printSizes (s : Survey) (colors : Bool) : Option String → Outcome
  | none => printViews s colors s.graphs.entries
  | some view =>
    match s.graphs.get? view with
    | some g => printViews s colors [(view, g)]
    | none => { printed := "", error := some (.unknownView view s.graphs.keys) }

namespace Invocation

/-- The settings, with what the switches add to them. -/
def settings (i : Invocation) (folder : Folder) : Except LoadError Settings := do
  let s ← match i.config with
    | some path => Settings.source.load folder path
    | none => Settings.loadFrom folder (Path.directory i.input)
  return { s with
    parallel := s.parallel || .parallel ∈ i.switches
    showFiltered := s.showFiltered || .showFiltered ∈ i.switches
    colors := s.colors && .noColor ∉ i.switches }

/-- Carries out the task on a survey. -/
def perform (i : Invocation) (settings : Settings) (s : Survey) (colors : Bool) : Outcome :=
  match i.task with
  | .advice =>
    .ofText colors .inquiry
      ((s.analyze settings).map fun (_, advice) => Report.text settings.showFiltered advice)
  | .reason inquiry => .ofText colors .inquiry (s.explain settings inquiry)
  | .sizeTree view => printSizes s colors view

/-- Carries out the task. Styles need both the settings and the place that is printed to. -/
def run (i : Invocation) (folder : Folder) (styled : Bool) : Outcome :=
  let loaded := do return (← i.settings folder, ← Survey.source.load folder i.input)
  match loaded with
  | .error e => { printed := "", error := some (.load e) }
  | .ok (settings, s) => i.perform settings s (settings.colors && styled)

/-- The paths that the task may look at. -/
def paths (i : Invocation) : List String :=
  i.input :: match i.config with
    | some path => [path]
    | none => Settings.defaultNames.map (Path.within (Path.directory i.input))

end Invocation

/-- What the command prints when asked for its version. -/
def version : String := "depadvice 0.4.0\n"

/-- What the command prints when asked for help. -/
def help : String :=
  "Usage: depadvice [OPTIONS] advice <INPUT>\n" ++
  "       depadvice [OPTIONS] reason <INPUT> --id <ID> [--capability <CAPABILITY>]\n" ++
  "       depadvice [OPTIONS] size-tree <INPUT> [--view <VIEW>]\n\n" ++
  "Options:\n" ++
  "  -c, --config <CONFIG>  Path to configuration file\n" ++
  "      --parallel         Analyze dependencies in parallel\n" ++
  "      --show-filtered    List advice removed by exclude rules\n" ++
  "      --no-color         Disable colored output\n" ++
  "  -v, --verbose          Verbose output\n" ++
  "  -q, --quiet            Quiet mode - only output results\n" ++
  "  -h, --help             Print help\n" ++
  "  -V, --version          Print version\n"

namespace Refusal

/-- The exit code of arguments that ask for no task. -/
def exitCode : Refusal → Nat
  | usage => 2
  | version | help => 0

/-- What is printed for arguments that ask for no task. -/
def printed : Refusal → String
  | usage => ""
  | version => Command.version
  | help => Command.help

end Refusal

/-- Runs the command: the exit code, and what is printed. -/
def run (arguments : List String) (folder : Folder) (styled : Bool) : Nat × String :=
  match Invocation.ofArguments arguments with
  | .error refusal => (refusal.exitCode, refusal.printed)
  | .ok i =>
    let outcome := i.run folder styled
    (outcome.exitCode, outcome.printed)

end ClasspathAdvice.Command
