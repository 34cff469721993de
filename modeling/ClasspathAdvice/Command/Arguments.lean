import ClasspathAdvice.Survey.Inquiry

/-!
# Arguments of the command

A line of arguments names a task and the file with the survey. Options may stand before
the name of the task or behind it; one given on both sides counts as it stands behind,
and none may be given twice on one side. A value follows its option as the next word, or
within the same word; a pair of dashes ends the options.
-/

namespace ClasspathAdvice.Command
set_option autoImplicit false

/-- The names of tasks. -/
inductive Verb where
  | advice
  | reason
  | sizeTree
  deriving DecidableEq, Repr

/-- The task with a name. -/
def Verb.ofName? (name : String) : Option Verb :=
  [("advice", advice), ("reason", reason), ("size-tree", sizeTree)].lookup name

/-- Options that have no value. -/
inductive Switch where
  | parallel
  | showFiltered
  | noColor
  | verbose
  | quiet
  deriving DecidableEq, Repr

/-- Options that have a value. -/
inductive Setting where
  | config
  | id
  | capability
  | view
  deriving DecidableEq, Repr

/-- What an option asks for. -/
inductive Choice where
  | switch (s : Switch)
  | setting (s : Setting)
  | version
  | help
  deriving DecidableEq, Repr

/-- Options by their long names, before the name of a task or behind it. -/
def longOptions (verb : Option Verb) : List (String × Choice) :=
  [("config", .setting .config), ("parallel", .switch .parallel),
    ("show-filtered", .switch .showFiltered), ("no-color", .switch .noColor),
    ("verbose", .switch .verbose), ("quiet", .switch .quiet), ("help", .help)] ++
  match verb with
  | none => [("version", .version)]
  | some .advice => []
  | some .reason => [("id", .setting .id), ("capability", .setting .capability)]
  | some .sizeTree => [("view", .setting .view)]

/-- Options by their one-letter names. -/
def shortOptions (verb : Option Verb) : List (Char × Choice) :=
  [('c', .setting .config), ('v', .switch .verbose), ('q', .switch .quiet), ('h', .help)] ++
  if verb.isNone then [('V', .version)] else []

/-- Why arguments ask for no task. -/
inductive Refusal where
  /-- They are wrong. -/
  | usage
  /-- They ask for the version. -/
  | version
  /-- They ask for help. -/
  | help
  deriving DecidableEq, Repr

/-- The options on one side of the name of the task. -/
structure Options where
  switches : List Switch := []
  settings : List (Setting × String) := []

/-- Arguments, as far as they are read. -/
structure Reading where
  verb : Option Verb := none
  /-- The options before the name of the task. -/
  before : Options := {}
  /-- The options behind it. -/
  behind : Options := {}
  input : Option String := none
  /-- The option whose value is to come. -/
  awaiting : Option Setting := none
  /-- Whether a pair of dashes has ended the options. -/
  plainOnly : Bool := false

namespace Reading

/-- The options on the side that is being read. -/
def options (r : Reading) : Options := if r.verb.isNone then r.before else r.behind

/-- Puts other options on that side. -/
def withOptions (r : Reading) (o : Options) : Reading :=
  if r.verb.isNone then { r with before := o } else { r with behind := o }

/-- Takes an option with its value. The path of a file must not be empty. -/
def set (r : Reading) (s : Setting) (value : String) : Except Refusal Reading :=
  let o := r.options
  if (o.settings.lookup s).isSome || (s = .config && value.isEmpty) then .error .usage
  else .ok { r.withOptions { o with settings := (s, value) :: o.settings } with awaiting := none }

/-- Takes an option, with a value from the same word if there is one. -/
def take (r : Reading) (c : Choice) (value : Option String) : Except Refusal Reading :=
  match c, value with
  | .setting s, some value => r.set s value
  | .setting s, none => .ok { r with awaiting := some s }
  | _, some _ => .error .usage
  | .switch s, none =>
    let o := r.options
    if s ∈ o.switches then .error .usage
    else .ok (r.withOptions { o with switches := s :: o.switches })
  | .version, none => .error .version
  | .help, none => .error .help

/-- Takes options by their letters. What follows the letter of an option with a value is the
value, an equals sign before it aside. -/
def takeLetters (r : Reading) : List Char → Except Refusal Reading
  | [] => .ok r
  | c :: rest =>
    match (shortOptions r.verb).lookup c with
    | none => .error .usage
    | some (.setting s) =>
      match rest with
      | [] => r.take (.setting s) none
      | '=' :: value | value => r.take (.setting s) (some (String.ofList value))
    | some choice => do (← r.take choice none).takeLetters rest

/-- Takes an option by its long name, which an equals sign and a value may follow. -/
def takeLong (r : Reading) (word : List Char) : Except Refusal Reading :=
  let name := word.takeWhile (· ≠ '=')
  let value := (word.drop name.length).tail?.map String.ofList
  match (longOptions r.verb).lookup (String.ofList name) with
  | some choice => r.take choice value
  | none => .error .usage

/-- Takes a word that is no option: the name of the task, or the file with the survey. -/
def takePlain (r : Reading) (word : String) : Except Refusal Reading :=
  match r.verb with
  | none =>
    if r.plainOnly then .error .usage
    else match Verb.ofName? word with
      | some verb => .ok { r with verb := some verb }
      | none => .error (if word = "help" then .help else .usage)
  | some _ =>
    if r.input.isSome || word.isEmpty then .error .usage else .ok { r with input := some word }

/-- Takes a word. -/
def step (r : Reading) (word : String) : Except Refusal Reading :=
  if r.plainOnly then
    r.takePlain word
  else match r.awaiting, word.toList with
    | some _, '-' :: _ :: _ => .error .usage
    | some s, _ => r.set s word
    | none, ['-', '-'] => .ok { r with plainOnly := true }
    | none, '-' :: '-' :: rest => r.takeLong rest
    | none, '-' :: c :: rest => r.takeLetters (c :: rest)
    | none, _ => r.takePlain word

end Reading

/-- What is to be done. -/
inductive Task where
  | advice
  | reason (inquiry : Inquiry)
  | sizeTree (view : Option String)
  deriving DecidableEq, Repr

/-- A task, and what it is to be done with. -/
structure Invocation where
  task : Task
  /-- The path of the survey. -/
  input : String
  /-- The path of the settings, if they are not to be looked for. -/
  config : Option String := none
  switches : List Switch := []
  deriving DecidableEq, Repr

/-- The invocation that arguments make once all are read. -/
def Reading.finish (r : Reading) : Except Refusal Invocation := do
  let setting (s : Setting) : Option String := (r.behind.settings ++ r.before.settings).lookup s
  let need {α : Type} (value : Option α) : Except Refusal α :=
    match value with
    | some a => .ok a
    | none => .error .usage
  if r.awaiting.isSome then throw .usage
  let task ← match ← need r.verb with
    | .advice => pure Task.advice
    | .reason => do
      pure (Task.reason { name := ← need (setting .id), capability := setting .capability })
    | .sizeTree => pure (Task.sizeTree (setting .view))
  return {
    task
    input := ← need r.input
    config := setting .config
    switches := r.behind.switches ++ r.before.switches }

/-- The invocation that arguments make. -/
def Invocation.ofArguments (arguments : List String) : Except Refusal Invocation := do
  (← arguments.foldlM Reading.step {}).finish

end ClasspathAdvice.Command
