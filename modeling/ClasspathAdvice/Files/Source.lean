import ClasspathAdvice.Document.Format
import ClasspathAdvice.Exchange.Settings
import ClasspathAdvice.Exchange.Survey
import ClasspathAdvice.Files.Folder

/-!
# Values kept in files

The extension of a file's name says in which format it is. A file of another name is
tried in some formats in turn.
-/

namespace ClasspathAdvice
set_option autoImplicit false

/-- Why a value could not be loaded. -/
inductive LoadError where
  | unreadable (noun path : String)
  /-- The text is not in the format of the file's name, or in any format if its name has none. -/
  | malformed (noun : String) (format : Option Format)
  deriving DecidableEq

/-- The wording of the error. -/
def LoadError.message : LoadError → String
  | unreadable noun path => "Failed to read " ++ noun ++ " file: " ++ path
  | malformed noun (some format) => "Failed to parse " ++ format.name ++ " " ++ noun
  | malformed noun none => "Failed to parse " ++ noun ++ " file"

/-- How values of a kind are kept in files. -/
structure Source (α : Type) where
  /-- What such a file is called. -/
  noun : String
  /-- The formats that the extension of a name may ask for. -/
  formats : List Format
  /-- The formats that are tried if the extension asks for none. -/
  guesses : List Format
  read : Manner → Document → Option α

namespace Source

variable {α : Type}

/-- The format that the name of a file asks for. -/
def format? (s : Source α) (path : String) : Option Format :=
  (Path.extension? path).bind fun extension => s.formats.find? (·.extensions.contains extension)

/-- The value that a text holds. -/
def decode (s : Source α) (format : Option Format) (text : String) : Except LoadError α :=
  let candidates := match format with
    | some format => [format]
    | none => s.guesses
  match candidates.findSome? (·.decode s.read text) with
  | some value => .ok value
  | none => .error (.malformed s.noun format)

/-- The value in the file at the end of a path. -/
def load (s : Source α) (folder : Folder) (path : String) : Except LoadError α :=
  match folder.read path with
  | some text => s.decode (s.format? path) text
  | none => .error (.unreadable s.noun path)

end Source

/-- Surveys in files. -/
def Survey.source : Source Survey :=
  { noun := "input", formats := [.yaml, .toml, .json], guesses := [.yaml, .json],
    read := Survey.ofDocument? }

namespace Settings

/-- Settings in files. -/
def source : Source Settings :=
  { noun := "config", formats := [.yaml, .toml], guesses := [.yaml, .toml],
    read := Settings.ofDocument? }

/-- The names under which settings are looked for, in that order. -/
def defaultNames : List String :=
  [".depadvice.yml", ".depadvice.yaml", ".depadvice.toml", "depadvice.yml", "depadvice.yaml",
    "depadvice.toml"]

/-- The settings in a directory, under the first default name that leads to anything. -/
def loadFrom (folder : Folder) (directory : String) : Except LoadError Settings :=
  match (defaultNames.map (Path.within directory)).find? folder.holds with
  | some path => source.load folder path
  | none => .ok {}

end Settings

end ClasspathAdvice
