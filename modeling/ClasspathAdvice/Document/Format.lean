import ClasspathAdvice.Document.Reading
import ClasspathAdvice.Document.Toml
import ClasspathAdvice.Document.Yaml

/-!
# Formats of documents
-/

namespace ClasspathAdvice
set_option autoImplicit false

/-- A format in which documents are written. -/
inductive Format where
  | yaml
  | toml
  | json
  deriving DecidableEq, Repr

namespace Format

/-- What the format is called. -/
def name : Format → String
  | yaml => "YAML"
  | toml => "TOML"
  | json => "JSON"

/-- The extensions of the names of files in the format. -/
def extensions : Format → List String
  | yaml => ["yml", "yaml"]
  | toml => ["toml"]
  | json => ["json"]

/-- The document that a text holds. -/
def document? : Format → String → Option Document
  | yaml => Yaml.read
  | toml => Toml.read
  | json => Json.read

/-- How values are read from documents of the format. -/
def manner : Format → Manner
  | yaml => .yaml
  | toml => .toml
  | json => .json

/-- Reads a value from a text. -/
def decode {α : Type} (read : Manner → Document → Option α) (f : Format) (text : String) : Option α :=
  (f.document? text).bind (read f.manner)

end Format

end ClasspathAdvice
