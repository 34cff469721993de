/-!
# Documents

The values that configuration formats write down. Each reader turns text into a
document; what a scalar means may depend on what is wanted of it, so a plain scalar
stays text until then. A part that its format refuses only when it is looked at is
kept as `malformed`.
-/

namespace ClasspathAdvice
set_option autoImplicit false

/-- A value of a configuration file. -/
inductive Document where
  | null
  | bool (value : Bool)
  | int (value : Int)
  /-- A scalar that nothing here is made of, such as a fraction. -/
  | other
  | text (value : String)
  /-- An unquoted scalar whose meaning depends on what is wanted. -/
  | plain (value : String)
  /-- A value under a tag of the writer's own. -/
  | tagged (tag : String) (value : Document)
  | list (items : List Document)
  | table (entries : List (Document × Document))
  /-- A part that is an error as soon as it is looked at. -/
  | malformed
  deriving Repr, Inhabited, BEq

namespace Document

/-- A table whose keys are texts. -/
def object (entries : List (String × Document)) : Document :=
  table (entries.map fun (key, value) => (text key, value))

/-- The document of a natural number. -/
def nat (n : Nat) : Document := int n

/-- The document of a list of texts. -/
def texts (l : List String) : Document := list (l.map text)

end Document

end ClasspathAdvice
