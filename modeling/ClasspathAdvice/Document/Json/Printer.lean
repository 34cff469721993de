import ClasspathAdvice.Document

/-!
# Writing JSON

A document is written without blanks. Only what JSON cannot hold in a string as it is
gets escaped.
-/

namespace ClasspathAdvice.Json
set_option autoImplicit false

/-- A digit from 0 to 15. -/
def hexChar (n : Nat) : Char := Char.ofNat (if n < 10 then '0'.toNat + n else 'a'.toNat + (n - 10))

/-- A character as it stands in a string. -/
def escaped (c : Char) : String :=
  if c = '"' then "\\\""
  else if c = '\\' then "\\\\"
  else if c.toNat < 0x20 then
    "\\u00" ++ String.singleton (hexChar (c.toNat / 16)) ++ String.singleton (hexChar (c.toNat % 16))
  else String.singleton c

/-- A text in quotes. -/
def quoted (s : String) : String :=
  (s.toList.foldl (fun written c => written ++ escaped c) "\"") ++ "\""

mutual

/-- Writes a document behind what is written already. -/
def write (written : String) : Document → String
  | .null | .other | .malformed => written ++ "null"
  | .bool true => written ++ "true"
  | .bool false => written ++ "false"
  | .int n => written ++ toString n
  | .text s | .plain s => written ++ quoted s
  | .tagged _ d => write written d
  | .list items => writeItems (written ++ "[") true items ++ "]"
  | .table entries => writeEntries (written ++ "\x7b") true entries ++ "\x7d"

/-- Writes the items of a list. -/
def writeItems (written : String) (first : Bool) : List Document → String
  | [] => written
  | item :: items =>
    writeItems (write (if first then written else written ++ ",") item) false items

/-- Writes the entries of a table. -/
def writeEntries (written : String) (first : Bool) : List (Document × Document) → String
  | [] => written
  | (key, value) :: entries =>
    let written := write (if first then written else written ++ ",") key
    writeEntries (write (written ++ ":") value) false entries

end

/-- A document as JSON text. -/
def render (d : Document) : String := write "" d

end ClasspathAdvice.Json
