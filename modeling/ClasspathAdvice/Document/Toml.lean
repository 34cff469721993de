import ClasspathAdvice.Document.Toml.Moment
import ClasspathAdvice.Document.Toml.Number
import ClasspathAdvice.Document.Toml.Table
import ClasspathAdvice.Document.Toml.Text

/-!
# TOML

A text is a list of lines: headers of tables, headers of tables in lists, and values
under keys. Each value goes into the table of the header before it.
-/

namespace ClasspathAdvice.Toml
set_option autoImplicit false

/-- A line that is not empty. -/
inductive Line where
  | table (path : List String)
  | item (path : List String)
  | entry (path : List String) (value : Document)

/-- Passes over blanks, line breaks and comments. -/
def skipGaps : List Char → List Char
  | [] => []
  | c :: rest =>
    if isBlank c || c = '\n' then skipGaps rest
    else if c = '#' then skipComment rest
    else c :: rest
where
  /-- Passes over the rest of a comment and what follows it. -/
  skipComment : List Char → List Char
  | [] => []
  | c :: rest => if c = '\n' then skipGaps rest else skipComment rest

/-- Whether a character may stand in a number, a truth value or a moment. -/
def isWordChar (c : Char) : Bool := c.isAlphanum || ['+', '-', '.', '_', ':'].contains c

/-- Adds a value to a table under a whole key. -/
def insertAt (key : List String) (d : Document) (origin : Origin) (entries : Entries) : Option Entries :=
  key.getLast?.bind fun last => entries.insert key.dropLast last d origin

mutual

/-- Reads a value within `depth` arrays and tables. -/
def value : Nat → Nat → List Char → Option (Document × List Char)
  | 0, _, _ => none
  | steps + 1, depth, s =>
    match s with
    | [] => none
    | c :: rest =>
      if c = '"' || c = '\'' then (string s).map fun (text, rest) => (.text text, rest)
      else if c = '[' then
        if depth + 1 < depthLimit then arrayItems steps (depth + 1) [] (skipGaps rest) else none
      else if c = '\x7b' then
        if depth + 1 < depthLimit then
          match skipBlanks rest with
          | '\x7d' :: rest => some (.table [], rest)
          | rest => braceEntries steps (depth + 1) [] rest
        else none
      else match moment s with
        | some (text, rest) => some (momentDocument text, rest)
        | none =>
          let word := s.takeWhile isWordChar
          (wordDocument? word).map (·, s.drop word.length)

/-- Reads the items of an array after those read already, which are in reverse. -/
def arrayItems : Nat → Nat → List Document → List Char → Option (Document × List Char)
  | 0, _, _, _ => none
  | steps + 1, depth, items, s =>
    match s with
    | ']' :: rest => some (.list items.reverse, rest)
    | _ => do
      let (d, rest) ← value steps depth s
      match skipGaps rest with
      | ',' :: rest => arrayItems steps depth (d :: items) (skipGaps rest)
      | ']' :: rest => return (.list (d :: items).reverse, rest)
      | _ => none

/-- Reads the entries of a table in braces after those read already. -/
def braceEntries : Nat → Nat → Entries → List Char → Option (Document × List Char)
  | 0, _, _, _ => none
  | steps + 1, depth, entries, s => do
    let (name, rest) ← key (skipBlanks s)
    let (d, rest) ← value steps depth (skipBlanks (← expect '=' rest))
    let entries ← insertAt name d .written entries
    match skipBlanks rest with
    | ',' :: rest => braceEntries steps depth entries rest
    | '\x7d' :: rest => return (entries.toDocument, rest)
    | _ => none

end

/-- Reads a line behind its blanks. -/
def line : List Char → Option (Line × List Char)
  | '[' :: '[' :: rest => do
    let (name, rest) ← key (skipBlanks rest)
    return (.item name, ← expect ']' (← expect ']' rest))
  | '[' :: rest => do
    let (name, rest) ← key (skipBlanks rest)
    return (.table name, ← expect ']' rest)
  | s => do
    let (name, rest) ← key s
    let rest := skipBlanks (← expect '=' rest)
    let (d, rest) ← value (2 * rest.length + 2) 0 rest
    return (.entry name d, rest)

/-- Whether a text has nothing more on its line. -/
def atEnd (s : List Char) : Bool := (skipBlanks s).head?.all fun c => c = '\n' || c = '#'

/-- Reads the lines of a text, each of which takes a character at least. -/
def lines : Nat → List Line → List Char → Option (List Line)
  | 0, _, _ => none
  | steps + 1, read, s =>
    match skipGaps s with
    | [] => some read.reverse
    | s => do
      let (l, rest) ← line s
      if atEnd rest then lines steps (l :: read) rest else none

/-- A document while it is put together: all tables, and the path of the last header. -/
structure Draft where
  root : Entries := []
  header : List String := []

/-- Takes a line. -/
def Draft.add (draft : Draft) : Line → Option Draft
  | .table path => do
    return { root := ← draft.root.openTable path.dropLast (← path.getLast?), header := path }
  | .item path => do
    return { root := ← draft.root.openItem path.dropLast (← path.getLast?), header := path }
  | .entry key d => do
    let root ← Entries.alterAt false (fun _ => insertAt key d .written) draft.header .written draft.root
    return { draft with root }

/-- The document that a TOML text holds. A mark of the byte order may come first. -/
def read (text : String) : Option Document := do
  let s := match uniform text.toList with
    | '\ufeff' :: rest => rest
    | s => s
  if s.all isAdmitted then
    let draft ← (← lines (s.length + 1) [] s).foldlM Draft.add {}
    return draft.root.toDocument
  else none

end ClasspathAdvice.Toml
