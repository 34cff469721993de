import ClasspathAdvice.Document.Scalar
import ClasspathAdvice.Ordered.Map

/-!
# Reading documents as values

Readers for texts, numbers, lists, maps and records. A record is a table with known
fields, each given once at most; other fields are passed over. What else may stand for
a record or for the name of an alternative depends on the format, which `Manner` says.
Unions that are told apart by a field are read from a document whose scalars stand for
themselves (`settled`).
-/

namespace ClasspathAdvice
set_option autoImplicit false

/-- The liberties that a format takes. -/
structure Manner where
  /-- Whether the fields of a record may be given as a list, in their order. -/
  positional : Bool
  /-- Whether a field may be given by its number. -/
  numbered : Bool := false
  /-- Whether items of a list beyond those that are wanted are passed over. -/
  passesOver : Bool := false
  /-- What may stand beside the name of an alternative that holds nothing. -/
  isUnit : Document → Bool

namespace Manner

/-- Records are tables, and alternatives are texts or tags. -/
def yaml : Manner := { positional := false, isUnit := fun _ => false }

/-- Records may be lists, and null may stand beside an alternative. -/
def json : Manner := { positional := true, isUnit := fun d => d matches .null }

/-- Records may be lists, which may be too long, and an empty list or table may stand beside
an alternative. -/
def toml : Manner :=
  { positional := true, passesOver := true, isUnit := fun d => d matches .list [] | .table [] }

/-- The manner of settled documents. -/
def settled : Manner :=
  { positional := true, numbered := true, isUnit := fun d => d matches .null | .table [] }

end Manner

namespace Document

/-- The document below its tags. -/
def untagged : Document → Document
  | tagged _ d => untagged d
  | d => d

/-- Reads a text; a plain scalar is its own text. -/
def toText? (d : Document) : Option String :=
  match d.untagged with
  | text s | plain s => some s
  | _ => none

/-- Reads a truth value. -/
def toBool? (d : Document) : Option Bool :=
  match d.untagged with
  | bool b => some b
  | plain s => Scalar.toBool? s
  | _ => none

/-- Reads a number of 64 bits without sign. -/
def toSize? (d : Document) : Option Nat :=
  let inRange (n : Int) : Option Nat := if 0 ≤ n && n < UInt64.size then some n.toNat else none
  match d.untagged with
  | int n => inRange n
  | plain s => if s.toList.head? == some '-' then none else (Scalar.toInt? s).bind inRange
  | _ => none

/-- Reads what may be absent. -/
def toOption? {α : Type} (read : Document → Option α) (d : Document) : Option (Option α) :=
  match d with
  | null => some none
  | plain s => if s.isEmpty || Scalar.isNull s then some none else (read d).map some
  | _ => (read d).map some

/-- Reads a list. -/
def toList? {α : Type} (read : Document → Option α) (d : Document) : Option (List α) :=
  match d.untagged with
  | list items => items.mapM read
  | plain "" => some []
  | _ => none

/-- Reads a list of two. -/
def toPair? {α β : Type} (m : Manner) (first : Document → Option α) (second : Document → Option β)
    (d : Document) : Option (α × β) :=
  match d.untagged with
  | list (a :: b :: rest) =>
    if rest.isEmpty || m.passesOver then do return (← first a, ← second b) else none
  | _ => none

/-- The entries of a table. -/
def entries? (d : Document) : Option (List (Document × Document)) :=
  match d.untagged with
  | table entries => some entries
  | plain "" => some []
  | _ => none

/-- Reads a map from texts; of two entries with one key the later stays. -/
def toMap? {α : Type} (read : Document → Option α) (d : Document) : Option (OrderedMap String α) := do
  let entries ← (← d.entries?).mapM fun (key, value) => do return (← key.toText?, ← read value)
  return OrderedMap.ofList entries

/-- The place of a field among the names; fields of other names have none. -/
def fieldPlace? (m : Manner) (names : List String) (key : Document) : Option (Option Nat) :=
  match key.untagged with
  | text s | plain s => some (names.idxOf? s)
  | int n =>
    if m.numbered && 0 ≤ n then some (if n.toNat < names.length then some n.toNat else none)
    else none
  | _ => none

/-- Collects the fields of a table in the order of the names. -/
def collectFields (m : Manner) (names : List String) :
    List (Document × Document) → List (Option Document) → Option (List (Option Document))
  | [], found => some found
  | (key, value) :: entries, found => do
    match ← fieldPlace? m names key with
    | none => collectFields m names entries found
    | some i =>
      if (found[i]?.join).isSome then none
      else collectFields m names entries (found.set i (some value))

/-- Reads the fields of a record in the order of the names. -/
def fields? (m : Manner) (names : List String) (d : Document) : Option (List (Option Document)) :=
  match d.untagged with
  | list items =>
    if m.positional && (items.length ≤ names.length || m.passesOver) then
      some ((items.take names.length).map some ++ List.replicate (names.length - items.length) none)
    else none
  | table entries => collectFields m names entries (names.map fun _ => none)
  | plain "" => some (names.map fun _ => none)
  | _ => none

/-- Reads a field that has to be there. -/
def required {α : Type} (read : Document → Option α) (field : Option Document) : Option α :=
  field.bind read

/-- Reads a field that stands for `default` when it is not there. -/
def withDefault {α : Type} (default : α) (read : Document → Option α) : Option Document → Option α
  | none => some default
  | some d => read d

/-- Reads the name of an alternative that holds nothing. -/
def toAlternative? {α : Type} (m : Manner) (ofName : String → Option α) : Document → Option α
  | text s | plain s => ofName s
  | table [(key, value)] => if m.isUnit value then key.toText?.bind ofName else none
  | tagged tag value =>
    match value with
    | plain s => if s.isEmpty || Scalar.isNull s then ofName tag else none
    | _ => none
  | _ => none

mutual

/-- The document with every scalar standing for itself; there is none if a part is
malformed or under a tag of the writer's own. -/
def settled : Document → Option Document
  | plain s =>
    match Scalar.resolve s with
    | malformed => none
    | d => some d
  | tagged _ _ | malformed => none
  | list items => (settledItems items).map list
  | table entries => (settledEntries entries).map table
  | d => some d

@[inherit_doc settled]
def settledItems : List Document → Option (List Document)
  | [] => some []
  | d :: items => do return (← settled d) :: (← settledItems items)

@[inherit_doc settled]
def settledEntries : List (Document × Document) → Option (List (Document × Document))
  | [] => some []
  | (key, value) :: entries => do
    return (← settled key, ← settled value) :: (← settledEntries entries)

end

/-- Splits the document of a union into the name of its alternative, which the field `type` or
the first item holds, and the rest. -/
def alternative? (d : Document) : Option (String × Document) := do
  match ← d.settled with
  | list (name :: items) => return (← name.toText?, list items)
  | table entries =>
    match entries.filter (·.1 == text "type") with
    | [(_, name)] => return (← name.toText?, table (entries.filter (·.1 != text "type")))
    | _ => none
  | _ => none

/-- Whether the rest of a union holds nothing that an alternative without fields would refuse. -/
def holdsNothing : Document → Bool
  | table _ | list [] => true
  | _ => false

end Document

end ClasspathAdvice
