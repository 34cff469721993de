import ClasspathAdvice.Document

/-!
# Tables of TOML

A table remembers how it came to be, for that decides what may be added to it: a table
that was written out takes no further header and no dotted keys from outside, one that
was only passed through by a header may still get one, and one made by dotted keys takes
dotted keys alone. A path that meets a list of tables goes on in the last of them.
-/

namespace ClasspathAdvice.Toml
set_option autoImplicit false

/-- How a table came to be. -/
inductive Origin where
  /-- It was written out, by a header or in braces. -/
  | written
  /-- A header named it on the way to another. -/
  | implied
  /-- A dotted key named it. -/
  | dotted
  deriving DecidableEq, Repr

/-- What stands under a key. -/
inductive Entry where
  | value (d : Document)
  | table (origin : Origin) (entries : List (String × Entry))
  /-- The tables of a list, newest first. -/
  | tables (items : List (List (String × Entry)))

/-- The entries of a table. -/
abbrev Entries : Type := List (String × Entry)

namespace Entries

/-- Changes what stands under a key, or puts something there at the end. -/
def alter (key : String) (change : Option Entry → Option Entry) (entries : Entries) : Option Entries :=
  match entries with
  | [] => (change none).map fun entry => [(key, entry)]
  | (k, entry) :: rest =>
    if k = key then (change (some entry)).map fun entry => (k, entry) :: rest
    else (alter key change rest).map ((k, entry) :: ·)

/-- Changes the table at the end of a path, which belongs to a dotted key or to a header. -/
def alterAt (byKey : Bool) (change : Origin → Entries → Option Entries) :
    List String → Origin → Entries → Option Entries
  | [], origin, entries => change origin entries
  | key :: path, _, entries =>
    entries.alter key fun
      | none =>
        let origin := if byKey then Origin.dotted else .implied
        (alterAt byKey change path origin []).map (.table origin)
      | some (.table origin inner) =>
        if byKey && origin = .written then none
        else (alterAt byKey change path origin inner).map (.table origin)
      | some (.tables (last :: others)) =>
        (alterAt byKey change path .written last).map fun last => .tables (last :: others)
      | some (.tables []) | some (.value _) => none

/-- Adds a value under a dotted key, given as its path and its last part. -/
def insert (path : List String) (key : String) (d : Document) (origin : Origin) (entries : Entries) :
    Option Entries :=
  let add (origin : Origin) (entries : Entries) : Option Entries :=
    if decide (origin = .dotted) = path.isEmpty then none
    else entries.alter key fun
      | none => some (.value d)
      | some _ => none
  alterAt true add path origin entries

/-- Opens the table of a header. -/
def openTable (path : List String) (key : String) (entries : Entries) : Option Entries :=
  alterAt false (fun _ entries => entries.alter key fun
    | none => some (.table .written [])
    | some (.table .implied inner) => some (.table .written inner)
    | some _ => none) path .written entries

/-- Opens a new table in the list of a header. -/
def openItem (path : List String) (key : String) (entries : Entries) : Option Entries :=
  alterAt false (fun _ entries => entries.alter key fun
    | none => some (.tables [[]])
    | some (.tables items) => some (.tables ([] :: items))
    | some _ => none) path .written entries

end Entries

mutual

/-- The document of what stands under a key. -/
def Entry.toDocument : Entry → Document
  | .value d => d
  | .table _ entries => .table (Entries.toFields entries)
  | .tables items => .list (Entries.toTables items).reverse

/-- The fields of a table. -/
def Entries.toFields : List (String × Entry) → List (Document × Document)
  | [] => []
  | (key, entry) :: rest => (.text key, entry.toDocument) :: Entries.toFields rest

/-- The documents of tables. -/
def Entries.toTables : List (List (String × Entry)) → List Document
  | [] => []
  | entries :: rest => .table (Entries.toFields entries) :: Entries.toTables rest

end

/-- The document of a table with these entries. -/
def Entries.toDocument (entries : Entries) : Document := .table (toFields entries)

end ClasspathAdvice.Toml
