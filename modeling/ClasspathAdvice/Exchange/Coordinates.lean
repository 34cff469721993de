import ClasspathAdvice.Document.Reading
import ClasspathAdvice.Explanation.BundleTrace

/-!
# Coordinates and bundle traces as documents
-/

namespace ClasspathAdvice
set_option autoImplicit false

/-- A map of texts as a document. -/
def OrderedMap.toDocument {α : Type} (write : α → Document) (m : OrderedMap String α) : Document :=
  .object (m.entries.map fun (key, value) => (key, write value))

namespace CoordinatesKind

/-- The kinds and their names in documents. -/
def names : List (CoordinatesKind × String) :=
  [(project, "project"), (library, "module"), (includedBuild, "included_build"), (flat, "flat")]

/-- The kind with a name. -/
def ofName? (name : String) : Option CoordinatesKind :=
  (names.find? (·.2 == name)).map Prod.fst

/-- The name of a kind in documents. -/
def name (k : CoordinatesKind) : String := (names.lookup k).getD ""

end CoordinatesKind

namespace VariantIdentification

/-- Reads a variant identification; each part may be left out. -/
def ofDocument? (m : Manner) (d : Document) : Option VariantIdentification := do
  match ← d.fields? m ["capabilities", "attributes"] with
  | [capabilities, attributes] =>
    return {
      capabilities :=
        OrderedSet.ofList (← Document.withDefault [] (Document.toList? Document.toText?) capabilities)
      attributes := ← Document.withDefault ∅ (Document.toMap? Document.toText?) attributes }
  | _ => none

/-- Writes a variant identification. -/
def toDocument (v : VariantIdentification) : Document :=
  .object [("capabilities", .texts v.capabilities.toList), ("attributes", v.attributes.toDocument .text)]

end VariantIdentification

namespace Coordinates

/-- Reads coordinates. -/
def ofDocument? (m : Manner) (d : Document) : Option Coordinates := do
  match ← d.fields? m ["kind", "identifier", "version", "variant_identification"] with
  | [kind, identifier, version, identification] =>
    return {
      kind := ← Document.required (Document.toAlternative? m CoordinatesKind.ofName?) kind
      identifier := ← Document.required Document.toText? identifier
      version := ← Document.withDefault none (Document.toOption? Document.toText?) version
      identification :=
        ← Document.withDefault {} (VariantIdentification.ofDocument? m) identification }
  | _ => none

/-- Writes coordinates; what is absent or empty is left out. -/
def toDocument (c : Coordinates) : Document :=
  .object <|
    [("kind", .text c.kind.name), ("identifier", .text c.identifier)] ++
    (c.version.map fun version => ("version", Document.text version)).toList ++
    (if c.identification.isEmpty then []
      else [("variant_identification", c.identification.toDocument)])

end Coordinates

namespace BundleTrace

/-- The rules, their names in documents and the names of the fields for the two dependencies. -/
def rules : List (BundleRule × String × String × String) :=
  [(.declaredParent, "declared_parent", "parent", "child"),
    (.usedChild, "used_child", "parent", "child"),
    (.primaryMap, "primary_map", "primary", "subordinate")]

/-- Reads a trace. -/
def ofDocument? {α : Type} (read : Document → Option α) (d : Document) : Option (BundleTrace α) := do
  let (name, rest) ← d.alternative?
  let (rule, _, top, bottom) ← rules.find? (·.2.1 == name)
  match ← rest.fields? .settled [top, bottom] with
  | [top, bottom] =>
    return { rule, top := ← Document.required read top, bottom := ← Document.required read bottom }
  | _ => none

/-- Writes a trace. -/
def toDocument {α : Type} (write : α → Document) (t : BundleTrace α) : Document :=
  match rules.lookup t.rule with
  | some (name, top, bottom) =>
    .object [("type", .text name), (top, write t.top), (bottom, write t.bottom)]
  | none => .null

end BundleTrace

end ClasspathAdvice
