import ClasspathAdvice.Ordered.Map
import ClasspathAdvice.Text.Split

/-!
# Coordinates of a dependency

Coordinates name a project (`:app`), a library (`group:name:version`), an included
build or a flat file. Versions and variant identifications of one dependency share
its identifier. `gav` is the text form, and `parse` reads any text back as
coordinates whose text form it is. The order goes by kind, identifier, version
(absent first), capabilities and attributes, and only equal coordinates tie.
-/

namespace ClasspathAdvice
set_option autoImplicit false

/-- What coordinates can name. -/
inductive CoordinatesKind where
  | project
  | library
  | includedBuild
  | flat
  deriving DecidableEq, Repr, Inhabited

namespace CoordinatesKind

/-- The place of a kind in the order of coordinates. -/
def rank : CoordinatesKind → Nat
  | project => 0
  | library => 1
  | includedBuild => 2
  | flat => 3

theorem rank_inj {a b : CoordinatesKind} (h : a.rank = b.rank) : a = b := by
  revert h; cases a <;> cases b <;> decide

/-- The kind in words. -/
def displayName : CoordinatesKind → String
  | project => "project"
  | library => "module"
  | includedBuild => "included build"
  | flat => "flat"

end CoordinatesKind

/-- Capabilities and attributes that select one variant of a component. -/
structure VariantIdentification where
  capabilities : OrderedSet String := ∅
  attributes : OrderedMap String String := ∅
  deriving DecidableEq

namespace VariantIdentification

instance : Inhabited VariantIdentification := ⟨{}⟩

/-- Whether nothing is selected. -/
def isEmpty (v : VariantIdentification) : Bool := v.capabilities.isEmpty && v.attributes.isEmpty

/-- The selection of a single capability. -/
def ofCapability (capability : String) : VariantIdentification :=
  { capabilities := OrderedSet.ofList [capability] }

end VariantIdentification

/-- The identity of a dependency. -/
structure Coordinates where
  kind : CoordinatesKind
  identifier : String
  version : Option String := none
  identification : VariantIdentification := {}
  deriving DecidableEq

/-- A path was asked to be a project's and does not start with a colon. -/
structure InvalidProjectPath where
  path : String
  deriving DecidableEq

/-- The wording of the error. -/
def InvalidProjectPath.message (e : InvalidProjectPath) : String :=
  "project path '" ++ e.path ++ "' must start with ':'"

namespace Coordinates

instance : Inhabited Coordinates := ⟨{ kind := .flat, identifier := "" }⟩

/-- Coordinates of a project; its path starts with a colon. -/
def project (path : String) : Except InvalidProjectPath Coordinates :=
  if path.toList.head? = some ':' then .ok { kind := .project, identifier := path }
  else .error ⟨path⟩

/-- Coordinates of a library in a version. -/
def library (identifier version : String) : Coordinates :=
  { kind := .library, identifier, version := some version }

/-- Coordinates of an included build. -/
def includedBuild (identifier : String) : Coordinates := { kind := .includedBuild, identifier }

/-- Coordinates of a flat file. -/
def flat (identifier : String) : Coordinates := { kind := .flat, identifier }

/-- Reads a text: a leading colon makes a project, three parts that are not empty make
a library with a version, and all else is a flat file. -/
def parse (raw : String) : Coordinates :=
  if raw.toList.head? = some ':' then { kind := .project, identifier := raw }
  else match Text.splitAt ':' raw.toList with
    | [group, name, version] =>
      if group.isEmpty || name.isEmpty || version.isEmpty then flat raw
      else library (String.ofList (group ++ ':' :: name)) (String.ofList version)
    | _ => flat raw

/-- Reads an identifier that carries no version: with a colon in it, it names a project
or a library. -/
def ofIdentifier (identifier : String) : Coordinates :=
  if identifier.toList.head? = some ':' then { kind := .project, identifier }
  else if identifier.toList.contains ':' then { kind := .library, identifier }
  else flat identifier

/-- The text form: the identifier, and the version if there is one. -/
def gav (c : Coordinates) : String :=
  match c.version with
  | some version => c.identifier ++ ":" ++ version
  | none => c.identifier

/-- A text is the text form of the coordinates that it is read as. -/
@[simp] theorem gav_parse (raw : String) : (parse raw).gav = raw := by
  rw [parse]
  split
  · rfl
  · split
    · rename_i group name version parts
      split
      · rfl
      · have whole : group ++ ':' :: (name ++ ':' :: version) = raw.toList := by
          rw [← Text.joinWith_splitAt ':' raw.toList, parts]
          rfl
        apply String.toList_inj.1
        rw [← whole, gav, library]
        simp
    · rfl

/-- The text form begins with the identifier. -/
theorem identifier_isPrefix_gav (c : Coordinates) : c.identifier.toList <+: c.gav.toList := by
  rw [gav]
  split
  · rw [String.toList_append, String.toList_append, List.append_assoc]
    exact List.prefix_append _ _
  · exact List.prefix_rfl

/-- Whether a project is named. -/
def isProject (c : Coordinates) : Bool := c.kind == .project

/-- The selected capabilities. -/
def capabilities (c : Coordinates) : OrderedSet String := c.identification.capabilities

/-- The end of a path from its last colon on; the whole path if it has none. -/
def lastSegment (path : List Char) : List Char :=
  let reversed := path.reverse
  (reversed.takeWhile (· ≠ ':') ++ (reversed.dropWhile (· ≠ ':')).take 1).reverse

/-- Whether a capability is one that the component has when it declares none. -/
def isDefaultCapability (c : Coordinates) (capability : String) : Bool :=
  match c.kind with
  | .project => (lastSegment c.identifier.toList).isSuffixOf capability.toList
  | _ => capability == c.identifier

/-- Whether the default capability is selected, by name or by selecting none. -/
def hasDefaultCapability (c : Coordinates) : Bool :=
  c.capabilities.isEmpty || c.capabilities.toList.any c.isDefaultCapability

/-- The coordinates without their default capabilities. If no capability is left, the
whole variant identification goes. -/
def withoutDefaultCapability (c : Coordinates) : Coordinates :=
  let rest := c.capabilities.filter (fun x => !c.isDefaultCapability x)
  if rest.isEmpty then { c with identification := {} }
  else { c with identification := { c.identification with capabilities := rest } }

@[simp] theorem identifier_withoutDefaultCapability (c : Coordinates) :
    c.withoutDefaultCapability.identifier = c.identifier := by
  rw [withoutDefaultCapability]
  split <;> rfl

@[simp] theorem kind_withoutDefaultCapability (c : Coordinates) :
    c.withoutDefaultCapability.kind = c.kind := by
  rw [withoutDefaultCapability]
  split <;> rfl

@[simp] theorem version_withoutDefaultCapability (c : Coordinates) :
    c.withoutDefaultCapability.version = c.version := by
  rw [withoutDefaultCapability]
  split <;> rfl

/-- Coordinates that select no variant have no capability to lose. -/
theorem withoutDefaultCapability_of_plain {c : Coordinates} (plain : c.identification = {}) :
    c.withoutDefaultCapability = c := by
  obtain ⟨kind, identifier, version, identification⟩ := c
  cases plain
  rfl

/-- Coordinates that are read off a text select no variant. -/
@[simp] theorem withoutDefaultCapability_parse (raw : String) :
    (parse raw).withoutDefaultCapability = parse raw := by
  apply withoutDefaultCapability_of_plain
  rw [parse]
  split
  · rfl
  · split
    · split <;> rfl
    · rfl

@[simp] theorem withoutDefaultCapability_ofIdentifier (identifier : String) :
    (ofIdentifier identifier).withoutDefaultCapability = ofIdentifier identifier := by
  apply withoutDefaultCapability_of_plain
  rw [ofIdentifier]
  split
  · rfl
  · split <;> rfl

@[simp] theorem identifier_ofIdentifier (identifier : String) :
    (ofIdentifier identifier).identifier = identifier := by
  rw [ofIdentifier]
  split
  · rfl
  · split <;> rfl

/-- Attributes as a list of name and value. -/
private def attributeLists (c : Coordinates) : List (List String) :=
  c.identification.attributes.entries.map (fun e => [e.1, e.2])

/-- By kind, identifier, version, capabilities and attributes. -/
def order : Coordinates → Coordinates → Ordering :=
  compareLex (compareOn (·.kind.rank)) <| compareLex (compareOn identifier) <|
    compareLex (compareOn version) <| compareLex (compareOn (·.capabilities.toList))
      (compareOn attributeLists)

instance : Ord Coordinates := ⟨order⟩

instance : Std.TransOrd Coordinates := by
  unfold Std.TransOrd
  change Std.TransCmp order
  unfold order
  infer_instance

private theorem attributeLists_inj {a b : Coordinates} (h : a.attributeLists = b.attributeLists) :
    a.identification.attributes = b.identification.attributes := by
  have entries : ∀ l m : List (String × String),
      l.map (fun e => [e.1, e.2]) = m.map (fun e => [e.1, e.2]) → l = m := by
    intro l
    induction l with
    | nil => intro m hm; cases m <;> simp_all
    | cons e l ih =>
      intro m hm
      cases m with
      | nil => simp at hm
      | cons f m =>
        simp only [List.map_cons, List.cons.injEq] at hm
        rw [ih m hm.2, Prod.ext (x := e) (y := f) hm.1.1 hm.1.2.1]
  have h' := entries _ _ h
  revert h'
  generalize a.identification.attributes = m
  generalize b.identification.attributes = n
  cases m; cases n
  intro h'
  cases h'
  rfl

instance : Std.LawfulEqOrd Coordinates where
  eq_of_compare {a b} h := by
    replace h : order a b = .eq := h
    simp only [order, compareLex, compareOn, Ordering.then_eq_eq] at h
    obtain ⟨hk, hi, hv, hc, ha⟩ := h
    have hk := CoordinatesKind.rank_inj (Std.LawfulEqCmp.eq_of_compare hk)
    have hi := Std.LawfulEqCmp.eq_of_compare hi
    have hv := Std.LawfulEqCmp.eq_of_compare hv
    have hc := Std.LawfulEqCmp.eq_of_compare hc
    have ha := attributeLists_inj (Std.LawfulEqCmp.eq_of_compare ha)
    cases a with | mk ka ia va na => cases b with | mk kb ib vb nb =>
    cases na with | mk ca aa => cases nb with | mk cb ab =>
    cases ca; cases cb
    simp_all [capabilities]

end Coordinates

end ClasspathAdvice
