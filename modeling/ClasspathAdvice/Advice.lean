import ClasspathAdvice.Coordinates
import ClasspathAdvice.Text.Suffix

/-!
# Advice on declarations

A piece of advice takes a dependency off the configuration `source`, puts it on the
configuration `target`, or both. The predicates sort advice by what it asks for; the
order goes by coordinates, target and source, absent configurations first, and only
equal advice ties.
-/

namespace ClasspathAdvice
set_option autoImplicit false

/-- A change to the declarations of a dependency. -/
structure Advice where
  coordinates : Coordinates
  source : Option String := none
  target : Option String := none
  deriving DecidableEq

/-- Why there is no advice. -/
inductive AdviceError where
  /-- Nothing was observed of the dependency, in no variant. -/
  | noUsages (identifier : String)
  /-- A change leads from a configuration to itself. -/
  | noOpChange (configuration : String)
  deriving DecidableEq

/-- The wording of the error. -/
def AdviceError.message : AdviceError → String
  | noUsages identifier => "no usages recorded for '" ++ identifier ++ "'"
  | noOpChange configuration =>
    "change advice cannot be from and to the same configuration (" ++ configuration ++
      " in this case)"

namespace Advice

/-- Advice to declare a dependency. -/
def add (coordinates : Coordinates) (target : String) : Advice :=
  { coordinates, target := some target }

/-- Advice to drop a declaration. -/
def remove (coordinates : Coordinates) (source : String) : Advice :=
  { coordinates, source := some source }

/-- Advice to move a declaration to another configuration. -/
def change (coordinates : Coordinates) (source target : String) : Except AdviceError Advice :=
  if source = target then .error (.noOpChange source)
  else .ok { coordinates, source := some source, target := some target }

/-- Whether there is a target and it ends with `suffix`, ASCII case aside. -/
def targetEndsWith (a : Advice) (suffix : String) : Bool := a.target.any (Text.endsWith · suffix)

/-- Whether there is a source and it ends with `suffix`, ASCII case aside. -/
def sourceEndsWith (a : Advice) (suffix : String) : Bool := a.source.any (Text.endsWith · suffix)

/-- The target is a compile-only configuration. -/
def isCompileOnly (a : Advice) : Bool := a.targetEndsWith "compileOnly"

/-- The target is a runtime-only configuration. -/
def isRuntimeOnly (a : Advice) : Bool := a.targetEndsWith "runtimeOnly"

/-- A dependency that is not declared is to be. -/
def isAnyAdd (a : Advice) : Bool := a.source.isNone && a.target.isSome

/-- A declaration is to be made, other than a compile-only one. -/
def isAdd (a : Advice) : Bool := a.isAnyAdd && !a.isCompileOnly

/-- Nothing is to be declared in place of the source. -/
def isAnyRemove (a : Advice) : Bool := a.target.isNone

/-- An unused annotation processor is to go. -/
def isProcessor (a : Advice) : Bool :=
  a.target.isNone && (a.sourceEndsWith "kapt" || a.sourceEndsWith "annotationProcessor")

/-- An unused declaration is to go, other than an annotation processor's. -/
def isRemove (a : Advice) : Bool := a.isAnyRemove && !a.isCompileOnly && !a.isProcessor

/-- An unused compile-only declaration is to go. -/
def isRemoveCompileOnly (a : Advice) : Bool := a.isRemove && a.sourceEndsWith "compileOnly"

/-- A declaration is to move. -/
def isAnyChange (a : Advice) : Bool := a.source.isSome && a.target.isSome

/-- A declaration is to move, neither to compile-only nor to runtime-only. -/
def isChange (a : Advice) : Bool := a.isAnyChange && !a.isCompileOnly && !a.isRuntimeOnly

/-- Fewer consumers are to see the dependency. -/
def isDowngrade (a : Advice) : Bool := a.isRemove || a.isCompileOnly || a.isRuntimeOnly

/-- The target is an API configuration. -/
def isToApiLike (a : Advice) : Bool := a.targetEndsWith "api"

/-- More consumers are to see the dependency. -/
def isUpgrade (a : Advice) : Bool := a.isAnyAdd || (a.isAnyChange && a.isToApiLike)

/-- The advice in words. -/
def text (a : Advice) : String :=
  let gav := a.coordinates.gav
  match a.source, a.target with
  | none, some target => "add " ++ gav ++ " to '" ++ target ++ "'"
  | some source, none => "remove " ++ gav ++ " from '" ++ source ++ "'"
  | some source, some target =>
    "change " ++ gav ++ " from '" ++ source ++ "' to '" ++ target ++ "'"
  | none, none => gav ++ " (no change)"

/-- By coordinates, target and source. -/
def order : Advice → Advice → Ordering :=
  compareLex (compareOn coordinates) <| compareLex (compareOn target) (compareOn source)

instance : Ord Advice := ⟨order⟩

instance : Std.TransOrd Advice := by
  unfold Std.TransOrd
  change Std.TransCmp order
  unfold order
  infer_instance

instance : Std.LawfulEqOrd Advice where
  eq_of_compare {a b} h := by
    replace h : order a b = .eq := h
    simp only [order, compareLex, compareOn, Ordering.then_eq_eq] at h
    obtain ⟨hc, ht, hs⟩ := h
    have hc := Std.LawfulEqCmp.eq_of_compare hc
    have ht := Std.LawfulEqCmp.eq_of_compare ht
    have hs := Std.LawfulEqCmp.eq_of_compare hs
    cases a; cases b
    simp_all

/-- Advice goes by its coordinates first. -/
theorem before_iff {a b : Advice} : Before a b ↔ Before a.coordinates b.coordinates ∨
    a.coordinates = b.coordinates ∧
      ((compareOn target a b).then (compareOn source a b)) = .lt := by
  have unfolded : compare a b = (compare a.coordinates b.coordinates).then
    ((compareOn target a b).then (compareOn source a b)) := rfl
  rw [Before, unfolded, Ordering.then_eq_lt, Std.compare_eq_iff_eq]

end Advice

/-- Advice in its order, each piece once. -/
abbrev AdviceSet := OrderedSet Advice

/-- Whether some advice in the set is about the identifier. -/
def AdviceSet.concerns (s : AdviceSet) (identifier : String) : Bool :=
  s.toList.any (fun a => a.coordinates.identifier == identifier)

end ClasspathAdvice
