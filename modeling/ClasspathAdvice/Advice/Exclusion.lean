import ClasspathAdvice.Advice
import ClasspathAdvice.Text.Wildcard

/-!
# Advice that is not wanted

Exclusions hold, for each occasion on which advice is given, the patterns of
dependencies to leave alone. A filter splits advice into what is kept and what its
exclusions, or further predicates, set aside.
-/

namespace ClasspathAdvice
set_option autoImplicit false

/-- The occasions that settings have a rule for. -/
inductive Occasion where
  | any
  | unusedDependencies
  | usedTransitiveDependencies
  | incorrectConfiguration
  | compileOnly
  | runtimeOnly
  | unusedAnnotationProcessors
  deriving DecidableEq, Repr

namespace Occasion

/-- The occasions in the order of settings. -/
def all : List Occasion :=
  [any, unusedDependencies, usedTransitiveDependencies, incorrectConfiguration, compileOnly,
    runtimeOnly, unusedAnnotationProcessors]

/-- The name of the occasion's rule in settings. -/
def name : Occasion → String
  | any => "on_any"
  | unusedDependencies => "on_unused_dependencies"
  | usedTransitiveDependencies => "on_used_transitive_dependencies"
  | incorrectConfiguration => "on_incorrect_configuration"
  | compileOnly => "on_compile_only"
  | runtimeOnly => "on_runtime_only"
  | unusedAnnotationProcessors => "on_unused_annotation_processors"

/-- Whether the occasion is one of this advice. -/
def appliesTo : Occasion → Advice → Bool
  | any, _ => true
  | unusedDependencies, a => a.isRemove
  | usedTransitiveDependencies, a => a.isAdd
  | incorrectConfiguration, a => a.isChange
  | compileOnly, a => a.isCompileOnly
  | runtimeOnly, a => a.isRuntimeOnly
  | unusedAnnotationProcessors, a => a.isProcessor

end Occasion

/-- Which advice the user does not want. -/
structure Exclusions where
  /-- The patterns of the dependencies to leave alone on an occasion. -/
  patterns : Occasion → List String := fun _ => []
  /-- Whether to leave alone what concerns kapt. -/
  ignoreKapt : Bool := false

namespace Exclusions

instance : Inhabited Exclusions := ⟨{}⟩

/-- Whether a pattern of the occasion's rule names the dependency, by identifier or text. -/
def ruleMatches (e : Exclusions) (occasion : Occasion) (a : Advice) : Bool :=
  (e.patterns occasion).any fun pattern =>
    Text.Wildcard.isMatch pattern a.coordinates.identifier ||
      Text.Wildcard.isMatch pattern a.coordinates.gav

/-- Whether advice comes from or leads to a kapt configuration. -/
def touchesKapt (a : Advice) : Bool := a.sourceEndsWith "kapt" || a.targetEndsWith "kapt"

/-- The occasions of a piece of advice. -/
def occasions (a : Advice) : List Occasion := Occasion.all.filter (·.appliesTo a)

/-- Whether the advice is excluded. -/
def excludes (e : Exclusions) (a : Advice) : Bool :=
  (e.ignoreKapt && touchesKapt a) || (occasions a).any (e.ruleMatches · a)

end Exclusions

/-- What decides which advice is set aside. -/
structure AdviceFilter where
  exclusions : Exclusions := {}
  predicates : List (Advice → Bool) := []

/-- Advice that is kept and advice that is set aside. -/
structure FilteredAdvice where
  kept : AdviceSet
  filtered : AdviceSet
  deriving DecidableEq

namespace AdviceFilter

instance : Inhabited AdviceFilter := ⟨{}⟩

/-- Whether the filter sets a piece of advice aside. -/
def setsAside (f : AdviceFilter) (a : Advice) : Bool :=
  f.exclusions.excludes a || f.predicates.any (· a)

/-- Splits advice into the two parts. -/
def split (f : AdviceFilter) (advice : AdviceSet) : FilteredAdvice :=
  { kept := advice.filter (fun a => !f.setsAside a), filtered := advice.filter f.setsAside }

end AdviceFilter

/-- How much advice is in each part. -/
def FilteredAdvice.text (f : FilteredAdvice) : String :=
  toString f.kept.size ++ " advice kept, " ++ toString f.filtered.size ++ " filtered"

end ClasspathAdvice
