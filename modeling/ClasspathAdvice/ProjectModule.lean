import ClasspathAdvice.Advice.Exclusion
import ClasspathAdvice.Advice.Reduction

/-!
# Advice for a module

A module has declarations and the usages observed in its variants. Each dependency is
reduced on its own; a declared dependency that was not observed counts as unused in
every variant. The advice of all of them is then filtered.
-/

namespace ClasspathAdvice
set_option autoImplicit false

/-- The declarations and observed usages of one module. -/
structure ProjectModule where
  project : Coordinates
  variants : List Variant := []
  declarations : List Declaration := []
  usages : UsageMap := ∅

/-- The advice for one module. -/
structure ModuleAdvice where
  project : Coordinates
  advice : AdviceSet
  filtered : AdviceSet
  deriving DecidableEq

namespace ProjectModule

/-- The variants of the module; `main` alone if none are given. -/
def knownVariants (m : ProjectModule) : List Variant := Variant.orMain m.variants

/-- The identifiers that are declared and of which no usage is known. -/
def unobserved (m : ProjectModule) : List String :=
  let observed := m.usages.keys.map (·.identifier)
  (OrderedSet.ofList ((m.declarations.map (·.identifier)).filter (!observed.contains ·))).toList

/-- Every dependency with its usages; the declared ones without any observation come last. -/
def dependencies (m : ProjectModule) : List (Coordinates × List Usage) :=
  m.usages.entries ++ m.unobserved.map fun identifier =>
    (Coordinates.ofIdentifier identifier,
      m.knownVariants.map (Usage.ofReasons · .unused [.unused]))

/-- The advice on all dependencies, before any is set aside. -/
def rawAdvice (m : ProjectModule) : Except AdviceError AdviceSet := do
  let advice ← m.dependencies.mapM fun (coordinates, usages) =>
    Reduction.reduce coordinates m.declarations usages
  return advice.foldl OrderedSet.union ∅

/-- The advice for the module. -/
def analyze (filter : AdviceFilter) (m : ProjectModule) : Except AdviceError ModuleAdvice := do
  let split := filter.split (← m.rawAdvice)
  return { project := m.project, advice := split.kept, filtered := split.filtered }

end ProjectModule

namespace ModuleAdvice

/-- The advice on the dependency with an identifier. -/
def adviceFor (m : ModuleAdvice) (identifier : String) : List Advice :=
  m.advice.toList.filter (·.coordinates.identifier == identifier)

/-- Whether advice on the dependency was set aside. -/
def wasFiltered (m : ModuleAdvice) (identifier : String) : Bool := m.filtered.concerns identifier

end ModuleAdvice

end ClasspathAdvice
