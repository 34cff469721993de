import ClasspathAdvice.Coordinates

/-!
# Bundle traces

A bundle of dependencies counts as one: a trace records that advice was suppressed or
replaced because of a bundle, and for which two dependencies.
-/

namespace ClasspathAdvice
set_option autoImplicit false

/-- What a bundle did. -/
inductive BundleRule where
  /-- The lower needs no declaration because the upper is declared. -/
  | declaredParent
  /-- The upper needs no declaration because the lower is declared and used. -/
  | usedChild
  /-- The upper is advised in place of the lower. -/
  | primaryMap
  deriving DecidableEq, Repr

/-- What a bundle did, and to which two dependencies. -/
structure BundleTrace (α : Type) where
  rule : BundleRule
  top : α
  bottom : α
  deriving DecidableEq, Repr

namespace BundleTrace

/-- The same trace between other names of its dependencies. -/
def map {α β : Type} (f : α → β) (t : BundleTrace α) : BundleTrace β :=
  { rule := t.rule, top := f t.top, bottom := f t.bottom }

/-- Whether a dependency, by its text form, is one of the two. -/
def involves (t : BundleTrace Coordinates) (c : Coordinates) : Bool :=
  t.top.gav == c.gav || t.bottom.gav == c.gav

end BundleTrace

end ClasspathAdvice
