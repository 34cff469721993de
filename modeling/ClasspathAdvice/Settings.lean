import ClasspathAdvice.Advice.Exclusion

/-!
# Settings

What the user asks for besides the survey itself: which advice to set aside, aliases of
dependencies, and how to report.
-/

namespace ClasspathAdvice
set_option autoImplicit false

/-- The settings of a run. -/
structure Settings where
  exclusions : Exclusions := {}
  /-- Names to show beside identifiers. -/
  aliases : OrderedMap String String := ∅
  colors : Bool := true
  showFiltered : Bool := false
  parallel : Bool := false

instance : Inhabited Settings := ⟨{}⟩

/-- The filter that the settings ask for. -/
def Settings.filter (s : Settings) : AdviceFilter := { exclusions := s.exclusions }

end ClasspathAdvice
