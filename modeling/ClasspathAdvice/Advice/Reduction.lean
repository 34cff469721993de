import ClasspathAdvice.Advice
import ClasspathAdvice.Declaration
import ClasspathAdvice.Usage

/-!
# From declarations and usages to advice

`reduce` compares the declarations of one dependency with its usages. Usages that agree
on a bucket are taken together as one usage of the main variant; what is advised then
depends on whether the dependency is declared never, once or more often, and on whether
the usages agree. An addition and a removal of the same dependency become one change.
-/

namespace ClasspathAdvice.Reduction
set_option autoImplicit false

/-- The declarations of a dependency, in order, each once. -/
def matching (coordinates : Coordinates) (declarations : List Declaration) : List Declaration :=
  (OrderedSet.ofList (declarations.filter (·.identifier == coordinates.identifier))).toList

/-- Whether all usages have one bucket. -/
def agree : List Usage → Bool
  | [] => true
  | u :: usages => usages.all (fun v => v.bucket == u.bucket)

/-- Usages that agree on a bucket as one usage of the main variant that has all their
reasons; others in their order. -/
def consolidate (usages : List Usage) : List Usage :=
  match usages with
  | [] => []
  | u :: _ =>
    if agree usages then [Usage.ofReasons .main u.bucket (usages.flatMap (·.reasons))]
    else Usage.sorted usages

/-- Advice to move a declaration, unless it is where it should be. -/
def moveTo (c : Coordinates) (d : Declaration) (target : String) : Except AdviceError (List Advice) :=
  if d.configuration = target then .ok [] else (Advice.change c d.configuration target).map ([·])

/-- Advice to drop a declaration. -/
def drop (c : Coordinates) (d : Declaration) : List Advice := [Advice.remove c d.configuration]

/-- A dependency without declaration whose usages agree. Usage at run time or compile time
only is left alone. -/
def undeclaredSingle (c : Coordinates) (u : Usage) : List Advice :=
  match u.bucket with
  | .unused | .runtimeOnly | .compileOnly => []
  | .api | .implementation => [Advice.add c u.configuration]

/-- A dependency without declaration whose usages differ. -/
def undeclaredMany (c : Coordinates) (usages : List Usage) : List Advice :=
  (usages.filter Usage.isUsed).map (fun u => Advice.add c u.configuration)

/-- A dependency with one declaration whose usages agree. A compile-only declaration is
trusted, and a runtime-only one unless nothing uses it. -/
def declaredOnceSingle (c : Coordinates) (d : Declaration) (u : Usage) :
    Except AdviceError (List Advice) :=
  if d.bucket = u.bucket then .ok []
  else if d.bucket = .compileOnly then .ok []
  else if d.bucket = .runtimeOnly ∧ u.isUsed then .ok []
  else match u.bucket with
    | .unused => .ok (drop c d)
    | .runtimeOnly => .ok []
    | .api | .implementation | .compileOnly => moveTo c d (u.bucket.configuration d.variant)

/-- The advice of several steps together. -/
def gather {α : Type} (l : List α) (step : α → Except AdviceError (List Advice)) :
    Except AdviceError (List Advice) :=
  (l.mapM step).map List.flatten

/-- A dependency with one declaration whose usages differ. -/
def declaredOnceMany (c : Coordinates) (d : Declaration) (usages : List Usage) :
    Except AdviceError (List Advice) :=
  gather (usages.filter Usage.isUsed) (fun u => moveTo c d u.configuration)

/-- A dependency with several declarations whose usages agree. A declaration of the main
variant covers the others. -/
def declaredManySingle (c : Coordinates) (declared : List Declaration) (u : Usage) :
    Except AdviceError (List Advice) :=
  gather declared fun d =>
    if !u.isUsed then .ok (drop c d)
    else if d.isMain then .ok []
    else if declared.any Declaration.isMain then .ok (drop c d)
    else moveTo c d (u.bucket.configuration d.variant)

/-- Declarations paired with usages of their variants, and what is left of both. -/
structure Pairing where
  pairs : List (Declaration × Usage)
  unpaired : List Declaration
  remaining : List Usage

/-- Pairs each declaration with the first usage of its variant that is not taken. -/
def pair : List Declaration → List Usage → Pairing
  | [], usages => { pairs := [], unpaired := [], remaining := usages }
  | d :: declared, usages =>
    match usages.find? (·.variant == d.variant) with
    | some u =>
      let rest := pair declared (usages.eraseP (·.variant == d.variant))
      { rest with pairs := (d, u) :: rest.pairs }
    | none =>
      let rest := pair declared usages
      { rest with unpaired := d :: rest.unpaired }

/-- A dependency with several declarations whose usages differ. Each declaration follows the
usage of its variant; usages left over go to a declaration of the main variant, or are
declared anew. -/
def declaredManyMany (c : Coordinates) (declared : List Declaration) (usages : List Usage) :
    Except AdviceError (List Advice) := do
  let pairing := pair declared usages
  let paired ← gather pairing.pairs fun (d, u) =>
    if u.isUsed then moveTo c d u.configuration else .ok (drop c d)
  let others ← gather (pairing.remaining.filter Usage.isUsed) fun u =>
    match pairing.unpaired.find? Declaration.isMain with
    | some d => moveTo c d u.configuration
    | none => .ok [Advice.add c u.configuration]
  return paired ++ others

/-- The advice before additions and removals are merged. -/
def raw (c : Coordinates) : List Declaration → List Usage → Except AdviceError (List Advice)
  | [], [u] => .ok (undeclaredSingle c u)
  | [], usages => .ok (undeclaredMany c usages)
  | [d], [u] => declaredOnceSingle c d u
  | [d], usages => declaredOnceMany c d usages
  | declared, [u] => declaredManySingle c declared u
  | declared, usages => declaredManyMany c declared usages

/-- Merges additions, one after the other, with the first removal left of the same
dependency: into a change, or into nothing if both name one configuration. -/
def merge : List Advice → List Advice → AdviceSet → Except AdviceError AdviceSet
  | [], _, advice => .ok advice
  | add :: adds, removes, advice =>
    match removes.find? (·.coordinates = add.coordinates) with
    | none => merge adds removes advice
    | some remove =>
      let rest := (advice.erase add).erase remove
      match remove.source, add.target with
      | some source, some target =>
        if source = target then merge adds (removes.erase remove) rest
        else do
          let change ← Advice.change add.coordinates source target
          merge adds (removes.erase remove) (rest.insert change)
      | _, _ => merge adds (removes.erase remove) rest

/-- An addition and a removal of the same dependency become one change. -/
def simplify (advice : AdviceSet) : Except AdviceError AdviceSet :=
  merge (advice.toList.filter Advice.isAnyAdd) (advice.toList.filter Advice.isAnyRemove) advice

/-- The advice on one dependency, from the declarations of a module and the usages of the
dependency. -/
def reduce (coordinates : Coordinates) (declarations : List Declaration) (usages : List Usage) :
    Except AdviceError AdviceSet :=
  if usages.isEmpty then .error (.noUsages coordinates.identifier)
  else do
    let c := coordinates.withoutDefaultCapability
    let advice ← raw c (matching coordinates declarations) (consolidate usages)
    simplify (OrderedSet.ofList advice)

end ClasspathAdvice.Reduction
