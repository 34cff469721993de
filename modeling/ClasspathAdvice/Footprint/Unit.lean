import ClasspathAdvice.Number.Rounding

/-!
# Units of size

Sizes are written in a binary unit with two places. One unit serves a whole drawing: the
largest of which the total has more than five.
-/

namespace ClasspathAdvice
set_option autoImplicit false

/-- A unit of size. -/
inductive SizeUnit where
  | byte
  | kibi
  | mebi
  | gibi
  | tebi
  deriving DecidableEq, Repr, Inhabited

namespace SizeUnit

/-- The units, the largest first. -/
def all : List SizeUnit := [tebi, gibi, mebi, kibi, byte]

/-- The sign of the unit. -/
def symbol : SizeUnit → String
  | byte => "B"
  | kibi => "KiB"
  | mebi => "MiB"
  | gibi => "GiB"
  | tebi => "TiB"

/-- The number of bytes in the unit. -/
def bytes : SizeUnit → Nat
  | byte => 1
  | kibi => 1 <<< 10
  | mebi => 1 <<< 20
  | gibi => 1 <<< 30
  | tebi => 1 <<< 40

/-- The largest unit of which the total has more than five, or bytes. -/
def ofTotal (total : Nat) : SizeUnit := (all.find? fun u => 5 < total / u.bytes).getD byte

/-- A size in the unit: the double nearest to the number of bytes, divided and rounded to two
places. -/
def format (u : SizeUnit) (size : Nat) : String :=
  Number.twoPlaces (Number.roundQuotient (Number.toDouble size * 100) u.bytes) ++ " " ++ u.symbol

end SizeUnit

end ClasspathAdvice
