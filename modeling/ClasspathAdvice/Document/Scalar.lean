import ClasspathAdvice.Document.Json

/-!
# Plain scalars

What an unquoted scalar stands for: nothing, a truth value, a number or, failing these,
its own text. Numbers may have a sign and a radix; a number with a leading zero is text.
-/

namespace ClasspathAdvice.Scalar
set_option autoImplicit false

/-- Whether a scalar spells the absence of a value. -/
def isNull (s : String) : Bool := ["null", "Null", "NULL", "~"].contains s

/-- The truth value that a scalar spells. -/
def toBool? (s : String) : Option Bool :=
  if ["true", "True", "TRUE"].contains s then some true
  else if ["false", "False", "FALSE"].contains s then some false
  else none

/-- The number that digits write in a radix; there is one digit at least. -/
def digits? (radix : Nat) (s : List Char) : Option Nat :=
  if s.isEmpty then none
  else s.foldlM (fun n c => (Json.hexDigit c).bind fun d => if d < radix then some (n * radix + d) else none) 0

/-- Takes one of the letters off the start of a text. -/
def dropSign (signs : List Char) : List Char → List Char
  | c :: rest => if signs.contains c then rest else c :: rest
  | [] => []

/-- Whether a text is a zero and more digits. -/
def hasLeadingZero (s : List Char) : Bool :=
  match dropSign ['-', '+'] s with
  | '0' :: d :: rest => (d :: rest).all Char.isDigit
  | _ => false

/-- The magnitude that a text without sign writes in one of the radixes. -/
def magnitude? : List Char → Option Nat
  | '0' :: 'x' :: rest => digits? 16 rest
  | '0' :: 'o' :: rest => digits? 8 rest
  | '0' :: 'b' :: rest => digits? 2 rest
  | s => digits? 10 s

/-- The integer that a scalar writes. -/
def toInt? (s : String) : Option Int :=
  let cs := s.toList
  if hasLeadingZero cs then none
  else match cs with
    | '-' :: rest => (magnitude? rest).map (fun n => -(n : Int))
    | _ => (magnitude? (dropSign ['+'] cs)).map (fun n => (n : Int))

/-- Whether digits, with a point among them or not, are followed by nothing or an exponent. -/
def isDecimal (s : List Char) : Bool :=
  let whole := s.takeWhile Char.isDigit
  let rest := s.dropWhile Char.isDigit
  let (places, rest) := match rest with
    | '.' :: r => (r.takeWhile Char.isDigit, r.dropWhile Char.isDigit)
    | r => ([], r)
  (!whole.isEmpty || !places.isEmpty) &&
    match rest with
    | [] => true
    | c :: r =>
      let r := dropSign ['-', '+'] r
      (c = 'e' || c = 'E') && !r.isEmpty && r.all Char.isDigit

/-- The mantissa and the exponent of what `isDecimal` accepts. -/
def decimalParts (s : List Char) : Nat × Int :=
  let whole := s.takeWhile Char.isDigit
  let rest := s.dropWhile Char.isDigit
  let (places, rest) := match rest with
    | '.' :: r => (r.takeWhile Char.isDigit, r.dropWhile Char.isDigit)
    | r => ([], r)
  let exponent : Int := match rest with
    | _ :: '-' :: r => -(Json.decimal r : Int)
    | _ :: r => Json.decimal (dropSign ['+'] r)
    | [] => 0
  (Json.decimal (whole ++ places), exponent - places.length)

/-- Whether a scalar writes a fraction, an infinity or no number at all. -/
def isFraction (s : String) : Bool :=
  let cs := s.toList
  let unsigned := dropSign ['-', '+'] cs
  [".inf", ".Inf", ".INF"].contains (String.ofList unsigned) ||
    [".nan", ".NaN", ".NAN"].contains s ||
    (!hasLeadingZero cs && isDecimal unsigned &&
      let (mantissa, exponent) := decimalParts unsigned
      !Json.overflows mantissa exponent)

/-- What a scalar stands for when nothing particular is wanted. Integers of more than 64 bits
are malformed, of more than 128 bits no integers. -/
def resolve (s : String) : Document :=
  if s.isEmpty || isNull s then .null
  else match toBool? s with
    | some b => .bool b
    | none =>
      let otherwise := if isFraction s then .other else .text s
      match toInt? s with
      | some n =>
        if Int64.minValue.toInt ≤ n && n < UInt64.size then .int n
        else if -(1 <<< 127 : Nat) ≤ n && n < (1 <<< 128 : Nat) then .malformed
        else otherwise
      | none => otherwise

end ClasspathAdvice.Scalar
