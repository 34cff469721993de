import ClasspathAdvice.Document.Scalar

/-!
# Numbers of TOML

Digits may be set apart by single underscores. Integers have 64 bits and a sign, or a
radix and no sign; fractions must not grow too large for a double.
-/

namespace ClasspathAdvice.Toml
set_option autoImplicit false

/-- Takes the underscores out of digits; each stands between two digits. -/
def joinDigits? (isDigit : Char → Bool) : List Char → Option (List Char)
  | [] => none
  | [c] => if isDigit c then some [c] else none
  | c :: '_' :: rest => if isDigit c then (joinDigits? isDigit rest).map (c :: ·) else none
  | c :: rest => if isDigit c then (joinDigits? isDigit rest).map (c :: ·) else none

/-- The digits of a whole number; it has no zero before other digits. -/
def wholeDigits? (s : List Char) : Option (List Char) := do
  let digits ← joinDigits? Char.isDigit s
  if digits.length > 1 && digits.head? == some '0' then none else some digits

/-- The number that digits write in a radix. -/
def radixNumber? (radix : Nat) (s : List Char) : Option Nat := do
  Scalar.digits? radix (← joinDigits? (fun c => c ≠ '_') s)

/-- The integer that a word writes. -/
def integer? (word : List Char) : Option Int := do
  let n : Int ← match word with
    | '0' :: 'x' :: rest => (radixNumber? 16 rest).map Int.ofNat
    | '0' :: 'o' :: rest => (radixNumber? 8 rest).map Int.ofNat
    | '0' :: 'b' :: rest => (radixNumber? 2 rest).map Int.ofNat
    | '-' :: rest => (wholeDigits? rest).map fun digits => -(Json.decimal digits : Int)
    | _ => (wholeDigits? (Scalar.dropSign ['+'] word)).map fun digits => (Json.decimal digits : Int)
  if Int64.minValue.toInt ≤ n && n ≤ Int64.maxValue.toInt then some n else none

/-- Whether a word writes a fraction or a number with an exponent. -/
def isFraction (word : List Char) : Bool :=
  let unsigned := Scalar.dropSign ['-', '+'] word
  let isExponentMark (c : Char) : Bool := c = 'e' || c = 'E'
  let mantissa := unsigned.takeWhile (!isExponentMark ·)
  let exponent := unsigned.drop mantissa.length
  let whole := mantissa.takeWhile (· ≠ '.')
  let places := mantissa.drop whole.length
  let fits : Option Bool := do
    let wholePart ← wholeDigits? whole
    let placesPart ← match places with
      | [] => some []
      | _ :: rest => joinDigits? Char.isDigit rest
    let (exponentSign, exponentPart) : Int × List Char ← match exponent with
      | [] => some (1, [])
      | _ :: '-' :: rest => (joinDigits? Char.isDigit rest).map (-1, ·)
      | _ :: rest => (joinDigits? Char.isDigit (Scalar.dropSign ['+'] rest)).map (1, ·)
    let power := exponentSign * Json.decimal exponentPart - placesPart.length
    return word.head? == some '-' || !Json.overflows (Json.decimal (wholePart ++ placesPart)) power
  !(places.isEmpty && exponent.isEmpty) && fits.getD false

/-- The document of a number or truth value. -/
def wordDocument? (word : List Char) : Option Document :=
  let unsigned := Scalar.dropSign ['-', '+'] word
  if word = "true".toList then some (.bool true)
  else if word = "false".toList then some (.bool false)
  else if unsigned = "inf".toList || unsigned = "nan".toList || isFraction word then some .other
  else (integer? word).map .int

end ClasspathAdvice.Toml
