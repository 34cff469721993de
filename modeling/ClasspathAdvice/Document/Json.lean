import ClasspathAdvice.Document

/-!
# JSON

A text is cut into tokens, and a stack of open lists and tables takes the tokens one by
one. Escapes that make no character, numbers out of range and nesting beyond the depth
limit spoil only the value they occur in.
-/

namespace ClasspathAdvice.Json
set_option autoImplicit false

/-- Brackets, separators and scalars. -/
inductive Token where
  | listOpen
  | listClose
  | tableOpen
  | tableClose
  | comma
  | colon
  | scalar (value : Document)

/-- The value of a hexadecimal digit. -/
def hexDigit (c : Char) : Option Nat :=
  if c.isDigit then some (c.toNat - '0'.toNat)
  else if 'a' ≤ c ∧ c ≤ 'f' then some (c.toNat - 'a'.toNat + 10)
  else if 'A' ≤ c ∧ c ≤ 'F' then some (c.toNat - 'A'.toNat + 10)
  else none

/-- The number that hexadecimal digits write. -/
def hexNumber (digits : List Char) : Option Nat :=
  digits.foldlM (fun n c => (hexDigit c).map (n * 16 + ·)) 0

/-- Whether a code point is the first or second half of a surrogate pair. -/
def isHighSurrogate (n : Nat) : Bool := 0xD800 ≤ n && n < 0xDC00
@[inherit_doc isHighSurrogate]
def isLowSurrogate (n : Nat) : Bool := 0xDC00 ≤ n && n < 0xE000

/-- Joins surrogate pairs; a half that stands alone makes no text. -/
def joinSurrogates : List Nat → Option (List Char)
  | [] => some []
  | high :: low :: rest =>
    if isHighSurrogate high && isLowSurrogate low then
      (joinSurrogates rest).map (Char.ofNat (0x10000 + (high - 0xD800) * 0x400 + (low - 0xDC00)) :: ·)
    else if isHighSurrogate high || isLowSurrogate high then none
    else (joinSurrogates (low :: rest)).map (Char.ofNat high :: ·)
  | [n] => if isHighSurrogate n || isLowSurrogate n then none else some [Char.ofNat n]

/-- The character that a one-letter escape stands for. -/
def simpleEscape : Char → Option Char
  | '"' => some '"'
  | '\\' => some '\\'
  | '/' => some '/'
  | 'b' => some '\x08'
  | 'f' => some '\x0c'
  | 'n' => some '\n'
  | 'r' => some '\r'
  | 't' => some '\t'
  | _ => none

/-- The code points of a string up to its closing quote, and the text behind it. -/
def stringBody : List Char → List Nat → Option (List Nat × List Char)
  | '"' :: rest, read => some (read.reverse, rest)
  | '\\' :: 'u' :: a :: b :: c :: d :: rest, read =>
    match hexNumber [a, b, c, d] with
    | some n => stringBody rest (n :: read)
    | none => none
  | '\\' :: e :: rest, read =>
    match simpleEscape e with
    | some c => stringBody rest (c.toNat :: read)
    | none => none
  | c :: rest, read => if c.toNat < 0x20 || c = '\\' then none else stringBody rest (c.toNat :: read)
  | [], _ => none

/-- The document of a string's code points. -/
def stringValue (codes : List Nat) : Document :=
  match joinSurrogates codes with
  | some cs => .text (String.ofList cs)
  | none => .malformed

/-- The number that decimal digits write. -/
def decimal (digits : List Char) : Nat :=
  digits.foldl (fun n c => n * 10 + (c.toNat - '0'.toNat)) 0

/-- The least number that is too large for a double once it is rounded. -/
def doubleLimit : Nat := 1 <<< 1024 - 1 <<< 970

/-- Whether `mantissa` times ten to the `exponent` is too large for a double. -/
def overflows (mantissa : Nat) (exponent : Int) : Bool :=
  if mantissa = 0 then false
  else
    let size := (Nat.toDigits 10 mantissa).length + exponent
    if size > 310 then true
    else if size < 300 then false
    else if exponent ≥ 0 then mantissa * Nat.pow 10 exponent.toNat ≥ doubleLimit
    else mantissa ≥ doubleLimit * Nat.pow 10 (-exponent).toNat

/-- The document of a number: integers of 64 bits keep their value. -/
def numberValue (negative : Bool) (whole : List Char) (fraction : Option (List Char))
    (exponent : Option Int) : Document :=
  let n := decimal whole
  match fraction, exponent with
  | none, none =>
    if !negative && n < UInt64.size then .int n
    else if negative && 0 < n && n ≤ 1 <<< 63 then .int (-n)
    else if overflows n 0 then .malformed else .other
  | _, _ =>
    let places := fraction.getD []
    if overflows (decimal (whole ++ places)) (exponent.getD 0 - places.length) then .malformed
    else .other

/-- The exponent of a number, if there is one: its value and the text behind it. -/
def readExponent : List Char → Option (Option Int × List Char)
  | c :: rest =>
    if c = 'e' || c = 'E' then
      let (sign, rest) : Int × List Char := match rest with
        | '-' :: r => (-1, r)
        | '+' :: r => (1, r)
        | r => (1, r)
      let digits := rest.takeWhile Char.isDigit
      if digits.isEmpty then none
      else some (some (sign * decimal digits), rest.dropWhile Char.isDigit)
    else some (none, c :: rest)
  | [] => some (none, [])

/-- A number at the start of a text, its sign aside, and the text behind it. -/
def readNumber (negative : Bool) (s : List Char) : Option (Document × List Char) := do
  let whole := s.takeWhile Char.isDigit
  let rest := s.dropWhile Char.isDigit
  if whole.isEmpty || (whole.length > 1 && whole.head? == some '0') then none
  else
    match rest with
    | '.' :: r =>
      let places := r.takeWhile Char.isDigit
      if places.isEmpty then none
      else do
        let (exponent, rest) ← readExponent (r.dropWhile Char.isDigit)
        some (numberValue negative whole (some places) exponent, rest)
    | _ => do
      let (exponent, rest) ← readExponent rest
      some (numberValue negative whole none exponent, rest)

/-- The first token of a text that does not start with a blank, and the text behind it. -/
def readToken : List Char → Option (Token × List Char)
  | '[' :: rest => some (.listOpen, rest)
  | ']' :: rest => some (.listClose, rest)
  | '\x7b' :: rest => some (.tableOpen, rest)
  | '\x7d' :: rest => some (.tableClose, rest)
  | ',' :: rest => some (.comma, rest)
  | ':' :: rest => some (.colon, rest)
  | '"' :: rest => (stringBody rest []).map fun (codes, rest) => (.scalar (stringValue codes), rest)
  | 't' :: 'r' :: 'u' :: 'e' :: rest => some (.scalar (.bool true), rest)
  | 'f' :: 'a' :: 'l' :: 's' :: 'e' :: rest => some (.scalar (.bool false), rest)
  | 'n' :: 'u' :: 'l' :: 'l' :: rest => some (.scalar .null, rest)
  | '-' :: rest => (readNumber true rest).map fun (value, rest) => (.scalar value, rest)
  | s => (readNumber false s).map fun (value, rest) => (.scalar value, rest)

/-- Whether JSON skips a character between tokens. -/
def isSpace (c : Char) : Bool := c = ' ' || c = '\n' || c = '\t' || c = '\r'

/-- The tokens of a text. Each step takes a character at least, so as many steps as there
are characters will do. -/
def tokensWithin : Nat → List Char → List Token → Option (List Token)
  | _, [], read => some read.reverse
  | 0, _ :: _, _ => none
  | steps + 1, c :: s, read =>
    if isSpace c then tokensWithin steps s read
    else match readToken (c :: s) with
      | some (token, rest) => tokensWithin steps rest (token :: read)
      | none => none

/-- The tokens of a text. -/
def tokens (s : List Char) : Option (List Token) := tokensWithin s.length s []

/-- A list or table that is not closed yet; what it holds is in reverse. -/
inductive Open where
  | list (items : List Document)
  | table (entries : List (Document × Document)) (key : Document)

/-- What may come next. -/
inductive Phase where
  | value
  | valueOrClose
  | key
  | keyOrClose
  | colon
  | separator
  | finished (value : Document)

/-- The open lists and tables, innermost first, and what may come next. -/
structure State where
  stack : List Open
  phase : Phase

/-- Lists and tables nested deeper than this are malformed. -/
def depthLimit : Nat := 127

/-- Puts a complete value where it belongs. -/
def State.place (stack : List Open) (value : Document) : State :=
  match stack with
  | [] => ⟨[], .finished value⟩
  | .list items :: rest => ⟨.list (value :: items) :: rest, .separator⟩
  | .table entries key :: rest => ⟨.table ((key, value) :: entries) .null :: rest, .separator⟩

/-- Closes the innermost list or table. -/
def State.close (stack : List Open) (value : Document) : State :=
  State.place stack (if stack.length < depthLimit then value else .malformed)

/-- Takes a token. -/
def State.step (s : State) (token : Token) : Option State :=
  match s.phase, token, s.stack with
  | .value, .scalar v, stack | .valueOrClose, .scalar v, stack => some (place stack v)
  | .value, .listOpen, stack | .valueOrClose, .listOpen, stack =>
    some ⟨.list [] :: stack, .valueOrClose⟩
  | .value, .tableOpen, stack | .valueOrClose, .tableOpen, stack =>
    some ⟨.table [] .null :: stack, .keyOrClose⟩
  | .valueOrClose, .listClose, .list items :: rest | .separator, .listClose, .list items :: rest =>
    some (close rest (.list items.reverse))
  | .keyOrClose, .tableClose, .table entries _ :: rest
  | .separator, .tableClose, .table entries _ :: rest => some (close rest (.table entries.reverse))
  | .separator, .comma, .list items :: rest => some ⟨.list items :: rest, .value⟩
  | .separator, .comma, .table entries key :: rest => some ⟨.table entries key :: rest, .key⟩
  | .key, .scalar k, .table entries _ :: rest | .keyOrClose, .scalar k, .table entries _ :: rest =>
    match k with
    | .text _ | .malformed => some ⟨.table entries k :: rest, .colon⟩
    | _ => none
  | .colon, .colon, stack => some ⟨stack, .value⟩
  | _, _, _ => none

/-- The document that a JSON text holds. -/
def read (text : String) : Option Document := do
  let tokens ← tokens text.toList
  match (← tokens.foldlM State.step ⟨[], .value⟩).phase with
  | .finished value => some value
  | _ => none

end ClasspathAdvice.Json
