import ClasspathAdvice.Document.Json

/-!
# Texts and keys of TOML

Line breaks are made uniform first, and control characters are refused wherever they
stand. Strings are basic, with escapes, or literal; either kind may span lines between
three quotes, of which up to two more may stand right before the closing ones. Texts are
collected in reverse.
-/

namespace ClasspathAdvice.Toml
set_option autoImplicit false

/-- Whether a character may stand in a text. -/
def isAdmitted (c : Char) : Bool :=
  c = '\t' || c = '\n' || (0x20 ≤ c.toNat && c ≠ '\x7f')

/-- A text with every line ended by a line feed alone. -/
def uniform : List Char → List Char
  | '\r' :: '\n' :: rest => '\n' :: uniform rest
  | c :: rest => c :: uniform rest
  | [] => []

/-- Whether a character is a blank within a line. -/
def isBlank (c : Char) : Bool := c = ' ' || c = '\t'

/-- Passes over blanks. -/
def skipBlanks (s : List Char) : List Char := s.dropWhile isBlank

/-- Passes over one character. -/
def expect (c : Char) : List Char → Option (List Char)
  | d :: rest => if c = d then some rest else none
  | [] => none

/-- The character that a one-letter escape stands for. -/
def simpleEscape : Char → Option Char
  | 'b' => some '\x08'
  | 't' => some '\t'
  | 'n' => some '\n'
  | 'f' => some '\x0c'
  | 'r' => some '\r'
  | '"' => some '"'
  | '\\' => some '\\'
  | _ => none

/-- The character with a code in hexadecimal digits; surrogates are none. -/
def codedChar (digits : List Char) : Option Char := do
  let n ← Json.hexNumber digits
  if n.isValidChar then some (Char.ofNat n) else none

/-- Reads an escape behind its backslash. -/
def escape : List Char → Option (Char × List Char)
  | 'u' :: a :: b :: c :: d :: rest => (codedChar [a, b, c, d]).map (·, rest)
  | 'U' :: a :: b :: c :: d :: e :: f :: g :: h :: rest =>
    (codedChar [a, b, c, d, e, f, g, h]).map (·, rest)
  | c :: rest => (simpleEscape c).map (·, rest)
  | [] => none

theorem length_escape_lt {s rest : List Char} {c : Char} (h : escape s = some (c, rest)) :
    rest.length < s.length := by
  unfold escape at h
  split at h
  · obtain ⟨_, _, h⟩ := Option.map_eq_some_iff.1 h
    grind
  · obtain ⟨_, _, h⟩ := Option.map_eq_some_iff.1 h
    simp only [List.length_cons, (Prod.mk.inj h).2]
    omega
  · obtain ⟨_, _, h⟩ := Option.map_eq_some_iff.1 h
    grind
  · cases h

/-- Reads a basic string behind its opening quote. -/
def basic (s : List Char) (text : List Char) : Option (String × List Char) :=
  match s with
  | [] => none
  | '"' :: rest => some (String.ofList text.reverse, rest)
  | '\\' :: rest =>
    match h : escape rest with
    | some (c, rest') =>
      have := length_escape_lt h
      basic rest' (c :: text)
    | none => none
  | c :: rest => if c = '\n' then none else basic rest (c :: text)
termination_by s.length
decreasing_by all_goals grind

/-- Reads a literal string behind its opening quote. -/
def literal (s : List Char) : Option (String × List Char) :=
  let text := s.takeWhile fun c => c ≠ '\'' && c ≠ '\n'
  (expect '\'' (s.drop text.length)).map (String.ofList text, ·)

/-- How many of a run of quotes within a string of several lines are text, and whether the
rest close it. -/
def closing (quotes : Nat) : Option (Nat × Bool) :=
  if quotes < 3 then some (quotes, false)
  else if quotes ≤ 5 then some (quotes - 3, true)
  else none

/-- Whether a text goes on with a line break, blanks aside. -/
def atLineEnd (s : List Char) : Bool := (skipBlanks s).head? == some '\n'

/-- Passes over blanks and line breaks. -/
def skipLines (s : List Char) : List Char := s.dropWhile fun c => isBlank c || c = '\n'

theorem length_skipLines_le (s : List Char) : (skipLines s).length ≤ s.length :=
  (List.dropWhile_sublist _).length_le

/-- Reads a string of several lines behind its opening quotes. -/
def multiline (quote : Char) (s : List Char) (text : List Char) : Option (String × List Char) :=
  match s with
  | [] => none
  | c :: rest =>
    if c = quote then
      let more := rest.takeWhile (· = quote)
      match closing (more.length + 1) with
      | some (n, closes) =>
        let text := List.replicate n quote ++ text
        let rest' := rest.drop more.length
        if closes then some (String.ofList text.reverse, rest') else multiline quote rest' text
      | none => none
    else if c = '\\' && quote = '"' then
      if atLineEnd rest then
        have := length_skipLines_le rest
        multiline quote (skipLines rest) text
      else match h : escape rest with
        | some (d, rest') =>
          have := length_escape_lt h
          multiline quote rest' (d :: text)
        | none => none
    else multiline quote rest (c :: text)
termination_by s.length
decreasing_by all_goals grind

/-- Passes over the line break right behind the opening quotes. -/
def dropFirstBreak : List Char → List Char
  | '\n' :: rest => rest
  | s => s

/-- Reads a string of any kind. -/
def string : List Char → Option (String × List Char)
  | '"' :: '"' :: '"' :: rest => multiline '"' (dropFirstBreak rest) []
  | '\'' :: '\'' :: '\'' :: rest => multiline '\'' (dropFirstBreak rest) []
  | '"' :: rest => basic rest []
  | '\'' :: rest => literal rest
  | _ => none

/-- Whether a character may stand in a key without quotes. -/
def isKeyChar (c : Char) : Bool := c.isAlphanum || c = '-' || c = '_'

/-- Reads a key without dots. -/
def simpleKey : List Char → Option (String × List Char)
  | '"' :: rest => basic rest []
  | '\'' :: rest => literal rest
  | s =>
    let name := s.takeWhile isKeyChar
    if name.isEmpty then none else some (String.ofList name, s.drop name.length)

/-- Keys with this many parts, and values within this many arrays and tables, are refused. -/
def depthLimit : Nat := 80

/-- Reads a key with at most some number of parts between dots, and the blanks behind it. -/
def dottedKey : Nat → List Char → Option (List String × List Char)
  | 0, _ => none
  | parts + 1, s => do
    let (name, rest) ← simpleKey s
    match skipBlanks rest with
    | '.' :: rest =>
      let (names, rest) ← dottedKey parts (skipBlanks rest)
      return (name :: names, rest)
    | rest => return ([name], rest)

/-- Reads a key and the blanks behind it. -/
def key : List Char → Option (List String × List Char) := dottedKey (depthLimit - 1)

end ClasspathAdvice.Toml
