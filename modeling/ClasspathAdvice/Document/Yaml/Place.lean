/-!
# Characters and places in YAML

Line breaks are made uniform before anything else is read, and a text with characters
that YAML does not admit is refused.
-/

namespace ClasspathAdvice.Yaml
set_option autoImplicit false

/-- Whether a character may occur in a text. -/
def isAdmitted (c : Char) : Bool :=
  let n := c.toNat
  n = 0x9 || n = 0xA || n = 0xD || (0x20 ≤ n && n ≤ 0x7E) || n = 0x85 || (0xA0 ≤ n && n ≤ 0xFFFD) ||
    0x10000 ≤ n

/-- A text with carriage returns and next-line characters as line feeds. -/
def uniform : List Char → List Char
  | '\r' :: '\n' :: rest => '\n' :: uniform rest
  | c :: rest => (if c = '\r' || c = '\x85' then '\n' else c) :: uniform rest
  | [] => []

/-- Whether a character breaks a line, once breaks are uniform. -/
def isBreak (c : Char) : Bool := c = '\n' || c = '\u2028' || c = '\u2029'

/-- Whether a character is a blank within a line. -/
def isBlank (c : Char) : Bool := c = ' ' || c = '\t'

/-- Whether a text ends, or goes on with a blank or a line break. -/
def atGap : List Char → Bool
  | [] => true
  | c :: _ => isBlank c || isBreak c

/-- Whether a text goes on with one of some characters. -/
def atOneOf (cs : List Char) : List Char → Bool
  | [] => false
  | c :: _ => cs.contains c

/-- Whether a text, at the start of a line, is at the start or end of a document. -/
def atDocumentMark : List Char → Bool
  | '-' :: '-' :: '-' :: rest | '.' :: '.' :: '.' :: rest => atGap rest
  | _ => false

/-- A place in a text: the characters before it, and where that is. -/
structure Place where
  index : Nat := 0
  line : Nat := 0
  column : Nat := 0
  deriving Repr, Inhabited

namespace Place

/-- The place some characters further on the line. -/
def forward (p : Place) (n : Nat) : Place :=
  { p with index := p.index + n, column := p.column + n }

/-- The place behind a line break. -/
def nextLine (p : Place) : Place := { index := p.index + 1, line := p.line + 1, column := 0 }

/-- The place behind a character. -/
def after (p : Place) (c : Char) : Place := if isBreak c then p.nextLine else p.forward 1

end Place

end ClasspathAdvice.Yaml
