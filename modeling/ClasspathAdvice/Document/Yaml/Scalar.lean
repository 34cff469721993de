import ClasspathAdvice.Document.Json
import ClasspathAdvice.Document.Yaml.Place

/-!
# Scalars of YAML

Plain and quoted scalars fold the line breaks in them: a single break becomes a blank,
of several the first goes. Block scalars keep their lines, or fold them where neither
line starts with a blank. All texts are collected in reverse.
-/

namespace ClasspathAdvice.Yaml
set_option autoImplicit false

/-- A text that was read, and what follows it. -/
structure Reading where
  text : List Char
  rest : List Char
  place : Place

/-- The blanks and line breaks since the last other character, in reverse. -/
structure Gap where
  blanks : List Char := []
  /-- The first line break, if there is one that counts. -/
  first : List Char := []
  others : List Char := []
  /-- Whether a line has ended. -/
  broken : Bool := false

namespace Gap

/-- Takes a blank; blanks at the start of a line do not count. -/
def blank (g : Gap) (c : Char) : Gap := if g.broken then g else { g with blanks := c :: g.blanks }

/-- Takes a line break. -/
def lineBreak (g : Gap) (c : Char) : Gap :=
  if g.broken then { g with others := c :: g.others }
  else { g with blanks := [], first := [c], broken := true }

/-- Whether nothing was taken. -/
def isEmpty (g : Gap) : Bool := !g.broken && g.blanks.isEmpty

/-- What the gap adds to the text before it. -/
def onto (g : Gap) (text : List Char) : List Char :=
  if !g.broken then g.blanks ++ text
  else if g.first = ['\n'] then (if g.others.isEmpty then ' ' :: text else g.others ++ text)
  else g.others ++ (g.first ++ text)

end Gap

/-- Reads a plain scalar. Returns what it is, and whether a line ended behind it. -/
def plainScalar (inFlow : Bool) (indent : Nat) : List Char → Place → Gap → List Char → Option (Reading × Bool)
  | [], p, gap, text => some (⟨text, [], p⟩, gap.broken)
  | c :: rest, p, gap, text =>
    let stop := some (⟨text, c :: rest, p⟩, gap.broken)
    if isBlank c then
      if gap.broken && p.column < indent && c = '\t' then none
      else plainScalar inFlow indent rest (p.forward 1) (gap.blank c) text
    else if isBreak c then plainScalar inFlow indent rest p.nextLine (gap.lineBreak c) text
    else if !gap.isEmpty && !inFlow && p.column < indent then stop
    else if p.column = 0 && atDocumentMark (c :: rest) then stop
    else if !gap.isEmpty && c = '#' then stop
    else if inFlow && c = ':' && atOneOf [',', '?', '[', ']', '\x7b', '\x7d'] rest then none
    else if c = ':' && atGap rest then stop
    else if inFlow && [',', '[', ']', '\x7b', '\x7d'].contains c then stop
    else plainScalar inFlow indent rest (p.forward 1) {} (c :: gap.onto text)

/-- Reads a scalar in single quotes, behind the opening quote. -/
def singleQuoted : List Char → Place → Gap → List Char → Option Reading
  | [], _, _, _ => none
  | '\'' :: '\'' :: rest, p, gap, text =>
    singleQuoted rest (p.forward 2) {} ('\'' :: gap.onto text)
  | c :: rest, p, gap, text =>
    if p.column = 0 && atDocumentMark (c :: rest) then none
    else if isBlank c then singleQuoted rest (p.forward 1) (gap.blank c) text
    else if isBreak c then singleQuoted rest p.nextLine (gap.lineBreak c) text
    else if c = '\'' then some ⟨gap.onto text, rest, p.forward 1⟩
    else singleQuoted rest (p.forward 1) {} (c :: gap.onto text)

/-- The character that a one-letter escape stands for. -/
def simpleEscape : Char → Option Char
  | '0' => some '\x00'
  | 'a' => some '\x07'
  | 'b' => some '\x08'
  | 't' | '\t' => some '\t'
  | 'n' => some '\n'
  | 'v' => some '\x0b'
  | 'f' => some '\x0c'
  | 'r' => some '\r'
  | 'e' => some '\x1b'
  | ' ' => some ' '
  | '"' => some '"'
  | '/' => some '/'
  | '\\' => some '\\'
  | 'N' => some '\x85'
  | '_' => some '\xa0'
  | 'L' => some '\u2028'
  | 'P' => some '\u2029'
  | _ => none

/-- The character with a code in hexadecimal digits; surrogates are none. -/
def codedChar (digits : List Char) : Option Char := do
  let n ← Json.hexNumber digits
  if n.isValidChar then some (Char.ofNat n) else none

/-- Reads a scalar in double quotes, behind the opening quote. -/
def doubleQuoted : List Char → Place → Gap → List Char → Option Reading
  | [], _, _, _ => none
  | '\\' :: 'x' :: a :: b :: rest, p, gap, text => do
    doubleQuoted rest (p.forward 4) {} ((← codedChar [a, b]) :: gap.onto text)
  | '\\' :: 'u' :: a :: b :: c :: d :: rest, p, gap, text => do
    doubleQuoted rest (p.forward 6) {} ((← codedChar [a, b, c, d]) :: gap.onto text)
  | '\\' :: 'U' :: a :: b :: c :: d :: e :: f :: g :: h :: rest, p, gap, text => do
    doubleQuoted rest (p.forward 10) {} ((← codedChar [a, b, c, d, e, f, g, h]) :: gap.onto text)
  | '\\' :: c :: rest, p, gap, text =>
    if isBreak c then doubleQuoted rest p.nextLine { broken := true } (gap.onto text)
    else do doubleQuoted rest (p.forward 2) {} ((← simpleEscape c) :: gap.onto text)
  | c :: rest, p, gap, text =>
    if p.column = 0 && atDocumentMark (c :: rest) then none
    else if isBlank c then doubleQuoted rest (p.forward 1) (gap.blank c) text
    else if isBreak c then doubleQuoted rest p.nextLine (gap.lineBreak c) text
    else if c = '"' then some ⟨gap.onto text, rest, p.forward 1⟩
    else doubleQuoted rest (p.forward 1) {} (c :: gap.onto text)

/-- What becomes of the line breaks at the end of a block scalar. -/
inductive Chomping where
  | strip
  | clip
  | keep

/-- The header of a block scalar: chomping and the indentation it asks for. -/
def blockHeader (s : List Char) : Option (Chomping × Option Nat × List Char) :=
  let chomping (c : Char) : Option Chomping :=
    if c = '+' then some .keep else if c = '-' then some .strip else none
  let digit (s : List Char) : Option (Option Nat × List Char) :=
    match s with
    | c :: rest =>
      if c = '0' then none
      else if c.isDigit then some (some (c.toNat - '0'.toNat), rest)
      else some (none, c :: rest)
    | [] => some (none, [])
  match s with
  | c :: rest =>
    match chomping c with
    | some ch => (digit rest).map fun (n, rest) => (ch, n, rest)
    | none =>
      (digit (c :: rest)).map fun (n, rest) =>
        match n, rest with
        | some n, d :: rest' =>
          match chomping d with
          | some ch => (ch, some n, rest')
          | none => (.clip, some n, rest)
        | _, _ => (.clip, n, rest)
  | [] => some (.clip, none, [])

/-- Skips indentation and empty lines of a block scalar. Without an indentation, finds the
largest column reached. Returns the line breaks on top of those given. -/
def blockBreaks (indent : Option Nat) : List Char → Place → Nat → List Char →
    Option (Nat × List Char × List Char × Place)
  | [], p, most, breaks => some (max most p.column, breaks, [], p)
  | c :: rest, p, most, breaks =>
    let within := indent.all (p.column < ·)
    if c = ' ' && within then blockBreaks indent rest (p.forward 1) most breaks
    else if c = '\t' && within then none
    else if isBreak c then blockBreaks indent rest p.nextLine (max most p.column) (c :: breaks)
    else some (max most p.column, breaks, c :: rest, p)

/-- The lines of a block scalar from the first character of one. Each takes a character at
least. -/
def blockLines (literal : Bool) (indent : Nat) (chomping : Chomping) :
    Nat → List Char → Place → List Char → List Char → Bool → List Char → Option Reading
  | 0, _, _, _, _, _, _ => none
  | steps + 1, s, p, first, others, afterBlank, text =>
    match s, decide (p.column = indent) with
    | c :: _, true =>
      let startsBlank := isBlank c
      let text :=
        if !literal && first = ['\n'] && !afterBlank && !startsBlank then
          if others.isEmpty then ' ' :: text else text
        else first ++ text
      let line := s.takeWhile (!isBreak ·)
      let text := line.reverse ++ (others ++ text)
      let p := p.forward line.length
      let (first, s, p) := match s.dropWhile (!isBreak ·) with
        | b :: s => ([b], s, p.nextLine)
        | [] => ([], [], p)
      match blockBreaks (some indent) s p 0 [] with
      | some (_, others, s, p) => blockLines literal indent chomping steps s p first others startsBlank text
      | none => none
    | _, _ =>
      let text := match chomping with
        | .strip => text
        | .clip => first ++ text
        | .keep => others ++ (first ++ text)
      some ⟨text, s, p⟩

/-- Reads a block scalar behind its sign, below an indentation. -/
def blockScalar (literal : Bool) (outer : Option Nat) (s : List Char) (p : Place) : Option Reading := do
  let (chomping, asked, rest) ← blockHeader s
  let p := p.forward (s.length - rest.length)
  let blanks := rest.takeWhile isBlank
  let p := p.forward blanks.length
  let rest := rest.dropWhile isBlank
  let comment := if atOneOf ['#'] rest then rest.takeWhile (!isBreak ·) else []
  let p := p.forward comment.length
  let rest := rest.drop comment.length
  let (rest, p) ← match rest with
    | [] => some ([], p)
    | c :: rest => if isBreak c then some (rest, p.nextLine) else none
  let known := asked.map fun n => match outer with
    | some o => o + n
    | none => n
  let (most, breaks, rest, p) ← blockBreaks known rest p 0 []
  let least := match outer with
    | some o => o + 1
    | none => 1
  let indent := known.getD (max most least)
  blockLines literal indent chomping (rest.length + 1) rest p [] breaks false []

end ClasspathAdvice.Yaml
