import ClasspathAdvice.Document.Yaml.Scalar

/-!
# Tokens of YAML

Indentation opens and closes block sequences and mappings. A node that may turn out to be
a key is remembered with the number its token has; when a colon shows that it is one, the
tokens that say so are put in before it. A possible key has to be followed by its colon
on the same line and within 1024 characters; a key that has to be one, because it stands
where the next key of a block mapping would, is an error if it is not.
-/

namespace ClasspathAdvice.Yaml
set_option autoImplicit false

/-- Marks, properties of nodes and scalars. -/
inductive Token where
  | directive
  | documentStart
  | documentEnd
  | blockSequenceStart
  | blockMappingStart
  | blockEnd
  | flowSequenceStart
  | flowSequenceEnd
  | flowMappingStart
  | flowMappingEnd
  | blockEntry
  | flowEntry
  | key
  | value
  | alias (name : String)
  | anchor (name : String)
  | tag (name : String)
  | scalar (text : String) (isPlain : Bool)
  deriving Repr, BEq

/-- A node that may turn out to be a key. -/
structure PossibleKey where
  isRequired : Bool
  /-- The number of the token that would follow the key mark. -/
  token : Nat
  place : Place

/-- How far a text is cut into tokens. -/
structure Lexer where
  rest : List Char
  place : Place := {}
  tokens : Array Token := #[]
  /-- The indentation of the open blocks, innermost first. -/
  indents : List Nat := []
  /-- The possible key of each open flow collection, innermost first, and of the block
  around them. -/
  keys : List (Option PossibleKey) := [none]
  keyAllowed : Bool := true

namespace Lexer

/-- Whether a flow collection is open. -/
def inFlow (l : Lexer) : Bool := 1 < l.keys.length

/-- The indentation of the innermost block. -/
def indent? (l : Lexer) : Option Nat := l.indents.head?

/-- Adds a token. -/
def add (l : Lexer) (t : Token) : Lexer := { l with tokens := l.tokens.push t }

/-- Passes over some characters of the line. -/
def skip (l : Lexer) (n : Nat) : Lexer := { l with rest := l.rest.drop n, place := l.place.forward n }

/-- Goes on behind what was read. -/
def goOn (l : Lexer) (r : Reading) : Lexer := { l with rest := r.rest, place := r.place }

/-- Allows or forbids the next node to be a key. -/
def allowKey (l : Lexer) (allowed : Bool) : Lexer := { l with keyAllowed := allowed }

/-- Forgets the possible key at hand; it must not have been required. -/
def dropKey (l : Lexer) : Option Lexer :=
  match l.keys with
  | some k :: keys => if k.isRequired then none else some { l with keys := none :: keys }
  | _ => some l

/-- Remembers that the node that begins here may be a key. -/
def saveKey (l : Lexer) : Option Lexer :=
  if l.keyAllowed then do
    let l ← l.dropKey
    let key : PossibleKey :=
      { isRequired := !l.inFlow && l.indent? == some l.place.column, token := l.tokens.size,
        place := l.place }
    return { l with keys := some key :: l.keys.drop 1 }
  else some l

/-- Forgets the possible keys that are too far back; none of them must have been required. -/
def dropStaleKeys (l : Lexer) : Option Lexer := do
  let keys ← l.keys.mapM fun key =>
    match key with
    | some k =>
      if k.place.line < l.place.line || k.place.index + 1024 < l.place.index then
        if k.isRequired then none else some none
      else some (some k)
    | none => some none
  return { l with keys }

/-- Opens a block at a column if that is further in than the innermost one. -/
def openBlock (l : Lexer) (column token : Nat) (t : Token) : Lexer :=
  if !l.inFlow && l.indent?.all (· < column) then
    { l with indents := column :: l.indents, tokens := l.tokens.insertIdxIfInBounds token t }
  else l

/-- Closes the blocks that are further in than a column, or all of them. -/
def closeBlocks (l : Lexer) (column : Option Nat) : Lexer :=
  if l.inFlow then l
  else
    let isInner (n : Nat) : Bool := column.all (· < n)
    { l with
      indents := l.indents.dropWhile isInner
      tokens := l.tokens ++ (l.indents.takeWhile isInner).map fun _ => Token.blockEnd }

/-- Passes over blanks, comments and line breaks. -/
def skipGaps (inFlow : Bool) : List Char → Place → Bool → List Char × Place × Bool
  | [], p, allowed => ([], p, allowed)
  | c :: rest, p, allowed =>
    if c = '\ufeff' && p.index = 0 then skipGaps inFlow rest (p.forward 1) allowed
    else if c = ' ' || (c = '\t' && (inFlow || !allowed)) then
      skipGaps inFlow rest (p.forward 1) allowed
    else if c = '#' then skipComment rest (p.forward 1) allowed
    else if isBreak c then skipGaps inFlow rest p.nextLine (allowed || !inFlow)
    else (c :: rest, p, allowed)
where
  /-- Passes over the rest of a comment and what follows it. -/
  skipComment : List Char → Place → Bool → List Char × Place × Bool
  | [], p, allowed => ([], p, allowed)
  | c :: rest, p, allowed =>
    if isBreak c then skipGaps inFlow rest p.nextLine (allowed || !inFlow)
    else skipComment rest (p.forward 1) allowed

/-- Whether a character may stand in the name of an anchor. -/
def isNameChar (c : Char) : Bool :=
  let n := c.toNat
  c = '-' || c = '_' || (48 ≤ n && n ≤ 57) || (65 ≤ n && n ≤ 90) || (97 ≤ n && n ≤ 122)

/-- An anchor or an alias. -/
def lexName (l : Lexer) (make : String → Token) : Option Lexer := do
  let l := (← l.saveKey).allowKey false
  let name := (l.rest.drop 1).takeWhile isNameChar
  let l := l.skip (1 + name.length)
  if name.isEmpty || !(atGap l.rest || atOneOf ['?', ':', ',', ']', '\x7d', '%', '@', '\x60'] l.rest) then
    none
  else some (l.add (make (String.ofList name)))

/-- Whether a character may stand in the name of a tag. -/
def isTagChar (c : Char) : Bool :=
  isNameChar c || [';', '/', '?', ':', '@', '&', '=', '+', '$', '.', '%', '!', '~', '*', '\'', '(', ')'].contains c

/-- What the tags that every document knows start with. -/
def coreTag : String := "tag:yaml.org,2002:"

/-- A tag: written out between angle brackets, a core tag behind two marks, or a local one. -/
def lexTag (l : Lexer) : Option Lexer := do
  let l := (← l.saveKey).allowKey false
  let (name, length) ← match l.rest with
    | '!' :: '<' :: rest =>
      let name := rest.takeWhile fun c => isTagChar c || [',', '[', ']'].contains c
      if name.isEmpty || !atOneOf ['>'] (rest.drop name.length) then none
      else some (name, name.length + 3)
    | '!' :: '!' :: rest =>
      let name := rest.takeWhile isTagChar
      if name.isEmpty then none else some (coreTag.toList ++ name, name.length + 2)
    | _ :: rest =>
      let name := rest.takeWhile isTagChar
      if name.contains '!' then none else some ('!' :: name, name.length + 1)
    | [] => none
  let l := l.skip length
  if atGap l.rest || (l.inFlow && atOneOf [','] l.rest) then some (l.add (.tag (String.ofList name)))
  else none

/-- A directive, which names the version or a prefix of tags. -/
def lexDirective (l : Lexer) : Option Lexer := do
  let l := (← (l.closeBlocks none).dropKey).allowKey false
  let line := l.rest.takeWhile (!isBreak ·)
  let words := (String.ofList line).splitOn " " |>.filter (!·.isEmpty)
  let isVersion (s : String) : Bool := ["1.1", "1.2"].contains s
  let ends (more : List String) : Bool := more.head?.all fun w => w.toList.head? == some '#'
  let fits := match words with
    | "%YAML" :: version :: more => isVersion version && ends more
    | "%TAG" :: handle :: _ :: more => handle.toList.head? == some '!' && ends more
    | _ => false
  if fits then some ((l.skip line.length).add .directive) else none

/-- The start or end of a document. -/
def lexDocumentMark (l : Lexer) (t : Token) : Option Lexer := do
  return (((← (l.closeBlocks none).dropKey).allowKey false).skip 3).add t

/-- The start of a flow collection. -/
def lexFlowStart (l : Lexer) (t : Token) : Option Lexer := do
  let l ← l.saveKey
  return (({ l with keys := none :: l.keys }.allowKey true).skip 1).add t

/-- The end of a flow collection. -/
def lexFlowEnd (l : Lexer) (t : Token) : Option Lexer := do
  let l ← l.dropKey
  let l := if l.inFlow then { l with keys := l.keys.drop 1 } else l
  return ((l.allowKey false).skip 1).add t

/-- The comma between items of a flow collection. -/
def lexFlowEntry (l : Lexer) : Option Lexer := do
  return (((← l.dropKey).allowKey true).skip 1).add .flowEntry

/-- The dash before an item of a block sequence. -/
def lexBlockEntry (l : Lexer) : Option Lexer := do
  if !l.inFlow && !l.keyAllowed then none
  else
    let l := l.openBlock l.place.column l.tokens.size .blockSequenceStart
    return (((← l.dropKey).allowKey true).skip 1).add .blockEntry

/-- The question mark before a key. -/
def lexKey (l : Lexer) : Option Lexer := do
  if !l.inFlow && !l.keyAllowed then none
  else
    let l := l.openBlock l.place.column l.tokens.size .blockMappingStart
    return (((← l.dropKey).allowKey !l.inFlow).skip 1).add .key

/-- The colon behind a key, which may show that the node before it is one. -/
def lexValue (l : Lexer) : Option Lexer :=
  match l.keys with
  | some k :: keys =>
    let l := { l with tokens := l.tokens.insertIdxIfInBounds k.token .key }
    let l := l.openBlock k.place.column k.token .blockMappingStart
    some ((({ l with keys := none :: keys }.allowKey false).skip 1).add .value)
  | _ =>
    if !l.inFlow && !l.keyAllowed then none
    else
      let l := l.openBlock l.place.column l.tokens.size .blockMappingStart
      some (((l.allowKey !l.inFlow).skip 1).add .value)

/-- A block scalar. -/
def lexBlockScalar (l : Lexer) (literal : Bool) : Option Lexer := do
  let l := ((← l.dropKey).allowKey true).skip 1
  let r ← blockScalar literal l.indent? l.rest l.place
  return (l.goOn r).add (.scalar (String.ofList r.text.reverse) false)

/-- A quoted scalar. -/
def lexQuoted (l : Lexer) (read : List Char → Place → Gap → List Char → Option Reading) : Option Lexer := do
  let l := ((← l.saveKey).allowKey false).skip 1
  let r ← read l.rest l.place {} []
  return (l.goOn r).add (.scalar (String.ofList r.text.reverse) false)

/-- A plain scalar. -/
def lexPlain (l : Lexer) : Option Lexer := do
  let l := (← l.saveKey).allowKey false
  let indent := match l.indent? with
    | some n => n + 1
    | none => 0
  let (r, broken) ← plainScalar l.inFlow indent l.rest l.place {} []
  let l := (l.goOn r).add (.scalar (String.ofList r.text.reverse) true)
  return if broken then l.allowKey true else l

/-- Whether a plain scalar can start with a text. -/
def startsPlain (inFlow : Bool) : List Char → Bool
  | [] => false
  | c :: rest =>
    if c = '-' then !(match rest with | d :: _ => isBlank d | [] => false)
    else if c = '?' || c = ':' then !inFlow && !atGap rest
    else !(isBlank c || isBreak c ||
      [',', '[', ']', '\x7b', '\x7d', '#', '&', '*', '!', '|', '>', '\'', '"', '%', '@', '\x60'].contains c)

/-- Reads a token that does not start with a blank. -/
def lexToken (l : Lexer) : Option Lexer :=
  let flow := l.inFlow
  match l.rest with
  | [] => none
  | c :: rest =>
    if l.place.column = 0 && c = '%' then l.lexDirective
    else if l.place.column = 0 && atDocumentMark l.rest then
      l.lexDocumentMark (if c = '-' then .documentStart else .documentEnd)
    else if c = '[' then l.lexFlowStart .flowSequenceStart
    else if c = '\x7b' then l.lexFlowStart .flowMappingStart
    else if c = ']' then l.lexFlowEnd .flowSequenceEnd
    else if c = '\x7d' then l.lexFlowEnd .flowMappingEnd
    else if c = ',' then l.lexFlowEntry
    else if c = '-' && atGap rest then l.lexBlockEntry
    else if c = '?' && (flow || atGap rest) then l.lexKey
    else if c = ':' && (flow || atGap rest) then l.lexValue
    else if c = '*' then l.lexName .alias
    else if c = '&' then l.lexName .anchor
    else if c = '!' then l.lexTag
    else if c = '|' && !flow then l.lexBlockScalar true
    else if c = '>' && !flow then l.lexBlockScalar false
    else if c = '\'' then l.lexQuoted singleQuoted
    else if c = '"' then l.lexQuoted doubleQuoted
    else if startsPlain flow l.rest then l.lexPlain
    else none

/-- Reads tokens to the end of the text. Each takes a character at least. -/
def run : Nat → Lexer → Option Lexer
  | 0, _ => none
  | steps + 1, l => do
    let (rest, place, keyAllowed) := skipGaps l.inFlow l.rest l.place l.keyAllowed
    let l ← { l with rest, place, keyAllowed }.dropStaleKeys
    if l.rest.isEmpty then (l.closeBlocks none).dropKey
    else run steps (← (l.closeBlocks (some l.place.column)).lexToken)

end Lexer

/-- The tokens of a text. -/
def Token.ofText? (text : String) : Option (List Token) := do
  let s := text.toList
  if s.all isAdmitted then
    let l ← Lexer.run (s.length + 1) { rest := uniform s }
    return l.tokens.toList
  else none

end ClasspathAdvice.Yaml
