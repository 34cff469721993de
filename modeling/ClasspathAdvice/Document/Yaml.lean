import ClasspathAdvice.Document.Yaml.Token

/-!
# YAML

Nodes are read from tokens. Between the marks of a block collection every item, key and
value may be left out, and stands for the empty plain scalar then. A name given to a node
can be used from then on; within the node itself it leads nowhere. A text holds one
document at most.
-/

namespace ClasspathAdvice.Yaml
set_option autoImplicit false

/-- The tokens to come, and the named nodes so far, newest first. -/
structure Nodes where
  tokens : List Token
  named : List (String × Document) := []

namespace Nodes

/-- Gives a node its name, if it has one. -/
def bind (n : Nodes) (name : Option String) (d : Document) : Nodes :=
  match name with
  | some name => { n with named := (name, d) :: n.named }
  | none => n

/-- Goes on behind some tokens. -/
def goOn (n : Nodes) (tokens : List Token) : Nodes := { n with tokens }

end Nodes

/-- Reads a node, or some of its parts, and tells what is left. -/
abbrev NodeReader : Type := Nodes → Option (Document × Nodes)

/-- What stands for a node that is left out. -/
def emptyNode : Document := .plain ""

/-- Collections nested deeper than this are malformed. -/
def depthLimit : Nat := 128

/-- The name and the tag before a node, in either order. -/
def properties : List Token → Option String × Option String × List Token
  | .anchor name :: .tag t :: rest | .tag t :: .anchor name :: rest => (some name, some t, rest)
  | .anchor name :: rest => (some name, none, rest)
  | .tag t :: rest => (none, some t, rest)
  | rest => (none, none, rest)

/-- The tag without its mark, if it is one of the writer's own. -/
def ownTag? (t : String) : Option String :=
  match t.toList with
  | '!' :: name => some (String.ofList name)
  | _ => none

/-- The tags of scalars that stand for something other than their text. -/
def literalTags : List String := ["bool", "int", "float", "null"].map (Lexer.coreTag ++ ·)

/-- The document of a scalar under a tag. -/
def scalarNode (tag : Option String) (text : String) (isPlain : Bool) : Document :=
  let bare := if isPlain then Document.plain text else .text text
  match tag with
  | none | some "!" => bare
  | some t =>
    match ownTag? t with
    | some name => .tagged name bare
    | none => if literalTags.contains t then bare else .text text

/-- The document of a collection under a tag. -/
def collectionNode (tag : Option String) (d : Document) : Document :=
  match tag.bind ownTag? with
  | some name => .tagged name d
  | none => d

/-- Reads a node unless one of the tokens follows that show it is left out. -/
def orEmpty (shows : Token → Bool) (read : NodeReader) : NodeReader := fun n =>
  if n.tokens.head?.any shows then some (emptyNode, n) else read n

/-- Whether a token shows that an item of a block sequence is left out. -/
def endsItem (indentless : Bool) (t : Token) : Bool :=
  [.blockEntry, .blockEnd].contains t || (indentless && [.key, .value].contains t)

/-- Whether a token shows that a key or value of a block mapping is left out. -/
def endsField (t : Token) : Bool := [.key, .value, .blockEnd].contains t

/-- Whether a token shows that a value in a flow collection is left out. -/
def endsFlow (close : Token) (t : Token) : Bool := [.flowEntry, close].contains t

/-- Whether a token shows that a key in a flow collection is left out. -/
def endsKey (close : Token) (t : Token) : Bool := t == .value || endsFlow close t

/-- Reads the key of an entry that is an item of a flow sequence. The token that shows that it is
left out is passed over. -/
def itemKey (read : NodeReader) : NodeReader := fun n =>
  match n.tokens with
  | t :: rest => if endsKey .flowSequenceEnd t then some (emptyNode, n.goOn rest) else read n
  | [] => none

/-- Reads the value of an entry behind its key, if a mark announces one. -/
def valueBehind (shows : Token → Bool) (read : NodeReader) : NodeReader := fun n =>
  match n.tokens with
  | .value :: rest => orEmpty shows read (n.goOn rest)
  | _ => some (emptyNode, n)

/-- Passes over the comma before an item that is not the first. -/
def separated (isFirst : Bool) (close : Token) (n : Nodes) : Option Nodes :=
  match n.tokens with
  | t :: rest =>
    if isFirst || t == close then some n
    else if t == .flowEntry then some (n.goOn rest) else none
  | [] => none

mutual

/-- Reads a node within `depth` collections. A block collection, or a block sequence without
indentation of its own, is read only where one may stand. -/
def node : Nat → Bool → Bool → Nat → NodeReader
  | 0, _, _, _, _ => none
  | steps + 1, block, indentless, depth, n =>
    match n.tokens with
    | .alias name :: rest => (n.named.lookup name).map fun d => (d, n.goOn rest)
    | tokens =>
      let (name, tag, tokens) := properties tokens
      let scalar (d : Document) (rest : List Token) := some (d, (n.goOn rest).bind name d)
      let collection (read : NodeReader) (rest : List Token) := do
        let (d, n) ← read ((n.goOn rest).bind name .malformed)
        let d := collectionNode tag (if depth < depthLimit then d else .malformed)
        return (d, n.bind name d)
      let orNothing :=
        if name.isSome || tag.isSome then scalar (scalarNode tag "" true) tokens else none
      match tokens with
      | .scalar text isPlain :: rest => scalar (scalarNode tag text isPlain) rest
      | .flowSequenceStart :: rest => collection (flowItems steps (depth + 1) []) rest
      | .flowMappingStart :: rest => collection (flowFields steps (depth + 1) []) rest
      | .blockEntry :: _ =>
        if indentless then collection (blockItems steps true (depth + 1) []) tokens else orNothing
      | .blockSequenceStart :: rest =>
        if block then collection (blockItems steps false (depth + 1) []) rest else orNothing
      | .blockMappingStart :: rest =>
        if block then collection (blockFields steps (depth + 1) []) rest else orNothing
      | _ => orNothing

/-- Reads the items of a block sequence after those read already, which are in reverse. -/
def blockItems : Nat → Bool → Nat → List Document → NodeReader
  | 0, _, _, _, _ => none
  | steps + 1, indentless, depth, items, n =>
    match n.tokens with
    | .blockEntry :: rest => do
      let (d, n) ← orEmpty (endsItem indentless) (node steps true false depth) (n.goOn rest)
      blockItems steps indentless depth (d :: items) n
    | tokens =>
      if indentless then some (.list items.reverse, n)
      else match tokens with
        | .blockEnd :: rest => some (.list items.reverse, n.goOn rest)
        | _ => none

/-- Reads the entries of a block mapping after those read already. -/
def blockFields : Nat → Nat → List (Document × Document) → NodeReader
  | 0, _, _, _ => none
  | steps + 1, depth, entries, n =>
    match n.tokens with
    | .key :: rest => do
      let (key, n) ← orEmpty endsField (node steps true true depth) (n.goOn rest)
      let (value, n) ← valueBehind endsField (node steps true true depth) n
      blockFields steps depth ((key, value) :: entries) n
    | .blockEnd :: rest => some (.table entries.reverse, n.goOn rest)
    | _ => none

/-- Reads the items of a flow sequence after those read already. An item with a key is a mapping
of its own. -/
def flowItems : Nat → Nat → List Document → NodeReader
  | 0, _, _, _ => none
  | steps + 1, depth, items, n => do
    let n ← separated items.isEmpty .flowSequenceEnd n
    match n.tokens with
    | .flowSequenceEnd :: rest => return (.list items.reverse, n.goOn rest)
    | .key :: rest =>
      let inner := node steps false false (depth + 1)
      let (key, n) ← itemKey inner (n.goOn rest)
      let (value, n) ← valueBehind (endsFlow .flowSequenceEnd) inner n
      let entry := if depth < depthLimit then Document.table [(key, value)] else .malformed
      flowItems steps depth (entry :: items) n
    | _ =>
      let (d, n) ← node steps false false depth n
      flowItems steps depth (d :: items) n

/-- Reads the entries of a flow mapping after those read already. -/
def flowFields : Nat → Nat → List (Document × Document) → NodeReader
  | 0, _, _, _ => none
  | steps + 1, depth, entries, n => do
    let n ← separated entries.isEmpty .flowMappingEnd n
    match n.tokens with
    | .flowMappingEnd :: rest => return (.table entries.reverse, n.goOn rest)
    | .key :: rest =>
      let (key, n) ← orEmpty (endsKey .flowMappingEnd) (node steps false false depth) (n.goOn rest)
      let (value, n) ← valueBehind (endsFlow .flowMappingEnd) (node steps false false depth) n
      flowFields steps depth ((key, value) :: entries) n
    | _ =>
      let (key, n) ← node steps false false depth n
      flowFields steps depth ((key, emptyNode) :: entries) n

end

/-- Reads the content of the document; each step takes a token at least, or is followed by one
that does. -/
def content (tokens : List Token) : Option (Document × List Token) := do
  let (d, n) ← node (2 * tokens.length + 2) true false 0 { tokens }
  return (d, n.tokens)

/-- Whether a token shows that a document has no content. -/
def endsDocument (t : Token) : Bool := [.directive, .documentStart, .documentEnd].contains t

/-- The document that tokens write. -/
def ofTokens? (tokens : List Token) : Option Document := do
  let isMark (t : Token) : Bool := t == .documentEnd
  let (d, rest) ← match tokens with
    | [] => some (emptyNode, [])
    | .directive :: _ | .documentStart :: _ =>
      match tokens.dropWhile (· == .directive) with
      | .documentStart :: rest =>
        if rest.head?.all endsDocument then some (emptyNode, rest) else content rest
      | _ => none
    | _ => content tokens
  if (rest.dropWhile isMark).isEmpty then some d else none

/-- The document that a YAML text holds. -/
def read (text : String) : Option Document := (Token.ofText? text).bind ofTokens?

end ClasspathAdvice.Yaml
