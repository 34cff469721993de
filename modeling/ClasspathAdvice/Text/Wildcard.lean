import ClasspathAdvice.Text.Split

/-!
# Wildcard patterns

In a pattern each `*` stands for any run of characters, the empty one included; all
other characters stand for themselves. The matcher takes the leftmost occurrence of
each part between two stars and wants the last part at the end of the text.
-/

namespace ClasspathAdvice.Text.Wildcard
set_option autoImplicit false

/-- What follows the leftmost occurrence of `part`. -/
def afterFirst (part : List Char) : List Char → Option (List Char)
  | [] => if part.isEmpty then some [] else none
  | c :: rest =>
    if part.isPrefixOf (c :: rest) then some ((c :: rest).drop part.length)
    else afterFirst part rest

/-- Whether the parts occur one after the other, the last of them at the end. -/
def matchesParts : List (List Char) → List Char → Bool
  | [], text => text.isEmpty
  | [last], text => last.isSuffixOf text
  | part :: parts, text =>
    match afterFirst part text with
    | some rest => matchesParts parts rest
    | none => false

/-- Whether a text is an instance of a pattern. -/
def isMatch (pattern text : String) : Bool :=
  let text := text.toList
  match splitAt '*' pattern.toList with
  | [] => text.isEmpty
  | [whole] => text == whole
  | first :: parts => first.isPrefixOf text && matchesParts parts (text.drop first.length)

end ClasspathAdvice.Text.Wildcard
