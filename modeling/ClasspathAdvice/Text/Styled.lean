/-!
# Styled text

A styled text is a list of spans, each plain or in a style. Rendered with styles, a span
in a style stands between the escape sequence that selects the style and the one that
resets it; rendered without, it stands there as it is.
-/

namespace ClasspathAdvice.Text
set_option autoImplicit false

/-- The ways in which text stands out. -/
inductive Style where
  | bold
  | dimmed
  | green
  | red
  | yellow
  | boldGreen
  | boldYellow
  deriving DecidableEq, Repr

/-- The parameters of the escape sequence that selects a style. -/
def Style.codes : Style → String
  | bold => "1"
  | dimmed => "2"
  | red => "31"
  | green => "32"
  | yellow => "33"
  | boldGreen => "1;32"
  | boldYellow => "1;33"

/-- The escape sequence with some parameters. -/
def escape (codes : String) : List Char := '\x1b' :: '[' :: codes.toList ++ ['m']

/-- Puts a text behind every reset of styles in another. -/
def afterResets (inserted : List Char) : List Char → List Char
  | '\x1b' :: '[' :: '0' :: 'm' :: rest => escape "0" ++ inserted ++ afterResets inserted rest
  | c :: rest => c :: afterResets inserted rest
  | [] => []

/-- A text in a style. The style is selected again where the text itself resets it. -/
def Style.apply (s : Style) (text : String) : String :=
  let select := escape s.codes
  String.ofList (select ++ afterResets select text.toList ++ escape "0")

/-- A piece of text, plain or in a style. -/
structure Span where
  style : Option Style := none
  text : String
  deriving DecidableEq, Repr

/-- Text in pieces. -/
abbrev StyledText := List Span

/-- Text without style. -/
def plain (text : String) : Span := { text }

/-- Text in a style. -/
def Style.span (s : Style) (text : String) : Span := { style := some s, text }

/-- A piece of text, with its style or without. -/
def Span.render (colors : Bool) (s : Span) : String :=
  match s.style with
  | some style => if colors then style.apply s.text else s.text
  | none => s.text

/-- A styled text, with styles or without. -/
def StyledText.render (colors : Bool) (t : StyledText) : String :=
  t.foldl (fun written s => written ++ s.render colors) ""

/-- Lines, each with its end. -/
def unlines (lines : List StyledText) : StyledText := lines.flatMap (· ++ [plain "\n"])

@[simp] theorem StyledText.render_nil (colors : Bool) : StyledText.render colors [] = "" := rfl

@[simp] theorem StyledText.render_cons (colors : Bool) (s : Span) (t : StyledText) :
    StyledText.render colors (s :: t) = s.render colors ++ StyledText.render colors t := by
  have from_written : ∀ (t : StyledText) (written : String),
      t.foldl (fun written s => written ++ s.render colors) written =
        written ++ t.foldl (fun written s => written ++ s.render colors) "" := by
    intro t
    induction t with
    | nil => simp
    | cons s t ih =>
      intro written
      rw [List.foldl_cons, List.foldl_cons, ih, ih (_ ++ _), String.empty_append, String.append_assoc]
  rw [render, List.foldl_cons, from_written, String.empty_append]
  rfl

@[simp] theorem StyledText.render_append (colors : Bool) (t u : StyledText) :
    StyledText.render colors (t ++ u) = StyledText.render colors t ++ StyledText.render colors u := by
  induction t with
  | nil => simp
  | cons s t ih => rw [List.cons_append, render_cons, render_cons, ih, String.append_assoc]

theorem unlines_append (lines others : List StyledText) :
    unlines (lines ++ others) = unlines lines ++ unlines others := List.flatMap_append

theorem unlines_flatten (blocks : List (List StyledText)) :
    unlines blocks.flatten = blocks.flatMap unlines := by
  induction blocks with
  | nil => rfl
  | cons block blocks ih => rw [List.flatten_cons, unlines_append, ih, List.flatMap_cons]

theorem unlines_cons (line : StyledText) (lines : List StyledText) :
    unlines (line :: lines) = line ++ plain "\n" :: unlines lines := by
  simp [unlines]

end ClasspathAdvice.Text
