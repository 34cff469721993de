import ClasspathAdvice.Text.Split
import ClasspathAdvice.Text.Styled

/-!
# Escape sequences taken out

`withoutEscapes` takes every escape sequence that selects or resets a style out of a text, wherever
it stands and whatever its parameters. A text in which no escape sequence can begin (`Unescaped`)
passes as it is, and each sequence that rendering puts around a span goes, so a styled text that is
rendered with styles and then stripped is the text rendered without (`withoutEscapes_render`).
-/

namespace ClasspathAdvice.Text
set_option autoImplicit false

/-- Whether a character may be among the parameters of an escape sequence. -/
def isParameter (c : Char) : Bool := c.isDigit || c == ';'

/-- What follows parameters and the letter that ends them. -/
def afterParameters? : List Char → Option (List Char)
  | [] => none
  | c :: rest =>
    if c = 'm' then some rest else if isParameter c then afterParameters? rest else none

/-- What follows the escape sequence that a text begins with. -/
def afterEscape? : List Char → Option (List Char)
  | '\x1b' :: '[' :: rest => afterParameters? rest
  | _ => none

theorem length_afterParameters? {l rest : List Char} (h : afterParameters? l = some rest) :
    rest.length < l.length := by
  fun_induction afterParameters? l with
  | case1 => cases h
  | case2 rest =>
    cases h
    exact Nat.lt_succ_self _
  | case3 c rest _ _ ih => exact Nat.lt_succ_of_lt (ih h)
  | case4 => cases h

theorem length_afterEscape? {l rest : List Char} (h : afterEscape? l = some rest) :
    rest.length < l.length := by
  fun_cases afterEscape? l with
  | case1 behind =>
    have shorter := length_afterParameters? h
    simp only [List.length_cons]
    omega
  | case2 l other =>
    rw [afterEscape?] at h
    · cases h
    · exact other

/-- A text with all escape sequences taken out. -/
def dropEscapes : List Char → List Char
  | [] => []
  | c :: rest =>
    match h : afterEscape? (c :: rest) with
    | some behind =>
      have := length_afterEscape? h
      dropEscapes behind
    | none => c :: dropEscapes rest
termination_by l => l.length
decreasing_by
  · exact this
  · exact Nat.lt_succ_self _

/-- A text with all escape sequences taken out. -/
def withoutEscapes (s : String) : String := String.ofList (dropEscapes s.toList)

/-- No escape sequence can begin in the text. -/
def Unescaped (s : String) : Prop := '\x1b' ∉ s.toList

/-- No escape sequence can begin in a styled text. -/
def StyledText.Unescaped (t : StyledText) : Prop := ∀ s ∈ t, Text.Unescaped s.text

/-- No escape sequence can begin in any of the lines. -/
def UnescapedLines (lines : List StyledText) : Prop := ∀ line ∈ lines, line.Unescaped

variable {s t : String} {l : List Char} {codes : String} {span : Span} {line : StyledText}
  {lines others : List StyledText}

/-! ## Texts without escape sequences -/

@[simp] theorem unescaped_append : Unescaped (s ++ t) ↔ Unescaped s ∧ Unescaped t := by
  simp only [Unescaped, String.toList_append, List.mem_append, not_or]

theorem unescaped_ofList : Unescaped (String.ofList l) ↔ '\x1b' ∉ l := by
  rw [Unescaped, String.toList_ofList]

/-- A text that is written out shows its characters. -/
theorem Unescaped.literal (clean : l.contains '\x1b' = false) : Unescaped (String.ofList l) := by
  rw [unescaped_ofList, ← List.contains_iff_mem, clean]
  exact Bool.false_ne_true

theorem unescaped_joined {separator : String} {l : List String} (between : Unescaped separator)
    (clean : ∀ s ∈ l, Unescaped s) : Unescaped (joined separator l) :=
  not_mem_joined between clean

theorem unescaped_toString (n : Nat) : Unescaped (toString n) := not_mem_toString rfl n

theorem unescaped_replicate {c : Char} (ne : '\x1b' ≠ c) (n : Nat) :
    Unescaped (String.ofList (List.replicate n c)) :=
  unescaped_ofList.2 fun mem => ne (List.eq_of_mem_replicate mem)

@[simp] theorem text_plain (text : String) : (plain text).text = text := rfl

@[simp] theorem Style.text_span (style : Style) (text : String) : (style.span text).text = text :=
  rfl

theorem StyledText.Unescaped.nil : StyledText.Unescaped [] :=
  fun _ mem => absurd mem List.not_mem_nil

@[simp] theorem StyledText.unescaped_cons :
    StyledText.Unescaped (span :: line) ↔ Text.Unescaped span.text ∧ line.Unescaped :=
  List.forall_mem_cons

theorem UnescapedLines.nil : UnescapedLines [] :=
  fun _ mem => absurd mem List.not_mem_nil

@[simp] theorem unescapedLines_cons :
    UnescapedLines (line :: lines) ↔ line.Unescaped ∧ UnescapedLines lines :=
  List.forall_mem_cons

@[simp] theorem unescapedLines_append :
    UnescapedLines (lines ++ others) ↔ UnescapedLines lines ∧ UnescapedLines others :=
  List.forall_mem_append

theorem unescapedLines_map {α : Type} {f : α → StyledText} {l : List α} :
    UnescapedLines (l.map f) ↔ ∀ a ∈ l, (f a).Unescaped :=
  List.forall_mem_map

theorem unescapedLines_flatMap {α : Type} {f : α → List StyledText} {l : List α}
    (clean : ∀ a ∈ l, UnescapedLines (f a)) : UnescapedLines (l.flatMap f) := by
  intro line mem
  obtain ⟨a, listed, mem⟩ := List.mem_flatMap.1 mem
  exact clean a listed line mem

theorem unescaped_unlines (clean : UnescapedLines lines) : (unlines lines).Unescaped := by
  intro s mem
  obtain ⟨line, listed, mem⟩ := List.mem_flatMap.1 mem
  rcases List.mem_append.1 mem with mem | mem
  · exact clean line listed s mem
  · rw [List.mem_singleton.1 mem]
    exact .literal rfl

/-! ## Taking escape sequences out -/

theorem dropEscapes_nil : dropEscapes [] = [] := by rw [dropEscapes]

/-- What cannot begin an escape sequence stays. -/
theorem dropEscapes_append (clean : '\x1b' ∉ l) (rest : List Char) :
    dropEscapes (l ++ rest) = l ++ dropEscapes rest := by
  induction l with
  | nil => rfl
  | cons c l ih =>
    rw [List.mem_cons, not_or] at clean
    have none : afterEscape? (c :: (l ++ rest)) = none := by
      rw [afterEscape?]
      intro _ same
      exact clean.1 (List.head_eq_of_cons_eq same).symm
    rw [List.cons_append, dropEscapes]
    split
    · rename_i some
      cases none.symm.trans some
    · rw [ih clean.2, List.cons_append]

theorem afterParameters?_append (params : l.all isParameter = true) (rest : List Char) :
    afterParameters? (l ++ 'm' :: rest) = some rest := by
  induction l with
  | nil => rfl
  | cons c l ih =>
    rw [List.all_cons, Bool.and_eq_true] at params
    obtain ⟨first, others⟩ := params
    have ne : c ≠ 'm' := by
      rintro rfl
      cases first
    rw [List.cons_append, afterParameters?, if_neg ne, if_pos first, ih others]

/-- An escape sequence goes. -/
theorem dropEscapes_escape (params : codes.toList.all isParameter = true) (rest : List Char) :
    dropEscapes (escape codes ++ rest) = dropEscapes rest := by
  have ends : afterEscape? (escape codes ++ rest) = some rest := by
    rw [escape, List.cons_append, List.cons_append, List.append_assoc]
    exact afterParameters?_append params rest
  rw [escape, List.cons_append, List.cons_append, List.append_assoc] at ends ⊢
  rw [dropEscapes]
  split
  · rename_i some
    rw [ends] at some
    cases some
    rfl
  · rename_i none
    cases ends.symm.trans none

/-- Nothing is put behind resets where there are none. -/
theorem afterResets_eq (clean : '\x1b' ∉ l) (inserted : List Char) :
    afterResets inserted l = l := by
  fun_induction afterResets inserted l with
  | case1 rest => exact absurd List.mem_cons_self clean
  | case2 c rest _ ih => rw [ih fun mem => clean (List.mem_cons_of_mem _ mem)]
  | case3 => rfl

/-! ## Spans and styled texts -/

theorem all_isParameter_codes (style : Style) : style.codes.toList.all isParameter = true := by
  cases style <;> decide

/-- A rendered span is stripped to its text. -/
theorem dropEscapes_span (clean : Unescaped span.text) (rest : List Char) :
    dropEscapes ((span.render true).toList ++ rest) =
      (span.render false).toList ++ dropEscapes rest := by
  obtain ⟨style, text⟩ := span
  cases style with
  | none => exact dropEscapes_append clean rest
  | some style =>
    have written : (Span.render true ⟨some style, text⟩).toList ++ rest =
        escape style.codes ++ (text.toList ++ (escape "0" ++ rest)) := by
      simp only [Span.render, Style.apply, if_true, String.toList_ofList, afterResets_eq clean,
        List.append_assoc]
    rw [written, dropEscapes_escape (all_isParameter_codes style), dropEscapes_append clean,
      dropEscapes_escape (by decide)]
    rfl

/-- A styled text in which no escape sequence begins, rendered with styles and stripped of their
escape sequences, is the text rendered without styles. -/
theorem withoutEscapes_render {t : StyledText} (clean : t.Unescaped) :
    withoutEscapes (t.render true) = t.render false := by
  have stripped : dropEscapes (t.render true).toList = (t.render false).toList := by
    induction t with
    | nil => exact dropEscapes_nil
    | cons span t ih =>
      obtain ⟨first, others⟩ := List.forall_mem_cons.1 clean
      rw [StyledText.render_cons, StyledText.render_cons, String.toList_append,
        String.toList_append, dropEscapes_span first, ih others]
  rw [withoutEscapes, stripped, String.ofList_toList]

end ClasspathAdvice.Text
