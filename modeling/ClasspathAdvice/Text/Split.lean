/-!
# Splitting text at a character

`splitAt c` cuts a text at every `c` and keeps empty parts, so joining the parts
with `c` gives the text back (`joinWith_splitAt`).
-/

namespace ClasspathAdvice.Text
set_option autoImplicit false

/-- The parts of a text between the occurrences of `c`; there is always one. -/
def splitAt (c : Char) : List Char → List (List Char)
  | [] => [[]]
  | x :: rest =>
    if x = c then [] :: splitAt c rest
    else match splitAt c rest with
      | [] => [[x]]
      | part :: parts => (x :: part) :: parts

/-- The parts with `c` between neighbours. -/
def joinWith (c : Char) : List (List Char) → List Char
  | [] => []
  | [part] => part
  | part :: parts => part ++ c :: joinWith c parts

theorem splitAt_ne_nil (c : Char) (s : List Char) : splitAt c s ≠ [] := by
  cases s with
  | nil => simp [splitAt]
  | cons x rest =>
    simp only [splitAt]
    split
    · simp
    · split <;> simp

theorem joinWith_splitAt (c : Char) (s : List Char) : joinWith c (splitAt c s) = s := by
  induction s with
  | nil => rfl
  | cons x rest ih =>
    simp only [splitAt]
    cases hs : splitAt c rest with
    | nil => exact absurd hs (splitAt_ne_nil c rest)
    | cons part parts =>
      rw [hs] at ih
      split
      · rename_i h
        simp [joinWith, ih, h]
      · cases parts with
        | nil => simpa [joinWith] using ih
        | cons q qs => simpa [joinWith] using ih

/-- No part holds the character that the text is cut at. -/
theorem not_mem_of_mem_splitAt {c : Char} {s part : List Char} (h : part ∈ splitAt c s) :
    c ∉ part := by
  induction s generalizing part with
  | nil =>
    rw [List.mem_singleton.1 h]
    exact List.not_mem_nil
  | cons x rest ih =>
    simp only [splitAt] at h
    split at h
    · rcases List.mem_cons.1 h with rfl | h
      · exact List.not_mem_nil
      · exact ih h
    · rename_i ne
      cases hs : splitAt c rest with
      | nil => exact absurd hs (splitAt_ne_nil c rest)
      | cons first parts =>
        rw [hs] at h ih
        rcases List.mem_cons.1 h with rfl | h
        · intro mem
          rcases List.mem_cons.1 mem with rfl | mem
          · exact ne rfl
          · exact ih List.mem_cons_self mem
        · exact ih (List.mem_cons_of_mem _ h)

/-- A part ends where the character comes first. -/
theorem splitAt_append_cons {c : Char} {part : List Char} (clean : c ∉ part) (rest : List Char) :
    splitAt c (part ++ c :: rest) = part :: splitAt c rest := by
  induction part with
  | nil => simp [splitAt]
  | cons x part ih =>
    rw [List.mem_cons, not_or] at clean
    rw [List.cons_append, splitAt, if_neg (Ne.symm clean.1), ih clean.2]

/-- The texts with `separator` between neighbours. -/
def joined (separator : String) : List String → String
  | [] => ""
  | [s] => s
  | s :: rest => s ++ separator ++ joined separator rest

/-! ## Characters that do not occur -/

theorem not_mem_joined {c : Char} {separator : String} {l : List String}
    (between : c ∉ separator.toList) (clean : ∀ s ∈ l, c ∉ s.toList) :
    c ∉ (joined separator l).toList := by
  fun_induction joined separator l with
  | case1 => exact List.not_mem_nil
  | case2 s => exact clean s List.mem_cons_self
  | case3 s rest _ ih =>
    obtain ⟨first, others⟩ := List.forall_mem_cons.1 clean
    simp only [String.toList_append, List.mem_append, not_or]
    exact ⟨⟨first, between⟩, ih others⟩

theorem not_mem_toString {c : Char} (noDigit : c.isDigit = false) (n : Nat) :
    c ∉ (toString n).toList := by
  have digits : (toString n).toList = Nat.toDigits 10 n := Nat.toList_repr
  rw [digits]
  intro mem
  have isDigit := Nat.isDigit_of_mem_toDigits (by decide) (by decide) mem
  rw [noDigit] at isDigit
  cases isDigit

end ClasspathAdvice.Text
