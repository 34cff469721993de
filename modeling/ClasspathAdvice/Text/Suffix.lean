/-!
# Suffixes up to ASCII case

Configuration names are recognised by how they end, whatever the case of their
ASCII letters.
-/

namespace ClasspathAdvice.Text
set_option autoImplicit false

/-- ASCII letters in lower case; other characters stay. -/
def lowered (s : List Char) : List Char := s.map Char.toLower

/-- Whether `value` ends with `suffix`, ASCII case aside. -/
def endsWith (value suffix : String) : Bool :=
  (lowered suffix.toList).isSuffixOf (lowered value.toList)

theorem endsWith_iff {value suffix : String} :
    endsWith value suffix = true ↔ ∃ front, lowered value.toList = front ++ lowered suffix.toList := by
  simp only [endsWith, List.isSuffixOf_iff_suffix, List.IsSuffix]
  exact ⟨fun ⟨t, h⟩ => ⟨t, h.symm⟩, fun ⟨t, h⟩ => ⟨t, h.symm⟩⟩

/-- Then the end of the value is the suffix in some mixture of cases. -/
theorem endsWith_iff_exists {value suffix : String} : endsWith value suffix = true ↔
    ∃ front written, value.toList = front ++ written ∧ lowered written = lowered suffix.toList := by
  rw [endsWith_iff]
  simp only [lowered, List.map_eq_append_iff]
  constructor
  · rintro ⟨-, front, written, split, -, same⟩
    exact ⟨front, written, split, same⟩
  · rintro ⟨front, written, split, same⟩
    exact ⟨_, front, written, split, rfl, same⟩

end ClasspathAdvice.Text
