import ClasspathAdvice.Advice.Reduction

/-!
# Which usage a declaration is paired with

Declarations and usages are paired variant by variant, in order (`pairs_of_variant`). So
nothing is lost: each is in a pair or left over.
-/

namespace ClasspathAdvice.Reduction
set_option autoImplicit false

/-- The first element that passes a test is the first of those that pass it. -/
theorem filter_of_find? {α : Type} {p : α → Bool} {l : List α} {a : α} (h : l.find? p = some a) :
    l.filter p = a :: (l.eraseP p).filter p := by
  induction l with
  | nil => simp at h
  | cons b l ih =>
    by_cases hb : p b = true
    · obtain rfl : b = a := by simpa [hb] using h
      simp [hb]
    · simp only [List.find?_cons, hb] at h
      simpa [hb] using ih h

theorem cons_eraseP_perm {α : Type} {p : α → Bool} {l : List α} {a : α} (h : l.find? p = some a) :
    (a :: l.eraseP p).Perm l := by
  induction l with
  | nil => simp at h
  | cons b l ih =>
    by_cases hb : p b = true
    · obtain rfl : b = a := by simpa [hb] using h
      simp [hb]
    · simp only [List.find?_cons, hb] at h
      rw [List.eraseP_cons_of_neg hb]
      exact (List.Perm.swap b a _).trans ((ih h).cons b)

/-- Erasing what passes one test keeps what passes another. -/
theorem filter_eraseP {α : Type} {p q : α → Bool} (l : List α)
    (apart : ∀ a, p a = true → q a = false) : (l.eraseP p).filter q = l.filter q := by
  induction l with
  | nil => rfl
  | cons b l ih =>
    by_cases hb : p b = true
    · simp [hb, apart b hb]
    · simp [hb, List.filter_cons, ih]

variable {declared : List Declaration} {usages : List Usage} {d : Declaration} {u : Usage}

/-- The declarations of a variant, in order. -/
def declaredIn (v : Variant) (declared : List Declaration) : List Declaration :=
  declared.filter (·.variant == v)

/-- The usages of a variant, in order. -/
def usagesIn (v : Variant) (usages : List Usage) : List Usage := usages.filter (·.variant == v)

theorem declaredIn_cons_self : declaredIn d.variant (d :: declared) = d :: declaredIn d.variant declared := by
  simp [declaredIn]

theorem declaredIn_cons_ne {v : Variant} (h : d.variant ≠ v) :
    declaredIn v (d :: declared) = declaredIn v declared := by
  simp [declaredIn, h]

/-- What is paired is of one variant. -/
theorem variant_of_mem_pairs (h : (d, u) ∈ (pair declared usages).pairs) : u.variant = d.variant := by
  fun_induction pair declared usages with
  | case1 usages => exact absurd h List.not_mem_nil
  | case2 e declared usages w found rest ih =>
    rcases List.mem_cons.1 h with eq | h
    · obtain ⟨rfl, rfl⟩ := Prod.mk.inj eq
      simpa using List.find?_some found
    · exact ih h
  | case3 e declared usages missing rest ih => exact ih h

/-- In each variant the declarations are paired with the usages in order; what is left of
either stays. -/
theorem pairs_of_variant (v : Variant) :
    (pair declared usages).pairs.filter (·.1.variant == v) =
        (declaredIn v declared).zip (usagesIn v usages) ∧
      declaredIn v (pair declared usages).unpaired =
        (declaredIn v declared).drop (usagesIn v usages).length ∧
      usagesIn v (pair declared usages).remaining =
        (usagesIn v usages).drop (declaredIn v declared).length := by
  fun_induction pair declared usages with
  | case1 usages => simp [declaredIn]
  | case2 d declared usages u found rest ih =>
    by_cases hv : d.variant = v
    · subst hv
      have first : usagesIn d.variant usages =
          u :: usagesIn d.variant (usages.eraseP (·.variant == d.variant)) := filter_of_find? found
      rw [first, declaredIn_cons_self]
      refine ⟨?_, ih.2.1, ih.2.2⟩
      rw [List.zip_cons_cons, ← ih.1, List.filter_cons, if_pos (by simp)]
    · have others : usagesIn v (usages.eraseP (·.variant == d.variant)) = usagesIn v usages := by
        refine filter_eraseP usages fun w hw => ?_
        rw [beq_iff_eq] at hw
        simpa [hw] using hv
      rw [others] at ih
      rw [declaredIn_cons_ne hv]
      refine ⟨?_, ih.2.1, ih.2.2⟩
      rw [← ih.1, List.filter_cons, if_neg (by simpa using hv)]
  | case3 d declared usages missing rest ih =>
    by_cases hv : d.variant = v
    · subst hv
      have none : usagesIn d.variant usages = [] := by
        rw [usagesIn, List.filter_eq_nil_iff]
        exact List.find?_eq_none.1 missing
      rw [none] at ih ⊢
      rw [declaredIn_cons_self, declaredIn_cons_self, ih.1, ih.2.1, ih.2.2]
      simp
    · rw [declaredIn_cons_ne hv, declaredIn_cons_ne hv]
      exact ih

/-- The usages that are paired and those that are left are all usages. -/
theorem usages_perm :
    ((pair declared usages).pairs.map Prod.snd ++ (pair declared usages).remaining).Perm usages := by
  fun_induction pair declared usages with
  | case1 usages => exact .refl _
  | case2 d declared usages u found rest ih =>
    exact (ih.cons u).trans (cons_eraseP_perm found)
  | case3 d declared usages missing rest ih => exact ih

/-- The declarations that are paired and those that are left are all declarations. -/
theorem declared_perm :
    ((pair declared usages).pairs.map Prod.fst ++ (pair declared usages).unpaired).Perm declared := by
  fun_induction pair declared usages with
  | case1 usages => exact .refl _
  | case2 d declared usages u found rest ih => exact ih.cons d
  | case3 d declared usages missing rest ih => exact List.perm_middle.trans (ih.cons d)

section

variable {e : Declaration × Usage}

theorem fst_mem_of_pair (h : e ∈ (pair declared usages).pairs) : e.1 ∈ declared :=
  declared_perm.subset (List.mem_append_left _ (List.mem_map.2 ⟨e, h, rfl⟩))

theorem snd_mem_of_pair (h : e ∈ (pair declared usages).pairs) : e.2 ∈ usages :=
  usages_perm.subset (List.mem_append_left _ (List.mem_map.2 ⟨e, h, rfl⟩))

theorem mem_of_unpaired (h : d ∈ (pair declared usages).unpaired) : d ∈ declared :=
  declared_perm.subset (List.mem_append_right _ h)

theorem mem_of_remaining (h : u ∈ (pair declared usages).remaining) : u ∈ usages :=
  usages_perm.subset (List.mem_append_right _ h)

/-- A usage is paired or left. -/
theorem paired_or_remaining (declared : List Declaration) (h : u ∈ usages) :
    (∃ d, (d, u) ∈ (pair declared usages).pairs) ∨ u ∈ (pair declared usages).remaining := by
  rcases List.mem_append.1 ((@usages_perm declared usages).symm.subset h) with paired | left
  · obtain ⟨⟨d, w⟩, mem, rfl⟩ := List.mem_map.1 paired
    exact .inl ⟨d, mem⟩
  · exact .inr left

/-- A declaration is paired or left. -/
theorem paired_or_unpaired (usages : List Usage) (h : d ∈ declared) :
    (∃ u, (d, u) ∈ (pair declared usages).pairs) ∨ d ∈ (pair declared usages).unpaired := by
  rcases List.mem_append.1 ((@declared_perm declared usages).symm.subset h) with paired | left
  · obtain ⟨⟨e, u⟩, mem, rfl⟩ := List.mem_map.1 paired
    exact .inl ⟨u, mem⟩
  · exact .inr left

end

end ClasspathAdvice.Reduction
