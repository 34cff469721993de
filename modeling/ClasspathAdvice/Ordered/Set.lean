/-!
# Finite sets as ascending lists

A set over an ordered type is kept as the strictly ascending list of its members,
so equal sets are equal values and a set is listed in the order of its type.
`mem_insert` and `mem_ofList` say what insertion does to membership, and `ext`
that members determine the set.
-/

namespace ClasspathAdvice
set_option autoImplicit false

universe u

/-- The strict order that `compare` gives. -/
abbrev Before {α : Type u} [Ord α] (a b : α) : Prop := compare a b = .lt

theorem Before.irrefl {α : Type u} [Ord α] [Std.TransOrd α] (a : α) : ¬ Before a a := by
  simp [Before, Std.ReflCmp.compare_self]

theorem Before.asymm {α : Type u} [Ord α] [Std.TransOrd α] {a b : α} (h : Before a b) :
    ¬ Before b a :=
  fun h' => Before.irrefl a (Std.TransCmp.lt_trans h h')

theorem nodup_of_ascending {α : Type u} [Ord α] [Std.TransOrd α] {l : List α}
    (h : l.Pairwise Before) : l.Nodup := by
  refine h.imp ?_
  rintro a _ before rfl
  exact Before.irrefl a before

/-- Of any two elements one stands no later than the other. -/
theorem isLE_total {α : Type u} {cmp : α → α → Ordering} [Std.OrientedCmp cmp] (a b : α) :
    (cmp a b).isLE ∨ (cmp b a).isLE := by
  have swap : cmp b a = (cmp a b).swap := Std.OrientedCmp.eq_swap
  rw [swap]
  cases cmp a b <;> simp

/-- What is sorted stands in order. -/
theorem pairwise_mergeSort_isLE {α : Type u} {cmp : α → α → Ordering} [Std.TransCmp cmp]
    (l : List α) : (l.mergeSort fun a b => (cmp a b).isLE).Pairwise fun a b => (cmp a b).isLE := by
  refine List.pairwise_mergeSort (fun _ _ _ => Std.TransCmp.isLE_trans) (fun a b => ?_) l
  exact Bool.or_eq_true_iff.2 (isLE_total a b)

/-- A finite set, as the strictly ascending list of its members. -/
structure OrderedSet (α : Type u) [Ord α] where
  toList : List α
  ascending : toList.Pairwise Before

namespace OrderedSet

variable {α : Type u} [Ord α]

instance [DecidableEq α] : DecidableEq (OrderedSet α) := fun s t =>
  decidable_of_iff (s.toList = t.toList) (by cases s; cases t; simp)

instance : Membership α (OrderedSet α) := ⟨fun s a => a ∈ s.toList⟩

theorem mem_def {a : α} {s : OrderedSet α} : a ∈ s ↔ a ∈ s.toList := Iff.rfl

/-- The set without members. -/
def empty : OrderedSet α := ⟨[], .nil⟩

instance : EmptyCollection (OrderedSet α) := ⟨empty⟩
instance : Inhabited (OrderedSet α) := ⟨empty⟩

/-- Whether the set has no members. -/
def isEmpty (s : OrderedSet α) : Bool := s.toList.isEmpty

/-- The number of members. -/
def size (s : OrderedSet α) : Nat := s.toList.length

/-- Puts `a` at its place in an ascending list, unless it is there already. -/
def insertInto (a : α) : List α → List α
  | [] => [a]
  | b :: rest =>
    match compare a b with
    | .lt => a :: b :: rest
    | .eq => b :: rest
    | .gt => b :: insertInto a rest

theorem mem_of_mem_insertInto {a x : α} {l : List α} (h : x ∈ insertInto a l) : x = a ∨ x ∈ l := by
  induction l with
  | nil => simpa [insertInto] using h
  | cons b rest ih =>
    simp only [insertInto] at h
    split at h
    · simpa using h
    · exact .inr h
    · rcases List.mem_cons.1 h with rfl | h
      · simp
      · rcases ih h with h | h <;> simp [h]

theorem insertInto_ascending [Std.TransOrd α] (a : α) {l : List α} (h : l.Pairwise Before) :
    (insertInto a l).Pairwise Before := by
  induction l with
  | nil => simp [insertInto]
  | cons b rest ih =>
    have ⟨hb, hr⟩ := List.pairwise_cons.1 h
    simp only [insertInto]
    split
    · rename_i hab
      refine List.pairwise_cons.2 ⟨fun x hx => ?_, h⟩
      rcases List.mem_cons.1 hx with rfl | hx
      · exact hab
      · exact Std.TransCmp.lt_trans hab (hb x hx)
    · exact h
    · rename_i hab
      refine List.pairwise_cons.2 ⟨fun x hx => ?_, ih hr⟩
      rcases mem_of_mem_insertInto hx with rfl | hx
      · exact Std.OrientedCmp.gt_iff_lt.1 hab
      · exact hb x hx

/-- The set with `a` added. -/
def insert [Std.TransOrd α] (a : α) (s : OrderedSet α) : OrderedSet α :=
  ⟨insertInto a s.toList, insertInto_ascending a s.ascending⟩

/-- The members for which `keep` holds. -/
def filter (keep : α → Bool) (s : OrderedSet α) : OrderedSet α :=
  ⟨s.toList.filter keep, s.ascending.filter keep⟩

/-- The set without `a`. -/
def erase [DecidableEq α] (a : α) (s : OrderedSet α) : OrderedSet α :=
  s.filter (fun x => decide (x ≠ a))

/-- The set of the elements of a list. -/
def ofList [Std.TransOrd α] (l : List α) : OrderedSet α :=
  l.foldl (fun s a => s.insert a) ∅

/-- The elements of either set. -/
def union [Std.TransOrd α] (s t : OrderedSet α) : OrderedSet α :=
  t.toList.foldl (fun s a => s.insert a) s

theorem mem_insertInto [Std.LawfulEqOrd α] {a x : α} {l : List α} :
    x ∈ insertInto a l ↔ x = a ∨ x ∈ l := by
  induction l with
  | nil => simp [insertInto]
  | cons b rest ih =>
    simp only [insertInto]
    split
    · simp
    · rename_i h
      have := Std.LawfulEqCmp.eq_of_compare h
      subst this
      simp
    · simp only [List.mem_cons, ih]
      grind

section Laws

variable [Std.TransOrd α] [Std.LawfulEqOrd α]

@[simp] theorem mem_insert {a x : α} {s : OrderedSet α} : x ∈ s.insert a ↔ x = a ∨ x ∈ s :=
  mem_insertInto

theorem mem_foldl_insert {x : α} {l : List α} {s : OrderedSet α} :
    x ∈ l.foldl (fun s a => s.insert a) s ↔ x ∈ s ∨ x ∈ l := by
  induction l generalizing s with
  | nil => simp
  | cons a l ih => simp only [List.foldl_cons, ih, mem_insert, List.mem_cons]; grind

@[simp] theorem mem_ofList {x : α} {l : List α} : x ∈ ofList l ↔ x ∈ l := by
  rw [ofList, mem_foldl_insert]
  simp [mem_def, EmptyCollection.emptyCollection, empty]

@[simp] theorem mem_union {x : α} {s t : OrderedSet α} : x ∈ s.union t ↔ x ∈ s ∨ x ∈ t :=
  mem_foldl_insert

end Laws

/-- What stands first of the elements of an ascending list that pass a test. -/
theorem find?_eq_some_iff [Std.TransOrd α] {p : α → Bool} {a : α} {l : List α}
    (ascending : l.Pairwise Before) :
    l.find? p = some a ↔ a ∈ l ∧ p a = true ∧ ∀ b ∈ l, p b = true → b = a ∨ Before a b := by
  induction l with
  | nil => simp
  | cons e l ih =>
    obtain ⟨first, later⟩ := List.pairwise_cons.1 ascending
    rw [List.find?_cons]
    cases passes : p e with
    | true =>
      dsimp only
      constructor
      · rintro ⟨⟩
        refine ⟨List.mem_cons_self, passes, fun b mem _ => ?_⟩
        exact (List.mem_cons.1 mem).imp_right (first b)
      · rintro ⟨mem, -, least⟩
        rcases List.mem_cons.1 mem with rfl | mem
        · rfl
        · rcases least e List.mem_cons_self passes with rfl | before
          · rfl
          · exact absurd before (first a mem).asymm
    | false =>
      have other : ∀ {b}, p b = true → b ≠ e := by
        rintro b passes' rfl
        rw [passes] at passes'
        cases passes'
      dsimp only
      rw [ih later]
      constructor
      · rintro ⟨mem, passes, least⟩
        refine ⟨List.mem_cons_of_mem _ mem, passes, fun b mem passes => ?_⟩
        exact least b (List.mem_of_ne_of_mem (other passes) mem) passes
      · rintro ⟨mem, passes, least⟩
        refine ⟨List.mem_of_ne_of_mem (other passes) mem, passes, fun b mem => ?_⟩
        exact least b (List.mem_cons_of_mem _ mem)

/-- Of two ascending lists with the same members the heads agree, hence all. -/
theorem eq_of_mem_iff [Std.TransOrd α] {l m : List α} (hl : l.Pairwise Before)
    (hm : m.Pairwise Before) (h : ∀ x, x ∈ l ↔ x ∈ m) : l = m := by
  induction l generalizing m with
  | nil =>
    cases m with
    | nil => rfl
    | cons b m => simpa using h b
  | cons a l ih =>
    cases m with
    | nil => simpa using h a
    | cons b m =>
      have ⟨ha, hl'⟩ := List.pairwise_cons.1 hl
      have ⟨hb, hm'⟩ := List.pairwise_cons.1 hm
      have hab : a = b := by
        rcases List.mem_cons.1 ((h a).1 (by simp)) with e | e
        · exact e
        · rcases List.mem_cons.1 ((h b).2 (by simp)) with f | f
          · exact f.symm
          · exact absurd (hb a e) (ha b f).asymm
      subst hab
      refine congrArg _ (ih hl' hm' fun x => ⟨fun hx => ?_, fun hx => ?_⟩)
      · rcases List.mem_cons.1 ((h x).1 (by simp [hx])) with rfl | e
        · exact absurd (ha _ hx) (Before.irrefl _)
        · exact e
      · rcases List.mem_cons.1 ((h x).2 (by simp [hx])) with rfl | e
        · exact absurd (hb _ hx) (Before.irrefl _)
        · exact e

theorem ext [Std.TransOrd α] {s t : OrderedSet α} (h : ∀ x, x ∈ s ↔ x ∈ t) : s = t := by
  cases s; cases t
  simp only [mk.injEq]
  exact eq_of_mem_iff ‹_› ‹_› h

@[simp] theorem mem_filter {x : α} {keep : α → Bool} {s : OrderedSet α} :
    x ∈ s.filter keep ↔ x ∈ s ∧ keep x = true := by
  simp [mem_def, filter]

end OrderedSet

end ClasspathAdvice
