import ClasspathAdvice.Graph.Route
import ClasspathAdvice.Proofs.Graph.Topological
import Mathlib.Order.Bounds.Basic

/-!
# Lengths of paths

A path is as long as it has edges. A single pass over a list of nodes finds the paths that
follow the list up to their last edge; `lengthsAlong` are their lengths. One more node in the
list adds the paths whose last edge leaves it (`lengthsAlong_concat`). Along reverse
postorder each reached node has such a path (`lengthsAlong_eq_empty_iff`), and if no cycle is
reached every path is one (`lengthsAlong_eq_lengths`).
-/

namespace ClasspathAdvice.Graph
set_option autoImplicit false

/-- The numbers of edges on the paths between two nodes. -/
def lengths (g : Graph) (i j : Nat) : Set Nat := { n | ∃ l, g.Path i j l ∧ l.length = n + 1 }

/-- The numbers of edges on the paths that follow a list of nodes, their last node aside. -/
def lengthsAlong (g : Graph) (order : List Nat) (i j : Nat) : Set Nat :=
  { n | ∃ l, g.Path i j l ∧ l.dropLast.Sublist order ∧ l.length = n + 1 }

/-- The number is the least of a set; there is none if the set is empty. -/
def IsMinimum (s : Set Nat) : Option Nat → Prop
  | some n => IsLeast s n
  | none => s = ∅

variable {g : Graph} {source i j n m : Nat} {order done : List Nat} {s t : Set Nat}
  {d e : Option Nat}

theorem IsMinimum.unique (h : IsMinimum s d) (h' : IsMinimum s e) : d = e := by
  cases d with
  | none =>
    cases e with
    | none => rfl
    | some m => exact absurd (h ▸ h'.1 : m ∈ (∅ : Set Nat)) (Set.notMem_empty m)
  | some n =>
    cases e with
    | none => exact absurd (h' ▸ h.1 : n ∈ (∅ : Set Nat)) (Set.notMem_empty n)
    | some m => rw [IsLeast.unique h h']

theorem IsMinimum.eq_none_iff (h : IsMinimum s d) : d = none ↔ s = ∅ := by
  constructor
  · rintro rfl
    exact h
  · intro empty
    exact h.unique empty

/-- A number that is in the set is not less than the minimum. -/
theorem IsMinimum.le_of_mem (h : IsMinimum s d) (mem : n ∈ s) : ∃ k, d = some k ∧ k ≤ n := by
  cases d with
  | none => exact absurd (h ▸ mem : n ∈ (∅ : Set Nat)) (Set.notMem_empty n)
  | some k => exact ⟨k, rfl, h.2 mem⟩

theorem IsMinimum.not_mem_of_isLonger (h : IsMinimum s d) (longer : Routes.isLonger d n = true) :
    n ∉ s := by
  intro mem
  obtain ⟨k, rfl, le⟩ := h.le_of_mem mem
  have lt : n < k := by simpa [Routes.isLonger] using longer
  omega

/-- With the successors of a second set the minimum is the one of the first, or one more than
that of the second if this is less. -/
theorem IsMinimum.relax (h : IsMinimum s d) (least : IsLeast t n) :
    IsMinimum { k | k ∈ s ∨ ∃ m ∈ t, k = m + 1 }
      (if Routes.isLonger d (n + 1) then some (n + 1) else d) := by
  cases longer : Routes.isLonger d (n + 1) with
  | true =>
    refine ⟨.inr ⟨n, least.1, rfl⟩, ?_⟩
    intro k hk
    rcases hk with mem | ⟨m, mem, rfl⟩
    · obtain ⟨c, rfl, le⟩ := h.le_of_mem mem
      have lt : n + 1 < c := by simpa [Routes.isLonger] using longer
      omega
    · exact Nat.succ_le_succ (least.2 mem)
  | false =>
    cases d with
    | none => simp [Routes.isLonger] at longer
    | some c =>
      have le : c ≤ n + 1 := by simpa [Routes.isLonger] using longer
      refine ⟨.inl h.1, ?_⟩
      intro k hk
      rcases hk with mem | ⟨m, mem, rfl⟩
      · exact h.2 mem
      · have := least.2 mem
        omega

/-! ## Paths that follow a list -/

theorem lengthsAlong_subset : g.lengthsAlong order i j ⊆ g.lengths i j := by
  intro n hn
  obtain ⟨l, p, -, length⟩ := hn
  exact ⟨l, p, length⟩

theorem lengthsAlong_mono (h : done.Sublist order) :
    g.lengthsAlong done i j ⊆ g.lengthsAlong order i j := by
  intro n hn
  obtain ⟨l, p, follows, length⟩ := hn
  exact ⟨l, p, follows.trans h, length⟩

theorem lengths_eq_empty_iff : g.lengths i j = ∅ ↔ ¬ g.Reaches i j := by
  rw [Set.eq_empty_iff_forall_notMem]
  constructor
  · intro none reached
    obtain ⟨l, p⟩ := reached
    have pos := List.length_pos_iff.2 p.ne_nil
    exact none (l.length - 1) ⟨l, p, by omega⟩
  · intro notReached n hn
    obtain ⟨l, p, -⟩ := hn
    exact notReached ⟨l, p⟩

theorem eq_of_zero_mem_lengths (h : 0 ∈ g.lengths i j) : j = i := by
  obtain ⟨l, p, length⟩ := h
  cases p with
  | start => rfl
  | step p e =>
    have pos := List.length_pos_iff.2 p.ne_nil
    rw [List.length_append, List.length_singleton] at length
    omega

/-- An edge makes a path longer by one. -/
theorem succ_mem_lengths (hn : n ∈ g.lengths source i) (e : (i, j) ∈ g.edges) :
    n + 1 ∈ g.lengths source j := by
  obtain ⟨l, p, length⟩ := hn
  exact ⟨l ++ [j], p.step e, by simp [length]⟩

/-- A path along a list has no more edges than the list has nodes. -/
theorem le_of_mem_lengthsAlong (h : n ∈ g.lengthsAlong order i j) : n ≤ order.length := by
  obtain ⟨l, -, follows, length⟩ := h
  have le := follows.length_le
  rw [List.length_dropLast, length] at le
  exact le

/-- Along no nodes there is only the path without edges. -/
theorem lengthsAlong_nil (h : source < g.nodes.size) :
    g.lengthsAlong [] source j = if j = source then {0} else ∅ := by
  ext n
  constructor
  · intro hn
    obtain ⟨l, p, follows, length⟩ := hn
    have single : l = [j] := by
      rw [p.eq_dropLast_append, List.sublist_nil.1 follows]
      rfl
    have zero : n = 0 := by simpa [single] using length.symm
    have same : j = source := eq_of_zero_mem_lengths ⟨l, p, zero ▸ length⟩
    simp [same, zero]
  · split
    · rename_i same
      subst same
      rintro rfl
      exact ⟨_, .start h, by simp, rfl⟩
    · exact fun hn => absurd hn (Set.notMem_empty n)

/-- One more node in the list adds the paths whose last edge leaves it. -/
theorem lengthsAlong_concat : g.lengthsAlong (done ++ [i]) source j =
    { n | n ∈ g.lengthsAlong done source j ∨
      (i, j) ∈ g.edges ∧ ∃ m ∈ g.lengthsAlong done source i, n = m + 1 } := by
  ext n
  constructor
  · intro hn
    obtain ⟨l, p, follows, length⟩ := hn
    cases p with
    | start h => exact .inl ⟨_, .start h, by simp, length⟩
    | @step k _ l p e =>
      rw [List.dropLast_concat] at follows
      obtain ⟨x, y, rfl, hx, hy⟩ := List.sublist_append_iff.1 follows
      rcases List.sublist_singleton.1 hy with rfl | rfl
      · refine .inl ⟨_, p.step e, ?_, length⟩
        simpa using hx
      · have ends := p.eq_dropLast_append
        rw [List.dropLast_concat] at ends
        obtain rfl : i = k := by simpa using ends
        refine .inr ⟨e, x.length, ⟨_, p, by simpa using hx, by simp⟩, ?_⟩
        simpa using length.symm
  · rintro (hn | ⟨e, m, hm, rfl⟩)
    · exact lengthsAlong_mono (List.sublist_append_left _ _) hn
    · obtain ⟨l, p, follows, length⟩ := hm
      refine ⟨l ++ [j], p.step e, ?_, by simp [length]⟩
      rw [List.dropLast_concat, p.eq_dropLast_append]
      exact follows.append (List.Sublist.refl _)

/-- Each node that is reached has a path along reverse postorder. -/
theorem lengthsAlong_eq_empty_iff (h : source < g.nodes.size) :
    g.lengthsAlong (g.reversePostorder source) source j = ∅ ↔ ¬ g.Reaches source j := by
  constructor
  · intro none reached
    obtain ⟨a, b, split⟩ := List.append_of_mem ((mem_reversePostorder h).2 reached)
    obtain ⟨l, p, follows⟩ :=
      (grounded_reversePostorder h).exists_path (head?_reversePostorder h) h a b split
    rw [p.eq_dropLast_append, List.append_sublist_append_right] at follows
    have along : l.length - 1 ∈ g.lengthsAlong (g.reversePostorder source) source j := by
      have pos := List.length_pos_iff.2 p.ne_nil
      exact ⟨l, p, split ▸ follows.trans (List.sublist_append_left _ _), by omega⟩
    exact absurd (none ▸ along) (Set.notMem_empty _)
  · intro notReached
    exact Set.subset_eq_empty lengthsAlong_subset (lengths_eq_empty_iff.2 notReached)

/-- Where no cycle is reached every path goes along reverse postorder. -/
theorem lengthsAlong_eq_lengths (acyclic : g.AcyclicFrom source) :
    g.lengthsAlong (g.reversePostorder source) source j = g.lengths source j := by
  refine lengthsAlong_subset.antisymm ?_
  intro n hn
  obtain ⟨l, p, length⟩ := hn
  exact ⟨l, p, (List.dropLast_sublist l).trans (p.sublist acyclic), length⟩

end ClasspathAdvice.Graph
