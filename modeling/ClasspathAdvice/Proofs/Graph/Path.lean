import ClasspathAdvice.Graph.Basic
import Mathlib.Data.List.Sublists

/-!
# Paths in a graph

A path is the list of the nodes it passes, both ends included. It grows at its end, the
way predecessors are looked at. `Path.upTo` cuts it at a node on it and `Path.simple`
leaves out its detours, so a path that avoids some node is also found among the paths
without repetition. `mem_successors` and `mem_predecessors` say that the tables of
neighbours hold the edges.
-/

namespace ClasspathAdvice.Graph
set_option autoImplicit false

/-- A path from `i` along edges, by its last node and the nodes it passes. -/
inductive Path (g : Graph) (i : Nat) : Nat → List Nat → Prop where
  | start (h : i < g.nodes.size) : Path g i i [i]
  | step {j k : Nat} {l : List Nat} (p : Path g i j l) (e : (j, k) ∈ g.edges) : Path g i k (l ++ [k])

/-- There is a path from one node to another. -/
def Reaches (g : Graph) (i j : Nat) : Prop := ∃ l, g.Path i j l

variable {g : Graph} {i j k : Nat} {l : List Nat}

theorem edge_lt (e : (i, j) ∈ g.edges) : i < g.nodes.size ∧ j < g.nodes.size := g.edges_lt _ e

theorem Reaches.step (h : g.Reaches i j) (e : (j, k) ∈ g.edges) : g.Reaches i k :=
  h.elim fun _ p => ⟨_, p.step e⟩

namespace Path

theorem ne_nil (p : g.Path i j l) : l ≠ [] := by cases p <;> simp

theorem target_lt (p : g.Path i j l) : j < g.nodes.size := by
  cases p with
  | start h => exact h
  | step _ e => exact (edge_lt e).2

theorem source_mem (p : g.Path i j l) : i ∈ l := by
  induction p with
  | start => simp
  | step _ _ ih => simp [ih]

theorem target_mem (p : g.Path i j l) : j ∈ l := by cases p <;> simp

theorem mem_lt (p : g.Path i j l) (h : k ∈ l) : k < g.nodes.size := by
  induction p with
  | start hi => simp_all
  | step p e ih =>
    rcases List.mem_append.1 h with h | h
    · exact ih h
    · rw [List.mem_singleton.1 h]
      exact (edge_lt e).2

/-- A path cut at a node on it. -/
theorem upTo (p : g.Path i j l) (h : k ∈ l) : ∃ l', g.Path i k l' ∧ l' <+: l := by
  induction p with
  | start hi =>
    rw [List.mem_singleton.1 h]
    exact ⟨_, .start hi, List.prefix_rfl⟩
  | step p e ih =>
    rcases List.mem_append.1 h with h | h
    · obtain ⟨l', p', sub⟩ := ih h
      exact ⟨l', p', sub.trans (List.prefix_append _ _)⟩
    · rw [List.mem_singleton.1 h]
      exact ⟨_, p.step e, List.prefix_rfl⟩

/-- Among the nodes of a path there is a path with the same ends that repeats no node. -/
theorem simple (p : g.Path i j l) : ∃ l', g.Path i j l' ∧ l'.Nodup ∧ l' ⊆ l := by
  induction p with
  | start hi => exact ⟨[i], .start hi, List.nodup_singleton i, List.Subset.refl _⟩
  | @step j k l p e ih =>
    obtain ⟨m, q, nodup, sub⟩ := ih
    by_cases hk : k ∈ m
    · obtain ⟨m', q', pre⟩ := q.upTo hk
      refine ⟨m', q', nodup.sublist pre.sublist, fun x hx => ?_⟩
      exact List.mem_append_left _ (sub (pre.subset hx))
    · refine ⟨m ++ [k], q.step e, List.nodup_append.2 ⟨nodup, List.nodup_singleton k, ?_⟩, ?_⟩
      · rintro a ha b hb rfl
        exact hk (List.mem_singleton.1 hb ▸ ha)
      · exact List.append_subset.2
          ⟨fun x hx => List.mem_append_left _ (sub hx), List.subset_append_right _ _⟩

end Path

/-- A list of different nodes is no longer than the list of all. -/
theorem length_le_size (nodup : l.Nodup) (h : ∀ x ∈ l, x < g.nodes.size) :
    l.length ≤ g.nodes.size := by
  have sub : l ⊆ List.range g.nodes.size := fun x hx => List.mem_range.2 (h x hx)
  simpa using (nodup.subperm sub).length_le

/-! ## The tables of neighbours -/

/-- A table that is filled from the last entry of a list to the first has the entries of each
key in the order of the list. -/
theorem getD_foldr_modify {α β : Type} (key : α → Nat) (val : α → β) (l : List α)
    (t : Array (List β)) {i : Nat} (hi : i < t.size) :
    (l.foldr (fun e t => t.modify (key e) (val e :: ·)) t).getD i [] =
      (l.filter (key · == i)).map val ++ t.getD i [] := by
  have size : ∀ l : List α, (l.foldr (fun e t => t.modify (key e) (val e :: ·)) t).size = t.size := by
    intro l
    induction l with
    | nil => rfl
    | cons e l ih => simp [ih]
  induction l with
  | nil => rfl
  | cons e l ih =>
    rw [Array.getD_eq_getD_getElem?] at ih
    rw [List.foldr_cons, Array.getD_eq_getD_getElem?, Array.getElem?_modify]
    by_cases he : key e = i
    · have some := Array.getElem?_eq_getElem (by rw [size l]; exact hi :
        i < (l.foldr (fun e t => t.modify (key e) (val e :: ·)) t).size)
      rw [some, Option.getD_some] at ih
      simp [he, some, ih]
    · simp [he, ih]

theorem successorTable_getD (hi : i < g.nodes.size) :
    g.successorTable.getD i [] = g.successorsOf i := by
  rw [successorTable, ← Array.foldr_toList, getD_foldr_modify Prod.fst Prod.snd _ _ (by simpa)]
  simp [successorsOf, hi]

theorem predecessorTable_getD (hi : i < g.nodes.size) :
    g.predecessorTable.getD i [] = g.predecessorsOf i := by
  rw [predecessorTable, ← Array.foldr_toList, getD_foldr_modify Prod.snd Prod.fst _ _ (by simpa)]
  simp [predecessorsOf, hi]

theorem mem_successors (hi : i < g.nodes.size) :
    j ∈ g.successorTable.getD i [] ↔ (i, j) ∈ g.edges := by
  simp [successorTable_getD hi, successorsOf]

theorem mem_predecessors (hi : i < g.nodes.size) :
    j ∈ g.predecessorTable.getD i [] ↔ (j, i) ∈ g.edges := by
  simp [predecessorTable_getD hi, predecessorsOf]

end ClasspathAdvice.Graph
