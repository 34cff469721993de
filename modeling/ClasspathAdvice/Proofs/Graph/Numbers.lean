import ClasspathAdvice.Graph.Basic
import Mathlib.Data.List.Nodup

/-!
# Nodes and their numbers

No two nodes have one identifier. So an identifier leads to the number of at most one node, and
nodes that are listed by different numbers have different identifiers (`nodup_nodesAt`).
-/

namespace ClasspathAdvice.Graph
set_option autoImplicit false

variable {g : Graph} {s : String} {i j : Nat} {c d : Coordinates} {l : List Nat}

theorem indexOf_of_some (h : g.indexOf? s = some i) : g.indexOf s = .ok i := by
  rw [indexOf, h]

theorem indexOf_of_none (h : g.indexOf? s = none) : g.indexOf s = .error (.missingNode s) := by
  rw [indexOf, h]

theorem contains_eq_isSome : g.contains s = (g.indexOf? s).isSome :=
  Std.ExtHashMap.contains_eq_isSome_getElem?

theorem contains_of_some (h : g.indexOf? s = some i) : g.contains s = true := by
  rw [contains_eq_isSome, h]
  rfl

/-- A node is found under its identifier. -/
theorem indexOf?_of_node (h : g.nodes[i]? = some c) : g.indexOf? c.identifier = some i :=
  (g.index_iff _ _).2 ⟨c, h, rfl⟩

theorem number_unique (hc : g.nodes[i]? = some c) (hd : g.nodes[j]? = some d)
    (same : c.identifier = d.identifier) : i = j := by
  have atI := indexOf?_of_node hc
  rw [same, indexOf?_of_node hd] at atI
  exact (Option.some.inj atI).symm

theorem mem_nodesAt : c ∈ g.nodesAt l ↔ ∃ i ∈ l, g.nodes[i]? = some c := List.mem_filterMap

theorem nodesAt_append (l m : List Nat) : g.nodesAt (l ++ m) = g.nodesAt l ++ g.nodesAt m :=
  List.filterMap_append

theorem nodesAt_cons (h : g.nodes[i]? = some c) (l : List Nat) :
    g.nodesAt (i :: l) = c :: g.nodesAt l := List.filterMap_cons_some h

/-- Different numbers are those of nodes with different identifiers. -/
theorem nodup_nodesAt (nodup : l.Nodup) : ((g.nodesAt l).map (·.identifier)).Nodup := by
  induction l with
  | nil => exact List.nodup_nil
  | cons i l ih =>
    obtain ⟨fresh, rest⟩ := List.nodup_cons.1 nodup
    cases hi : g.nodes[i]? with
    | none =>
      rw [nodesAt, List.filterMap_cons_none hi]
      exact ih rest
    | some c =>
      rw [nodesAt_cons hi, List.map_cons, List.nodup_cons]
      refine ⟨?_, ih rest⟩
      intro mem
      obtain ⟨d, isNode, same⟩ := List.mem_map.1 mem
      obtain ⟨j, hj, hd⟩ := mem_nodesAt.1 isNode
      rw [number_unique hi hd same.symm] at fresh
      exact fresh hj

end ClasspathAdvice.Graph
