import ClasspathAdvice.Proofs.Graph.Dominated
import ClasspathAdvice.Proofs.Graph.Queries
import Mathlib.Data.List.Perm.Basic

/-!
# Graphs with the same nodes and edges

Graphs that hold the same nodes and edges may number the nodes differently and list the edges in
another order. To `renumber` a node is to look it up in the other graph. Paths stay paths that
way (`SameContent.path`), so dominance is the same (`SameContent.dominates_iff`). It determines
the immediate dominators, and the children of a node in one dominator tree are those in the
other, in some order (`SameContent.children_perm`).
-/

namespace ClasspathAdvice
set_option autoImplicit false

namespace Graph

/-- Two graphs have the same nodes and the same edges between them. -/
structure SameContent (g h : Graph) : Prop where
  nodes : ∀ c, c ∈ g.nodes ↔ c ∈ h.nodes
  edges : ∀ e, e ∈ g.edgeList ↔ e ∈ h.edgeList

/-- The number in another graph of the node with a number. -/
def renumber (g h : Graph) (i : Nat) : Nat :=
  (g.nodes[i]?.bind fun c => h.indexOf? c.identifier).getD 0

variable {g h : Graph} {i j d n root : Nat} {l : List Nat} {s : String} {node : Coordinates}

/-- Graphs with rearranged nodes and edges have the same ones. -/
theorem sameContent_of_perm (nodes : g.listing.nodes.Perm h.listing.nodes)
    (edges : g.listing.edgeList.Perm h.listing.edgeList) : SameContent g h where
  nodes c := by rw [mem_nodes, mem_nodes, nodes.mem_iff]
  edges e := by rw [edgeList_eq, edgeList_eq, edges.mem_iff]

theorem renumber_eq (at_i : g.nodes[i]? = some node) (at_j : h.nodes[j]? = some node) :
    renumber g h i = j := by
  rw [renumber, at_i, Option.bind_some, indexOf?_of_node at_j, Option.getD_some]

namespace SameContent

theorem symm (same : SameContent g h) : SameContent h g where
  nodes c := (same.nodes c).symm
  edges e := (same.edges e).symm

variable (same : SameContent g h)
include same

/-- The node is the same. -/
theorem getElem?_renumber (at_i : g.nodes[i]? = some node) :
    h.nodes[renumber g h i]? = some node := by
  obtain ⟨j, at_j⟩ := Array.mem_iff_getElem?.1 ((same.nodes node).1 (Array.mem_of_getElem? at_i))
  rwa [renumber_eq at_i at_j]

theorem renumber_lt (lt : i < g.nodes.size) : renumber g h i < h.nodes.size := by
  have isNode := same.getElem?_renumber (Array.getElem?_eq_getElem lt)
  exact (Array.getElem?_eq_some_iff.1 isNode).1

theorem renumber_renumber (lt : i < g.nodes.size) : renumber h g (renumber g h i) = i := by
  have at_i := Array.getElem?_eq_getElem lt
  exact renumber_eq (same.getElem?_renumber at_i) at_i

theorem renumber_inj (hi : i < g.nodes.size) (hj : j < g.nodes.size)
    (eq : renumber g h i = renumber g h j) : i = j := by
  rw [← same.renumber_renumber hi, eq, same.renumber_renumber hj]

/-- An identifier leads to the same node. -/
theorem indexOf?_renumber (at_s : g.indexOf? s = some i) :
    h.indexOf? s = some (renumber g h i) := by
  obtain ⟨node, at_i, named⟩ := (g.index_iff s i).1 at_s
  exact (h.index_iff s _).2 ⟨node, same.getElem?_renumber at_i, named⟩

theorem edge (e : (i, j) ∈ g.edges) : (renumber g h i, renumber g h j) ∈ h.edges := by
  obtain ⟨hi, hj⟩ := edge_lt e
  have at_i := Array.getElem?_eq_getElem hi
  have at_j := Array.getElem?_eq_getElem hj
  have isEdge : { source := g.nodes[i], target := g.nodes[j] } ∈ h.edgeList :=
    (same.edges _).1 (mem_edgeList.2 ⟨i, j, e, at_i, at_j, rfl⟩)
  obtain ⟨u, v, e', at_u, at_v, -⟩ := mem_edgeList.1 isEdge
  rwa [renumber_eq at_i at_u, renumber_eq at_j at_v]

theorem path (p : g.Path root n l) :
    h.Path (renumber g h root) (renumber g h n) (l.map (renumber g h)) := by
  induction p with
  | start lt => exact .start (same.renumber_lt lt)
  | step p e ih =>
    rw [List.map_append]
    exact ih.step (same.edge e)

theorem reaches (all : ∀ i < g.nodes.size, g.Reaches root i) :
    ∀ j < h.nodes.size, h.Reaches (renumber g h root) j := by
  intro j lt
  obtain ⟨l, p⟩ := all _ (same.symm.renumber_lt lt)
  have q := same.path p
  rw [same.symm.renumber_renumber lt] at q
  exact ⟨_, q⟩

theorem dominates (hd : d < g.nodes.size) (dom : h.Dominates (renumber g h root) (renumber g h d)
    (renumber g h n)) : g.Dominates root d n := by
  intro l p
  obtain ⟨k, mem, eq⟩ := List.mem_map.1 (dom _ (same.path p))
  rwa [← same.renumber_inj (p.mem_lt mem) hd eq]

theorem dominates_iff (hr : root < g.nodes.size) (hd : d < g.nodes.size) (hn : n < g.nodes.size) :
    h.Dominates (renumber g h root) (renumber g h d) (renumber g h n) ↔
      g.Dominates root d n := by
  refine ⟨same.dominates hd, fun dom => same.symm.dominates (same.renumber_lt hd) ?_⟩
  rwa [same.renumber_renumber hr, same.renumber_renumber hd, same.renumber_renumber hn]

end SameContent

end Graph

namespace Graph.SameContent

open DominatorTree

variable {g h : Graph} {i j root : Nat} {t u : DominatorTree} {c c' : Candidates}
variable (same : SameContent g h) (st : Settled g root t c)
  (su : Settled h (renumber g h root) u c')
include same st su

/-- The immediate dominator is the only strict dominator that all others dominate. -/
theorem immediateOf_renumber (hi : i < g.nodes.size) :
    u.immediateOf (renumber g h i) = renumber g h (t.immediateOf i) := by
  have hr : root < g.nodes.size := st.spanning.root_lt
  have hi' : renumber g h i < h.nodes.size := same.renumber_lt hi
  by_cases notRoot : i = root
  · rw [notRoot, st.immediateOf_root, su.immediateOf_root]
  have notRoot' : renumber g h i ≠ renumber g h root :=
    fun eq => notRoot (same.renumber_inj hi hr eq)
  have ht : t.immediateOf i < g.nodes.size := st.immediateOf_lt hi
  have hu : u.immediateOf (renumber g h i) < h.nodes.size := su.immediateOf_lt hi'
  -- the number in the one graph of the immediate dominator in the other
  obtain ⟨k, hk, eq⟩ : ∃ k < g.nodes.size, renumber g h k = u.immediateOf (renumber g h i) :=
    ⟨_, same.symm.renumber_lt hu, same.symm.renumber_renumber hu⟩
  rw [← eq]
  have below : g.Dominates root k (t.immediateOf i) := by
    have dom : g.Dominates root k i := by
      rw [← same.dominates_iff hr hk hi, eq]
      exact (su.dominates_iff hi').2 (.inr .refl)
    refine ((st.dominates_iff hi).1 dom).resolve_left ?_
    rintro rfl
    exact su.immediateOf_ne hi' notRoot' eq.symm
  have above : g.Dominates root (t.immediateOf i) k := by
    rw [← same.dominates_iff hr ht hk, eq]
    have dom := (same.dominates_iff hr ht hi).2 ((st.dominates_iff hi).2 (.inr .refl))
    refine ((su.dominates_iff hi').1 dom).resolve_left fun eq => ?_
    exact st.immediateOf_ne hi notRoot (same.renumber_inj ht hi eq)
  rw [st.dominates_antisymm hk ht below above]

theorem mem_children_renumber (hi : i < g.nodes.size) (hj : j < g.nodes.size) :
    renumber g h j ∈ u.childTable.getD (renumber g h i) [] ↔ j ∈ t.childTable.getD i [] := by
  have hr : root < g.nodes.size := st.spanning.root_lt
  rw [su.mem_children (same.renumber_lt hi), st.mem_children hi,
    same.immediateOf_renumber st su hj]
  have atRoot : renumber g h j = renumber g h root ↔ j = root :=
    ⟨same.renumber_inj hj hr, congrArg _⟩
  have at_i : renumber g h (t.immediateOf j) = renumber g h i ↔ t.immediateOf j = i :=
    ⟨same.renumber_inj (st.immediateOf_lt hj) hi, congrArg _⟩
  rw [Ne, Ne, atRoot, at_i]
  exact and_congr_left fun _ => iff_of_true (same.renumber_lt hj) hj

/-- A node has the same children in both trees. -/
theorem children_perm (hi : i < g.nodes.size) :
    ((t.childTable.getD i []).map (renumber g h)).Perm
      (u.childTable.getD (renumber g h i) []) := by
  have lt : ∀ j ∈ t.childTable.getD i [], j < g.nodes.size :=
    fun j mem => ((st.mem_children hi).1 mem).1
  have nodup : ((t.childTable.getD i []).map (renumber g h)).Nodup := by
    refine (List.nodup_map_iff_inj_on (st.nodup_children hi)).2 ?_
    exact fun j hj k hk => same.renumber_inj (lt j hj) (lt k hk)
  have nodup' := su.nodup_children (same.renumber_lt hi)
  refine (List.perm_ext_iff_of_nodup nodup nodup').2 fun k => ?_
  rw [List.mem_map]
  constructor
  · rintro ⟨j, mem, rfl⟩
    exact (same.mem_children_renumber st su hi (lt j mem)).2 mem
  · intro mem
    have hk := ((su.mem_children (same.renumber_lt hi)).1 mem).1
    have back := same.symm.renumber_renumber hk
    refine ⟨renumber h g k, ?_, back⟩
    rw [← same.mem_children_renumber st su hi (same.symm.renumber_lt hk), back]
    exact mem

end Graph.SameContent

end ClasspathAdvice
