import ClasspathAdvice.Graph.Dominator
import ClasspathAdvice.Proofs.Graph.Search

/-!
# The numbers of the nodes in a search order

`Spanning` is an order of all nodes that begins with the root and has a predecessor of
each other node ahead of it; a search that finds all nodes gives one. In `numbering` a
node that comes earlier has a higher number, so no two nodes share a number and the root's
is the highest.
-/

namespace ClasspathAdvice
set_option autoImplicit false

/-- An order of all nodes of a graph as a search from the root finds them. -/
structure Graph.Spanning (g : Graph) (root : Nat) (order : List Nat) : Prop where
  head : order.head? = some root
  nodup : order.Nodup
  grounded : g.Grounded order
  mem : ∀ i, i ∈ order ↔ i < g.nodes.size

/-- A root that reaches all nodes has them all in its reverse postorder. -/
theorem Graph.spanning_reversePostorder {g : Graph} {root : Nat} (lt : root < g.nodes.size)
    (all : ∀ i < g.nodes.size, g.Reaches root i) : g.Spanning root (g.reversePostorder root) where
  head := g.head?_reversePostorder lt
  nodup := g.nodup_reversePostorder lt
  grounded := g.grounded_reversePostorder lt
  mem i := by
    rw [mem_reversePostorder lt]
    exact ⟨fun ⟨_, p⟩ => p.target_lt, all i⟩

namespace Graph.Spanning

variable {g : Graph} {root : Nat} {order : List Nat}

theorem root_lt (s : g.Spanning root order) : root < g.nodes.size :=
  (s.mem root).1 (List.mem_of_mem_head? s.head)

/-- The root comes first and only there. -/
theorem eq_cons (s : g.Spanning root order) : order = root :: order.filter (· != root) := by
  obtain ⟨rest, rfl⟩ : ∃ rest, order = root :: rest := List.head?_eq_some_iff.1 s.head
  have fresh : root ∉ rest := (List.nodup_cons.1 s.nodup).1
  have keep : rest.filter (· != root) = rest :=
    List.filter_eq_self.2 fun i hi => by simpa using fun h : i = root => fresh (h ▸ hi)
  simp [keep]

/-- The order holds the number of each node once. -/
theorem perm_range (s : g.Spanning root order) : order.Perm (List.range g.nodes.size) :=
  (List.perm_ext_iff_of_nodup s.nodup List.nodup_range).2 fun i => by rw [s.mem, List.mem_range]

/-- The length tells that all nodes were found. -/
theorem length_eq (s : g.Spanning root order) : order.length = g.nodes.size := by
  rw [s.perm_range.length_eq, List.length_range]

end Graph.Spanning

namespace DominatorTree

/-- Numbers are given from the front; one that is not met stays. -/
theorem getD_foldl_number (count : Nat) (l : List Nat) (k : Nat) (number : Array Nat) {i : Nat}
    (fresh : i ∉ l) :
    ((l.zipIdx k).foldl (fun number (i, place) => number.setIfInBounds i (count - place))
      number).getD i 0 = number.getD i 0 := by
  induction l generalizing k number with
  | nil => rfl
  | cons a l ih =>
    have ne : a ≠ i := fun h => fresh (by simp [h])
    rw [List.zipIdx_cons, List.foldl_cons, ih _ _ fun h => fresh (List.mem_cons_of_mem _ h)]
    simp [Array.getD_eq_getD_getElem?, ne]

theorem getD_foldl_zipIdx (count : Nat) (l : List Nat) (k : Nat) (number : Array Nat) {i p : Nat}
    (nodup : l.Nodup) (hp : l[p]? = some i) (hi : i < number.size) :
    ((l.zipIdx k).foldl (fun number (i, place) => number.setIfInBounds i (count - place))
      number).getD i 0 = count - (k + p) := by
  induction l generalizing k number p with
  | nil => simp at hp
  | cons a l ih =>
    have ⟨fresh, nodup⟩ := List.nodup_cons.1 nodup
    rw [List.zipIdx_cons, List.foldl_cons]
    cases p with
    | zero =>
      obtain rfl : a = i := by simpa using hp
      rw [getD_foldl_number count l (k + 1) _ fresh]
      simp [Array.getD_eq_getD_getElem?, hi]
    | succ p =>
      rw [ih (k + 1) _ nodup (by simpa using hp) (by simpa using hi)]
      congr 1
      omega

section Numbers

variable {g : Graph} {root : Nat} {order : List Nat} (s : g.Spanning root order)

include s

/-- The number of a node that stands at a place of the order. -/
theorem numbering_getD {i p : Nat} (hp : order[p]? = some i) :
    (numbering g.nodes.size order).getD i 0 = order.length - p := by
  have hi : i < g.nodes.size := (s.mem i).1 (List.mem_of_getElem? hp)
  rw [numbering, getD_foldl_zipIdx order.length order 0 _ s.nodup hp (by simpa using hi), Nat.zero_add]

/-- A node that comes earlier has a higher number. -/
theorem numbering_lt {i j : Nat} {a b : List Nat} (split : order = a ++ j :: b) (hi : i ∈ a) :
    (numbering g.nodes.size order).getD j 0 < (numbering g.nodes.size order).getD i 0 := by
  obtain ⟨p, hp, eq⟩ := List.mem_iff_getElem.1 hi
  have atp : order[p]? = some i := by
    rw [split, List.getElem?_append_left hp, List.getElem?_eq_getElem hp, eq]
  have atj : order[a.length]? = some j := by simp [split]
  have len : a.length < order.length := by simp [split]
  rw [numbering_getD s atp, numbering_getD s atj]
  omega

theorem numbering_inj {i j : Nat} (hi : i < g.nodes.size) (hj : j < g.nodes.size)
    (eq : (numbering g.nodes.size order).getD i 0 = (numbering g.nodes.size order).getD j 0) :
    i = j := by
  obtain ⟨p, hp⟩ := List.mem_iff_getElem?.1 ((s.mem i).2 hi)
  obtain ⟨q, hq⟩ := List.mem_iff_getElem?.1 ((s.mem j).2 hj)
  have hpl := (List.getElem?_eq_some_iff.1 hp).1
  have hql := (List.getElem?_eq_some_iff.1 hq).1
  rw [numbering_getD s hp, numbering_getD s hq] at eq
  obtain rfl : p = q := by omega
  exact Option.some.inj (hp.symm.trans hq)

/-- The root has the highest number, which is the number of nodes. -/
theorem numbering_root : (numbering g.nodes.size order).getD root 0 = g.nodes.size := by
  have atr : order[0]? = some root := by rw [← List.head?_eq_getElem?, s.head]
  rw [numbering_getD s atr, s.length_eq, Nat.sub_zero]

theorem numbering_le {i : Nat} (hi : i < g.nodes.size) :
    (numbering g.nodes.size order).getD i 0 ≤ (numbering g.nodes.size order).getD root 0 := by
  obtain ⟨p, hp⟩ := List.mem_iff_getElem?.1 ((s.mem i).2 hi)
  rw [numbering_root s, numbering_getD s hp, s.length_eq]
  exact Nat.sub_le _ _

end Numbers

end DominatorTree

end ClasspathAdvice
