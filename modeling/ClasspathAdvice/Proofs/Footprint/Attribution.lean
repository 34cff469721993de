import ClasspathAdvice.Proofs.Footprint.Assembly
import Mathlib.Algebra.BigOperators.Group.Finset.Basic
import Mathlib.Algebra.Order.BigOperators.Group.List
import Mathlib.Algebra.Order.Group.Nat
import Mathlib.Algebra.Ring.Nat

/-!
# What a footprint attributes

`Covers` is what holds of every footprint while the tree is put together: it lists, from
the top, a footprint of each node that its node dominates, and each sums up the sizes of
what its own node dominates. So the footprint of a dominator tree holds all nodes once,
attributes to each what is lost without it, and no sum in it is larger than the sum of all
sizes, so none starts over where that fits in a word (`ofDominatorTree_attributes`).
-/

namespace ClasspathAdvice.Footprint
set_option autoImplicit false

open DominatorTree

/-! ## Preorder -/

theorem preorderOf_append_listed (pending listed before : List Footprint) :
    preorderOf pending (listed ++ before) = before.reverse ++ preorderOf pending listed := by
  fun_induction preorderOf pending listed with
  | case1 listed => rw [preorderOf, List.reverse_append]
  | case2 listed f pending ih => rw [preorderOf, ← List.cons_append, ih]

theorem preorderOf_append (pending others listed : List Footprint) :
    preorderOf (pending ++ others) listed = preorderOf pending listed ++ preorderOf others [] := by
  fun_induction preorderOf pending listed with
  | case1 listed => simpa using preorderOf_append_listed others [] listed
  | case2 listed f pending ih =>
    rw [List.cons_append, preorderOf, ← List.append_assoc, ih]

theorem preorderOf_eq_flatMap (l : List Footprint) : preorderOf l [] = l.flatMap preorder := by
  induction l with
  | nil => rw [preorderOf, List.reverse_nil, List.flatMap_nil]
  | cons f l ih =>
    show preorderOf ([f] ++ l) [] = _
    rw [preorderOf_append, ih, List.flatMap_cons, preorder]

/-- A footprint comes before those below it, branch by branch. -/
theorem preorder_eq (f : Footprint) : f.preorder = f :: f.children.flatMap preorder := by
  rw [preorder, preorderOf, List.append_nil, ← preorderOf_eq_flatMap]
  exact preorderOf_append_listed f.children [] [f]

/-! ## Sums that start over -/

/-- It does not matter at which additions a sum starts over. -/
theorem foldl_addSizes (l : List Nat) (a : Nat) :
    l.foldl addSizes (a % UInt64.size) = (a + l.sum) % UInt64.size := by
  induction l generalizing a with
  | nil => rfl
  | cons b l ih =>
    have first : addSizes (a % UInt64.size) b = (a + b) % UInt64.size := Nat.mod_add_mod ..
    rw [List.foldl_cons, first, ih, List.sum_cons, Nat.add_assoc]

example : [2, UInt64.size - 1, 3].foldl addSizes 0 = 4 := by decide

/-- The word that the size of a node and the sums of its children add up to. -/
theorem treeSize_combine (sizeOf : Coordinates → Option Nat)
    (comparator : Footprint → Footprint → Ordering) (node : Coordinates) (fs : List Footprint) :
    (combine sizeOf comparator node fs).treeSize = ((sizeOf node).getD 0 +
      ((combine sizeOf comparator node fs).children.map treeSize).sum) % UInt64.size := by
  have sum := foldl_addSizes ((combine sizeOf comparator node fs).children.map treeSize) 0
  rw [Nat.zero_mod, Nat.zero_add] at sum
  calc (combine sizeOf comparator node fs).treeSize
      = addSizes ((sizeOf node).getD 0)
          (((combine sizeOf comparator node fs).children.map treeSize).foldl addSizes 0) := rfl
    _ = _ := by rw [sum, addSizes, Nat.add_mod_mod]

/-! ## Sizes of what a node dominates -/

/-- The size of the node with a number, nothing if it is not known. -/
def weight (g : Graph) (sizeOf : Coordinates → Option Nat) (i : Nat) : Nat :=
  (g.nodes[i]?.bind sizeOf).getD 0

/-- A footprint of the node `i` that sums up the sizes of what the node dominates. -/
structure Sized (g : Graph) (root : Nat) (sizeOf : Coordinates → Option Nat) (i : Nat)
    (f : Footprint) : Prop where
  node : g.nodes[i]? = some f.node
  size : f.size = sizeOf f.node
  sum : f.treeSize = f.size.getD 0 + (f.children.map treeSize).sum
  total : f.treeSize = ((g.dominated root i).map (weight g sizeOf)).sum

/-- The footprint of the node `i` with one of each node that it dominates. -/
structure Covers (g : Graph) (root : Nat) (sizeOf : Coordinates → Option Nat) (i : Nat)
    (f : Footprint) : Prop where
  top : Sized g root sizeOf i f
  all : ∃ l, l.Perm (g.dominated root i) ∧ List.Forall₂ (Sized g root sizeOf) l f.preorder

variable {g : Graph} {root i j : Nat} {t : DominatorTree} {c : Candidates}
variable {sizeOf : Coordinates → Option Nat} {comparator : Footprint → Footprint → Ordering}
variable {node : Coordinates} {fs : List Footprint} {l : List Nat}

/-- The sizes of all nodes, by number. -/
theorem map_weight_range :
    (List.range g.nodes.size).map (weight g sizeOf) =
      g.nodes.toList.map fun node => (sizeOf node).getD 0 := by
  refine List.ext_getElem (by simp) fun i hi _ => ?_
  have lt : i < g.nodes.size := by simpa using hi
  simp [weight, Array.getElem?_eq_getElem lt]

/-- What a node dominates has no larger sizes than all nodes together. -/
theorem sum_dominated_le : ((g.dominated root i).map (weight g sizeOf)).sum ≤
    (g.nodes.toList.map fun node => (sizeOf node).getD 0).sum := by
  rw [← map_weight_range]
  have sublist : (g.dominated root i).Sublist (List.range g.nodes.size) := List.filter_sublist
  exact (sublist.map _).sum_le_sum fun _ _ => Nat.zero_le _

theorem covers_children (h : List.Forall₂ (Covers g root sizeOf) l fs) :
    (fs.map treeSize).sum = ((l.flatMap (g.dominated root)).map (weight g sizeOf)).sum ∧
      ∃ m, m.Perm (l.flatMap (g.dominated root)) ∧
        List.Forall₂ (Sized g root sizeOf) m (fs.flatMap preorder) := by
  induction h with
  | nil => exact ⟨rfl, [], .refl _, .nil⟩
  | @cons i f l fs covers _ ih =>
    obtain ⟨sum, rest, perm, sized⟩ := ih
    obtain ⟨first, perm', sized'⟩ := covers.all
    refine ⟨?_, first ++ rest, perm'.append perm, List.rel_append sized' sized⟩
    rw [List.map_cons, List.sum_cons, sum, covers.top.total, List.flatMap_cons, List.map_append,
      List.sum_append]

/-- The footprint of a node from those of its children, whatever order these are put in. No sum
starts over if that of all sizes does not. -/
theorem covers_combine (st : Settled g root t c)
    (fits : (g.nodes.toList.map fun node => (sizeOf node).getD 0).sum < 2 ^ 64)
    (h : g.nodes[i]? = some node)
    (children : List.Forall₂ (Covers g root sizeOf) (t.childTable.getD i []) fs) :
    Covers g root sizeOf i (combine sizeOf comparator node fs) := by
  have hi : i < g.nodes.size := (Array.getElem?_eq_some_iff.1 h).1
  obtain ⟨l, sorted, perm⟩ := List.perm_comp_forall₂
    (List.mergeSort_perm fs fun a b => (comparator a b).isLE) children.flip
  obtain ⟨sum, m, perm', sized⟩ := covers_children sorted.flip
  have split := (st.dominated_perm hi).trans (.cons i (perm.symm.flatMap_right _))
  have top : Sized g root sizeOf i (combine sizeOf comparator node fs) := by
    have own : weight g sizeOf i = (sizeOf node).getD 0 := by rw [weight, h, Option.bind_some]
    have total : (sizeOf node).getD 0 +
        ((combine sizeOf comparator node fs).children.map treeSize).sum =
          ((g.dominated root i).map (weight g sizeOf)).sum := by
      rw [(split.map _).sum_eq, List.map_cons, List.sum_cons, ← sum, own]
      rfl
    have added : (combine sizeOf comparator node fs).treeSize = (sizeOf node).getD 0 +
        ((combine sizeOf comparator node fs).children.map treeSize).sum := by
      rw [treeSize_combine, total]
      exact Nat.mod_eq_of_lt (Nat.lt_of_le_of_lt sum_dominated_le fits)
    exact ⟨h, rfl, added, added.trans total⟩
  refine ⟨top, i :: m, (perm'.cons i).trans split.symm, ?_⟩
  rw [preorder_eq]
  exact .cons top sized

/-! ## The whole tree -/

/-- No sum is larger than that of all sizes. -/
theorem Sized.treeSize_le {f : Footprint} (s : Sized g root sizeOf i f) :
    f.treeSize ≤ (g.nodes.toList.map fun node => (sizeOf node).getD 0).sum := by
  rw [s.total]
  exact sum_dominated_le

/-- The partial sums over the children are no larger than the sum over the tree. -/
theorem Sized.sum_take_le {f : Footprint} (s : Sized g root sizeOf i f) (k : Nat) :
    ((f.children.map treeSize).take k).sum ≤ f.treeSize := by
  have le := (List.take_sublist k (f.children.map treeSize)).sum_le_sum fun _ _ => Nat.zero_le _
  have sum := s.sum
  omega

theorem map_node_of_sized (h : List.Forall₂ (Sized g root sizeOf) l fs) :
    fs.map (some ·.node) = l.map (g.nodes[·]?) := by
  induction h with
  | nil => rfl
  | cons sized _ ih => rw [List.map_cons, List.map_cons, ih, sized.node]

/-- The nodes in the tree are those of the graph, each once. -/
theorem nodes_perm {f : Footprint} (h : Covers g root sizeOf root f) :
    (f.preorder.map (·.node)).Perm g.nodes.toList := by
  obtain ⟨l, perm, sized⟩ := h.all
  rw [Graph.dominated_root] at perm
  have numbers : (List.range g.nodes.size).map (g.nodes[·]?) = g.nodes.toList.map some := by
    refine List.ext_getElem (by simp) fun i hi _ => ?_
    have lt : i < g.nodes.size := by simpa using hi
    simp [Array.getElem?_eq_getElem lt]
  have wrapped : ((f.preorder.map (·.node)).map some).Perm (g.nodes.toList.map some) := by
    rw [List.map_map, ← numbers]
    refine .trans ?_ (perm.map _)
    rw [← map_node_of_sized sized]
    exact .refl _
  exact (List.map_perm_map_iff (Option.some_injective _)).1 wrapped

theorem exists_sized (h : List.Forall₂ (Sized g root sizeOf) l fs) (hi : i ∈ l) :
    ∃ part ∈ fs, Sized g root sizeOf i part := by
  induction h with
  | nil => exact absurd hi List.not_mem_nil
  | cons sized _ ih =>
    rcases List.mem_cons.1 hi with rfl | hi
    · exact ⟨_, List.mem_cons_self, sized⟩
    · obtain ⟨part, mem, sized⟩ := ih hi
      exact ⟨part, List.mem_cons_of_mem _ mem, sized⟩

theorem exists_number (h : List.Forall₂ (Sized g root sizeOf) l fs) {part : Footprint}
    (mem : part ∈ fs) : ∃ i, Sized g root sizeOf i part := by
  induction h with
  | nil => exact absurd mem List.not_mem_nil
  | cons sized _ ih =>
    rcases List.mem_cons.1 mem with rfl | mem
    · exact ⟨_, sized⟩
    · exact ih mem

/-- Each node is found in the tree with its footprint. -/
theorem find?_of_covers {f : Footprint} (h : Covers g root sizeOf root f) {s : String}
    (hi : g.indexOf? s = some i) : ∃ part, f.find? s = some part ∧ Sized g root sizeOf i part := by
  obtain ⟨l, perm, sized⟩ := h.all
  have lt := Graph.indexOf?_lt hi
  rw [Graph.dominated_root] at perm
  obtain ⟨part, mem, own⟩ := exists_sized sized (perm.mem_iff.2 (List.mem_range.2 lt))
  obtain ⟨node, at_i, named⟩ := (g.index_iff s i).1 hi
  have isNamed : part.node.identifier = s := by
    rw [← named, Option.some.inj (own.node.symm.trans at_i)]
  have isFound : (f.find? s).isSome := by
    rw [find?, List.find?_isSome]
    exact ⟨part, mem, by simpa using isNamed⟩
  -- what is found first has the same identifier, so it is of the same node
  obtain ⟨first, found⟩ := Option.isSome_iff_exists.1 isFound
  obtain ⟨j, sized⟩ := exists_number sized (List.mem_of_find?_eq_some found)
  have firstNamed : first.node.identifier = s := by simpa using List.find?_some found
  have hj : g.indexOf? s = some j := (g.index_iff s j).2 ⟨_, sized.node, firstNamed⟩
  obtain rfl : i = j := Option.some.inj (hi.symm.trans hj)
  exact ⟨first, found, sized⟩

open Classical in
/-- A node other than the root has the sizes of itself and of what is cut off without it. -/
theorem Sized.treeSize_eq {f : Footprint} (s : Sized g root sizeOf i f)
    (lt : root < g.nodes.size) (ne : i ≠ root) :
    f.treeSize = ∑ n ∈ (Finset.range g.nodes.size).filter
      (fun n => n = i ∨ ¬ g.ReachesWithout i root n), weight g sizeOf n := by
  have same : (Finset.range g.nodes.size).filter (fun n => n = i ∨ ¬ g.ReachesWithout i root n) =
      (g.dominated root i).toFinset := by
    ext n
    rw [Finset.mem_filter, Finset.mem_range, List.mem_toFinset, Graph.mem_dominated,
      Graph.dominates_iff_cut_off lt ne]
  rw [s.total, same, List.sum_toFinset _ Graph.nodup_dominated]

open Classical in
/-- From a root that reaches all nodes, with sizes that sum up to less than `2 ^ 64`, and in any
order of siblings: the footprint of the dominator tree holds the nodes of the graph, each once,
and finds each; no partial sum in it reaches `2 ^ 64`; that of the root is the sum of all sizes,
and that of any other node is the sum of its own size and those of the nodes that the root no
longer reaches when the node is deleted. -/
theorem ofDominatorTree_attributes {g : Graph} {identifier : String} {root : Nat}
    (h : g.indexOf? identifier = some root) (all : ∀ i < g.nodes.size, g.Reaches root i)
    (sizeOf : Coordinates → Option Nat) (comparator : Footprint → Footprint → Ordering)
    (fits : (g.nodes.toList.map fun node => (sizeOf node).getD 0).sum < 2 ^ 64) :
    ∃ t f, DominatorTree.ofRoot g identifier = .ok t ∧
      f = ofDominatorTree t sizeOf comparator ∧
      (f.preorder.map (·.node)).Perm g.nodes.toList ∧ f.nodeCount = g.nodes.size ∧
      (∀ part ∈ f.preorder, part.size = sizeOf part.node ∧
        (∀ k, ((part.children.map treeSize).take k).sum < 2 ^ 64) ∧
        part.treeSize = part.size.getD 0 + (part.children.map treeSize).sum ∧
        part.treeSize < 2 ^ 64) ∧
      f.treeSize = (g.nodes.toList.map fun node => (sizeOf node).getD 0).sum ∧
      ∀ s d, g.indexOf? s = some d →
        ∃ part, f.find? s = some part ∧ g.nodes[d]? = some part.node ∧
          (d ≠ root → part.treeSize = ∑ n ∈ (Finset.range g.nodes.size).filter
            (fun n => n = d ∨ ¬ g.ReachesWithout d root n), weight g sizeOf n) := by
  obtain ⟨t, c, ok, st⟩ := ofRoot_settled h all
  have covers : Covers g root sizeOf root (ofDominatorTree t sizeOf comparator) :=
    ofDominatorTree_spec st fun _ _ _ isNode children => covers_combine st fits isNode children
  have perm := nodes_perm covers
  refine ⟨t, _, ok, rfl, perm, ?_, fun part mem => ?_, ?_, fun s d hd => ?_⟩
  · rw [nodeCount, ← List.length_map (·.node), perm.length_eq, Array.length_toList]
  · obtain ⟨l, -, sized⟩ := covers.all
    obtain ⟨i, sized⟩ := exists_number sized mem
    have bound := Nat.lt_of_le_of_lt sized.treeSize_le fits
    exact ⟨sized.size, fun k => Nat.lt_of_le_of_lt (sized.sum_take_le k) bound, sized.sum, bound⟩
  · rw [covers.top.total, Graph.dominated_root, map_weight_range]
  · obtain ⟨part, found, sized⟩ := find?_of_covers covers hd
    exact ⟨part, found, sized.node, sized.treeSize_eq st.spanning.root_lt⟩

/-- A library that brings along one node of a cycle through it and shares another with the root. -/
def shared : Graph :=
  let app := Coordinates.flat "app"
  let lib := Coordinates.flat "lib"
  let util := Coordinates.flat "util"
  let json := Coordinates.flat "json"
  .ofNodesAndEdges [] [(app, lib), (app, util), (lib, util), (lib, json), (json, lib)]

/-- The size of the root is not known. -/
def sharedSizes (c : Coordinates) : Option Nat :=
  [("lib", 2), ("util", 7), ("json", 3)].lookup c.identifier

theorem listing_shared : shared.listing =
    ⟨[.flat "app", .flat "lib", .flat "util", .flat "json"],
      [(0, 1), (0, 2), (1, 2), (1, 3), (3, 1)]⟩ := by
  rw [shared, Graph.listing_ofNodesAndEdges]
  decide

theorem reaches_shared : ∀ i < shared.nodes.size, shared.Reaches 0 i := by
  have size : shared.nodes.size = 4 := by rw [Graph.size_nodes, listing_shared]; rfl
  have edge : ∀ e ∈ [(0, 1), (0, 2), (1, 2), (1, 3), (3, 1)], e ∈ shared.edges := by
    intro e he
    rw [Graph.mem_edges, listing_shared]
    exact he
  have start : shared.Reaches 0 0 := ⟨_, .start (by omega)⟩
  have lib := start.step (edge (0, 1) (by decide))
  have util := start.step (edge (0, 2) (by decide))
  have json := lib.step (edge (1, 3) (by decide))
  intro i hi
  obtain rfl | rfl | rfl | rfl : i = 0 ∨ i = 1 ∨ i = 2 ∨ i = 3 := by omega
  · exact start
  · exact lib
  · exact util
  · exact json

/-- Without the library the root and what it shares are left. -/
theorem reachesWithout_shared (i : Nat) : shared.ReachesWithout 1 0 i ↔ i = 0 ∨ i = 2 := by
  have edges : ∀ e, e ∈ shared.edges ↔ e ∈ [(0, 1), (0, 2), (1, 2), (1, 3), (3, 1)] := by
    intro e
    rw [Graph.mem_edges, listing_shared]
  constructor
  · intro h
    induction h with
    | refl => exact .inl rfl
    | @tail u v _ e ih =>
      have closed : ∀ e ∈ [(0, 1), (0, 2), (1, 2), (1, 3), (3, 1)], e.1 ≠ 1 → e.2 ≠ 1 →
          (e.1 = 0 ∨ e.1 = 2) → e.2 = 0 ∨ e.2 = 2 := by decide
      exact closed (u, v) ((edges _).1 e.1) e.2.1 e.2.2 ih
  · rintro (rfl | rfl)
    · exact .refl
    · exact .single ⟨(edges _).2 (by decide), by decide, by decide⟩

open Classical in
theorem ofDominatorTree_attributes_shared :
    shared.indexOf? "app" = some 0 ∧ (∀ i < shared.nodes.size, shared.Reaches 0 i) ∧
      (shared.nodes.toList.map fun node => (sharedSizes node).getD 0).sum < 2 ^ 64 ∧
      ∃ t f part, DominatorTree.ofRoot shared "app" = .ok t ∧
        f = ofDominatorTree t sharedSizes bySizeDescending ∧ f.nodeCount = 4 ∧ f.treeSize = 12 ∧
        f.find? "lib" = some part ∧ part.treeSize = 5 := by
  have index : ∀ s, shared.indexOf? s =
      Content.position ⟨[.flat "app", .flat "lib", .flat "util", .flat "json"], []⟩ s := by
    intro s
    rw [Graph.indexOf?_eq, listing_shared]
    rfl
  have app : shared.indexOf? "app" = some 0 := by rw [index]; decide
  have lib : shared.indexOf? "lib" = some 1 := by rw [index]; decide
  have sum : (shared.nodes.toList.map fun node => (sharedSizes node).getD 0).sum = 12 := by
    show (shared.listing.nodes.map fun node => (sharedSizes node).getD 0).sum = 12
    rw [listing_shared]
    decide
  have fits : (shared.nodes.toList.map fun node => (sharedSizes node).getD 0).sum < 2 ^ 64 := by
    rw [sum]
    decide
  obtain ⟨t, f, ok, eq, -, count, -, total, attributed⟩ :=
    ofDominatorTree_attributes app reaches_shared sharedSizes bySizeDescending fits
  obtain ⟨part, found, -, treeSize⟩ := attributed _ _ lib
  refine ⟨app, reaches_shared, fits, t, f, part, ok, eq, ?_, total.trans sum, found, ?_⟩
  · rw [count, Graph.size_nodes, listing_shared]
    rfl
  · rw [treeSize (by decide)]
    have cut : (Finset.range shared.nodes.size).filter
        (fun n => n = 1 ∨ ¬ shared.ReachesWithout 1 0 n) = {1, 3} := by
      ext n
      rw [Finset.mem_filter, Finset.mem_range, Graph.size_nodes, listing_shared,
        reachesWithout_shared, Finset.mem_insert, Finset.mem_singleton]
      simp only [List.length_cons, List.length_nil]
      omega
    have weights : ∀ n, weight shared sharedSizes n = ((
        [.flat "app", .flat "lib", .flat "util", .flat "json"] : List Coordinates)[n]?.bind
          sharedSizes).getD 0 := by
      intro n
      rw [weight, Graph.getElem?_nodes, listing_shared]
    rw [cut, Finset.sum_pair (by decide), weights, weights]
    decide

end ClasspathAdvice.Footprint
