import ClasspathAdvice.Proofs.Footprint.Attribution
import ClasspathAdvice.Proofs.Graph.Relisting

/-!
# Footprints do not depend on the order of insertion

In graphs with the same nodes and edges the children of a node are the same, in some order. The
largest footprint comes first and no two siblings are of one node, so sorting leaves one order
(`combine_eq_of_perm`). From the leaves up the footprints of a node are therefore equal
(`ofDominatorTree_eq_of_same`).
-/

namespace ClasspathAdvice.Footprint
set_option autoImplicit false

open DominatorTree ClasspathAdvice.Graph

/-! ## The order of siblings -/

instance : Std.TransCmp bySizeDescending := by
  have larger : Std.TransCmp fun a b : Footprint => compare b.treeSize a.treeSize :=
    inferInstanceAs (Std.TransCmp fun a b => compareOn Footprint.treeSize b a)
  change Std.TransCmp (compareLex (fun a b : Footprint => compare b.treeSize a.treeSize)
    (compareOn Footprint.node))
  infer_instance

theorem node_eq_of_bySizeDescending {a b : Footprint} (h : bySizeDescending a b = .eq) :
    a.node = b.node := by
  rw [bySizeDescending, Ordering.then_eq_eq] at h
  exact Std.LawfulEqCmp.eq_of_compare h.2

variable {sizeOf : Coordinates → Option Nat} {node : Coordinates} {fs fs' : List Footprint}

/-- The order in which siblings of different nodes are found does not matter. -/
theorem combine_eq_of_perm (perm : fs.Perm fs') (apart : (fs.map (·.node)).Nodup) :
    combine sizeOf bySizeDescending node fs = combine sizeOf bySizeDescending node fs' := by
  have sorted : (fs.mergeSort fun a b => (bySizeDescending a b).isLE) =
      fs'.mergeSort fun a b => (bySizeDescending a b).isLE := by
    refine List.Perm.eq_of_pairwise (fun a b ha hb le ge => ?_)
      (pairwise_mergeSort_isLE fs) (pairwise_mergeSort_isLE fs') ?_
    · have isA : a ∈ fs := (List.mergeSort_perm _ _).mem_iff.1 ha
      have isB : b ∈ fs := perm.mem_iff.2 ((List.mergeSort_perm _ _).mem_iff.1 hb)
      apply List.inj_on_of_nodup_map apart isA isB
      exact node_eq_of_bySizeDescending (Std.OrientedCmp.isLE_antisymm le ge)
    · exact (List.mergeSort_perm _ _).trans (perm.trans (List.mergeSort_perm _ _).symm)
  rw [combine, combine, sorted]

/-! ## The footprints of a tree -/

/-- The footprint of a node is put together from one of each child. -/
inductive Assembled (g : Graph) (t : DominatorTree) (sizeOf : Coordinates → Option Nat) :
    Nat → Footprint → Prop where
  | combine {i node fs} (isNode : g.nodes[i]? = some node)
      (children : List.Forall₂ (Assembled g t sizeOf) (t.childTable.getD i []) fs) :
      Assembled g t sizeOf i (combine sizeOf bySizeDescending node fs)

/-- The footprint of a node is what is put together of the node in another graph too. -/
def SameIn (g h : Graph) (u : DominatorTree) (sizeOf : Coordinates → Option Nat) (i : Nat)
    (f : Footprint) : Prop := ∀ f', Assembled h u sizeOf (renumber g h i) f' → f = f'

variable {g h : Graph} {root i : Nat} {t u : DominatorTree} {c c' : Candidates} {l : List Nat}

theorem assembled_ofDominatorTree (st : Settled g root t c) :
    Assembled g t sizeOf root (ofDominatorTree t sizeOf bySizeDescending) :=
  ofDominatorTree_spec st fun _ _ _ isNode children => .combine isNode children

theorem Assembled.node_eq {f : Footprint} (assembled : Assembled g t sizeOf i f) :
    g.nodes[i]? = some f.node := by
  cases assembled with
  | combine isNode _ => exact isNode

/-- Footprints of different numbers are of different nodes. -/
theorem nodup_node (assembled : List.Forall₂ (Assembled g t sizeOf) l fs) (nodup : l.Nodup) :
    (fs.map (·.node)).Nodup := by
  have nodes : g.nodesAt l = fs.map (·.node) := by
    clear nodup
    induction assembled with
    | nil => rfl
    | cons first _ ih => rw [nodesAt_cons first.node_eq, ih, List.map_cons]
  rw [← nodes]
  exact (nodup_nodesAt nodup).of_map

theorem eq_of_forall₂ {P Q : Nat → Footprint → Prop} (unique : ∀ i f f', P i f → Q i f' → f = f')
    (first : List.Forall₂ P l fs) (second : List.Forall₂ Q l fs') : fs = fs' := by
  induction first generalizing fs' with
  | nil => cases second; rfl
  | cons here _ ih =>
    cases second with
    | cons here' others' => rw [unique _ _ _ here here', ih others']

section

variable (same : SameContent g h) (st : Settled g root t c)
  (su : Settled h (renumber g h root) u c')
include same st su

/-- A node has the same footprint in both trees if its children have. -/
theorem sameIn_combine (isNode : g.nodes[i]? = some node)
    (children : List.Forall₂ (SameIn g h u sizeOf) (t.childTable.getD i []) fs) :
    SameIn g h u sizeOf i (combine sizeOf bySizeDescending node fs) := by
  intro f assembled
  have hi : i < g.nodes.size := (Array.getElem?_eq_some_iff.1 isNode).1
  have perm := same.children_perm st su hi
  cases assembled with
  | @combine _ node' fs' isNode' children' =>
    obtain rfl : node = node' :=
      Option.some.inj ((same.getElem?_renumber isNode).symm.trans isNode')
    -- the other graph's children in the order of this one's
    obtain ⟨rearranged, along, perm'⟩ := List.perm_comp_forall₂ perm children'
    have equal : fs = rearranged := by
      refine eq_of_forall₂ ?_ children (List.forall₂_map_left_iff.1 along)
      exact fun j f f' unique assembled => unique f' assembled
    subst equal
    have nodup := su.nodup_children (same.renumber_lt hi)
    exact combine_eq_of_perm perm' (nodup_node along (perm.nodup_iff.2 nodup))

theorem ofDominatorTree_eq : ofDominatorTree t sizeOf bySizeDescending =
    ofDominatorTree u sizeOf bySizeDescending := by
  have unique : SameIn g h u sizeOf root (ofDominatorTree t sizeOf bySizeDescending) :=
    ofDominatorTree_spec st fun _ _ _ isNode children => sameIn_combine same st su isNode children
  exact unique _ (assembled_ofDominatorTree su)

end

/-- Graphs with the same nodes and edges, in whatever order these were inserted, have dominator
trees from a root that reaches all nodes, and with the largest footprint first their footprints
are equal, whatever the sizes, also where sums start over. -/
theorem ofDominatorTree_eq_of_same {g h : Graph} (same : SameContent g h) {identifier : String}
    {root : Nat} (at_root : g.indexOf? identifier = some root)
    (all : ∀ i < g.nodes.size, g.Reaches root i) (sizeOf : Coordinates → Option Nat) :
    ∃ t u, DominatorTree.ofRoot g identifier = .ok t ∧
      DominatorTree.ofRoot h identifier = .ok u ∧
      ofDominatorTree t sizeOf bySizeDescending = ofDominatorTree u sizeOf bySizeDescending := by
  obtain ⟨t, c, ok, st⟩ := ofRoot_settled at_root all
  obtain ⟨u, c', ok', su⟩ :=
    ofRoot_settled (same.indexOf?_renumber at_root) (same.reaches all)
  exact ⟨t, u, ok, ok', ofDominatorTree_eq same st su⟩

/-- The graph of a shared library with its nodes and edges inserted in another order. -/
def sharedReversed : Graph :=
  let app := Coordinates.flat "app"
  let lib := Coordinates.flat "lib"
  let util := Coordinates.flat "util"
  let json := Coordinates.flat "json"
  .ofNodesAndEdges [util] [(json, lib), (lib, json), (lib, util), (app, util), (app, lib)]

theorem listing_sharedReversed : sharedReversed.listing =
    ⟨[.flat "util", .flat "json", .flat "lib", .flat "app"],
      [(1, 2), (2, 1), (2, 0), (3, 0), (3, 2)]⟩ := by
  rw [sharedReversed, Graph.listing_ofNodesAndEdges]
  decide

/-- The root is the first node of one graph and the last of the other, and its two children are
of one size, since the sum for one of them starts over. -/
theorem ofDominatorTree_eq_of_same_shared :
    let sizes (c : Coordinates) :=
      [("lib", UInt64.size - 1), ("util", 2), ("json", 3)].lookup c.identifier
    SameContent shared sharedReversed ∧ shared.indexOf? "app" = some 0 ∧
      sharedReversed.indexOf? "app" = some 3 ∧
      (∀ i < shared.nodes.size, shared.Reaches 0 i) ∧
      ∃ t u, DominatorTree.ofRoot shared "app" = .ok t ∧
        DominatorTree.ofRoot sharedReversed "app" = .ok u ∧
        ofDominatorTree t sizes bySizeDescending = ofDominatorTree u sizes bySizeDescending := by
  intro sizes
  have same : SameContent shared sharedReversed := by
    apply sameContent_of_perm
    · rw [listing_shared, listing_sharedReversed]
      decide
    · rw [listing_shared, listing_sharedReversed]
      decide
  have app : shared.indexOf? "app" = some 0 := by
    rw [Graph.indexOf?_eq, listing_shared]
    decide
  have app' : sharedReversed.indexOf? "app" = some 3 := by
    rw [Graph.indexOf?_eq, listing_sharedReversed]
    decide
  exact ⟨same, app, app', reaches_shared, ofDominatorTree_eq_of_same same app reaches_shared sizes⟩

end ClasspathAdvice.Footprint
