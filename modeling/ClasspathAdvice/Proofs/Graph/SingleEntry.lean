import ClasspathAdvice.Proofs.Graph.DominatorTree
import ClasspathAdvice.Proofs.Graph.Queries

/-!
# Which graphs have a dominator tree

A dominator tree is refused if its root does not reach all nodes. What is compared is the length
of an order with the number of nodes, and who is missing is looked up in marks; both say what can
be reached (`length_reversePostorder_eq_iff`, `unreached_eq`). A node that no edge leads to is
reached from no other, so a graph has a tree from such a node only if it has no second one
(`ofRoot_validates`).
-/

namespace ClasspathAdvice
set_option autoImplicit false

namespace Graph

open Classical in
/-- The identifiers of the nodes that a node does not reach, in the order of the nodes. -/
noncomputable def unreached (g : Graph) (i : Nat) : List String :=
  (g.nodesAt ((List.range g.nodes.size).filter fun j => ¬ g.Reaches i j)).map (·.identifier)

/-- A node that no edge leads to, not even one from itself. -/
def IsEntry (g : Graph) (i : Nat) : Prop := i < g.nodes.size ∧ ∀ j, (j, i) ∉ g.edges

variable {g : Graph} {root i j : Nat} {c : Coordinates} {s : String}

/-! ## What is compared -/

/-- The order that is found is as long as there are nodes exactly if all are reached. -/
theorem length_reversePostorder_eq_iff (lt : root < g.nodes.size) :
    (g.reversePostorder root).length = g.nodes.size ↔ ∀ i < g.nodes.size, g.Reaches root i := by
  constructor
  · intro length i hi
    have known : g.reversePostorder root ⊆ List.range g.nodes.size := by
      intro j hj
      obtain ⟨l, p⟩ := (mem_reversePostorder lt).1 hj
      exact List.mem_range.2 p.target_lt
    have part := (nodup_reversePostorder lt).subperm known
    -- no shorter than the numbers of all nodes, among which it is without repetition
    have all : (g.reversePostorder root).Perm (List.range g.nodes.size) := by
      apply part.perm_of_length_le
      rw [List.length_range, length]
    exact (mem_reversePostorder lt).1 (all.mem_iff.2 (List.mem_range.2 hi))
  · intro all
    exact (g.spanning_reversePostorder lt all).length_eq

/-- Marking the nodes of a list, one after the other. -/
theorem getD_foldl_mark (l : List Nat) (marks : Array Bool) (hi : i < marks.size) :
    (l.foldl (fun marks j => marks.setIfInBounds j true) marks).getD i false =
      (marks.getD i false || l.contains i) := by
  induction l generalizing marks with
  | nil => simp
  | cons j l ih =>
    have size : i < (marks.setIfInBounds j true).size := by rwa [Array.size_setIfInBounds]
    have first : (marks.setIfInBounds j true).getD i false = (marks.getD i false || i == j) := by
      by_cases h : j = i
      · simp [Array.getD_eq_getD_getElem?, h, hi]
      · simp [Array.getD_eq_getD_getElem?, h, Ne.symm h]
    rw [List.foldl_cons, ih _ size, first, List.contains_cons, Bool.or_assoc]

/-- The nodes that the order does not mark are those that are not reached. -/
theorem unreached_eq (lt : root < g.nodes.size) :
    (g.nodesAt ((List.range g.nodes.size).filter fun i =>
        !((g.reversePostorder root).foldl (fun marks j => marks.setIfInBounds j true)
          (Array.replicate g.nodes.size false)).getD i false)).map (·.identifier) =
      g.unreached root := by
  rw [unreached]
  congr 2
  apply List.filter_congr
  intro i mem
  have hi := List.mem_range.1 mem
  rw [getD_foldl_mark _ _ (by rwa [Array.size_replicate]), Bool.eq_iff_iff]
  simp [Array.getD_eq_getD_getElem?, hi, mem_reversePostorder lt]

/-! ## Entries -/

theorem mem_rootIndices : i ∈ g.rootIndices ↔ g.IsEntry i := by
  rw [rootIndices, List.mem_filter, List.mem_range, IsEntry]
  apply and_congr_right
  intro lt
  rw [incoming_getD lt, beq_iff_eq, List.countP_eq_zero]
  constructor
  · intro none j isEdge
    exact none (j, i) (Array.mem_toList_iff.2 isEdge) (beq_self_eq_true i)
  · intro none e isEdge same
    obtain rfl : e.2 = i := beq_iff_eq.1 same
    exact none e.1 (Array.mem_toList_iff.1 isEdge)

/-- The counter of a node is zero exactly if the node is an entry. -/
theorem inDegree_eq_zero_iff (isNode : g.nodes[i]? = some c) :
    g.inDegree c.identifier = .ok 0 ↔ g.IsEntry i := by
  have lt := (Array.getElem?_eq_some_iff.1 isNode).1
  rw [← mem_rootIndices, rootIndices, List.mem_filter, List.mem_range, beq_iff_eq, inDegree,
    indexOf_of_some (indexOf?_of_node isNode)]
  simp [bind, Except.bind, pure, Except.pure, lt]

/-- An entry is reached from no other node. -/
theorem IsEntry.eq_of_reaches (entry : g.IsEntry j) (reached : g.Reaches i j) : j = i := by
  obtain ⟨l, p⟩ := reached
  cases p with
  | start => rfl
  | step p e => exact absurd e (entry.2 _)

theorem root?_eq_none_iff : g.root? = none ↔ ∀ i, ¬ g.IsEntry i := by
  rw [root?, roots, List.head?_eq_none_iff, List.eq_nil_iff_forall_not_mem]
  constructor
  · intro none i entry
    have isNode := Array.getElem?_eq_getElem entry.1
    exact none _ (mem_nodesAt.2 ⟨i, mem_rootIndices.2 entry, isNode⟩)
  · intro none c mem
    obtain ⟨i, isRoot, -⟩ := mem_nodesAt.1 mem
    exact none i (mem_rootIndices.1 isRoot)

theorem exists_entry_of_root? (h : g.root? = some c) : ∃ i, g.IsEntry i ∧ g.nodes[i]? = some c := by
  obtain ⟨i, isRoot, isNode⟩ := mem_nodesAt.1 (List.mem_of_mem_head? h)
  exact ⟨i, mem_rootIndices.1 isRoot, isNode⟩

end Graph

namespace DominatorTree

variable {g : Graph} {root i : Nat} {s : String} {t : DominatorTree}

/-- A root that does not reach all nodes is told which these are. -/
theorem ofRoot_of_unreached (h : g.indexOf? s = some root)
    (some : ∃ i < g.nodes.size, ¬ g.Reaches root i) :
    ofRoot g s = .error (.notSingleEntry s (g.unreached root)) := by
  have lt := Graph.indexOf?_lt h
  obtain ⟨i, hi, not⟩ := some
  have short : (g.reversePostorder root).length ≠ g.nodes.size := fun length =>
    not ((Graph.length_reversePostorder_eq_iff lt).1 length i hi)
  rw [← Graph.unreached_eq lt, ofRoot, Graph.indexOf_of_some h]
  simp only [bind, Except.bind, if_neg short]
  rfl

theorem ofRoot_of_missing (h : g.indexOf? s = none) : ofRoot g s = .error (.missingNode s) :=
  (Graph.missing_of_none h).dominators

/-- A tree that was built is settled. -/
theorem settled_of_ok (ok : ofRoot g s = .ok t) :
    ∃ root c, g.indexOf? s = some root ∧ Settled g root t c := by
  cases h : g.indexOf? s with
  | none =>
    rw [ofRoot_of_missing h] at ok
    cases ok
  | some root =>
    by_cases all : ∀ i < g.nodes.size, g.Reaches root i
    · obtain ⟨t', c, ok', settled⟩ := ofRoot_settled h all
      obtain rfl : t' = t := Except.ok.inj (ok'.symm.trans ok)
      exact ⟨root, c, rfl, settled⟩
    · push Not at all
      rw [ofRoot_of_unreached h all] at ok
      cases ok

/-- There is a tree exactly if the root is a node that reaches all. -/
theorem ofRoot_ok_iff :
    (∃ t, ofRoot g s = .ok t) ↔ ∃ i, g.indexOf? s = some i ∧ ∀ j < g.nodes.size, g.Reaches i j := by
  constructor
  · intro built
    obtain ⟨t, ok⟩ := built
    obtain ⟨root, c, h, settled⟩ := settled_of_ok ok
    refine ⟨root, h, fun j hj => ?_⟩
    exact settled.spanning.grounded.reaches settled.spanning.head settled.spanning.root_lt j
      ((settled.spanning.mem j).2 hj)
  · intro reached
    obtain ⟨i, h, all⟩ := reached
    obtain ⟨t, c, ok, -⟩ := ofRoot_settled h all
    exact ⟨t, ok⟩

/-- A root that is no node is named, and else those nodes that it does not reach. -/
theorem ofRoot_error_iff {e : GraphError} : ofRoot g s = .error e ↔
    (g.contains s = false ∧ e = .missingNode s) ∨
      ∃ i, g.indexOf? s = some i ∧ (∃ j < g.nodes.size, ¬ g.Reaches i j) ∧
        e = .notSingleEntry s (g.unreached i) := by
  rw [Graph.contains_eq_isSome]
  cases h : g.indexOf? s with
  | none =>
    rw [ofRoot_of_missing h]
    simp [eq_comm]
  | some i =>
    by_cases all : ∀ j < g.nodes.size, g.Reaches i j
    · obtain ⟨t, c, ok, -⟩ := ofRoot_settled h all
      rw [ok]
      apply iff_of_false
      · intro fails
        cases fails
      · intro refused
        cases refused with
        | inl missing => cases missing.1
        | inr partly =>
          obtain ⟨k, same, ⟨j, hj, not⟩, -⟩ := partly
          cases same
          exact not (all j hj)
    · push Not at all
      rw [ofRoot_of_unreached h all]
      simp [all, eq_comm]

theorem ofGraph_error_noRoot_iff : ofGraph g = .error .noRoot ↔ ∀ i, ¬ g.IsEntry i := by
  rw [← Graph.root?_eq_none_iff, ofGraph]
  cases h : g.root? with
  | none => simp
  | some c =>
    simp [ofRoot_error_iff]

theorem ofGraph_ok_iff : (∃ t, ofGraph g = .ok t) ↔
    ∃ i, g.IsEntry i ∧ (∀ j, g.IsEntry j → j = i) ∧ ∀ j < g.nodes.size, g.Reaches i j := by
  rw [ofGraph]
  cases h : g.root? with
  | none =>
    have none := Graph.root?_eq_none_iff.1 h
    constructor
    · intro built
      obtain ⟨t, ok⟩ := built
      cases ok
    · intro single
      obtain ⟨i, entry, -⟩ := single
      exact absurd entry (none i)
  | some c =>
    obtain ⟨i, entry, isNode⟩ := Graph.exists_entry_of_root? h
    have index := Graph.indexOf?_of_node isNode
    show (∃ t, ofRoot g c.identifier = .ok t) ↔ _
    rw [ofRoot_ok_iff]
    constructor
    · intro reached
      obtain ⟨k, same, all⟩ := reached
      obtain rfl : i = k := Option.some.inj (index.symm.trans same)
      exact ⟨i, entry, fun j other => other.eq_of_reaches (all j other.1), all⟩
    · intro single
      obtain ⟨k, -, only, all⟩ := single
      obtain rfl := only i entry
      exact ⟨i, index, all⟩

/-- A dominator tree is refused from a root that is no node, and from a node exactly if that does
not reach all, with the list of those that it does not reach; from any other node there is one.
If no root is given, it is an error to find none exactly if an edge leads to each node, and there
is a tree exactly if a single node has no such edge and reaches all. The counters of edges say
which nodes these are. -/
theorem ofRoot_validates (g : Graph) :
    (∀ s e, ofRoot g s = .error e ↔
      (g.contains s = false ∧ e = .missingNode s) ∨
        ∃ i, g.indexOf? s = some i ∧ (∃ j < g.nodes.size, ¬ g.Reaches i j) ∧
          e = .notSingleEntry s (g.unreached i)) ∧
    (∀ s, (∃ t, ofRoot g s = .ok t) ↔
      ∃ i, g.indexOf? s = some i ∧ ∀ j < g.nodes.size, g.Reaches i j) ∧
    (∀ i c, g.nodes[i]? = some c → (g.inDegree c.identifier = .ok 0 ↔ g.IsEntry i)) ∧
    (ofGraph g = .error .noRoot ↔ ∀ i, ¬ g.IsEntry i) ∧
    ((∃ t, ofGraph g = .ok t) ↔
      ∃ i, g.IsEntry i ∧ (∀ j, g.IsEntry j → j = i) ∧ ∀ j < g.nodes.size, g.Reaches i j) := by
  refine ⟨fun s e => ofRoot_error_iff, fun s => ofRoot_ok_iff, fun i c => ?_,
    ofGraph_error_noRoot_iff, ofGraph_ok_iff⟩
  exact Graph.inDegree_eq_zero_iff

example : ofGraph ∅ = .error .noRoot := rfl

end DominatorTree

end ClasspathAdvice
