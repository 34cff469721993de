import ClasspathAdvice.Graph.Search
import ClasspathAdvice.Proofs.Graph.Content
import ClasspathAdvice.Proofs.Graph.Numbers
import ClasspathAdvice.Proofs.Graph.Topological

/-!
# What can be reached, and in which order it is listed

A sweep marks what it takes from the pending nodes and puts their successors there instead. So
the marked and pending nodes stay closed under edges and are all reached (`Sweeping`), and at the
end exactly the reached nodes are marked. They are the nodes that reverse postorder lists, from
the source on, where an edge leads further down unless its target reaches its source
(`topological_sorts`).
-/

namespace ClasspathAdvice.Graph
set_option autoImplicit false

/-- The state of a sweep from `start`. -/
structure Sweeping (g : Graph) (start : Nat) (pending : List Nat) (marks : Array Bool) : Prop where
  size : marks.size = g.nodes.size
  covers : marks[start]? = some true ∨ start ∈ pending
  closed : ∀ i, marks[i]? = some true → ∀ j, (i, j) ∈ g.edges → marks[j]? = some true ∨ j ∈ pending
  marked : ∀ i, marks[i]? = some true → g.Reaches start i
  pending : ∀ i ∈ pending, g.Reaches start i

variable {g : Graph} {start i j : Nat} {pending : List Nat} {marks : Array Bool} {c : Coordinates}

namespace Sweeping

theorem initial (h : start < g.nodes.size) :
    Sweeping g start [start] (Array.replicate g.nodes.size false) where
  size := Array.size_replicate
  covers := .inr List.mem_cons_self
  closed := by simp [Array.getElem?_replicate]
  marked := by simp [Array.getElem?_replicate]
  pending := by
    intro i hi
    rw [List.mem_singleton.1 hi]
    exact .refl h

/-- A node that is marked already is passed over. -/
theorem skip (s : Sweeping g start (i :: pending) marks) (hi : marks[i]? = some true) :
    Sweeping g start pending marks where
  size := s.size
  covers := by
    rcases s.covers with marked | mem
    · exact .inl marked
    · rcases List.mem_cons.1 mem with rfl | mem
      · exact .inl hi
      · exact .inr mem
  closed := by
    intro k hk j e
    rcases s.closed k hk j e with marked | mem
    · exact .inl marked
    · rcases List.mem_cons.1 mem with rfl | mem
      · exact .inl hi
      · exact .inr mem
  marked := s.marked
  pending := by
    intro k hk
    exact s.pending k (List.mem_cons_of_mem _ hk)

/-- A node that is not marked yet is marked, and its successors become pending. -/
theorem visit (s : Sweeping g start (i :: pending) marks) (lt : i < marks.size) :
    Sweeping g start (g.successorTable.getD i [] ++ pending) (mark marks i lt) := by
  have reached := s.pending i List.mem_cons_self
  have inGraph : i < g.nodes.size := s.size ▸ lt
  have now : ∀ k, (mark marks i lt)[k]? = some true ↔ k = i ∨ marks[k]? = some true := by
    intro k
    rw [mark, Array.getElem?_set]
    by_cases hk : i = k
    · simp [hk]
    · simp [hk, Ne.symm hk]
  constructor
  case size => simp [mark, s.size]
  case covers =>
    rw [now, List.mem_append]
    rcases s.covers with marked | mem
    · exact .inl (.inr marked)
    · rcases List.mem_cons.1 mem with rfl | mem
      · exact .inl (.inl rfl)
      · exact .inr (.inr mem)
  case closed =>
    intro k hk j e
    rw [now] at hk ⊢
    rw [List.mem_append]
    rcases hk with rfl | hk
    · exact .inr (.inl ((mem_successors inGraph).2 e))
    · rcases s.closed k hk j e with marked | mem
      · exact .inl (.inr marked)
      · rcases List.mem_cons.1 mem with rfl | mem
        · exact .inl (.inl rfl)
        · exact .inr (.inr mem)
  case marked =>
    intro k hk
    rcases (now k).1 hk with rfl | hk
    · exact reached
    · exact s.marked k hk
  case pending =>
    intro k hk
    rcases List.mem_append.1 hk with next | hk
    · exact reached.step ((mem_successors inGraph).1 next)
    · exact s.pending k (List.mem_cons_of_mem _ hk)

/-- The sweep keeps its invariant until nothing is pending. -/
theorem run (s : Sweeping g start pending marks) :
    Sweeping g start [] (sweep g.successorTable pending marks) := by
  fun_induction sweep g.successorTable pending marks with
  | case1 marks => exact s
  | case2 marks i pending lt hi ih =>
    apply ih
    apply s.skip
    rw [Array.getElem?_eq_getElem lt, hi]
  | case3 marks i pending lt hi ih => exact ih (s.visit lt)
  | case4 marks i pending lt ih =>
    obtain ⟨l, p⟩ := s.pending i List.mem_cons_self
    exact absurd (s.size ▸ p.target_lt) lt

end Sweeping

/-- A sweep marks exactly the reached nodes. -/
theorem reachableMarks_iff (h : start < g.nodes.size) :
    (g.reachableMarks start)[i]? = some true ↔ g.Reaches start i := by
  have s : Sweeping g start [] (g.reachableMarks start) := (Sweeping.initial h).run
  constructor
  · exact s.marked i
  · rintro ⟨l, p⟩
    induction p with
    | start => exact s.covers.resolve_right List.not_mem_nil
    | step _ e ih => exact (s.closed _ ih _ e).resolve_right List.not_mem_nil

theorem mem_reachableFrom (h : start < g.nodes.size) :
    c ∈ g.reachableFrom start false ↔ ∃ i, g.nodes[i]? = some c ∧ g.Reaches start i := by
  have mark : ∀ i, (g.reachableMarks start).getD i false = true ↔ g.Reaches start i := by
    intro i
    rw [← reachableMarks_iff h, Array.getD_eq_getD_getElem?]
    cases (g.reachableMarks start)[i]? <;> simp
  rw [reachableFrom, List.mem_mergeSort, mem_nodesAt]
  simp only [List.mem_filter, List.mem_range, Bool.false_and, Bool.not_false, Bool.and_true, mark]
  constructor
  · rintro ⟨i, ⟨-, reached⟩, isNode⟩
    exact ⟨i, isNode, reached⟩
  · rintro ⟨i, isNode, reached⟩
    exact ⟨i, ⟨reached.elim fun _ p => p.target_lt, reached⟩, isNode⟩

theorem nodup_reachableFrom : ((g.reachableFrom start false).map (·.identifier)).Nodup := by
  have numbers : ((List.range g.nodes.size).filter fun i =>
      (g.reachableMarks start).getD i false && !(false && i == start)).Nodup :=
    List.nodup_range.filter _
  exact ((List.mergeSort_perm _ _).map _).nodup_iff.2 (nodup_nodesAt numbers)

/-- One element of a list stands before another. -/
def Precedes {α : Type} (l : List α) (x y : α) : Prop := ∃ a b, l = a ++ x :: b ∧ y ∈ b

/-- From every node, on a graph with cycles or without, reverse postorder lists exactly the
reached nodes, each once and the start first, and these are the nodes that a sweep finds. Each
edge of a reached node leads further down the list unless its target reaches its source; where
no cycle is reached, each edge does. -/
theorem topological_sorts {g : Graph} {identifier : String} {start : Nat}
    (h : g.indexOf? identifier = some start) :
    ∃ order reached, g.topological identifier = .ok order ∧
      g.reachable identifier false = .ok reached ∧
      (order.map (·.identifier)).Nodup ∧ order.head? = g.nodes[start]? ∧ order.Perm reached ∧
      (∀ c, c ∈ order ↔ ∃ i, g.nodes[i]? = some c ∧ g.Reaches start i) ∧
      (∀ i j u v, (i, j) ∈ g.edges → g.Reaches start i → g.nodes[i]? = some u →
        g.nodes[j]? = some v → Precedes order u v ∨ g.Reaches j i) ∧
      (g.AcyclicFrom start → ∀ i j u v, (i, j) ∈ g.edges → g.Reaches start i →
        g.nodes[i]? = some u → g.nodes[j]? = some v → Precedes order u v) := by
  have lt := indexOf?_lt h
  have members : ∀ c, c ∈ g.nodesAt (g.reversePostorder start) ↔
      ∃ i, g.nodes[i]? = some c ∧ g.Reaches start i := by
    intro c
    rw [mem_nodesAt]
    simp only [mem_reversePostorder lt, and_comm]
  have nodup : ((g.nodesAt (g.reversePostorder start)).map (·.identifier)).Nodup :=
    nodup_nodesAt (nodup_reversePostorder lt)
  have forward : ∀ i j u v, (i, j) ∈ g.edges → g.Reaches start i → g.nodes[i]? = some u →
      g.nodes[j]? = some v →
      Precedes (g.nodesAt (g.reversePostorder start)) u v ∨ g.Reaches j i := by
    intro i j u v e reached hu hv
    obtain ⟨a, b, split⟩ := List.append_of_mem ((mem_reversePostorder lt).2 reached)
    rcases leadsDown_reversePostorder lt a i b split j e with after | back
    · refine .inl ⟨g.nodesAt a, g.nodesAt b, ?_, mem_nodesAt.2 ⟨j, after, hv⟩⟩
      rw [split, nodesAt_append, nodesAt_cons hu]
    · exact .inr back
  refine ⟨g.nodesAt (g.reversePostorder start), g.reachableFrom start false, ?_, ?_, nodup, ?_, ?_,
    members, forward, ?_⟩
  · simp [topological, indexOf_of_some h, bind, Except.bind, pure, Except.pure]
  · simp [reachable, indexOf_of_some h, bind, Except.bind, pure, Except.pure]
  · obtain ⟨rest, first⟩ := List.head?_eq_some_iff.1 (head?_reversePostorder lt)
    rw [first, nodesAt_cons (Array.getElem?_eq_getElem lt), List.head?_cons,
      Array.getElem?_eq_getElem lt]
  · rw [List.perm_ext_iff_of_nodup nodup.of_map nodup_reachableFrom.of_map]
    intro c
    rw [members, mem_reachableFrom lt]
  · intro acyclic i j u v e reached hu hv
    exact (forward i j u v e reached hu hv).resolve_right (acyclic.not_reaches reached e)

/-- A cycle with a way in from `s` at both its nodes, and a way out to `c`. -/
def lasso : Graph :=
  let s := Coordinates.flat "s"
  let a := Coordinates.flat "a"
  let b := Coordinates.flat "b"
  let c := Coordinates.flat "c"
  .ofNodesAndEdges [] [(s, b), (s, a), (a, b), (b, a), (b, c)]

theorem listing_lasso : lasso.listing =
    ⟨[.flat "s", .flat "b", .flat "a", .flat "c"], [(0, 1), (0, 2), (2, 1), (1, 2), (1, 3)]⟩ := by
  rw [lasso, listing_ofNodesAndEdges]
  decide

/-- The edge that leaves the cycle leads down the order. -/
theorem topological_sorts_lasso :
    lasso.indexOf? "s" = some 0 ∧ ∃ order reached, lasso.topological "s" = .ok order ∧
      lasso.reachable "s" false = .ok reached ∧ order.Perm reached ∧
      Precedes order (.flat "b") (.flat "c") := by
  have edge : ∀ e, e ∈ lasso.edges ↔ e ∈ [(0, 1), (0, 2), (2, 1), (1, 2), (1, 3)] := by
    intro e
    rw [mem_edges, listing_lasso]
  have isB : lasso.nodes[1]? = some (.flat "b") := by rw [getElem?_nodes, listing_lasso]; rfl
  have isC : lasso.nodes[3]? = some (.flat "c") := by rw [getElem?_nodes, listing_lasso]; rfl
  have root : lasso.indexOf? "s" = some 0 := by
    rw [indexOf?_eq, listing_lasso]
    decide
  -- no edge leaves the last node
  have noWayBack : ¬ lasso.Reaches 3 1 := by
    have alone : ∀ j l, lasso.Path 3 j l → j = 3 := by
      intro j l p
      induction p with
      | start => rfl
      | step _ e ih =>
        rw [edge, ih] at e
        simp at e
    intro back
    obtain ⟨l, p⟩ := back
    exact absurd (alone 1 l p) (by decide)
  obtain ⟨order, reached, ordered, swept, -, -, same, -, forward, -⟩ := topological_sorts root
  have viaB : lasso.Reaches 0 1 := (Reaches.refl (indexOf?_lt root)).step ((edge _).2 (by decide))
  have down := forward 1 3 _ _ ((edge _).2 (by decide)) viaB isB isC
  exact ⟨root, order, reached, ordered, swept, same, down.resolve_right noWayBack⟩

end ClasspathAdvice.Graph
