import ClasspathAdvice.Graph.Dominator
import ClasspathAdvice.Graph.Route
import ClasspathAdvice.Proofs.Graph.Content
import ClasspathAdvice.Proofs.Graph.Numbers

/-!
# What a graph answers about its nodes and edges

The numbers inside a graph do not show: what it answers about the node with an identifier is
read off the list of its edges (`answers_of_some`), and it has no answer about an identifier
that no node has (`missing_of_none`).
-/

namespace ClasspathAdvice
set_option autoImplicit false

/-- The identifiers of the ends of an edge. -/
def Edge.ends (e : Edge) : String × String := (e.source.identifier, e.target.identifier)

namespace Graph

variable {g : Graph} {s t : String} {i j : Nat} {c d : Coordinates}

theorem edgeBetween_eq (hc : g.nodes[i]? = some c) (hd : g.nodes[j]? = some d) :
    g.edgeBetween (i, j) = some { source := c, target := d } := by
  simp [edgeBetween, hc, hd]

/-- Every edge has its ends in the graph. -/
theorem exists_edgeBetween {p : Nat × Nat} (h : p ∈ g.edges) :
    ∃ c d, g.nodes[p.1]? = some c ∧ g.nodes[p.2]? = some d ∧
      g.edgeBetween p = some { source := c, target := d } := by
  obtain ⟨lt, lt'⟩ := g.edges_lt p h
  have hc := Array.getElem?_eq_getElem lt
  have hd := Array.getElem?_eq_getElem lt'
  exact ⟨_, _, hc, hd, edgeBetween_eq hc hd⟩

theorem mem_edgeList {e : Edge} : e ∈ g.edgeList ↔ ∃ i j, (i, j) ∈ g.edges ∧
    g.nodes[i]? = some e.source ∧ g.nodes[j]? = some e.target ∧ e.weight = 1 := by
  rw [edgeList, List.mem_filterMap]
  constructor
  · intro h
    obtain ⟨p, mem, between⟩ := h
    rw [Array.mem_toList_iff] at mem
    obtain ⟨c, d, hc, hd, eq⟩ := exists_edgeBetween mem
    rw [eq] at between
    cases between
    exact ⟨p.1, p.2, mem, hc, hd, rfl⟩
  · intro h
    obtain ⟨i, j, mem, hc, hd, weight⟩ := h
    refine ⟨(i, j), Array.mem_toList_iff.2 mem, ?_⟩
    rw [edgeBetween_eq hc hd, ← weight]

/-- The node with an identifier is the first that has it. -/
theorem node?_eq_find? : g.node? s = g.nodes.toList.find? (·.identifier == s) := by
  rw [node?, indexOf?_eq, List.find?_eq_bind_findIdx?_getElem?]
  simp only [Array.getElem?_toList]
  rfl

theorem contains_eq_isSome_node? : g.contains s = (g.node? s).isSome := by
  rw [contains_eq_isSome, node?]
  cases h : g.indexOf? s with
  | none => rfl
  | some i =>
    obtain ⟨c, hc, -⟩ := (g.index_iff s i).1 h
    rw [Option.bind_some, hc]
    rfl

/-- There is an edge between two identifiers if the list of edges has one with these ends. -/
theorem hasEdge_iff : g.hasEdge s t = true ↔ (s, t) ∈ g.edgeList.map Edge.ends := by
  rw [List.mem_map]
  constructor
  · intro h
    rw [hasEdge] at h
    split at h
    · rename_i i j hi hj
      rw [g.links_iff] at h
      obtain ⟨c, hc, rfl⟩ := (g.index_iff s i).1 hi
      obtain ⟨d, hd, rfl⟩ := (g.index_iff t j).1 hj
      exact ⟨{ source := c, target := d }, mem_edgeList.2 ⟨i, j, h, hc, hd, rfl⟩, rfl⟩
    · exact absurd h Bool.false_ne_true
  · intro h
    obtain ⟨e, mem, ends⟩ := h
    obtain ⟨i, j, isEdge, hc, hd, -⟩ := mem_edgeList.1 mem
    obtain ⟨rfl, rfl⟩ := Prod.mk.inj ends
    rw [hasEdge, indexOf?_of_node hc, indexOf?_of_node hd]
    exact (g.links_iff _).2 isEdge

/-! ## The edges at a node -/

/-- A node has an identifier if it is the one that is found under it. -/
theorem identifier_beq (h : g.indexOf? s = some i) (hc : g.nodes[j]? = some c) :
    (c.identifier == s) = (j == i) := by
  obtain ⟨u, hu, rfl⟩ := (g.index_iff s i).1 h
  rw [Bool.eq_iff_iff, beq_iff_eq, beq_iff_eq]
  constructor
  · exact number_unique hc hu
  · intro same
    rw [same, hu] at hc
    rw [Option.some.inj hc]

/-- A part of the edges is what the same part of the pairs of numbers stands for. -/
theorem filter_edgeList {p : Edge → Bool} {q : Nat × Nat → Bool}
    (same : ∀ k c d, g.nodes[k.1]? = some c → g.nodes[k.2]? = some d →
      p { source := c, target := d } = q k) :
    g.edgeList.filter p = (g.edges.toList.filter q).filterMap g.edgeBetween := by
  rw [edgeList, List.filter_filterMap, List.filterMap_filter]
  apply List.filterMap_congr
  intro k mem
  obtain ⟨c, d, hc, hd, eq⟩ := exists_edgeBetween (Array.mem_toList_iff.1 mem)
  rw [eq, Option.filter_some, same k c d hc hd]

/-- The edges that leave a node are those of its number. -/
theorem leaving_eq (h : g.indexOf? s = some i) :
    g.edgeList.filter (·.source.identifier == s) =
      (g.edges.toList.filter (·.1 == i)).filterMap g.edgeBetween := by
  apply filter_edgeList
  intro k c d hc hd
  exact identifier_beq h hc

/-- The edges that lead to a node are those to its number. -/
theorem arriving_eq (h : g.indexOf? s = some i) :
    g.edgeList.filter (·.target.identifier == s) =
      (g.edges.toList.filter (·.2 == i)).filterMap g.edgeBetween := by
  apply filter_edgeList
  intro k c d hc hd
  exact identifier_beq h hd

/-- No edge of a part of the edges is lost between the list of pairs and that of edges. -/
theorem length_filterMap_edgeBetween (p : Nat × Nat → Bool) :
    ((g.edges.toList.filter p).filterMap g.edgeBetween).length = g.edges.toList.countP p := by
  rw [List.length_filterMap_eq_countP, List.countP_eq_length_filter (p := p), List.countP_eq_length]
  intro e mem
  obtain ⟨c, d, -, -, eq⟩ := exists_edgeBetween (Array.mem_toList_iff.1 (List.mem_of_mem_filter mem))
  rw [eq]
  rfl

theorem incoming_getD (h : i < g.nodes.size) :
    g.incoming.getD i 0 = g.edges.toList.countP (·.2 == i) := by
  rw [Array.getD_eq_getD_getElem?, g.incoming_eq, if_pos h, Option.getD_some, Array.countP_toList]

/-! ## Answers -/

/-- What a graph answers about an identifier that one of its nodes has. -/
structure Answers (g : Graph) (s : String) : Prop where
  adjacent : g.adjacent s = .ok (g.edgeList.filter (·.source.identifier == s))
  successors : g.successors s = .ok ((g.edgeList.filter (·.source.identifier == s)).map (·.target))
  predecessors :
    g.predecessors s = .ok ((g.edgeList.filter (·.target.identifier == s)).map (·.source))
  outDegree : g.outDegree s = .ok (g.edgeList.filter (·.source.identifier == s)).length
  inDegree : g.inDegree s = .ok (g.edgeList.filter (·.target.identifier == s)).length
  reachable : ∀ excludeSelf, ∃ l, g.reachable s excludeSelf = .ok l
  topological : ∃ l, g.topological s = .ok l
  routes : ∃ r, Routes.ofIdentifier g s = .ok r
  dominators : ∀ t, DominatorTree.ofRoot g s ≠ .error (.missingNode t)

/-- That a graph has no node with an identifier, as it answers all that is asked about it. -/
structure Missing (g : Graph) (s : String) : Prop where
  adjacent : g.adjacent s = .error (.missingNode s)
  successors : g.successors s = .error (.missingNode s)
  predecessors : g.predecessors s = .error (.missingNode s)
  outDegree : g.outDegree s = .error (.missingNode s)
  inDegree : g.inDegree s = .error (.missingNode s)
  reachable : ∀ excludeSelf, g.reachable s excludeSelf = .error (.missingNode s)
  topological : g.topological s = .error (.missingNode s)
  routes : Routes.ofIdentifier g s = .error (.missingNode s)
  dominators : DominatorTree.ofRoot g s = .error (.missingNode s)

theorem adjacent_eq (h : g.indexOf? s = some i) :
    g.adjacent s = .ok (g.edgeList.filter (·.source.identifier == s)) := by
  have listed : (g.successorsOf i).filterMap (fun j => g.edgeBetween (i, j)) =
      (g.edges.toList.filter (·.1 == i)).filterMap g.edgeBetween := by
    rw [successorsOf, List.filterMap_map]
    apply List.filterMap_congr
    intro k mem
    obtain rfl : k.1 = i := by simpa using (List.mem_filter.1 mem).2
    rfl
  rw [leaving_eq h, ← listed, adjacent, indexOf_of_some h]
  rfl

theorem successors_eq (h : g.indexOf? s = some i) :
    g.successors s = .ok ((g.edgeList.filter (·.source.identifier == s)).map (·.target)) := by
  have listed : g.nodesAt (g.successorsOf i) =
      ((g.edges.toList.filter (·.1 == i)).filterMap g.edgeBetween).map (·.target) := by
    rw [nodesAt, successorsOf, List.filterMap_map, List.map_filterMap]
    apply List.filterMap_congr
    intro k mem
    obtain ⟨c, d, -, hd, eq⟩ :=
      exists_edgeBetween (Array.mem_toList_iff.1 (List.mem_of_mem_filter mem))
    rw [Function.comp_apply, eq, hd, Option.map_some]
  rw [leaving_eq h, ← listed, successors, indexOf_of_some h]
  rfl

theorem predecessors_eq (h : g.indexOf? s = some i) :
    g.predecessors s = .ok ((g.edgeList.filter (·.target.identifier == s)).map (·.source)) := by
  have listed : g.nodesAt (g.predecessorsOf i) =
      ((g.edges.toList.filter (·.2 == i)).filterMap g.edgeBetween).map (·.source) := by
    rw [nodesAt, predecessorsOf, List.filterMap_map, List.map_filterMap]
    apply List.filterMap_congr
    intro k mem
    obtain ⟨c, d, hc, -, eq⟩ :=
      exists_edgeBetween (Array.mem_toList_iff.1 (List.mem_of_mem_filter mem))
    rw [Function.comp_apply, eq, hc, Option.map_some]
  rw [arriving_eq h, ← listed, predecessors, indexOf_of_some h]
  rfl

theorem outDegree_eq (h : g.indexOf? s = some i) :
    g.outDegree s = .ok (g.edgeList.filter (·.source.identifier == s)).length := by
  have counted : (g.successorsOf i).length = g.edges.toList.countP (·.1 == i) := by
    rw [successorsOf, List.length_map, List.countP_eq_length_filter]
  rw [leaving_eq h, length_filterMap_edgeBetween, ← counted, outDegree, indexOf_of_some h]
  rfl

theorem inDegree_eq (h : g.indexOf? s = some i) :
    g.inDegree s = .ok (g.edgeList.filter (·.target.identifier == s)).length := by
  rw [arriving_eq h, length_filterMap_edgeBetween, ← incoming_getD (indexOf?_lt h), inDegree,
    indexOf_of_some h]
  rfl

theorem answers_of_some (h : g.indexOf? s = some i) : Answers g s where
  adjacent := adjacent_eq h
  successors := successors_eq h
  predecessors := predecessors_eq h
  outDegree := outDegree_eq h
  inDegree := inDegree_eq h
  reachable excludeSelf := ⟨g.reachableFrom i excludeSelf, by rw [reachable, indexOf_of_some h]; rfl⟩
  topological := ⟨g.nodesAt (g.reversePostorder i), by rw [topological, indexOf_of_some h]; rfl⟩
  routes := ⟨Routes.ofSource g i, by rw [Routes.ofIdentifier, indexOf_of_some h]; rfl⟩
  dominators t := by
    intro fails
    rw [DominatorTree.ofRoot, indexOf_of_some h] at fails
    simp only [bind, Except.bind] at fails
    split at fails <;> cases fails

theorem missing_of_none (h : g.indexOf? s = none) : Missing g s := by
  constructor <;>
    simp [adjacent, successors, predecessors, outDegree, inDegree, reachable, topological,
      Routes.ofIdentifier, DominatorTree.ofRoot, indexOf_of_none h, bind, Except.bind]

/-! ## Roots -/

theorem nodesAt_range : g.nodesAt (List.range g.nodes.size) = g.nodes.toList := by
  have listed : ∀ l : List Coordinates, (List.range l.length).filterMap (l[·]?) = l := by
    intro l
    induction l with
    | nil => rfl
    | cons c l ih =>
      rw [List.length_cons, List.range_succ_eq_map, List.filterMap_cons, List.filterMap_map]
      exact congrArg (c :: ·) ih
  have eq := listed g.nodes.toList
  simp only [Array.getElem?_toList, Array.length_toList] at eq
  exact eq

/-- The roots are the nodes that no listed edge leads to. -/
theorem roots_eq :
    g.roots = g.nodes.toList.filter fun c => !g.edgeList.any (·.target.identifier == c.identifier) := by
  rw [roots, nodesAt, rootIndices, List.filterMap_filter, ← nodesAt_range, nodesAt,
    List.filter_filterMap]
  apply List.filterMap_congr
  intro i mem
  have lt : i < g.nodes.size := List.mem_range.1 mem
  have hc := Array.getElem?_eq_getElem lt
  have none : (g.incoming.getD i 0 == 0) =
      !g.edgeList.any (·.target.identifier == g.nodes[i].identifier) := by
    rw [incoming_getD lt, ← length_filterMap_edgeBetween, ← arriving_eq (indexOf?_of_node hc)]
    rw [Bool.eq_iff_iff]
    simp
  rw [hc, Option.filter_some, none]

end Graph

end ClasspathAdvice
