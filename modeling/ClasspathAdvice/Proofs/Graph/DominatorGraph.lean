import ClasspathAdvice.Proofs.Graph.Dominated
import ClasspathAdvice.Proofs.Graph.History
import ClasspathAdvice.Proofs.Graph.SingleEntry

/-!
# The views of a dominator tree

A dominator tree is shown as a graph, as the answers to queries and as a table of children. The
graph is built by an edge for each node but the root. In reverse postorder the immediate
dominator of a node comes ahead of it, so each edge leads from a node that is there to one that is
new, and adds both the node and itself at the end (`Settled.grown_concat`). So the lists of nodes
and edges follow the order, and all views are read off them (`toGraph_agrees`).
-/

namespace ClasspathAdvice
set_option autoImplicit false

namespace Graph

variable {g : Graph} {i : Nat} {source target : Coordinates} {l : List Nat}

theorem length_edgeList (g : Graph) : g.edgeList.length = g.edges.size := by
  have all := g.length_filterMap_edgeBetween fun _ => true
  rw [List.filter_true, List.countP_true, Array.length_toList] at all
  exact all

/-- An edge from a node that is there to one that is new adds the node and the edge. -/
theorem insertEdge_of_new (isNode : g.nodes[i]? = some source)
    (new : g.contains target.identifier = false) :
    (g.insertEdge source target).nodes = g.nodes.push target ∧
      (g.insertEdge source target).edgeList =
        g.edgeList ++ [{ source := source, target := target }] := by
  have known : g.contains source.identifier = true := contains_of_some (indexOf?_of_node isNode)
  have lt := (Array.getElem?_eq_some_iff.1 isNode).1
  have hc : (g.insertNode target).nodes[i]? = some source := by
    rw [nodes_insertNode new, Array.getElem?_push, if_neg (Nat.ne_of_lt lt), isNode]
  have hd : (g.insertNode target).nodes[g.nodes.size]? = some target := by
    rw [nodes_insertNode new, Array.getElem?_push, if_pos rfl]
  obtain ⟨a, b, ha, hb, atSource, atTarget, eq⟩ := exists_insertEdge g source target
  simp only [insertNode_of_contains known] at atSource atTarget eq ha hb
  obtain rfl : i = a := Option.some.inj ((indexOf?_of_node hc).symm.trans atSource)
  obtain rfl : g.nodes.size = b := Option.some.inj ((indexOf?_of_node hd).symm.trans atTarget)
  -- no edge leads to a number that no node had
  have isNew : (i, g.nodes.size) ∉ (g.insertNode target).edges := by
    rw [edges_insertNode]
    intro isEdge
    exact Nat.lt_irrefl _ (edge_lt isEdge).2
  rw [eq]
  constructor
  · rw [nodes_connect, nodes_insertNode new]
  · rw [edgeList_of_push (nodes_connect ha hb) (edges_connect ha hb isNew) hc hd,
      edgeList_insertNode]

/-- A graph of some of the nodes does not know the identifier of one that is not among them. -/
theorem not_contains_of_nodes {h : Graph} {c : Coordinates} (nodes : h.nodes.toList = g.nodesAt l)
    (isNode : g.nodes[i]? = some c) (other : i ∉ l) : h.contains c.identifier = false := by
  rw [contains_eq_isSome, Option.isSome_eq_false_iff, Option.isNone_iff_eq_none,
    Option.eq_none_iff_forall_ne_some]
  intro k found
  obtain ⟨d, hd, same⟩ := (index_iff _ _ _).1 found
  have mem := Array.mem_toList_iff.2 (Array.mem_of_getElem? hd)
  rw [nodes] at mem
  obtain ⟨j, hj, atJ⟩ := mem_nodesAt.1 mem
  rw [number_unique isNode atJ same.symm] at other
  exact other hj

end Graph

namespace DominatorTree

/-- The edge to a node from its immediate dominator, if that is another node. -/
def link? (t : DominatorTree) (i : Nat) : Option (Coordinates × Coordinates) := do
  if t.immediateOf i = i then none
  else return (← t.graph.nodes[t.immediateOf i]?, ← t.graph.nodes[i]?)

theorem toGraph_eq (t : DominatorTree) :
    t.toGraph = .ofNodesAndEdges t.rootNode?.toList (t.order.filterMap t.link?) := rfl

/-- A graph of the root and of those nodes that were added, each with an edge from its immediate
dominator. -/
structure Grown (g : Graph) (root : Nat) (t : DominatorTree) (done : List Nat) (h : Graph) :
    Prop where
  nodes : h.nodes.toList = g.nodesAt (root :: done)
  edges : h.edgeList = done.filterMap fun i => g.edgeBetween (t.immediateOf i, i)

/-- A tree comes from a graph, from a root that was given or from the first node without an edge
to it. -/
def IsTreeOf (t : DominatorTree) (g : Graph) : Prop :=
  (∃ identifier, ofRoot g identifier = .ok t) ∨ ofGraph g = .ok t

/-- All views of a tree of a graph show the same tree: the graph that it is shown as, its queries
and its table of children. -/
structure Agrees (t : DominatorTree) (g : Graph) : Prop where
  nodes : t.toGraph.nodes.toList.Perm g.nodes.toList
  edges : t.toGraph.edges.size + 1 = g.nodes.size
  root : ∃ c r, g.nodes[t.root]? = some c ∧ t.rootNode? = some c ∧ t.selfDominating = [c] ∧
    t.toGraph.indexOf? c.identifier = some r ∧ ∀ k < t.toGraph.nodes.size, t.toGraph.Reaches r k
  inDegree : ∀ s i, g.indexOf? s = some i →
    t.toGraph.inDegree s = .ok (if i = t.root then 0 else 1)
  predecessors : ∀ s i, g.indexOf? s = some i → ∃ m, t.immediateDominator s = .ok m ∧
    t.toGraph.predecessors s = .ok m.toList ∧ (m = none ↔ i = t.root)
  successors : ∀ s i, g.indexOf? s = some i →
    t.toGraph.successors s = .ok (g.nodesAt (t.childTable.getD i [])) ∧
      t.dominatedBy s = .ok (g.nodesAt (t.childTable.getD i []))

variable {g h : Graph} {root i j k r : Nat} {t : DominatorTree} {c : Candidates}
  {done rest : List Nat} {s : String}

theorem IsTreeOf.settled (built : t.IsTreeOf g) : ∃ root c, Settled g root t c := by
  cases built with
  | inl given =>
    obtain ⟨identifier, ok⟩ := given
    obtain ⟨root, c, -, settled⟩ := settled_of_ok ok
    exact ⟨root, c, settled⟩
  | inr first =>
    rw [ofGraph] at first
    split at first
    · obtain ⟨root, c, -, settled⟩ := settled_of_ok first
      exact ⟨root, c, settled⟩
    · cases first

namespace Settled

/-! ## Growing the graph -/

/-- The immediate dominator of a node comes ahead of it. -/
theorem immediateOf_mem (st : Settled g root t c)
    (split : t.order.filter (· != root) = done ++ i :: rest) :
    t.immediateOf i ∈ root :: done := by
  have order : t.order = (root :: done) ++ i :: rest := by
    rw [st.spanning.eq_cons, split]
    rfl
  have mem : i ∈ t.order.filter (· != root) := by simp [split]
  obtain ⟨isNode, ne⟩ := List.mem_filter.1 mem
  have hi := (st.spanning.mem i).1 isNode
  have up := st.number_lt_immediateOf hi (by simpa using ne)
  have found := (st.spanning.mem _).2 (st.immediateOf_lt hi)
  rw [order, List.mem_append] at found
  apply found.resolve_right
  intro behind
  -- what is not ahead of a node has no higher number
  cases List.mem_cons.1 behind with
  | inl same =>
    rw [same] at up
    exact Nat.lt_irrefl _ up
  | inr later =>
    obtain ⟨a, b, rfl⟩ := List.append_of_mem later
    have further : t.order = (root :: done ++ i :: a) ++ t.immediateOf i :: b := by simp [order]
    have down := numbering_lt st.spanning further (i := i) (by simp)
    omega

theorem link?_root (st : Settled g root t c) : t.link? root = none := by
  rw [link?, if_pos st.immediateOf_root]

theorem link?_eq (st : Settled g root t c) (hi : i < g.nodes.size) (ne : i ≠ root) :
    ∃ u v, t.link? i = some (u, v) ∧ g.nodes[t.immediateOf i]? = some u ∧ g.nodes[i]? = some v := by
  have hu := Array.getElem?_eq_getElem (st.immediateOf_lt hi)
  have hv := Array.getElem?_eq_getElem hi
  refine ⟨_, _, ?_, hu, hv⟩
  rw [link?, if_neg (st.immediateOf_ne hi ne), st.graph_eq, hu, hv]
  rfl

/-- The next edge leads from a node that is there to one that is new. -/
theorem grown_concat (st : Settled g root t c)
    (split : t.order.filter (· != root) = done ++ i :: rest) (grown : Grown g root t done h) :
    ∃ u v, t.link? i = some (u, v) ∧ Grown g root t (done ++ [i]) (h.insertEdge u v) := by
  have mem : i ∈ t.order.filter (· != root) := by simp [split]
  obtain ⟨isNode, ne⟩ := List.mem_filter.1 mem
  have hi := (st.spanning.mem i).1 isNode
  obtain ⟨u, v, link, hu, hv⟩ := st.link?_eq hi (by simpa using ne)
  have ahead : u ∈ h.nodes.toList := by
    rw [grown.nodes]
    exact Graph.mem_nodesAt.2 ⟨_, st.immediateOf_mem split, hu⟩
  obtain ⟨k, hk⟩ := Array.mem_iff_getElem?.1 (Array.mem_toList_iff.1 ahead)
  have fresh : i ∉ root :: done := by
    have nodup := st.spanning.nodup
    rw [st.spanning.eq_cons, split, ← List.cons_append] at nodup
    intro again
    exact (List.nodup_append.1 nodup).2.2 i again i List.mem_cons_self rfl
  have new := Graph.not_contains_of_nodes grown.nodes hv fresh
  obtain ⟨nodes, edges⟩ := Graph.insertEdge_of_new hk new
  refine ⟨u, v, link, ?_, ?_⟩
  · rw [nodes, Array.toList_push, grown.nodes, ← List.cons_append, Graph.nodesAt_append,
      Graph.nodesAt_cons hv]
    rfl
  · have last : [i].filterMap (fun i => g.edgeBetween (t.immediateOf i, i)) =
        [{ source := u, target := v }] := List.filterMap_cons_some (Graph.edgeBetween_eq hu hv)
    rw [edges, grown.edges, List.filterMap_append, last]

theorem grown_foldl (st : Settled g root t c) (done : List Nat)
    (split : t.order.filter (· != root) = done ++ rest) :
    Grown g root t done ((done.filterMap t.link?).foldl (fun h e => h.insertEdge e.1 e.2)
      (t.rootNode?.toList.foldl Graph.insertNode ∅)) := by
  induction done using List.reverseRecOn generalizing rest with
  | nil =>
    have isNode := Array.getElem?_eq_getElem st.spanning.root_lt
    rw [rootNode?, st.graph_eq, st.root_eq, isNode]
    constructor
    · rw [Graph.nodesAt_cons isNode]
      exact Graph.toList_insertNode ∅ _
    · exact Graph.edgeList_insertNode
  | append_singleton done i ih =>
    rw [List.append_assoc] at split
    obtain ⟨u, v, link, grown⟩ := st.grown_concat split (ih split)
    rw [List.filterMap_append, List.filterMap_cons_some link, List.foldl_append]
    exact grown

/-- The graph of the tree has the nodes in reverse postorder. -/
theorem grown_toGraph (st : Settled g root t c) :
    Grown g root t (t.order.filter (· != root)) t.toGraph := by
  have grown := st.grown_foldl (t.order.filter (· != root)) (List.append_nil _).symm
  have links : t.order.filterMap t.link? = (t.order.filter (· != root)).filterMap t.link? := by
    rw [st.spanning.eq_cons, List.filterMap_cons_none st.link?_root]
    simp
  rw [toGraph_eq, links]
  exact grown

/-- The nodes of the graph of the tree are those of the order. -/
theorem nodes_toGraph (st : Settled g root t c) : t.toGraph.nodes.toList = g.nodesAt t.order := by
  rw [st.grown_toGraph.nodes, ← st.spanning.eq_cons]

theorem nodes_perm (st : Settled g root t c) :
    t.toGraph.nodes.toList.Perm g.nodes.toList := by
  rw [st.nodes_toGraph, ← Graph.nodesAt_range]
  exact st.spanning.perm_range.filterMap _

/-- Each node of the graph is a node of the graph of the tree. -/
theorem exists_index (st : Settled g root t c) (hi : i < g.nodes.size) :
    ∃ k : Nat, t.toGraph.nodes[k]? = g.nodes[i]? := by
  have isNode := Array.getElem?_eq_getElem hi
  have mem := st.nodes_perm.mem_iff.2 (Array.mem_toList_iff.2 (Array.mem_of_getElem? isNode))
  obtain ⟨k, hk⟩ := Array.mem_iff_getElem?.1 (Array.mem_toList_iff.1 mem)
  exact ⟨k, hk.trans isNode.symm⟩

theorem exists_indexOf? (st : Settled g root t c) (h : g.indexOf? s = some i) :
    ∃ k, t.toGraph.indexOf? s = some k := by
  obtain ⟨k, hk⟩ := st.exists_index (Graph.indexOf?_lt h)
  obtain ⟨u, hu, same⟩ := (g.index_iff s i).1 h
  rw [hu] at hk
  exact ⟨k, same ▸ Graph.indexOf?_of_node hk⟩

theorem size_edges_toGraph (st : Settled g root t c) :
    t.toGraph.edges.size + 1 = g.nodes.size := by
  have kept : ∀ i ∈ t.order.filter (· != root),
      (g.edgeBetween (t.immediateOf i, i)).isSome = true := by
    intro i mem
    have hi := (st.spanning.mem i).1 (List.mem_filter.1 mem).1
    rw [Graph.edgeBetween_eq (Array.getElem?_eq_getElem (st.immediateOf_lt hi))
      (Array.getElem?_eq_getElem hi)]
    rfl
  have length := congrArg List.length st.spanning.eq_cons
  rw [st.spanning.length_eq, List.length_cons] at length
  rw [← Graph.length_edgeList, st.grown_toGraph.edges, List.length_filterMap_eq_countP,
    List.countP_eq_length.2 kept, length]

/-! ## What is read off -/

/-- A part of the edges is that of the nodes that they lead to. -/
theorem filter_edgeList {p : Edge → Bool} {q : Nat → Bool} (st : Settled g root t c)
    (same : ∀ j u v, g.nodes[t.immediateOf j]? = some u → g.nodes[j]? = some v →
      p { source := u, target := v } = q j) :
    t.toGraph.edgeList.filter p = ((t.order.filter (· != root)).filter q).filterMap fun j =>
      g.edgeBetween (t.immediateOf j, j) := by
  rw [st.grown_toGraph.edges, List.filter_filterMap,
    List.filterMap_filter (l := t.order.filter (· != root))]
  apply List.filterMap_congr
  intro j mem
  have hj := (st.spanning.mem j).1 (List.mem_filter.1 mem).1
  have hu := Array.getElem?_eq_getElem (st.immediateOf_lt hj)
  have hv := Array.getElem?_eq_getElem hj
  rw [Graph.edgeBetween_eq hu hv, Option.filter_some, same j _ _ hu hv]

/-- The children of a node, told by the root and not by who dominates itself. -/
theorem children_eq (st : Settled g root t c) (hi : i < g.nodes.size) :
    t.childTable.getD i [] = (t.order.filter (· != root)).filter (t.immediateOf · == i) := by
  rw [st.childTable_getD hi]
  congr 1
  apply List.filter_congr
  intro j mem
  have hj := (st.spanning.mem j).1 mem
  by_cases h : j = root
  · simp [h, st.immediateOf_root]
  · simp [h, st.immediateOf_ne hj h]

theorem dominatedBy_eq (st : Settled g root t c) (h : g.indexOf? s = some i) :
    t.dominatedBy s = .ok (g.nodesAt (t.childTable.getD i [])) := by
  have same : t.order.filter (fun j => j != i && t.immediateOf j == i) =
      t.childTable.getD i [] := by
    rw [st.childTable_getD (Graph.indexOf?_lt h), List.filter_filter]
    apply List.filter_congr
    intro j _
    rw [Bool.eq_iff_iff]
    simp only [Bool.and_eq_true, bne_iff_ne, beq_iff_eq, decide_eq_true_eq]
    omega
  rw [← same, dominatedBy, st.graph_eq, Graph.indexOf_of_some h]
  rfl

/-- The edges from a node lead to its children. -/
theorem successors_toGraph (st : Settled g root t c) (h : g.indexOf? s = some i) :
    t.toGraph.successors s = .ok (g.nodesAt (t.childTable.getD i [])) := by
  obtain ⟨k, hk⟩ := st.exists_indexOf? h
  have edges := st.filter_edgeList (p := (·.source.identifier == s)) (q := (t.immediateOf · == i))
    fun j u v hu hv => Graph.identifier_beq h hu
  rw [Graph.successors_eq hk, edges, ← st.children_eq (Graph.indexOf?_lt h), List.map_filterMap,
    Graph.nodesAt]
  congr 1
  apply List.filterMap_congr
  intro j mem
  have hj := ((st.mem_children (Graph.indexOf?_lt h)).1 mem).1
  have hv := Array.getElem?_eq_getElem hj
  rw [Graph.edgeBetween_eq (Array.getElem?_eq_getElem (st.immediateOf_lt hj)) hv, hv]
  rfl

/-- The only edge to a node is that from its immediate dominator. -/
theorem arriving_toGraph (st : Settled g root t c) (h : g.indexOf? s = some i) :
    ∃ m, t.immediateDominator s = .ok m ∧ (m = none ↔ i = root) ∧
      (t.toGraph.edgeList.filter (·.target.identifier == s)).map (·.source) = m.toList := by
  have edges := st.filter_edgeList (p := (·.target.identifier == s)) (q := (· == i))
    fun j u v hu hv => Graph.identifier_beq h hv
  rw [edges, List.filter_beq]
  by_cases ne : i = root
  · have none : i ∉ t.order.filter (· != root) := by simp [ne]
    rw [List.count_eq_zero_of_not_mem none]
    subst ne
    exact ⟨_, st.immediateDominator_root h, by simp, rfl⟩
  · have hi := Graph.indexOf?_lt h
    have mem : i ∈ t.order.filter (· != root) := by simp [ne, st.spanning.mem, hi]
    obtain ⟨m, eq, isNode⟩ := st.immediateDominator_eq h ne
    refine ⟨some m, eq, by simp [ne], ?_⟩
    rw [List.count_eq_one_of_mem (st.spanning.nodup.filter _) mem]
    simp [Graph.edgeBetween_eq isNode (Array.getElem?_eq_getElem hi)]

/-- From the root of the tree all its nodes are reached. -/
theorem reaches_toGraph (st : Settled g root t c) (hr : t.toGraph.nodes[r]? = g.nodes[root]?)
    (hi : i < g.nodes.size) (hk : t.toGraph.nodes[k]? = g.nodes[i]?) : t.toGraph.Reaches r k := by
  have unique : ∀ {i k k' : Nat}, i < g.nodes.size → t.toGraph.nodes[k]? = g.nodes[i]? →
      t.toGraph.nodes[k']? = g.nodes[i]? → k = k' := by
    intro i k k' hi hk hk'
    rw [Array.getElem?_eq_getElem hi] at hk hk'
    exact Graph.number_unique hk hk' rfl
  have start : t.toGraph.Reaches r r := by
    rw [Array.getElem?_eq_getElem st.spanning.root_lt] at hr
    exact ⟨_, .start (Array.getElem?_eq_some_iff.1 hr).1⟩
  have above : Above c root i := (st.above_iff hi).2 Graph.root_dominates
  -- up the chain from the node to the root, of which each link is an edge
  induction above using Relation.ReflTransGen.head_induction_on generalizing k with
  | refl => exact unique hi hr hk ▸ start
  | @head n m e a ih =>
    by_cases ne : n = root
    · subst ne
      exact unique hi hr hk ▸ start
    · have eq : t.immediateOf n = m := (st.leads_immediateOf hi).unique e
      have hm : m < g.nodes.size := eq ▸ st.immediateOf_lt hi
      have hu := Array.getElem?_eq_getElem hm
      have hv := Array.getElem?_eq_getElem hi
      have isEdge : { source := g.nodes[m], target := g.nodes[n] } ∈ t.toGraph.edgeList := by
        rw [st.grown_toGraph.edges, List.mem_filterMap]
        refine ⟨n, by simp [ne, st.spanning.mem, hi], ?_⟩
        rw [eq, Graph.edgeBetween_eq hu hv]
      obtain ⟨a, b, edge, ha, hb, -⟩ := Graph.mem_edgeList.1 isEdge
      obtain rfl : k = b := unique hi hk (hb.trans hv.symm)
      exact (ih hm (ha.trans hu.symm)).step edge

/-- Only the root stands for its own dominator. -/
theorem selfDominating_eq {u : Coordinates} (st : Settled g root t c)
    (isNode : g.nodes[root]? = some u) : t.selfDominating = [u] := by
  have same : t.order.filter (fun i => t.immediateOf i == i) = t.order.filter (· == root) := by
    apply List.filter_congr
    intro i mem
    have hi := (st.spanning.mem i).1 mem
    by_cases h : i = root
    · simp [h, st.immediateOf_root]
    · simp [h, st.immediateOf_ne hi h]
  have once := List.count_eq_one_of_mem st.spanning.nodup
    ((st.spanning.mem root).2 st.spanning.root_lt)
  rw [selfDominating, st.graph_eq, same, List.filter_beq, once]
  exact Graph.nodesAt_cons isNode []

/-- The number of edges to a node is that of its immediate dominators. -/
theorem inDegree_toGraph (st : Settled g root t c) (h : g.indexOf? s = some i) :
    t.toGraph.inDegree s = .ok (if i = root then 0 else 1) := by
  obtain ⟨k, hk⟩ := st.exists_indexOf? h
  obtain ⟨m, -, isRoot, arriving⟩ := st.arriving_toGraph h
  have length := congrArg List.length arriving
  rw [List.length_map] at length
  rw [Graph.inDegree_eq hk, length]
  cases m with
  | none => rw [if_pos (isRoot.1 rfl)]; rfl
  | some u => rw [if_neg fun root => by cases isRoot.2 root]; rfl

/-- From the root all nodes are reached. -/
theorem exists_root (st : Settled g root t c) :
    ∃ u r, g.nodes[root]? = some u ∧ t.rootNode? = some u ∧ t.selfDominating = [u] ∧
      t.toGraph.indexOf? u.identifier = some r ∧
      ∀ k < t.toGraph.nodes.size, t.toGraph.Reaches r k := by
  have isNode := Array.getElem?_eq_getElem st.spanning.root_lt
  obtain ⟨r, hr⟩ := st.exists_index st.spanning.root_lt
  refine ⟨_, r, isNode, ?_, st.selfDominating_eq isNode,
    Graph.indexOf?_of_node (hr.trans isNode), fun k hk => ?_⟩
  · rw [rootNode?, st.graph_eq, st.root_eq, isNode]
  · have mem := Array.mem_toList_iff.2 (Array.getElem_mem hk)
    rw [st.nodes_toGraph] at mem
    obtain ⟨i, isOrdered, hi⟩ := Graph.mem_nodesAt.1 mem
    apply st.reaches_toGraph hr ((st.spanning.mem i).1 isOrdered)
    rw [hi, Array.getElem?_eq_getElem hk]

end Settled

/-- The graph of a dominator tree has the nodes of the graph that the tree comes from and one edge
less than nodes: none to the root and one to each other node, from its immediate dominator. From
the root, which alone stands for its own dominator, all nodes are reached. The nodes that edges
lead to from a node are those that it immediately dominates, and its children, in one order. -/
theorem toGraph_agrees {g : Graph} {t : DominatorTree} (built : t.IsTreeOf g) : t.Agrees g := by
  obtain ⟨root, c, st⟩ := built.settled
  obtain rfl : t.root = root := st.root_eq
  constructor
  case nodes => exact st.nodes_perm
  case edges => exact st.size_edges_toGraph
  case root => exact st.exists_root
  case inDegree => exact fun s i h => st.inDegree_toGraph h
  case predecessors =>
    intro s i h
    obtain ⟨k, hk⟩ := st.exists_indexOf? h
    obtain ⟨m, answer, isRoot, arriving⟩ := st.arriving_toGraph h
    refine ⟨m, answer, ?_, isRoot⟩
    rw [Graph.predecessors_eq hk, arriving]
  case successors => exact fun s i h => ⟨st.successors_toGraph h, st.dominatedBy_eq h⟩

/-- The tree of a graph with a cycle that is entered at both its nodes has two edges, and none to
its root. -/
theorem toGraph_agrees_irreducible :
    ∃ t : DominatorTree, t.IsTreeOf irreducible ∧ t.Agrees irreducible ∧ t.toGraph.edges.size = 2 ∧
      t.immediateDominator "a" = .ok none ∧ t.toGraph.predecessors "a" = .ok [] := by
  have a : irreducible.indexOf? "a" = some 0 := by
    rw [Graph.indexOf?_eq, listing_irreducible]
    decide
  have size : irreducible.nodes.size = 3 := by rw [Graph.size_nodes, listing_irreducible]; rfl
  obtain ⟨t, c, ok, st⟩ := ofRoot_settled a reaches_irreducible
  have agrees := toGraph_agrees (.inl ⟨"a", ok⟩)
  have edges := agrees.edges
  obtain ⟨m, answer, predecessors, isRoot⟩ := agrees.predecessors "a" 0 a
  obtain rfl : m = none := isRoot.2 st.root_eq.symm
  exact ⟨t, .inl ⟨"a", ok⟩, agrees, by omega, answer, predecessors⟩

end DominatorTree

end ClasspathAdvice
