import ClasspathAdvice.Graph.Derived
import ClasspathAdvice.Proofs.Graph.History
import Mathlib.Data.Prod.Basic

/-!
# What graphs made from graphs hold

A derived graph is made by the additions that make any graph: first nodes, none of which repeats
an identifier, then edges between them, none of which repeats a pair of ends. So each node and
each edge goes to the end of its list (`ofNodesAndEdges_lists`), and a derived graph has just the
nodes and edges that it was made of, in the order of the graph it comes from (`ofHistory_derives`).
-/

namespace ClasspathAdvice
set_option autoImplicit false

/-- The edge between two nodes. -/
def Edge.between (c : Coordinates × Coordinates) : Edge := { source := c.1, target := c.2 }

/-- The edge turned around. -/
def Edge.reversed (e : Edge) : Edge := { e with source := e.target, target := e.source }

namespace Graph

/-- A graph with the given nodes and edges, in their order, which counts the edges that lead to
each node. -/
structure Lists (g : Graph) (nodes : List Coordinates) (edges : List Edge) : Prop where
  nodes_eq : g.nodes.toList = nodes
  edges_eq : g.edgeList = edges
  inDegree : ∀ c ∈ nodes, g.inDegree c.identifier =
    .ok (edges.filter (·.target.identifier == c.identifier)).length

/-- Each graph made from a graph holds what it is to hold. The graph turned around exchanges what
leads to a node and what leads from it. -/
structure Derives (g : Graph) : Prop where
  reversed : Lists g.reversed g.nodes.toList (g.edgeList.map Edge.reversed)
  reversedTwice : g.reversed.reversed = g
  predecessors : ∀ s, g.reversed.predecessors s = g.successors s
  successors : ∀ s, g.reversed.successors s = g.predecessors s
  inDegree : ∀ s, g.reversed.inDegree s = g.outDegree s
  outDegree : ∀ s, g.reversed.outDegree s = g.inDegree s
  subgraph : ∀ identifiers, Lists (g.subgraph identifiers)
    (g.nodes.toList.filter (·.identifier ∈ identifiers))
    (g.edgeList.filter fun e =>
      e.source.identifier ∈ identifiers ∧ e.target.identifier ∈ identifiers)
  withoutEdges : ∀ removed, Lists (g.withoutEdges removed) g.nodes.toList
    (g.edgeList.filter (·.ends ∉ removed))

variable {g : Graph} {c d : Coordinates} {nodes : List Coordinates} {edges : List Edge}
variable {pairs : List (Coordinates × Coordinates)}

/-! ## Nodes and edges once each -/

theorem nodup_identifiers (g : Graph) : (g.nodes.toList.map (·.identifier)).Nodup := by
  rw [← nodesAt_range]
  exact nodup_nodesAt List.nodup_range

/-- No two edges of a graph that is made by additions join the same nodes. -/
theorem nodup_ends_ofHistory (h : List Addition) : (ofHistory h).ends.Nodup := by
  induction h using List.reverseRecOn with
  | nil => exact List.nodup_nil
  | append_singleton h a ih =>
    rw [ofHistory, List.foldl_append, ← ofHistory]
    cases a with
    | node c =>
      show ((ofHistory h).insertNode c).ends.Nodup
      rw [ends_insertNode]
      exact ih
    | edge source target =>
      show ((ofHistory h).insertEdge source target).ends.Nodup
      rw [ends_insertEdge]
      split
      · exact ih
      · rename_i new
        rw [← List.concat_eq_append]
        exact ih.concat new

theorem lists_of_eq (hn : g.nodes.toList = nodes) (he : g.edgeList = edges) :
    Lists g nodes edges where
  nodes_eq := hn
  edges_eq := he
  inDegree c mem := by
    rw [← hn, Array.mem_toList_iff] at mem
    obtain ⟨i, hi⟩ := Array.mem_iff_getElem?.1 mem
    rw [inDegree_eq (indexOf?_of_node hi), he]

/-! ## Building a graph anew -/

/-- A node with a new identifier goes to the end of the nodes. -/
theorem toList_insertNode_of_new (new : c.identifier ∉ g.nodes.toList.map (·.identifier)) :
    (g.insertNode c).nodes.toList = g.nodes.toList ++ [c] := by
  rw [toList_insertNode, noted, if_neg]
  intro known
  obtain ⟨d, found⟩ := Option.isSome_iff_exists.1 known
  have same : d.identifier = c.identifier := by simpa using List.find?_some found
  exact new (List.mem_map.2 ⟨d, List.mem_of_find?_eq_some found, same⟩)

/-- Nodes with different identifiers make a graph of these nodes. -/
theorem foldl_insertNode (distinct : (nodes.map (·.identifier)).Nodup) :
    (nodes.foldl insertNode ∅).nodes.toList = nodes ∧ (nodes.foldl insertNode ∅).edgeList = [] := by
  induction nodes using List.reverseRecOn with
  | nil => exact ⟨rfl, rfl⟩
  | append_singleton nodes c ih =>
    rw [List.map_append, List.map_singleton, List.nodup_append_comm, List.singleton_append,
      List.nodup_cons] at distinct
    obtain ⟨listed, none⟩ := ih distinct.2
    rw [List.foldl_append, List.foldl_cons, List.foldl_nil, edgeList_insertNode]
    refine ⟨?_, none⟩
    rw [toList_insertNode_of_new (by rw [listed]; exact distinct.1), listed]

/-- An edge between nodes that are there goes to the end of the edges, unless they are joined. -/
theorem insertEdge_of_nodes (hc : c ∈ g.nodes.toList) (hd : d ∈ g.nodes.toList)
    (new : (Edge.between (c, d)).ends ∉ g.ends) :
    (g.insertEdge c d).nodes = g.nodes ∧
      (g.insertEdge c d).edgeList = g.edgeList ++ [.between (c, d)] := by
  obtain ⟨i, hi⟩ := Array.mem_iff_getElem?.1 (Array.mem_toList_iff.1 hc)
  obtain ⟨j, hj⟩ := Array.mem_iff_getElem?.1 (Array.mem_toList_iff.1 hd)
  obtain ⟨lt, lt', eq⟩ := exists_insertEdge_of_some (indexOf?_of_node hi) (indexOf?_of_node hj)
  have isNew : (i, j) ∉ g.edges := by
    intro isEdge
    have listed := mem_edgeList.2 ⟨i, j, isEdge, hi, hj, (rfl : (Edge.between (c, d)).weight = 1)⟩
    exact new (List.mem_map_of_mem listed)
  rw [eq]
  exact ⟨nodes_connect lt lt', edgeList_of_push (nodes_connect lt lt') (edges_connect lt lt' isNew) hi hj⟩

/-- Nodes with different identifiers, and edges between them with different ends, make a graph of
just these nodes and edges. -/
theorem ofNodesAndEdges_lists (distinct : (nodes.map (·.identifier)).Nodup)
    (closed : ∀ p ∈ pairs, p.1 ∈ nodes ∧ p.2 ∈ nodes)
    (once : (pairs.map fun p => (Edge.between p).ends).Nodup) :
    Lists (ofNodesAndEdges nodes pairs) nodes (pairs.map Edge.between) := by
  obtain ⟨listed, none⟩ := foldl_insertNode distinct
  suffices built : (ofNodesAndEdges nodes pairs).nodes.toList = nodes ∧
      (ofNodesAndEdges nodes pairs).edgeList = pairs.map Edge.between from
    lists_of_eq built.1 built.2
  induction pairs using List.reverseRecOn with
  | nil => exact ⟨listed, none⟩
  | append_singleton pairs p ih =>
    rw [List.map_append, List.map_singleton, List.nodup_append_comm, List.singleton_append,
      List.nodup_cons] at once
    obtain ⟨sameNodes, sameEdges⟩ :=
      ih (fun p mem => closed p (List.mem_append_left _ mem)) once.2
    obtain ⟨hc, hd⟩ := closed p (List.mem_append_right _ (List.mem_singleton_self p))
    rw [← sameNodes] at hc hd
    have new : (Edge.between p).ends ∉ (ofNodesAndEdges nodes pairs).ends := by
      rw [ends, sameEdges, List.map_map]
      exact once.1
    obtain ⟨keeps, grows⟩ := insertEdge_of_nodes hc hd new
    rw [ofNodesAndEdges, List.foldl_append, ← ofNodesAndEdges]
    refine ⟨(congrArg Array.toList keeps).trans sameNodes, grows.trans ?_⟩
    rw [sameEdges, List.map_append]
    rfl

/-! ## The derived graphs -/

/-- The ends of an edge are nodes of the graph, and nothing else tells edges apart. -/
theorem of_mem_edgeList {e : Edge} (mem : e ∈ g.edgeList) :
    e.source ∈ g.nodes.toList ∧ e.target ∈ g.nodes.toList ∧ e.weight = 1 := by
  obtain ⟨i, j, -, hc, hd, weight⟩ := mem_edgeList.1 mem
  exact ⟨Array.mem_toList_iff.2 (Array.mem_of_getElem? hc),
    Array.mem_toList_iff.2 (Array.mem_of_getElem? hd), weight⟩

theorem reversed_lists (once : g.ends.Nodup) :
    Lists g.reversed g.nodes.toList (g.edgeList.map Edge.reversed) := by
  have pairs : g.edgeList.filterMap (fun e => some (e.target, e.source)) =
      g.edgeList.map fun e => (e.target, e.source) := by
    rw [← List.filterMap_eq_map]
    rfl
  have turned : (g.edgeList.map fun e => (e.target, e.source)).map Edge.between =
      g.edgeList.map Edge.reversed := by
    rw [List.map_map]
    apply List.map_congr_left
    intro e mem
    simp only [Function.comp_apply, Edge.between, Edge.reversed, (of_mem_edgeList mem).2.2]
  rw [show g.reversed = ofNodesAndEdges _ _ from rfl, pairs, List.filter_true, ← turned]
  apply ofNodesAndEdges_lists g.nodup_identifiers
  · intro p mem
    obtain ⟨e, isEdge, rfl⟩ := List.mem_map.1 mem
    obtain ⟨source, target, -⟩ := of_mem_edgeList isEdge
    exact ⟨target, source⟩
  · have swapped : (g.edgeList.map fun e => (e.target, e.source)).map
        (fun p => (Edge.between p).ends) = g.ends.map Prod.swap := by
      rw [ends, List.map_map, List.map_map]
      rfl
    rw [swapped]
    exact once.map Prod.swap_injective

/-- Some of the nodes, and those of the edges that a test picks, if they are between these. -/
theorem rebuild_lists (once : g.ends.Nodup) (keep : Coordinates → Bool) (pick : Edge → Bool)
    (closed : ∀ e ∈ g.edgeList, pick e = true → keep e.source = true ∧ keep e.target = true) :
    Lists (g.rebuild keep fun e => if pick e then some (e.source, e.target) else none)
      (g.nodes.toList.filter keep) (g.edgeList.filter pick) := by
  have pairs : g.edgeList.filterMap (fun e => if pick e then some (e.source, e.target) else none) =
      (g.edgeList.filter pick).map fun e => (e.source, e.target) := by
    rw [← List.filterMap_eq_map, List.filterMap_filter]
    rfl
  have same : ((g.edgeList.filter pick).map fun e => (e.source, e.target)).map Edge.between =
      g.edgeList.filter pick := by
    rw [List.map_map]
    refine (List.map_congr_left ?_).trans (List.map_id _)
    intro e mem
    simp only [Function.comp_apply, Edge.between, id_eq,
      ← (of_mem_edgeList (List.mem_of_mem_filter mem)).2.2]
  rw [rebuild, pairs]
  nth_rewrite 2 [← same]
  apply ofNodesAndEdges_lists (g.nodup_identifiers.sublist (List.filter_sublist.map _))
  · intro p mem
    obtain ⟨e, isEdge, rfl⟩ := List.mem_map.1 mem
    obtain ⟨isEdge, picked⟩ := List.mem_filter.1 isEdge
    obtain ⟨source, target, -⟩ := of_mem_edgeList isEdge
    obtain ⟨keepsSource, keepsTarget⟩ := closed e isEdge picked
    exact ⟨List.mem_filter.2 ⟨source, keepsSource⟩, List.mem_filter.2 ⟨target, keepsTarget⟩⟩
  · rw [List.map_map]
    exact once.sublist (List.filter_sublist.map _)

theorem subgraph_lists (once : g.ends.Nodup) (identifiers : List String) :
    Lists (g.subgraph identifiers) (g.nodes.toList.filter (·.identifier ∈ identifiers))
      (g.edgeList.filter fun e =>
        e.source.identifier ∈ identifiers ∧ e.target.identifier ∈ identifiers) := by
  simp only [Bool.decide_and, ← List.contains_eq_mem]
  apply rebuild_lists once
  intro e _ picked
  exact Bool.and_eq_true_iff.1 picked

theorem withoutEdges_lists (once : g.ends.Nodup) (removed : List (String × String)) :
    Lists (g.withoutEdges removed) g.nodes.toList (g.edgeList.filter (·.ends ∉ removed)) := by
  have built := rebuild_lists once (fun _ => true) (fun e => !removed.contains e.ends)
    fun _ _ _ => ⟨rfl, rfl⟩
  have kept : (fun e : Edge => if !removed.contains e.ends then some (e.source, e.target) else none) =
      fun e => if removed.contains e.ends then none else some (e.source, e.target) := by
    funext e
    cases removed.contains e.ends <;> rfl
  rw [kept, List.filter_true] at built
  simp only [decide_not, ← List.contains_eq_mem]
  exact built

/-! ## Turning a graph around twice -/

/-- The pairs of numbers of a graph are read off its nodes and the list of its edges. -/
theorem edges_eq_filterMap (g : Graph) : g.edges.toList = g.edgeList.filterMap fun e => do
    return (← g.indexOf? e.source.identifier, ← g.indexOf? e.target.identifier) := by
  rw [edgeList, List.filterMap_filterMap]
  refine (List.filterMap_some).symm.trans (List.filterMap_congr ?_)
  intro p mem
  obtain ⟨c, d, hc, hd, eq⟩ := exists_edgeBetween (Array.mem_toList_iff.1 mem)
  simp [eq, indexOf?_of_node hc, indexOf?_of_node hd]

/-- Graphs with the same nodes and the same list of edges are the same. -/
theorem eq_of_lists {h : Graph} (nodes : g.nodes.toList = h.nodes.toList)
    (edges : g.edgeList = h.edgeList) : g = h := by
  have index : g.indexOf? = h.indexOf? := by
    funext s
    rw [indexOf?_eq, indexOf?_eq, Content.position, Content.position]
    exact congrArg _ nodes
  apply eq_of_content (Array.toList_inj.1 nodes)
  apply Array.toList_inj.1
  rw [edges_eq_filterMap, edges_eq_filterMap, edges, index]

theorem reversed_reversed (once : g.ends.Nodup) : g.reversed.reversed = g := by
  have first := reversed_lists once
  have again : g.reversed.ends.Nodup := by
    have swapped : g.reversed.ends = g.ends.map Prod.swap := by
      rw [ends, first.edges_eq, ends, List.map_map, List.map_map]
      rfl
    rw [swapped]
    exact once.map Prod.swap_injective
  have second := reversed_lists again
  rw [first.nodes_eq, first.edges_eq, List.map_map] at second
  refine eq_of_lists second.nodes_eq (second.edges_eq.trans ?_)
  exact List.map_id _

/-! ## Exchanged answers -/

/-- What leads to a node and what leads from it. -/
theorem reversed_exchanges (once : g.ends.Nodup) (s : String) :
    g.reversed.predecessors s = g.successors s ∧ g.reversed.successors s = g.predecessors s ∧
      g.reversed.inDegree s = g.outDegree s ∧ g.reversed.outDegree s = g.inDegree s := by
  have lists := reversed_lists once
  have same : g.reversed.contains s = g.contains s := by
    rw [contains_eq_isSome_node?, contains_eq_isSome_node?, node?_eq_find?, node?_eq_find?,
      lists.nodes_eq]
  rw [contains_eq_isSome, contains_eq_isSome] at same
  cases hi : g.indexOf? s with
  | none =>
    rw [hi, Option.isSome_none, Option.isSome_eq_false_iff, Option.isNone_iff_eq_none] at same
    have unknown := missing_of_none hi
    have still := missing_of_none same
    rw [unknown.successors, unknown.predecessors, unknown.outDegree, unknown.inDegree]
    exact ⟨still.predecessors, still.successors, still.inDegree, still.outDegree⟩
  | some i =>
    rw [hi, Option.isSome_some, Option.isSome_iff_exists] at same
    obtain ⟨j, hj⟩ := same
    have known := answers_of_some hi
    have turned := answers_of_some hj
    rw [known.successors, known.predecessors, known.outDegree, known.inDegree,
      turned.successors, turned.predecessors, turned.outDegree, turned.inDegree, lists.edges_eq]
    -- each part of the turned edges is the other part of the edges, turned around
    simp only [List.filter_map, List.map_map, List.length_map]
    exact ⟨rfl, rfl, rfl, rfl⟩

/-- Whatever is derived from a graph that is made by additions: its nodes and its edges are those
of the graph that are to be kept, in the order of the graph, or each edge turned around, and the
number of edges that it counts at a node is that of the edges that lead there. Turned around, the
graph exchanges predecessors and successors, and turned around twice it is the same again. -/
theorem ofHistory_derives (h : List Addition) : Derives (ofHistory h) := by
  have once := nodup_ends_ofHistory h
  constructor
  case reversed => exact reversed_lists once
  case reversedTwice => exact reversed_reversed once
  case predecessors => exact fun s => (reversed_exchanges once s).1
  case successors => exact fun s => (reversed_exchanges once s).2.1
  case inDegree => exact fun s => (reversed_exchanges once s).2.2.1
  case outDegree => exact fun s => (reversed_exchanges once s).2.2.2
  case subgraph => exact subgraph_lists once
  case withoutEdges => exact withoutEdges_lists once

end Graph

end ClasspathAdvice
