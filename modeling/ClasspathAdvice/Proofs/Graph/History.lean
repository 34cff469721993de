import ClasspathAdvice.Proofs.Graph.Queries
import Mathlib.Data.List.Induction

/-!
# A graph is its history

Whatever is added to a graph, and in whatever order, its nodes are the first mentions of their
identifiers and its edges the first additions of their pairs of ends (`ofHistory_recounts`).
One addition keeps this (`Remembers.add`), since it adds at the end of these lists or nothing.
-/

namespace ClasspathAdvice.Graph
set_option autoImplicit false

/-- What is added to a graph at once. -/
inductive Addition where
  | node (c : Coordinates)
  | edge (source target : Coordinates)

namespace Addition

/-- The coordinates of an addition, the source first. -/
def mentions : Addition → List Coordinates
  | node c => [c]
  | edge source target => [source, target]

/-- The identifiers of the ends of an edge that is added. -/
def links : Addition → List (String × String)
  | node _ => []
  | edge source target => [(source.identifier, target.identifier)]

end Addition

/-- Adds a node or an edge and tells whether it was new. -/
def add (g : Graph) : Addition → Bool × Graph
  | .node c => g.addNode c
  | .edge source target => g.addEdge source target

/-- The graph that additions make, in their order. -/
def ofHistory (h : List Addition) : Graph := h.foldl (fun g a => (g.add a).2) ∅

/-- Whether two coordinates have one identifier. -/
def isAlike (c d : Coordinates) : Bool := c.identifier == d.identifier

/-! ## First mentions -/

section FirstMentions

variable {α : Type} (r : α → α → Bool)

theorem loop_append_singleton (l kept : List α) (a : α) :
    List.eraseDupsBy.loop r (l ++ [a]) kept =
      if (List.eraseDupsBy.loop r l kept).any (r a) then List.eraseDupsBy.loop r l kept
      else List.eraseDupsBy.loop r l kept ++ [a] := by
  induction l generalizing kept with
  | nil =>
    rw [List.nil_append, List.eraseDupsBy.loop, List.eraseDupsBy.loop, List.any_reverse]
    split
    · rename_i known
      rw [if_pos known, List.eraseDupsBy.loop]
    · rename_i fresh
      rw [if_neg (by rw [fresh]; decide), List.eraseDupsBy.loop, List.reverse_cons]
  | cons b l ih =>
    rw [List.cons_append, List.eraseDupsBy.loop, List.eraseDupsBy.loop]
    split
    · exact ih kept
    · exact ih (b :: kept)

/-- One more element is kept unless one that it repeats was. -/
theorem eraseDupsBy_append_singleton (l : List α) (a : α) :
    (l ++ [a]).eraseDupsBy r =
      if (l.eraseDupsBy r).any (r a) then l.eraseDupsBy r else l.eraseDupsBy r ++ [a] :=
  loop_append_singleton r l [] a

end FirstMentions

/-- The first of the coordinates of each identifier, in their order. -/
def firstMentions (l : List Coordinates) : List Coordinates := l.eraseDupsBy isAlike

/-- Coordinates at the end of a list, unless it has their identifier. -/
def noted (l : List Coordinates) (c : Coordinates) : List Coordinates :=
  if (l.find? (·.identifier == c.identifier)).isSome then l else l ++ [c]

/-- The first of all with an identifier is found, whether the last were new or not. -/
theorem find?_noted (l : List Coordinates) (c : Coordinates) (s : String) :
    (noted l c).find? (·.identifier == s) = (l ++ [c]).find? (·.identifier == s) := by
  rw [noted]
  split
  · rename_i known
    rw [List.find?_append]
    cases found : l.find? (·.identifier == s) with
    | some d => rfl
    | none =>
      have other : (c.identifier == s) = false := by
        rw [beq_eq_false_iff_ne]
        intro same
        rw [same, found] at known
        exact absurd known (by decide)
      rw [Option.none_or, List.find?_cons, other]
      rfl
  · rfl

theorem firstMentions_append_singleton (l : List Coordinates) (c : Coordinates) :
    firstMentions (l ++ [c]) = noted (firstMentions l) c := by
  have known : (firstMentions l).any (isAlike c) =
      ((firstMentions l).find? (·.identifier == c.identifier)).isSome := by
    rw [List.isSome_find?]
    congr 1
    funext d
    exact BEq.comm
  rw [noted, ← known]
  exact eraseDupsBy_append_singleton isAlike l c

theorem find?_firstMentions (l : List Coordinates) (s : String) :
    (firstMentions l).find? (·.identifier == s) = l.find? (·.identifier == s) := by
  induction l using List.reverseRecOn with
  | nil => rfl
  | append_singleton l c ih =>
    rw [firstMentions_append_singleton, find?_noted, List.find?_append, ih, ← List.find?_append]

/-! ## One addition -/

variable {g : Graph} {c d source target : Coordinates} {a : Addition} {h : List Addition}

theorem insertNode_of_contains (known : g.contains c.identifier = true) : g.insertNode c = g := by
  rw [contains_eq_isSome, indexOf?, Option.isSome_iff_exists] at known
  obtain ⟨i, hi⟩ := known
  rw [insertNode]
  split
  · rfl
  · rename_i none
    rw [none] at hi
    cases hi

theorem nodes_insertNode (new : g.contains c.identifier = false) :
    (g.insertNode c).nodes = g.nodes.push c := by
  rw [contains_eq_isSome, indexOf?, Option.isSome_eq_false_iff, Option.isNone_iff_eq_none] at new
  rw [insertNode]
  split
  · rename_i i some
    rw [some] at new
    cases new
  · rfl

theorem edges_insertNode : (g.insertNode c).edges = g.edges := by
  rw [insertNode]
  split <;> rfl

/-- A new node changes no edge. -/
theorem edgeList_insertNode : (g.insertNode c).edgeList = g.edgeList := by
  rw [edgeList, edgeList, edges_insertNode]
  apply List.filterMap_congr
  intro k mem
  obtain ⟨u, v, hu, hv, eq⟩ := exists_edgeBetween (Array.mem_toList_iff.1 mem)
  rw [eq]
  cases known : g.contains c.identifier with
  | true => rw [insertNode_of_contains known, eq]
  | false =>
    obtain ⟨lt, -⟩ := Array.getElem?_eq_some_iff.1 hu
    obtain ⟨lt', -⟩ := Array.getElem?_eq_some_iff.1 hv
    apply edgeBetween_eq
    · rw [nodes_insertNode known, Array.getElem?_push, if_neg (by omega), hu]
    · rw [nodes_insertNode known, Array.getElem?_push, if_neg (by omega), hv]

theorem toList_insertNode (g : Graph) (c : Coordinates) :
    (g.insertNode c).nodes.toList = noted g.nodes.toList c := by
  rw [noted, ← node?_eq_find?, ← contains_eq_isSome_node?]
  cases known : g.contains c.identifier with
  | true => rw [insertNode_of_contains known, if_pos rfl]
  | false =>
    rw [nodes_insertNode known, Array.toList_push]
    rfl

theorem contains_insertNode (s : String) :
    (g.insertNode c).contains s = (g.contains s || c.identifier == s) := by
  rw [contains_eq_isSome_node?, node?_eq_find?, toList_insertNode, find?_noted, List.isSome_find?,
    List.any_append, ← List.isSome_find?, ← node?_eq_find?, ← contains_eq_isSome_node?]
  simp

/-- An edge is added between nodes that are there. -/
theorem exists_insertEdge (g : Graph) (source target : Coordinates) :
    ∃ i j hi hj, ((g.insertNode source).insertNode target).indexOf? source.identifier = some i ∧
      ((g.insertNode source).insertNode target).indexOf? target.identifier = some j ∧
      g.insertEdge source target = ((g.insertNode source).insertNode target).connect i j hi hj := by
  have found : ∀ s, ((g.insertNode source).insertNode target).contains s = true →
      ∃ i, ((g.insertNode source).insertNode target).indexOf? s = some i := by
    intro s known
    rw [contains_eq_isSome] at known
    exact Option.isSome_iff_exists.1 known
  obtain ⟨i, hi⟩ := found source.identifier (by simp [contains_insertNode])
  obtain ⟨j, hj⟩ := found target.identifier (by simp [contains_insertNode])
  refine ⟨i, j, indexOf?_lt hi, indexOf?_lt hj, hi, hj, ?_⟩
  rw [insertEdge]
  split
  · rename_i i' j' hi' hj'
    cases hi.symm.trans hi'
    cases hj.symm.trans hj'
    rfl
  · rename_i none
    exact absurd hj (none i j hi)

/-- An edge between nodes that are there adds no node. -/
theorem exists_insertEdge_of_some {i j : Nat} (hi : g.indexOf? source.identifier = some i)
    (hj : g.indexOf? target.identifier = some j) :
    ∃ lt lt', g.insertEdge source target = g.connect i j lt lt' := by
  obtain ⟨i', j', lt, lt', atSource, atTarget, eq⟩ := exists_insertEdge g source target
  simp only [insertNode_of_contains (contains_of_some hi), insertNode_of_contains (contains_of_some hj)]
    at lt lt' atSource atTarget eq
  cases hi.symm.trans atSource
  cases hj.symm.trans atTarget
  exact ⟨lt, lt', eq⟩

theorem toList_insertEdge (g : Graph) (source target : Coordinates) :
    (g.insertEdge source target).nodes.toList = noted (noted g.nodes.toList source) target := by
  obtain ⟨i, j, hi, hj, -, -, eq⟩ := exists_insertEdge g source target
  rw [eq, ← toList_insertNode, ← toList_insertNode, connect]
  split <;> rfl

theorem contains_insertEdge (s : String) :
    (g.insertEdge source target).contains s =
      (g.contains s || source.identifier == s || target.identifier == s) := by
  rw [← contains_insertNode, ← contains_insertNode, contains_eq_isSome_node?, node?_eq_find?,
    toList_insertEdge, ← toList_insertNode, ← toList_insertNode, ← node?_eq_find?,
    ← contains_eq_isSome_node?]

/-- The pairs of identifiers between which there are edges, in their order. -/
def ends (g : Graph) : List (String × String) := g.edgeList.map Edge.ends

theorem ends_insertNode : (g.insertNode c).ends = g.ends := by rw [ends, edgeList_insertNode, ends]

theorem edgeList_of_push {g' : Graph} {i j : Nat} (nodes : g'.nodes = g.nodes)
    (edges : g'.edges = g.edges.push (i, j)) (hc : g.nodes[i]? = some c)
    (hd : g.nodes[j]? = some d) :
    g'.edgeList = g.edgeList ++ [{ source := c, target := d }] := by
  have same : g'.edgeBetween = g.edgeBetween := by
    funext k
    rw [edgeBetween, nodes, edgeBetween]
  rw [edgeList, edges, same, Array.toList_push, List.filterMap_append, ← edgeList,
    List.filterMap_cons, edgeBetween_eq hc hd]
  rfl

theorem connect_of_mem {i j : Nat} (hi : i < g.nodes.size) (hj : j < g.nodes.size)
    (isEdge : (i, j) ∈ g.edges) : g.connect i j hi hj = g := by
  rw [connect, if_pos ((g.links_iff _).2 isEdge)]

theorem nodes_connect {i j : Nat} (hi : i < g.nodes.size) (hj : j < g.nodes.size) :
    (g.connect i j hi hj).nodes = g.nodes := by
  rw [connect]
  split <;> rfl

theorem edges_connect {i j : Nat} (hi : i < g.nodes.size) (hj : j < g.nodes.size)
    (isNew : (i, j) ∉ g.edges) : (g.connect i j hi hj).edges = g.edges.push (i, j) := by
  rw [connect, if_neg (fun isEdge => isNew ((g.links_iff _).1 isEdge))]

theorem ends_connect {i j : Nat} (hi : i < g.nodes.size) (hj : j < g.nodes.size)
    (hc : g.nodes[i]? = some c) (hd : g.nodes[j]? = some d) :
    (g.connect i j hi hj).ends =
      if (c.identifier, d.identifier) ∈ g.ends then g.ends
      else g.ends ++ [(c.identifier, d.identifier)] := by
  have known : (i, j) ∈ g.edges ↔ (c.identifier, d.identifier) ∈ g.ends := by
    rw [ends, ← hasEdge_iff, hasEdge, indexOf?_of_node hc, indexOf?_of_node hd]
    exact (g.links_iff _).symm
  by_cases isEdge : (i, j) ∈ g.edges
  · rw [connect_of_mem hi hj isEdge, if_pos (known.1 isEdge)]
  · rw [if_neg (fun mem => isEdge (known.2 mem)), ends,
      edgeList_of_push (nodes_connect hi hj) (edges_connect hi hj isEdge) hc hd, List.map_append]
    rfl

theorem ends_insertEdge (g : Graph) (source target : Coordinates) :
    (g.insertEdge source target).ends =
      if (source.identifier, target.identifier) ∈ g.ends then g.ends
      else g.ends ++ [(source.identifier, target.identifier)] := by
  obtain ⟨i, j, hi, hj, atSource, atTarget, eq⟩ := exists_insertEdge g source target
  obtain ⟨c, hc, sameSource⟩ := (index_iff _ _ _).1 atSource
  obtain ⟨d, hd, sameTarget⟩ := (index_iff _ _ _).1 atTarget
  rw [eq, ends_connect hi hj hc hd, sameSource, sameTarget, ends_insertNode, ends_insertNode]

/-- A graph whose nodes and edges are those of a history. -/
structure Remembers (g : Graph) (h : List Addition) : Prop where
  nodes : g.nodes.toList = firstMentions (h.flatMap Addition.mentions)
  ends : g.ends = (h.flatMap Addition.links).eraseDups

/-- One addition to a graph is one more of its history. -/
theorem Remembers.add (r : Remembers g h) (a : Addition) : Remembers (g.add a).2 (h ++ [a]) := by
  cases a with
  | node c =>
    constructor
    case nodes =>
      show (g.insertNode c).nodes.toList = _
      rw [toList_insertNode, r.nodes, ← firstMentions_append_singleton, List.flatMap_append]
      rfl
    case ends =>
      show (g.insertNode c).ends = _
      rw [ends_insertNode, r.ends, List.flatMap_append]
      simp [Addition.links]
  | edge source target =>
    constructor
    case nodes =>
      show (g.insertEdge source target).nodes.toList = _
      rw [toList_insertEdge, r.nodes, ← firstMentions_append_singleton,
        ← firstMentions_append_singleton, List.flatMap_append, List.append_assoc]
      rfl
    case ends =>
      show (g.insertEdge source target).ends = _
      rw [ends_insertEdge, r.ends, List.flatMap_append, List.flatMap_singleton, Addition.links,
        List.eraseDups, List.eraseDups, eraseDupsBy_append_singleton]
      simp

/-- A graph that is made by additions remembers them all. -/
theorem remembers_ofHistory (h : List Addition) : Remembers (ofHistory h) h := by
  induction h using List.reverseRecOn with
  | nil => exact ⟨rfl, rfl⟩
  | append_singleton h a ih =>
    rw [ofHistory, List.foldl_append]
    exact ih.add a

/-! ## What an addition tells -/

/-- An edge that is there leaves nothing to add. -/
theorem insertEdge_of_hasEdge (known : g.hasEdge source.identifier target.identifier = true) :
    g.insertEdge source target = g := by
  obtain ⟨e, mem, ends⟩ := List.mem_map.1 (hasEdge_iff.1 known)
  obtain ⟨sameSource, sameTarget⟩ := Prod.mk.inj ends
  obtain ⟨i, j, isEdge, hc, hd, -⟩ := mem_edgeList.1 mem
  have hi : g.indexOf? source.identifier = some i := sameSource ▸ indexOf?_of_node hc
  have hj : g.indexOf? target.identifier = some j := sameTarget ▸ indexOf?_of_node hd
  obtain ⟨lt, lt', eq⟩ := exists_insertEdge_of_some hi hj
  exact eq.trans (connect_of_mem lt lt' isEdge)

/-- An addition tells that it was new exactly if it changes the graph. -/
theorem add_iff (g : Graph) (a : Addition) : (g.add a).1 = true ↔ (g.add a).2 ≠ g := by
  cases a with
  | node c =>
    show (!g.contains c.identifier) = true ↔ g.insertNode c ≠ g
    cases known : g.contains c.identifier with
    | true => simp [insertNode_of_contains known]
    | false =>
      have grows : g.insertNode c ≠ g := by
        intro same
        have size := congrArg (·.nodes.size) same
        simp [nodes_insertNode known] at size
      simp [grows]
  | edge source target =>
    show (!g.hasEdge source.identifier target.identifier) = true ↔ g.insertEdge source target ≠ g
    cases known : g.hasEdge source.identifier target.identifier with
    | true => simp [insertEdge_of_hasEdge known]
    | false =>
      have isNew : (source.identifier, target.identifier) ∉ g.ends := by
        rw [ends, ← hasEdge_iff, known]
        exact Bool.false_ne_true
      have grows : g.insertEdge source target ≠ g := by
        intro same
        have longer := ends_insertEdge g source target
        rw [same, if_neg isNew] at longer
        simp at longer
      simp [grows]

/-! ## The whole graph -/

/-- All that a graph answers is what its history says. -/
structure Recounts (g : Graph) (h : List Addition) : Prop where
  nodes : g.nodes.toList = firstMentions (h.flatMap Addition.mentions)
  node : ∀ s, g.node? s = (h.flatMap Addition.mentions).find? (·.identifier == s)
  ends : g.edgeList.map Edge.ends = (h.flatMap Addition.links).eraseDups
  edge : ∀ e ∈ g.edgeList, e.weight = 1 ∧
    g.node? e.source.identifier = some e.source ∧ g.node? e.target.identifier = some e.target
  roots : g.roots = g.nodes.toList.filter fun c =>
    !g.edgeList.any (·.target.identifier == c.identifier)
  contains : ∀ s, g.contains s = true ↔ ∃ c ∈ h.flatMap Addition.mentions, c.identifier = s
  answers : ∀ c ∈ h.flatMap Addition.mentions, Answers g c.identifier
  missing : ∀ s, (∀ c ∈ h.flatMap Addition.mentions, c.identifier ≠ s) → Missing g s
  added : ∀ a, (g.add a).1 = true ↔ (g.add a).2 ≠ g

/-- Whatever is added, and in whatever order: the nodes are the first mentions of their
identifiers, the edges the first additions between two, each answer about a node is read off
these lists, and there is none about an identifier that was never mentioned. -/
theorem ofHistory_recounts (h : List Addition) : Recounts (ofHistory h) h := by
  have r := remembers_ofHistory h
  have node : ∀ s, (ofHistory h).node? s =
      (h.flatMap Addition.mentions).find? (·.identifier == s) := by
    intro s
    rw [node?_eq_find?, r.nodes, find?_firstMentions]
  have contains : ∀ s, (ofHistory h).contains s = true ↔
      ∃ c ∈ h.flatMap Addition.mentions, c.identifier = s := by
    intro s
    rw [contains_eq_isSome_node?, node, List.find?_isSome]
    simp only [beq_iff_eq]
  constructor
  case nodes => exact r.nodes
  case node => exact node
  case ends => exact r.ends
  case edge =>
    intro e mem
    obtain ⟨i, j, -, hc, hd, weight⟩ := mem_edgeList.1 mem
    refine ⟨weight, ?_, ?_⟩
    · rw [node?, indexOf?_of_node hc, Option.bind_some, hc]
    · rw [node?, indexOf?_of_node hd, Option.bind_some, hd]
  case roots => exact roots_eq
  case contains => exact contains
  case answers =>
    intro c mem
    have known := (contains c.identifier).2 ⟨c, mem, rfl⟩
    rw [contains_eq_isSome, Option.isSome_iff_exists] at known
    obtain ⟨i, hi⟩ := known
    exact answers_of_some hi
  case missing =>
    intro s never
    apply missing_of_none
    rw [← Option.not_isSome_iff_eq_none, ← contains_eq_isSome, contains]
    intro mentioned
    obtain ⟨c, mem, same⟩ := mentioned
    exact never c mem same
  case added => exact add_iff _

end ClasspathAdvice.Graph
