import ClasspathAdvice.Coordinates
import Std.Data.ExtHashMap
import Std.Data.ExtHashSet

/-!
# Dependency graphs

A graph only grows. Its nodes are kept in the order in which their identifiers were
first mentioned, with the coordinates seen then; its edges are pairs of node numbers in
the order in which they were first added. A table of identifiers, a set of edges and the
numbers of edges that lead to the nodes stand beside them and say the same (`index_iff`,
`links_iff`, `incoming_eq`), so the content of a graph determines it (`eq_of_content`).
-/

namespace ClasspathAdvice
set_option autoImplicit false

/-- What a graph has no answer for. -/
inductive GraphError where
  | missingNode (identifier : String)
  | noRoot
  | notSingleEntry (root : String) (unreachable : List String)
  deriving DecidableEq, Repr

/-- The wording of the error. -/
def GraphError.message : GraphError → String
  | missingNode identifier => "'" ++ identifier ++ "' is not a node of this graph"
  | noRoot => "graph has no root (every node has an incoming edge)"
  | notSingleEntry root unreachable =>
    "graph is not single-entry from '" ++ root ++ "': " ++ toString unreachable.length ++
      " node(s) unreachable: " ++ Text.joined ", " unreachable

/-- Keys of the table of identifiers are told apart as texts are. -/
instance equivBEqText : EquivBEq String := instEquivBEqOfLawfulBEq

/-- A directed graph of coordinates. -/
structure Graph where
  nodes : Array Coordinates
  edges : Array (Nat × Nat)
  /-- How many edges lead to each node. -/
  incoming : Array Nat
  index : Std.ExtHashMap String Nat
  links : Std.ExtHashSet (Nat × Nat)
  index_iff : ∀ s i, index[s]? = some i ↔ ∃ c : Coordinates, nodes[i]? = some c ∧ c.identifier = s
  links_iff : ∀ e, links.contains e = true ↔ e ∈ edges
  edges_lt : ∀ e ∈ edges, e.1 < nodes.size ∧ e.2 < nodes.size
  incoming_eq : ∀ i, incoming[i]? = if i < nodes.size then some (edges.countP (·.2 == i)) else none

/-- An edge with its ends; all edges weigh the same. -/
structure Edge where
  source : Coordinates
  target : Coordinates
  weight : Nat := 1
  deriving DecidableEq

namespace Graph

/-- The graph without nodes. -/
def empty : Graph where
  nodes := #[]
  edges := #[]
  incoming := #[]
  index := ∅
  links := ∅
  index_iff := by simp
  links_iff := by simp
  edges_lt := by simp
  incoming_eq := by simp

instance : EmptyCollection Graph := ⟨empty⟩
instance : Inhabited Graph := ⟨empty⟩

/-- Whether an identifier is that of a node. -/
def contains (g : Graph) (identifier : String) : Bool := g.index.contains identifier

/-- The number of the node with an identifier. -/
def indexOf? (g : Graph) (identifier : String) : Option Nat := g.index[identifier]?

/-- The number of the node with an identifier, or the error that there is none. -/
def indexOf (g : Graph) (identifier : String) : Except GraphError Nat :=
  match g.indexOf? identifier with
  | some i => .ok i
  | none => .error (.missingNode identifier)

/-- The node with an identifier. -/
def node? (g : Graph) (identifier : String) : Option Coordinates :=
  (g.indexOf? identifier).bind (g.nodes[·]?)

/-- The nodes with the given numbers. -/
def nodesAt (g : Graph) (l : List Nat) : List Coordinates := l.filterMap (g.nodes[·]?)

/-- The identifier of the node with a number. -/
def identifierAt (g : Graph) (i : Nat) : String := ((g.nodes[i]?).map (·.identifier)).getD ""

theorem indexOf?_lt {g : Graph} {s : String} {i : Nat} (h : g.indexOf? s = some i) :
    i < g.nodes.size := by
  obtain ⟨c, hc, -⟩ := (g.index_iff s i).1 h
  exact (Array.getElem?_eq_some_iff.1 hc).1

theorem size_incoming (g : Graph) : g.incoming.size = g.nodes.size := by
  have bound : ∀ i, g.incoming.size ≤ i ↔ g.nodes.size ≤ i := by
    intro i
    rw [← Array.getElem?_eq_none_iff, g.incoming_eq]
    simp
  have := bound g.incoming.size
  have := bound g.nodes.size
  omega

/-- Graphs with the same nodes and edges are the same: the tables follow from these. -/
theorem eq_of_content {g h : Graph} (nodes : g.nodes = h.nodes) (edges : g.edges = h.edges) :
    g = h := by
  have incoming : g.incoming = h.incoming := by
    apply Array.ext_getElem?
    intro i
    rw [g.incoming_eq, h.incoming_eq, nodes, edges]
  have index : g.index = h.index := by
    apply Std.ExtHashMap.ext_getElem?
    intro s
    apply Option.ext
    intro i
    rw [g.index_iff, h.index_iff, nodes]
  have links : g.links = h.links := by
    apply Std.ExtHashSet.ext_contains
    intro e
    rw [Bool.eq_iff_iff, g.links_iff, h.links_iff, edges]
  cases g
  cases h
  simp_all

/-- Adds a node unless its identifier is known; the coordinates seen first stay. -/
def insertNode (g : Graph) (c : Coordinates) : Graph :=
  match h : g.index[c.identifier]? with
  | some _ => g
  | none =>
    let next := g.nodes.size
    { nodes := g.nodes.push c
      edges := g.edges
      incoming := g.incoming.push 0
      index := g.index.insert c.identifier next
      links := g.links
      index_iff := fun s i => by
        have fresh : ∀ (j : Nat) (d : Coordinates), g.nodes[j]? = some d → d.identifier ≠ c.identifier := by
          intro j d hd e
          have := (g.index_iff c.identifier j).2 ⟨d, hd, e⟩
          simp [h] at this
        rw [Std.ExtHashMap.getElem?_insert]
        by_cases hs : c.identifier = s
        · subst hs
          simp only [beq_self_eq_true, if_true, Option.some.injEq, Array.getElem?_push]
          constructor
          · rintro rfl
            exact ⟨c, by simp [next]⟩
          · rintro ⟨d, hd, e⟩
            by_cases hi : i = g.nodes.size
            · exact hi.symm
            · rw [if_neg hi] at hd
              exact absurd e (fresh i d hd)
        · rw [if_neg (by simpa using hs), g.index_iff, Array.getElem?_push]
          constructor
          · rintro ⟨d, hd, e⟩
            have hi : i ≠ g.nodes.size := fun hi => by simp [hi] at hd
            exact ⟨d, by rw [if_neg hi]; exact hd, e⟩
          · rintro ⟨d, hd, e⟩
            by_cases hi : i = g.nodes.size
            · rw [if_pos hi] at hd
              cases hd
              exact absurd e hs
            · rw [if_neg hi] at hd
              exact ⟨d, hd, e⟩
      links_iff := g.links_iff
      edges_lt := fun e he => by
        have := g.edges_lt e he
        simp only [Array.size_push]
        omega
      incoming_eq := fun i => by
        rw [Array.getElem?_push, g.size_incoming, g.incoming_eq, Array.size_push]
        by_cases hi : i = g.nodes.size
        · -- no edge leads to a number that no node has yet
          have none : g.edges.countP (·.2 == i) = 0 := by
            rw [Array.countP_eq_zero]
            intro e he
            have := (g.edges_lt e he).2
            simp only [beq_iff_eq]
            omega
          simp [hi ▸ none, hi]
        · have same : i < g.nodes.size + 1 ↔ i < g.nodes.size := by omega
          simp [hi, same] }

/-- Adds an edge between two nodes unless it is there. -/
def connect (g : Graph) (i j : Nat) (hi : i < g.nodes.size) (hj : j < g.nodes.size) : Graph :=
  if g.links.contains (i, j) then g
  else
    { nodes := g.nodes
      edges := g.edges.push (i, j)
      incoming := g.incoming.modify j (· + 1)
      index := g.index
      links := g.links.insert (i, j)
      index_iff := g.index_iff
      links_iff := fun e => by
        rw [Std.ExtHashSet.contains_insert, Bool.or_eq_true, g.links_iff, Array.mem_push, beq_iff_eq]
        grind
      edges_lt := fun e he => by
        rcases Array.mem_push.1 he with he | rfl
        · exact g.edges_lt e he
        · exact ⟨hi, hj⟩
      incoming_eq := fun k => by
        rw [Array.getElem?_modify, g.incoming_eq, Array.countP_push]
        by_cases hk : j = k
        · simp [hk, hk ▸ hj]
        · simp [hk] }

/-- Whether there is an edge between the nodes with two identifiers. -/
def hasEdge (g : Graph) (source target : String) : Bool :=
  match g.indexOf? source, g.indexOf? target with
  | some i, some j => g.links.contains (i, j)
  | _, _ => false

/-- Adds an edge, and its ends where they are not known, the source first. -/
def insertEdge (g : Graph) (source target : Coordinates) : Graph :=
  let g := (g.insertNode source).insertNode target
  match hi : g.indexOf? source.identifier, hj : g.indexOf? target.identifier with
  | some i, some j => g.connect i j (indexOf?_lt hi) (indexOf?_lt hj)
  | _, _ => g

/-- Adds a node and tells whether it was new. -/
def addNode (g : Graph) (c : Coordinates) : Bool × Graph :=
  (!g.contains c.identifier, g.insertNode c)

/-- Adds an edge and tells whether it was new. -/
def addEdge (g : Graph) (source target : Coordinates) : Bool × Graph :=
  (!g.hasEdge source.identifier target.identifier, g.insertEdge source target)

/-- The graph of a list of edges. -/
def ofEdges (l : List (Coordinates × Coordinates)) : Graph :=
  l.foldl (fun g e => g.insertEdge e.1 e.2) ∅

/-- The graph of nodes and edges between them; the nodes come first. -/
def ofNodesAndEdges (nodes : List Coordinates) (edges : List (Coordinates × Coordinates)) : Graph :=
  edges.foldl (fun g e => g.insertEdge e.1 e.2) (nodes.foldl insertNode ∅)

/-- The graph of raw texts; a root is a node even without edges. -/
def ofTexts (root : Option String) (nodes : List String) (edges : List (String × String)) : Graph :=
  ofNodesAndEdges ((root.toList ++ nodes).map Coordinates.parse)
    (edges.map fun (a, b) => (Coordinates.parse a, Coordinates.parse b))

/-- The edge between two nodes. -/
def edgeBetween (g : Graph) (e : Nat × Nat) : Option Edge := do
  return { source := ← g.nodes[e.1]?, target := ← g.nodes[e.2]? }

/-- All edges in the order in which they were added. -/
def edgeList (g : Graph) : List Edge := g.edges.toList.filterMap g.edgeBetween

/-- The numbers of the nodes that edges lead to from a node, in edge order. -/
def successorsOf (g : Graph) (i : Nat) : List Nat :=
  (g.edges.toList.filter (·.1 == i)).map (·.2)

/-- The numbers of the nodes from which edges lead to a node, in edge order. -/
def predecessorsOf (g : Graph) (i : Nat) : List Nat :=
  (g.edges.toList.filter (·.2 == i)).map (·.1)

/-- The successors of every node. -/
def successorTable (g : Graph) : Array (List Nat) :=
  g.edges.foldr (fun e table => table.modify e.1 (e.2 :: ·)) (Array.replicate g.nodes.size [])

/-- The predecessors of every node. -/
def predecessorTable (g : Graph) : Array (List Nat) :=
  g.edges.foldr (fun e table => table.modify e.2 (e.1 :: ·)) (Array.replicate g.nodes.size [])

/-- The edges that leave a node, in edge order. -/
def adjacent (g : Graph) (identifier : String) : Except GraphError (List Edge) := do
  let i ← g.indexOf identifier
  return (g.successorsOf i).filterMap fun j => g.edgeBetween (i, j)

/-- The nodes that edges lead to from a node, in edge order. -/
def successors (g : Graph) (identifier : String) : Except GraphError (List Coordinates) := do
  return g.nodesAt (g.successorsOf (← g.indexOf identifier))

/-- The nodes from which edges lead to a node, in edge order. -/
def predecessors (g : Graph) (identifier : String) : Except GraphError (List Coordinates) := do
  return g.nodesAt (g.predecessorsOf (← g.indexOf identifier))

/-- The number of edges that lead to a node. -/
def inDegree (g : Graph) (identifier : String) : Except GraphError Nat := do
  return g.incoming.getD (← g.indexOf identifier) 0

/-- The number of edges that leave a node. -/
def outDegree (g : Graph) (identifier : String) : Except GraphError Nat := do
  return (g.successorsOf (← g.indexOf identifier)).length

/-- The numbers of the nodes that no edge leads to, in node order. -/
def rootIndices (g : Graph) : List Nat :=
  (List.range g.nodes.size).filter fun i => g.incoming.getD i 0 == 0

/-- The nodes that no edge leads to, in node order. -/
def roots (g : Graph) : List Coordinates := g.nodesAt g.rootIndices

/-- The first node that no edge leads to. -/
def root? (g : Graph) : Option Coordinates := g.roots.head?

end Graph

end ClasspathAdvice
