import ClasspathAdvice.Graph.Basic

/-!
# The content of a graph

A graph is determined by what was added to it: its nodes and edges are those of its
`Content`, which grows in the same way without tables. Content can be computed where a
graph's tables cannot.
-/

namespace ClasspathAdvice
set_option autoImplicit false

/-- Nodes in the order in which they were added, and edges between their numbers. -/
structure Content where
  nodes : List Coordinates
  edges : List (Nat × Nat)
  deriving DecidableEq

namespace Content

/-- The number of the node with an identifier. -/
def position (v : Content) (identifier : String) : Option Nat :=
  v.nodes.findIdx? (·.identifier == identifier)

/-- Adds a node unless its identifier is known. -/
def insertNode (v : Content) (c : Coordinates) : Content :=
  if (v.position c.identifier).isSome then v else { v with nodes := v.nodes ++ [c] }

/-- Adds an edge between two nodes unless it is there. -/
def connect (v : Content) (e : Nat × Nat) : Content :=
  if e ∈ v.edges then v else { v with edges := v.edges ++ [e] }

/-- Adds an edge, and its ends where they are not known, the source first. -/
def insertEdge (v : Content) (source target : Coordinates) : Content :=
  let v := (v.insertNode source).insertNode target
  match v.position source.identifier, v.position target.identifier with
  | some i, some j => v.connect (i, j)
  | _, _ => v

/-- The content of a graph of nodes and edges between them. -/
def ofNodesAndEdges (nodes : List Coordinates) (edges : List (Coordinates × Coordinates)) : Content :=
  edges.foldl (fun v e => v.insertEdge e.1 e.2) (nodes.foldl insertNode ⟨[], []⟩)

/-- The edges with their ends. -/
def edgeList (v : Content) : List Edge :=
  v.edges.filterMap fun e => do return { source := ← v.nodes[e.1]?, target := ← v.nodes[e.2]? }

end Content

namespace Graph

/-- The nodes and edges of a graph. -/
def listing (g : Graph) : Content := ⟨g.nodes.toList, g.edges.toList⟩

variable (g : Graph)

theorem size_nodes : g.nodes.size = g.listing.nodes.length := rfl

theorem getElem?_nodes (i : Nat) : g.nodes[i]? = g.listing.nodes[i]? := Array.getElem?_toList.symm

theorem mem_edges {e : Nat × Nat} : e ∈ g.edges ↔ e ∈ g.listing.edges := Array.mem_toList_iff.symm

theorem mem_nodes {c : Coordinates} : c ∈ g.nodes ↔ c ∈ g.listing.nodes := Array.mem_toList_iff.symm

theorem edgeList_eq : g.edgeList = g.listing.edgeList := by
  rw [edgeList, Content.edgeList]
  congr 1
  funext e
  simp only [edgeBetween, getElem?_nodes]

/-- The table of identifiers holds the place of each. -/
theorem indexOf?_eq (s : String) : g.indexOf? s = g.listing.position s := by
  have same : ∀ i, g.indexOf? s = some i ↔ ∃ c : Coordinates, g.nodes[i]? = some c ∧ c.identifier = s :=
    g.index_iff s
  cases h : g.listing.position s with
  | none =>
    rw [Content.position, List.findIdx?_eq_none_iff] at h
    cases hi : g.indexOf? s with
    | none => rfl
    | some i =>
      obtain ⟨c, hc, eq⟩ := (same i).1 hi
      have mem : c ∈ g.listing.nodes := Array.mem_toList_iff.2 (Array.mem_of_getElem? hc)
      simpa [eq] using h c mem
  | some i =>
    obtain ⟨lt, eq, -⟩ := List.findIdx?_eq_some_iff_getElem.1 h
    have lt' : i < g.nodes.size := by simpa [listing] using lt
    exact (same i).2 ⟨g.nodes[i], Array.getElem?_eq_getElem lt', by simpa [listing] using eq⟩

theorem listing_insertNode (c : Coordinates) :
    (g.insertNode c).listing = g.listing.insertNode c := by
  have eq : g.index[c.identifier]? = g.listing.position c.identifier := g.indexOf?_eq _
  rw [Content.insertNode, ← eq, insertNode]
  split
  · rename_i h
    rw [if_pos (by rw [h]; rfl)]
  · rename_i h
    rw [if_neg (by rw [h]; decide)]
    simp [listing]

theorem listing_connect (i j : Nat) (hi : i < g.nodes.size) (hj : j < g.nodes.size) :
    (g.connect i j hi hj).listing = g.listing.connect (i, j) := by
  have eq : g.links.contains (i, j) = true ↔ (i, j) ∈ g.listing.edges :=
    (g.links_iff _).trans Array.mem_toList_iff.symm
  rw [Content.connect, connect]
  split
  · rename_i h
    rw [if_pos (eq.1 h)]
  · rename_i h
    rw [if_neg (fun h' => h (eq.2 h'))]
    simp [listing]

theorem listing_insertEdge (source target : Coordinates) :
    (g.insertEdge source target).listing = g.listing.insertEdge source target := by
  have index : ∀ s, ((g.insertNode source).insertNode target).indexOf? s =
      ((g.listing.insertNode source).insertNode target).position s := by
    intro s
    rw [indexOf?_eq, listing_insertNode, listing_insertNode]
  rw [Content.insertEdge, insertEdge]
  simp only [← index]
  split
  · rename_i hi hj
    rw [listing_connect, listing_insertNode, listing_insertNode, hi, hj]
  · rename_i none
    rw [listing_insertNode, listing_insertNode]
    split
    · rename_i hi hj
      exact absurd hj (none _ _ hi)
    · rfl

/-- A graph that is built of nodes and edges has the content that is built of them. -/
theorem listing_ofNodesAndEdges (nodes : List Coordinates) (edges : List (Coordinates × Coordinates)) :
    (ofNodesAndEdges nodes edges).listing = Content.ofNodesAndEdges nodes edges := by
  have ofNodes : ∀ g : Graph, (nodes.foldl insertNode g).listing =
      nodes.foldl Content.insertNode g.listing := by
    induction nodes with
    | nil => exact fun _ => rfl
    | cons c nodes ih =>
      intro g
      rw [List.foldl_cons, List.foldl_cons, ih, listing_insertNode]
  have ofEdges : ∀ g : Graph, (edges.foldl (fun g e => g.insertEdge e.1 e.2) g).listing =
      edges.foldl (fun v e => v.insertEdge e.1 e.2) g.listing := by
    induction edges with
    | nil => exact fun _ => rfl
    | cons e edges ih =>
      intro g
      rw [List.foldl_cons, List.foldl_cons, ih, listing_insertEdge]
  rw [ofNodesAndEdges, Content.ofNodesAndEdges, ofEdges, ofNodes]
  rfl

end Graph

end ClasspathAdvice
