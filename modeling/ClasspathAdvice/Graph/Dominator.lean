import ClasspathAdvice.Graph.Search

/-!
# Dominator trees

A node dominates another if every path from the root to the other passes through it.
The nodes are numbered so that the root has the highest number and each node, taken in
reverse postorder, a lower one. Passes over this order move the candidate for each
node's immediate dominator up to where the candidates of its predecessors meet, until
nothing moves.
-/

namespace ClasspathAdvice
set_option autoImplicit false

/-- The immediate dominator of every node of a graph that a root reaches all of. The root
stands for its own. -/
structure DominatorTree where
  graph : Graph
  root : Nat
  /-- The nodes in reverse postorder. -/
  order : List Nat
  immediate : Array Nat

namespace DominatorTree

/-- Candidates for immediate dominators; a node that was not looked at yet has none. -/
abbrev Candidates := Array (Option Nat)

/-- The candidate of a node, the root if it has none. -/
def candidateOf (root : Nat) (candidates : Candidates) (i : Nat) : Nat :=
  (candidates.getD i none).getD root

/-- Where the chains of candidates of two nodes meet: the node with the lower number moves up
until both are the same. -/
def meetWithin (number : Array Nat) (root : Nat) (candidates : Candidates) : Nat → Nat → Nat → Nat
  | 0, left, _ => left
  | steps + 1, left, right =>
    let l := number.getD left 0
    let r := number.getD right 0
    if l = r then left
    else if l < r then meetWithin number root candidates steps (candidateOf root candidates left) right
    else meetWithin number root candidates steps left (candidateOf root candidates right)

/-- Where the chains of candidates of two nodes meet. Every step raises a number, and none is
higher than the root's. -/
def meet (number : Array Nat) (root : Nat) (candidates : Candidates) (left right : Nat) : Nat :=
  let top := number.getD root 0
  meetWithin number root candidates
    ((top - number.getD left 0) + (top - number.getD right 0)) left right

/-- Where the chains of all predecessors that were looked at meet, if there are such. -/
def meetAll (number : Array Nat) (root : Nat) (candidates : Candidates) (predecessors : List Nat) :
    Option Nat :=
  match predecessors.filter (fun i => (candidates.getD i none).isSome) with
  | [] => none
  | first :: rest => some (rest.foldl (fun found i => meet number root candidates i found) first)

/-- Looks at a node again and tells whether its candidate changed. -/
def refine (number : Array Nat) (predecessors : Array (List Nat)) (root : Nat) :
    Candidates × Bool → Nat → Candidates × Bool
  | (candidates, changed), i =>
    match meetAll number root candidates (predecessors.getD i []) with
    | none => (candidates, changed)
    | some found =>
      if candidates.getD i none = some found then (candidates, changed)
      else (candidates.setIfInBounds i (some found), true)

/-- Looks at all nodes but the root, in order, and tells whether a candidate changed. -/
def pass (number : Array Nat) (predecessors : Array (List Nat)) (root : Nat) (others : List Nat)
    (candidates : Candidates) : Candidates × Bool :=
  others.foldl (refine number predecessors root) (candidates, false)

/-- Passes until nothing changes. -/
def passes (number : Array Nat) (predecessors : Array (List Nat)) (root : Nat) (others : List Nat) :
    Nat → Candidates → Candidates
  | 0, candidates => candidates
  | steps + 1, candidates =>
    match pass number predecessors root others candidates with
    | (candidates, true) => passes number predecessors root others steps candidates
    | (candidates, false) => candidates

/-- The numbers of the nodes in an order, from its length down to one. -/
def numbering (size : Nat) (order : List Nat) : Array Nat :=
  let count := order.length
  order.zipIdx.foldl (fun number (i, place) => number.setIfInBounds i (count - place))
    (Array.replicate size 0)

/-- The immediate dominators of all nodes. A candidate is set once and then only moves up, so
a pass for every pair of nodes, one to set them and one to find nothing to do suffice. -/
def immediateDominators (g : Graph) (root : Nat) (order : List Nat) : Array Nat :=
  let size := g.nodes.size
  let candidates := (Array.replicate size none).setIfInBounds root (some root)
  (passes (numbering size order) g.predecessorTable root (order.filter (· != root))
    (size * size + 2) candidates).map (·.getD root)

/-- The dominator tree from a root, which has to reach all nodes. -/
def ofRoot (g : Graph) (identifier : String) : Except GraphError DominatorTree := do
  let root ← g.indexOf identifier
  let order := g.reversePostorder root
  if order.length = g.nodes.size then
    return { graph := g, root, order, immediate := immediateDominators g root order }
  else
    let reached := order.foldl (fun marks i => marks.setIfInBounds i true)
      (Array.replicate g.nodes.size false)
    let unreachable := (List.range g.nodes.size).filter fun i => !reached.getD i false
    throw (.notSingleEntry identifier ((g.nodesAt unreachable).map (·.identifier)))

/-- The dominator tree from the first node that no edge leads to. -/
def ofGraph (g : Graph) : Except GraphError DominatorTree :=
  match g.root? with
  | some root => ofRoot g root.identifier
  | none => .error .noRoot

/-- The number of nodes. -/
def size (t : DominatorTree) : Nat := t.graph.nodes.size

/-- The root of the tree. -/
def rootNode? (t : DominatorTree) : Option Coordinates := t.graph.nodes[t.root]?

/-- The number of a node's immediate dominator, the root's own for the root. -/
def immediateOf (t : DominatorTree) (i : Nat) : Nat := t.immediate.getD i t.root

/-- The immediate dominator of a node; the root has none. -/
def immediateDominator (t : DominatorTree) (identifier : String) :
    Except GraphError (Option Coordinates) := do
  let i ← t.graph.indexOf identifier
  return if i = t.root then none else t.graph.nodes[t.immediateOf i]?

/-- Whether a node is met on the way up from another to the root. -/
def isAbove (t : DominatorTree) (dominator : Nat) : Nat → Nat → Bool
  | 0, i => i == dominator
  | steps + 1, i =>
    if i = dominator then true
    else if i = t.root then false
    else isAbove t dominator steps (t.immediateOf i)

/-- Whether a node dominates another; each dominates itself. The way up passes no node
twice. -/
def dominates (t : DominatorTree) (dominator node : String) : Except GraphError Bool := do
  let d ← t.graph.indexOf dominator
  let i ← t.graph.indexOf node
  return t.isAbove d t.size i

/-- The nodes that stand for their own dominators. -/
def selfDominating (t : DominatorTree) : List Coordinates :=
  t.graph.nodesAt (t.order.filter fun i => t.immediateOf i == i)

/-- The nodes that a node immediately dominates, in reverse postorder. -/
def dominatedBy (t : DominatorTree) (identifier : String) : Except GraphError (List Coordinates) := do
  let i ← t.graph.indexOf identifier
  return t.graph.nodesAt (t.order.filter fun j => j != i && t.immediateOf j == i)

/-- The nodes that each node immediately dominates, in reverse postorder. -/
def childTable (t : DominatorTree) : Array (List Nat) :=
  t.order.foldr (fun i table =>
    if t.immediateOf i = i then table else table.modify (t.immediateOf i) (i :: ·))
    (Array.replicate t.size [])

/-- The graph with an edge from the immediate dominator of each node to the node. -/
def toGraph (t : DominatorTree) : Graph :=
  .ofNodesAndEdges t.rootNode?.toList <| t.order.filterMap fun i => do
    if t.immediateOf i = i then none
    else return (← t.graph.nodes[t.immediateOf i]?, ← t.graph.nodes[i]?)

end DominatorTree

end ClasspathAdvice
