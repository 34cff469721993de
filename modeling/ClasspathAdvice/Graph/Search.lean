import ClasspathAdvice.Graph.Basic

/-!
# Searching a graph

Two searches over the successors of nodes: `sweep` marks what can be reached, and
`depthFirst` lists the reached nodes so that each comes before the nodes finished
ahead of it (reverse postorder). Both end because a step marks a node or leaves less
to do.
-/

namespace ClasspathAdvice
set_option autoImplicit false

namespace Graph

/-- How many nodes are not marked. -/
def unmarked (marks : Array Bool) : Nat := marks.countP (!·)

/-- The marks with one more. -/
def mark (marks : Array Bool) (i : Nat) (h : i < marks.size) : Array Bool := marks.set i true

theorem unmarked_mark {marks : Array Bool} {i : Nat} (h : i < marks.size) (hm : marks[i] = false) :
    unmarked (mark marks i h) < unmarked marks := by
  have pos : 0 < unmarked marks := by
    rw [unmarked, Array.countP_pos_iff]
    exact ⟨marks[i], Array.getElem_mem h, by simp [hm]⟩
  simp only [unmarked] at pos
  simp only [unmarked, mark, Array.countP_set, hm, Bool.not_false, Bool.not_true, if_true,
    Bool.false_eq_true, if_false]
  omega

/-- Marks all nodes that can be reached from the pending ones past unmarked nodes. -/
def sweep (table : Array (List Nat)) (pending : List Nat) (marks : Array Bool) : Array Bool :=
  match pending with
  | [] => marks
  | i :: pending =>
    if h : i < marks.size then
      if hm : marks[i] then sweep table pending marks
      else sweep table (table.getD i [] ++ pending) (mark marks i h)
    else sweep table pending marks
termination_by (unmarked marks, pending.length)
decreasing_by
  · apply Prod.Lex.right; simp
  · apply Prod.Lex.left
    exact unmarked_mark h (by simpa using hm)
  · apply Prod.Lex.right; simp

/-- What is left to do for the nodes on the way: themselves and successors not looked at. -/
def workLeft (trail : List (Nat × List Nat)) : Nat :=
  trail.foldr (fun node left => node.2.length + 1 + left) 0

/-- Follows the trail of nodes and their successors still to visit; a node whose successors
are done goes to the front of the order. -/
def depthFirst (table : Array (List Nat)) (trail : List (Nat × List Nat)) (marks : Array Bool)
    (order : List Nat) : List Nat :=
  match trail with
  | [] => order
  | (i, []) :: trail => depthFirst table trail marks (i :: order)
  | (i, j :: rest) :: trail =>
    if h : j < marks.size then
      if hm : marks[j] then depthFirst table ((i, rest) :: trail) marks order
      else
        depthFirst table ((j, table.getD j []) :: (i, rest) :: trail) (mark marks j h) order
    else depthFirst table ((i, rest) :: trail) marks order
termination_by (unmarked marks, workLeft trail)
decreasing_by
  · apply Prod.Lex.right; simp [workLeft]
  · apply Prod.Lex.right; simp [workLeft]
  · apply Prod.Lex.left
    exact unmarked_mark h (by simpa using hm)
  · apply Prod.Lex.right; simp [workLeft]

/-- The nodes reachable from a node, in reverse postorder of a depth-first search that takes
successors in edge order. -/
def reversePostorder (g : Graph) (start : Nat) : List Nat :=
  let table := g.successorTable
  let marks := (Array.replicate g.nodes.size false).setIfInBounds start true
  depthFirst table [(start, table.getD start [])] marks []

/-- Which nodes are reachable from a node. -/
def reachableMarks (g : Graph) (start : Nat) : Array Bool :=
  sweep g.successorTable [start] (Array.replicate g.nodes.size false)

/-- The reachable nodes in the order of their identifiers, with or without the start. -/
def reachableFrom (g : Graph) (start : Nat) (excludeSelf : Bool) : List Coordinates :=
  let marks := g.reachableMarks start
  let numbers := (List.range g.nodes.size).filter fun i =>
    marks.getD i false && !(excludeSelf && i == start)
  (g.nodesAt numbers).mergeSort (fun a b => decide (a.identifier ≤ b.identifier))

/-- The nodes reachable from the node with an identifier, in the order of identifiers. -/
def reachable (g : Graph) (identifier : String) (excludeSelf : Bool) :
    Except GraphError (List Coordinates) := do
  return g.reachableFrom (← g.indexOf identifier) excludeSelf

/-- The nodes reachable from the first node that satisfies a condition; none if no node
does. -/
def reachableMatching (g : Graph) (condition : Coordinates → Bool) (excludeSelf : Bool) :
    List Coordinates :=
  match g.nodes.findIdx? condition with
  | some start => g.reachableFrom start excludeSelf
  | none => []

/-- The nodes reachable from the node with an identifier, in reverse postorder: on a graph
without cycles, a topological order. -/
def topological (g : Graph) (identifier : String) : Except GraphError (List Coordinates) := do
  return g.nodesAt (g.reversePostorder (← g.indexOf identifier))

end Graph

end ClasspathAdvice
