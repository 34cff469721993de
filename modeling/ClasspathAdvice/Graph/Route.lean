import ClasspathAdvice.Graph.Search

/-!
# Routes from a source

The edges are taken in reverse postorder of their sources, and an edge that makes its
target strictly nearer is remembered. On a graph without cycles the remembered edges
make shortest routes, and of several nearest predecessors the first in the order stays.
-/

namespace ClasspathAdvice
set_option autoImplicit false

/-- Distances from a source and the edges they come from, by node number. -/
structure Routes where
  graph : Graph
  source : Nat
  distances : Array (Option Nat)
  previous : Array (Option Nat)

namespace Routes

/-- Whether a distance is longer than `n`, as no distance is. -/
def isLonger (distance : Option Nat) (n : Nat) : Bool :=
  match distance with
  | some d => n < d
  | none => true

/-- The distances and the predecessors they come from. -/
abbrev Table := Array (Option Nat) × Array (Option Nat)

/-- Takes the edge between two nodes if it makes the target nearer. -/
def relax (i base : Nat) : Table → Nat → Table
  | (distances, previous), j =>
    if isLonger (distances.getD j none) (base + 1) then
      (distances.setIfInBounds j (some (base + 1)), previous.setIfInBounds j (some i))
    else (distances, previous)

/-- Takes the edges that leave a node, if the node has a distance. -/
def relaxFrom (successors : Array (List Nat)) (t : Table) (i : Nat) : Table :=
  match t.1.getD i none with
  | some base => (successors.getD i []).foldl (relax i base) t
  | none => t

/-- The routes from a node. -/
def ofSource (g : Graph) (source : Nat) : Routes :=
  let none' := Array.replicate g.nodes.size none
  let t := (g.reversePostorder source).foldl (relaxFrom g.successorTable)
    (none'.setIfInBounds source (some 0), none')
  { graph := g, source, distances := t.1, previous := t.2 }

/-- The routes from the node with an identifier. -/
def ofIdentifier (g : Graph) (identifier : String) : Except GraphError Routes := do
  return ofSource g (← g.indexOf identifier)

/-- The number of edges on the route to a node, if there is one. -/
def distanceTo (r : Routes) (identifier : String) : Except GraphError (Option Nat) := do
  return r.distances.getD (← r.graph.indexOf identifier) none

/-- Whether there is a route to the node with an identifier. -/
def hasRouteTo (r : Routes) (identifier : String) : Bool :=
  match r.distanceTo identifier with
  | .ok (some _) => true
  | _ => false

/-- The nodes from the source to a node, before those that are known to follow. A route
repeats no node, so as many steps as there are nodes will do. -/
def walkBack (previous : Array (Option Nat)) : Nat → Nat → List Nat → List Nat
  | 0, i, following => i :: following
  | steps + 1, i, following =>
    match previous.getD i none with
    | some j => walkBack previous steps j (i :: following)
    | none => i :: following

/-- The numbers of the nodes on the route to a node; there are none if it is not reached. -/
def numbersTo (r : Routes) (target : Nat) : List Nat :=
  match r.distances.getD target none with
  | some _ => walkBack r.previous r.graph.nodes.size target []
  | none => []

/-- The nodes on the route to a node, both ends included. -/
def pathTo (r : Routes) (identifier : String) : Except GraphError (List Coordinates) := do
  return r.graph.nodesAt (r.numbersTo (← r.graph.indexOf identifier))

/-- The edges on the route to a node. -/
def edgesTo (r : Routes) (identifier : String) : Except GraphError (List Edge) := do
  let numbers := r.numbersTo (← r.graph.indexOf identifier)
  return (numbers.zip numbers.tail).filterMap r.graph.edgeBetween

end Routes

/-- The nodes on the route between two nodes, none if there is no route. -/
def Graph.route (g : Graph) (source target : String) : Except GraphError (List Coordinates) := do
  (← Routes.ofIdentifier g source).pathTo target

end ClasspathAdvice
