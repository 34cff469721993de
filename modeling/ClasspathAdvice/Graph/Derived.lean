import ClasspathAdvice.Graph.Basic

/-!
# Graphs made from graphs

Each is built anew, node by node and edge by edge, so both stay in their order.
-/

namespace ClasspathAdvice.Graph
set_option autoImplicit false

/-- The graph with some of the nodes and with edges made of some of the edges. -/
def rebuild (g : Graph) (keep : Coordinates → Bool) (edge : Edge → Option (Coordinates × Coordinates)) :
    Graph :=
  ofNodesAndEdges (g.nodes.toList.filter keep) (g.edgeList.filterMap edge)

/-- The graph with every edge turned around. -/
def reversed (g : Graph) : Graph := g.rebuild (fun _ => true) fun e => some (e.target, e.source)

/-- The nodes with the given identifiers and the edges between them. -/
def subgraph (g : Graph) (identifiers : List String) : Graph :=
  g.rebuild (fun c => identifiers.contains c.identifier) fun e =>
    if identifiers.contains e.source.identifier && identifiers.contains e.target.identifier then
      some (e.source, e.target)
    else none

/-- The graph without the edges between the given pairs of identifiers. -/
def withoutEdges (g : Graph) (removed : List (String × String)) : Graph :=
  g.rebuild (fun _ => true) fun e =>
    if removed.contains (e.source.identifier, e.target.identifier) then none
    else some (e.source, e.target)

end ClasspathAdvice.Graph
