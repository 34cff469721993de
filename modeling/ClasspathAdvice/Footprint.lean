import ClasspathAdvice.Graph.Dominator

/-!
# Footprints

What a dependency costs is its own size and that of all it dominates: what only it
brings along. A footprint is the dominator tree with these sums, siblings in an order of
the caller's choice. Sizes are words of 64 bits and so are their sums, which start over
where a word ends (`addSizes`).
-/

namespace ClasspathAdvice
set_option autoImplicit false

/-- A node with its size, if that is known, and the sum of the sizes in its tree, as a word. -/
structure Footprint where
  node : Coordinates
  size : Option Nat
  treeSize : Nat
  children : List Footprint

namespace Footprint

/-- The sum of two sizes, which starts over at the end of a word. -/
def addSizes (a b : Nat) : Nat := (a + b) % UInt64.size

/-- The footprint of a node from those of the nodes it immediately dominates. -/
def combine (sizeOf : Coordinates → Option Nat) (comparator : Footprint → Footprint → Ordering)
    (node : Coordinates) (children : List Footprint) : Footprint :=
  let children := children.mergeSort (fun a b => (comparator a b).isLE)
  let size := sizeOf node
  { node, size, treeSize := addSizes (size.getD 0) ((children.map treeSize).foldl addSizes 0),
    children }

/-- The pending nodes and all below them, each before what is below it. What was found last is
visited first. Each step visits a node. -/
def visit (children : Array (List Nat)) : Nat → List Nat → List Nat
  | 0, _ => []
  | _, [] => []
  | steps + 1, i :: pending => i :: visit children steps ((children.getD i []).reverse ++ pending)

/-- Takes the footprints of some nodes out of a table, as far as they are there. -/
def take (built : Array (Option Footprint)) : List Nat → List Footprint × Array (Option Footprint)
  | [] => ([], built)
  | i :: rest =>
    let (taken, left) := take (built.setIfInBounds i none) rest
    ((built.getD i none).toList ++ taken, left)

/-- Builds the footprint of a node from those of its children, which leave the table for it. -/
def assemble (sizeOf : Coordinates → Option Nat) (comparator : Footprint → Footprint → Ordering)
    (nodes : Array Coordinates) (children : Array (List Nat)) (i : Nat)
    (built : Array (Option Footprint)) : Array (Option Footprint) :=
  match nodes[i]? with
  | some node =>
    let (taken, left) := take built (children.getD i [])
    left.setIfInBounds i (some (combine sizeOf comparator node taken))
  | none => built

/-- The footprint of the whole tree. From the last node visited to the first, each comes after
all below it; the root comes last. -/
def ofDominatorTree (t : DominatorTree) (sizeOf : Coordinates → Option Nat)
    (comparator : Footprint → Footprint → Ordering) : Footprint :=
  let children := t.childTable
  let below := (visit children t.size [t.root]).tail
  let built := below.foldr (assemble sizeOf comparator t.graph.nodes children)
    (Array.replicate t.size none)
  combine sizeOf comparator (t.rootNode?.getD default) (take built (children.getD t.root [])).1

/-- The larger footprint first, then by coordinates. -/
def bySizeDescending (a b : Footprint) : Ordering :=
  (compare b.treeSize a.treeSize).then (compare a.node b.node)

/-- Whether nothing else is dominated. -/
def isLeaf (f : Footprint) : Bool := f.children.isEmpty

theorem sizeOf_append {α : Type} [SizeOf α] (l m : List α) :
    sizeOf (l ++ m) + 1 = sizeOf l + sizeOf m := by
  induction l with
  | nil => simp; omega
  | cons a l ih =>
    simp only [List.cons_append, List.cons.sizeOf_spec]
    omega

theorem sizeOf_children_append (f : Footprint) (pending : List Footprint) :
    sizeOf (f.children ++ pending) < sizeOf (f :: pending) := by
  have := sizeOf_append f.children pending
  cases f
  simp only [List.cons.sizeOf_spec, mk.sizeOf_spec] at this ⊢
  omega

/-- The pending footprints and all below them, each before what is below it, behind what is
listed in reverse. -/
def preorderOf (pending : List Footprint) (listed : List Footprint) : List Footprint :=
  match pending with
  | [] => listed.reverse
  | f :: pending => preorderOf (f.children ++ pending) (f :: listed)
termination_by sizeOf pending
decreasing_by exact sizeOf_children_append f pending

/-- The footprint and all below it, each before what is below it. -/
def preorder (f : Footprint) : List Footprint := preorderOf [f] []

/-- The number of nodes. -/
def nodeCount (f : Footprint) : Nat := f.preorder.length

/-- The first footprint, from the top, of the node with an identifier. -/
def find? (f : Footprint) (identifier : String) : Option Footprint :=
  f.preorder.find? (·.node.identifier == identifier)

end Footprint

end ClasspathAdvice
