import ClasspathAdvice.Footprint
import ClasspathAdvice.Footprint.Unit

/-!
# Drawing footprints

A footprint is drawn as a tree, one line for each node. A node that dominates others
shows the size of its tree and, in parentheses, its own; any other its own only.
`draw` keeps the nodes still to be drawn in a list with what stands before them.
-/

namespace ClasspathAdvice.Footprint
set_option autoImplicit false

/-- What joins a node to its parent: the last child, and any other. -/
def lastBranch : String := "\\--- "
@[inherit_doc lastBranch]
def branch : String := "+--- "

/-- What stands below a branch: below the last child, and any other. -/
def lastIndent : String := "     "
@[inherit_doc lastIndent]
def indent : String := "|    "

/-- The sizes and the name of a node. -/
def label (unit : SizeUnit) (f : Footprint) : String :=
  let own := match f.size with
    | some size => if f.isLeaf then unit.format size ++ " " else "(" ++ unit.format size ++ ") "
    | none => ""
  (if f.isLeaf then "" else unit.format f.treeSize ++ " ") ++ own ++ f.node.gav

/-- A footprint that is still to be drawn. -/
structure Pending where
  footprint : Footprint
  /-- What stands before the branch. -/
  margin : String
  isLast : Bool

/-- The children of a node, to be drawn behind a margin. -/
def pendingChildren (margin : String) : List Footprint → List Pending
  | [] => []
  | [f] => [⟨f, margin, true⟩]
  | f :: rest => ⟨f, margin, false⟩ :: pendingChildren margin rest

theorem map_pendingChildren (margin : String) (l : List Footprint) :
    (pendingChildren margin l).map Pending.footprint = l := by
  induction l with
  | nil => rfl
  | cons f rest ih =>
    cases rest with
    | nil => rfl
    | cons g rest => simpa [pendingChildren] using ih

/-- The margin below a node. -/
def Pending.inner (p : Pending) : String := p.margin ++ (if p.isLast then lastIndent else indent)

/-- The line of a node. -/
def Pending.line (unit : SizeUnit) (p : Pending) : String :=
  p.margin ++ (if p.isLast then lastBranch else branch) ++ label unit p.footprint ++ "\n"

/-- Draws what is pending behind what is drawn. -/
def drawPending (unit : SizeUnit) (pending : List Pending) (drawn : String) : String :=
  match pending with
  | [] => drawn
  | p :: rest =>
    drawPending unit (pendingChildren p.inner p.footprint.children ++ rest) (drawn ++ p.line unit)
termination_by sizeOf (pending.map Pending.footprint)
decreasing_by
  rw [List.map_append, map_pendingChildren, List.map_cons]
  exact sizeOf_children_append _ _

/-- A footprint drawn as a tree, in a given unit or the one that suits its total. -/
def draw (unit : Option SizeUnit) (f : Footprint) : String :=
  let unit := unit.getD (.ofTotal f.treeSize)
  drawPending unit (pendingChildren "" f.children) (label unit f ++ "\n")

end ClasspathAdvice.Footprint
