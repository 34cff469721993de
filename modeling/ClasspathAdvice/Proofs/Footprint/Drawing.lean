import ClasspathAdvice.Footprint.Drawing
import ClasspathAdvice.Proofs.Footprint.Attribution
import ClasspathAdvice.Text.Split

/-!
# A drawing follows the tree

A footprint is drawn from a list of what is still to be drawn. The list always holds siblings
behind their margin and then what it held before them, so the drawing is that of the recursion
which draws each sibling with all below it before the next (`drawPending_siblings`). It has a line
for each node, from the top, and what stands before the names tells the shape of the tree: its
lengths alone are the depths of the nodes, and no other tree has the same (`draw_outlines`).
-/

namespace ClasspathAdvice.Footprint
set_option autoImplicit false

open Text

theorem sizeOf_children_lt (f : Footprint) (rest : List Footprint) :
    sizeOf f.children < sizeOf (f :: rest) := by
  cases f
  simp only [List.cons.sizeOf_spec, mk.sizeOf_spec]
  omega

theorem sizeOf_rest_lt (f : Footprint) (rest : List Footprint) :
    sizeOf rest < sizeOf (f :: rest) := by
  simp only [List.cons.sizeOf_spec]
  omega

/-- What stands before the name of a node behind a margin, the last of its siblings or not. -/
def stem (margin : String) (isLast : Bool) : String :=
  margin ++ if isLast then lastBranch else branch

/-- The margin of what is below a node behind a margin. -/
def inset (margin : String) (isLast : Bool) : String :=
  margin ++ if isLast then lastIndent else indent

/-- Siblings behind a margin, each drawn with all below it before the next. -/
def outlineSiblings (unit : SizeUnit) (margin : String) : List Footprint → String
  | [] => ""
  | f :: rest =>
    stem margin rest.isEmpty ++ label unit f ++ "\n" ++
      outlineSiblings unit (inset margin rest.isEmpty) f.children ++
      outlineSiblings unit margin rest
termination_by l => sizeOf l
decreasing_by
  · exact sizeOf_children_lt f rest
  · exact sizeOf_rest_lt f rest

/-- A node, and below it its children, each with what stands before it. -/
def outline (unit : SizeUnit) (f : Footprint) : String :=
  label unit f ++ "\n" ++ outlineSiblings unit "" f.children

/-- What stands before the names of siblings behind a margin and of all below them. -/
def stemsOfSiblings (margin : String) : List Footprint → List String
  | [] => []
  | f :: rest =>
    stem margin rest.isEmpty :: stemsOfSiblings (inset margin rest.isEmpty) f.children ++
      stemsOfSiblings margin rest
termination_by l => sizeOf l
decreasing_by
  · exact sizeOf_children_lt f rest
  · exact sizeOf_rest_lt f rest

/-- What stands before the names of a node and of all below it. -/
def stems (f : Footprint) : List String := "" :: stemsOfSiblings "" f.children

/-- How a tree branches. -/
inductive Shape where
  | node (below : List Shape)

/-- How siblings branch. -/
def shapes : List Footprint → List Shape
  | [] => []
  | f :: rest => .node (shapes f.children) :: shapes rest
termination_by l => sizeOf l
decreasing_by
  · exact sizeOf_children_lt f rest
  · exact sizeOf_rest_lt f rest

/-- How a footprint branches. -/
def shape (f : Footprint) : Shape := .node (shapes f.children)

variable {unit : SizeUnit} {margin : String} {f : Footprint} {l siblings others : List Footprint}

/-! ## The list of what is still to be drawn -/

theorem pendingChildren_cons (margin : String) (f : Footprint) (rest : List Footprint) :
    pendingChildren margin (f :: rest) =
      ⟨f, margin, rest.isEmpty⟩ :: pendingChildren margin rest := by
  cases rest <;> rfl

/-- Siblings at the head of the list are drawn with all below them before what follows them. -/
theorem drawPending_siblings (l : List Footprint) (pending : List Pending) (drawn : String) :
    drawPending unit (pendingChildren margin l ++ pending) drawn =
      drawPending unit pending (drawn ++ outlineSiblings unit margin l) := by
  fun_induction outlineSiblings unit margin l generalizing pending drawn with
  | case1 margin => rw [pendingChildren, List.nil_append, String.append_empty]
  | case2 margin f rest below next =>
    have line : (Pending.mk f margin rest.isEmpty).line unit =
        stem margin rest.isEmpty ++ label unit f ++ "\n" := rfl
    have inner : (Pending.mk f margin rest.isEmpty).inner = inset margin rest.isEmpty := rfl
    rw [pendingChildren_cons, List.cons_append, drawPending, line, inner, below, next]
    simp only [String.append_assoc]

theorem draw_eq (unit : Option SizeUnit) (f : Footprint) :
    draw unit f = outline (unit.getD (.ofTotal f.treeSize)) f := by
  rw [draw, ← List.append_nil (pendingChildren "" f.children), drawPending_siblings, drawPending,
    outline]

/-! ## A line for each node -/

theorem preorder_siblings (f : Footprint) (rest : List Footprint) :
    (f :: rest).flatMap preorder = f :: (f.children.flatMap preorder ++ rest.flatMap preorder) := by
  rw [List.flatMap_cons, preorder_eq, List.cons_append]

theorem length_stemsOfSiblings (margin : String) (l : List Footprint) :
    (stemsOfSiblings margin l).length = (l.flatMap preorder).length := by
  fun_induction stemsOfSiblings margin l with
  | case1 margin => rfl
  | case2 margin f rest below next =>
    rw [preorder_siblings, List.cons_append, List.length_cons, List.length_append, below, next,
      List.length_cons, List.length_append]

/-- The line of a node behind what stands before it. -/
def row (unit : SizeUnit) (stem : String) (f : Footprint) : String := stem ++ label unit f

theorem outlineSiblings_eq (unit : SizeUnit) (margin : String) (l : List Footprint) :
    outlineSiblings unit margin l =
      String.join (((stemsOfSiblings margin l).zipWith (row unit) (l.flatMap preorder)).map
        (· ++ "\n")) := by
  fun_induction outlineSiblings unit margin l with
  | case1 margin => rw [stemsOfSiblings]; rfl
  | case2 margin f rest below next =>
    rw [stemsOfSiblings, preorder_siblings, List.cons_append, List.zipWith_cons_cons,
      List.zipWith_append (length_stemsOfSiblings _ _), List.map_cons, List.map_append,
      String.join_cons, String.join_append, ← below, ← next, row]
    simp only [String.append_assoc]

theorem outline_eq (unit : SizeUnit) (f : Footprint) :
    outline unit f = String.join ((f.stems.zipWith (row unit) f.preorder).map (· ++ "\n")) := by
  rw [stems, preorder_eq, List.zipWith_cons_cons, List.map_cons, String.join_cons,
    ← outlineSiblings_eq, row, String.empty_append, outline]

/-! ## Lines hold no line break -/

theorem not_mem_append {s t : String} (first : '\n' ∉ s.toList) (second : '\n' ∉ t.toList) :
    '\n' ∉ (s ++ t).toList := by
  rw [String.toList_append, List.mem_append]
  exact not_or_intro first second

theorem not_mem_stemsOfSiblings {s : String} (clean : '\n' ∉ margin.toList)
    (mem : s ∈ stemsOfSiblings margin l) : '\n' ∉ s.toList := by
  fun_induction stemsOfSiblings margin l with
  | case1 margin => exact absurd mem List.not_mem_nil
  | case2 margin f rest below next =>
    rw [List.cons_append, List.mem_cons, List.mem_append] at mem
    rcases mem with rfl | deeper | later
    · exact not_mem_append clean (by cases rest.isEmpty <;> decide)
    · exact below (not_mem_append clean (by cases rest.isEmpty <;> decide)) deeper
    · exact next clean later

theorem not_mem_stems {s : String} (mem : s ∈ f.stems) : '\n' ∉ s.toList := by
  rcases List.mem_cons.1 mem with rfl | below
  · decide
  · exact not_mem_stemsOfSiblings (by decide) below

/-- A size holds no line break. -/
theorem not_mem_format (unit : SizeUnit) (size : Nat) : '\n' ∉ (unit.format size).toList := by
  have places : ∀ n, '\n' ∉ (Number.twoPlaces n).toList := by
    intro n
    rw [Number.twoPlaces]
    exact not_mem_append (not_mem_append (not_mem_append (not_mem_toString rfl _) (by decide))
      (not_mem_toString rfl _)) (not_mem_toString rfl _)
  rw [SizeUnit.format]
  exact not_mem_append (not_mem_append (places _) (by decide)) (by cases unit <;> decide)

theorem not_mem_label (clean : '\n' ∉ f.node.gav.toList) : '\n' ∉ (label unit f).toList := by
  have size : ∀ n, '\n' ∉ (unit.format n ++ " ").toList := by
    intro n
    exact not_mem_append (not_mem_format unit n) (by decide)
  have framed : ∀ n, '\n' ∉ ("(" ++ unit.format n ++ ") ").toList := by
    intro n
    exact not_mem_append (not_mem_append (by decide) (not_mem_format unit n)) (by decide)
  rw [label]
  refine not_mem_append (not_mem_append ?_ ?_) clean
  · split
    · decide
    · exact size _
  · split
    · split
      · exact size _
      · exact framed _
    · decide

/-- Lines that hold no line break are what a text of them is cut into at its line breaks. -/
theorem splitAt_join {lines : List String} (clean : ∀ s ∈ lines, '\n' ∉ s.toList) :
    splitAt '\n' (String.join (lines.map (· ++ "\n"))).toList = lines.map String.toList ++ [[]] := by
  induction lines with
  | nil => rfl
  | cons s lines ih =>
    have first := clean s List.mem_cons_self
    have rest := ih fun t mem => clean t (List.mem_cons_of_mem _ mem)
    have lineBreak : "\n".toList = ['\n'] := rfl
    rw [List.map_cons, String.join_cons, String.toList_append, String.toList_append, lineBreak,
      List.append_assoc, List.singleton_append, splitAt_append_cons first, rest]
    rfl

/-! ## What stands before the names tells the shape -/

theorem length_stem (margin : String) (isLast : Bool) :
    (stem margin isLast).length = margin.length + 5 := by
  rw [stem, String.length_append]
  cases isLast <;> rfl

theorem length_inset (margin : String) (isLast : Bool) :
    (inset margin isLast).length = margin.length + 5 := by
  rw [inset, String.length_append]
  cases isLast <;> rfl

/-- How far in the names of siblings and of all below them stand. -/
def depths (margin : String) (l : List Footprint) : List Nat :=
  (stemsOfSiblings margin l).map String.length

theorem depths_nil (margin : String) : depths margin [] = [] := by
  rw [depths, stemsOfSiblings, List.map_nil]

theorem depths_cons (margin : String) (f : Footprint) (rest : List Footprint) :
    depths margin (f :: rest) = (margin.length + 5) ::
      (depths (inset margin rest.isEmpty) f.children ++ depths margin rest) := by
  rw [depths, stemsOfSiblings, List.cons_append, List.map_cons, List.map_append, length_stem]
  rfl

/-- What comes behind siblings is less far in, unless there are more of them. -/
theorem head?_depths_le {rest : List Nat} (above : ∀ n ∈ rest.head?, n ≤ margin.length) :
    ∀ n ∈ (depths margin l ++ rest).head?, n ≤ margin.length + 5 := by
  intro n head
  cases l with
  | nil =>
    rw [depths_nil, List.nil_append] at head
    exact Nat.le_add_right_of_le (above n head)
  | cons f l =>
    rw [depths_cons, List.cons_append, List.head?_cons, Option.mem_some_iff] at head
    exact Nat.le_of_eq head.symm

/-- How far in the names stand tells where what is below a node ends, and so how siblings
branch: all below it is further in than the node, and what comes behind is not. -/
theorem shapes_eq_of_depths {margin' : String} {rest rest' : List Nat}
    (same : margin.length = margin'.length)
    (eq : depths margin siblings ++ rest = depths margin' others ++ rest')
    (above : ∀ n ∈ rest.head?, n ≤ margin.length) (above' : ∀ n ∈ rest'.head?, n ≤ margin.length) :
    shapes siblings = shapes others ∧ rest = rest' := by
  fun_induction shapes siblings generalizing margin margin' others rest rest' with
  | case1 =>
    rw [depths_nil, List.nil_append] at eq
    cases others with
    | nil =>
      rw [depths_nil, List.nil_append] at eq
      rw [shapes]
      exact ⟨rfl, eq⟩
    | cons g others =>
      rw [depths_cons, List.cons_append] at eq
      have := above (margin'.length + 5) (by rw [eq]; rfl)
      omega
  | case2 f siblings below next =>
    rw [depths_cons, List.cons_append, List.append_assoc] at eq
    cases others with
    | nil =>
      rw [depths_nil, List.nil_append] at eq
      have := above' (margin.length + 5) (by rw [← eq]; rfl)
      omega
    | cons g others =>
      rw [depths_cons, List.cons_append, List.append_assoc] at eq
      have inner : (inset margin siblings.isEmpty).length = (inset margin' others.isEmpty).length := by
        rw [length_inset, length_inset, same]
      obtain ⟨children, behind⟩ := below inner (List.cons.inj eq).2
        (by rw [length_inset]; exact head?_depths_le above)
        (by rw [length_inset, same]; exact head?_depths_le (by rwa [← same]))
      obtain ⟨later, left⟩ := next same behind above above'
      rw [shapes, children, later]
      exact ⟨rfl, left⟩

theorem isEmpty_shapes (l : List Footprint) : (shapes l).isEmpty = l.isEmpty := by
  cases l <;> rw [shapes] <;> rfl

/-- What stands before the names depends on the shape only. -/
theorem stemsOfSiblings_of_shapes (same : shapes siblings = shapes others) (margin : String) :
    stemsOfSiblings margin siblings = stemsOfSiblings margin others := by
  have empty : siblings.isEmpty = others.isEmpty := by
    rw [← isEmpty_shapes, ← isEmpty_shapes, same]
  fun_induction stemsOfSiblings margin siblings generalizing others with
  | case1 margin =>
    rw [List.isEmpty_iff.1 empty.symm, stemsOfSiblings]
  | case2 margin f siblings below next =>
    cases others with
    | nil => cases empty
    | cons g others =>
      rw [shapes, shapes] at same
      obtain ⟨node, later⟩ := List.cons.inj same
      have children := Shape.node.inj node
      have last : siblings.isEmpty = others.isEmpty := by
        rw [← isEmpty_shapes, ← isEmpty_shapes, later]
      have inner : f.children.isEmpty = g.children.isEmpty := by
        rw [← isEmpty_shapes, ← isEmpty_shapes, children]
      rw [stemsOfSiblings, below children inner, next later last, last]

theorem stems_eq_iff (f g : Footprint) : f.stems = g.stems ↔ f.shape = g.shape := by
  rw [stems, stems, shape, shape, List.cons.injEq, Shape.node.injEq]
  constructor
  · intro same
    have eq : depths "" f.children ++ [] = depths "" g.children ++ [] := by
      rw [depths, depths, same.2]
    exact (shapes_eq_of_depths rfl eq (by simp) (by simp)).1
  · intro same
    exact ⟨rfl, stemsOfSiblings_of_shapes same ""⟩

/-- The drawing of a footprint is that of the recursion: a node, and below it its children in
order, the last behind another branch than the others, and what is below a child behind a margin
that goes on from the child's. It has one line for each node, from the top, unless a name holds a
line break, and what stands before the names is the same exactly for trees of the same shape. -/
theorem draw_outlines (given : Option SizeUnit) (f : Footprint) :
    ∃ unit, unit = given.getD (.ofTotal f.treeSize) ∧ draw given f = outline unit f ∧
      f.stems.length = f.nodeCount ∧
      ((∀ part ∈ f.preorder, '\n' ∉ part.node.gav.toList) →
        splitAt '\n' (draw given f).toList =
          (f.stems.zipWith (row unit) f.preorder).map String.toList ++ [[]]) ∧
      ∀ g : Footprint, f.stems = g.stems ↔ f.shape = g.shape := by
  refine ⟨_, rfl, draw_eq given f, ?_, fun clean => ?_, f.stems_eq_iff⟩
  · rw [stems, nodeCount, preorder_eq, List.length_cons, length_stemsOfSiblings, List.length_cons]
  · rw [draw_eq, outline_eq]
    apply splitAt_join
    intro line mem
    obtain ⟨i, hi, rfl⟩ := List.mem_iff_getElem.1 mem
    rw [List.getElem_zipWith, row]
    exact not_mem_append (not_mem_stems (List.getElem_mem _))
      (not_mem_label (clean _ (List.getElem_mem _)))

/-- A node on its own, of a size that is not known. -/
def bare (name : String) (children : List Footprint) : Footprint :=
  { node := .flat name, size := none, treeSize := 0, children }

/-- A node is below the first of two siblings and another below the last. -/
def nested : Footprint :=
  bare "app" [bare "lib" [bare "util" []], bare "json" [bare "text" []]]

theorem draw_outlines_nested :
    (∀ part ∈ nested.preorder, '\n' ∉ part.node.gav.toList) ∧
      splitAt '\n' (draw (some .byte) nested).toList =
        ["0.00 B app", "+--- 0.00 B lib", "|    \\--- util", "\\--- 0.00 B json", "     \\--- text",
          ""].map String.toList := by
  have listed : nested.preorder = [nested, bare "lib" [bare "util" []], bare "util" [],
      bare "json" [bare "text" []], bare "text" []] := by
    simp [nested, bare, preorder_eq]
  have ahead : nested.stems = ["", "+--- ", "|    \\--- ", "\\--- ", "     \\--- "] := by
    simp [nested, bare, stems, stemsOfSiblings, stem, inset, branch, lastBranch, indent, lastIndent]
  have clean : ∀ part ∈ nested.preorder, '\n' ∉ part.node.gav.toList := by
    rw [listed]
    decide
  obtain ⟨unit, rfl, -, -, lines, -⟩ := draw_outlines (some .byte) nested
  refine ⟨clean, ?_⟩
  rw [lines clean, listed, ahead]
  decide

end ClasspathAdvice.Footprint
