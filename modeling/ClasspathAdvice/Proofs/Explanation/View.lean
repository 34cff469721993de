import ClasspathAdvice.Explanation
import ClasspathAdvice.Proofs.Graph.Route.Extraction

/-!
# What an explanation tells of a view

In a view that holds the project, a route to the dependency is asked for if a node is the
dependency that is meant. No other node has its identifier, so either this node is reached and the
view is told by the hops of a route to it, or the view is told to have no path
(`exists_viewLines`). Cycles of the view and parts that nothing joins make no difference.
-/

namespace ClasspathAdvice.Question
set_option autoImplicit false

open Text

/-- No node of a view both is the dependency that is meant and is reached from the project. -/
def IsCutOff (q : Question) (g : Graph) : Prop :=
  ∀ i j c, g.indexOf? q.project.identifier = some i → g.nodes[j]? = some c →
    q.isTarget c = true → ¬ g.Reaches i j

/-- What is told of a view without a path. -/
def noPathBlock (q : Question) (view : String) : List StyledText :=
  [[], [Style.bold.span ("There is no path from " ++ q.projectName ++ " to " ++
    q.display q.target ++ " for " ++ view)]]

/-- What is told of a view with a path: a heading, the project, and a line for each hop, each
further in by six blanks than the one before. -/
def pathBlock (q : Question) (view : String) (hops : List Coordinates) : List StyledText :=
  [[], [Style.bold.span ("Shortest path from " ++ q.projectName ++ " to " ++
    q.display q.requested ++ " for " ++ view ++ ":")], [plain q.project.gav]] ++
  hops.mapIdx fun k c =>
    [plain (String.ofList (List.replicate (6 * k) ' ') ++ "\\--- " ++ c.gav ++ capabilitySuffix c)]

/-- A block of lines that tells of a view, which holds the project, whether there is a path to the
dependency, and shows a route if there is one. -/
structure Tells (q : Question) (view : String) (g : Graph) (block : List StyledText) : Prop where
  rooted : g.contains q.project.identifier = true
  noPath_iff : block = q.noPathBlock view ↔ q.IsCutOff g
  path : ¬ q.IsCutOff g → ∃ i j c first hops edges,
    g.indexOf? q.project.identifier = some i ∧ g.nodes[j]? = some c ∧ q.isTarget c = true ∧
      Routes.IsRoute g i j (first :: hops) edges ∧ block = q.pathBlock view hops

variable {q : Question} {g : Graph} {view : String} {i j : Nat} {c first : Coordinates}
  {hops : List Coordinates} {edges : List Edge}

theorem identifier_of_isTarget (h : q.isTarget c = true) :
    c.identifier = q.target.identifier := by
  rw [isTarget, Bool.and_eq_true, beq_iff_eq] at h
  exact h.1

theorem pathBlock_ne_noPathBlock : q.pathBlock view hops ≠ q.noPathBlock view := by
  intro same
  have lengths := congrArg List.length same
  rw [pathBlock, noPathBlock, List.length_append, List.length_mapIdx] at lengths
  simp only [List.length_cons, List.length_nil] at lengths
  omega

theorem pathLines_cons (first : Coordinates) (hops : List Coordinates) :
    q.pathLines view (first :: hops) = q.pathBlock view hops := by
  rw [pathLines, pathBlock, List.mapIdx_eq_zipIdx_map]
  rfl

/-- The dependency is cut off if the one node that may be it is not reached. -/
theorem isCutOff_iff (hi : g.indexOf? q.project.identifier = some i) (hc : g.nodes[j]? = some c)
    (target : q.isTarget c = true) : q.IsCutOff g ↔ ¬ g.Reaches i j := by
  constructor
  · intro cutOff
    exact cutOff i j c hi hc target
  · intro notReached i' j' c' hi' hc' target'
    have same : c'.identifier = c.identifier := by
      rw [identifier_of_isTarget target', identifier_of_isTarget target]
    rw [Graph.number_unique hc' hc same, Option.some.inj (hi'.symm.trans hi)]
    exact notReached

theorem isCutOff_of_none (none : g.nodes.find? q.isTarget = none) : q.IsCutOff g := by
  intro i j c _ hc target
  rw [Array.find?_eq_none] at none
  exact absurd target (none c (Array.mem_of_getElem? hc))

/-- A view without a path. -/
theorem tells_noPath (rooted : g.contains q.project.identifier = true) (cutOff : q.IsCutOff g) :
    q.Tells view g (q.pathLines view []) where
  rooted := rooted
  noPath_iff := iff_of_true rfl cutOff
  path connected := absurd cutOff connected

/-- A view with a route to the dependency. -/
theorem tells_path (hi : g.indexOf? q.project.identifier = some i) (hc : g.nodes[j]? = some c)
    (target : q.isTarget c = true) (reached : g.Reaches i j)
    (route : Routes.IsRoute g i j (first :: hops) edges) :
    q.Tells view g (q.pathLines view (first :: hops)) where
  rooted := Graph.contains_of_some hi
  noPath_iff := by
    rw [pathLines_cons, isCutOff_iff hi hc target]
    exact iff_of_false pathBlock_ne_noPathBlock (not_not_intro reached)
  path _ := ⟨i, j, c, first, hops, edges, hi, hc, target, route, pathLines_cons first hops⟩

/-- What is on a path are nodes of the view. -/
theorem mem_nodes_of_path {hops : List Coordinates} (ok : q.path g = .ok hops) (mem : c ∈ hops) :
    c ∈ g.nodes := by
  rw [path] at ok
  split at ok
  · split at ok
    · rename_i target _
      cases found : g.route q.project.identifier target.identifier with
      | error e =>
        rw [found] at ok
        cases ok
      | ok route =>
        rw [found] at ok
        obtain rfl := Except.ok.inj ok
        exact Routes.mem_nodes_of_route found mem
    · obtain rfl := Except.ok.inj ok
      exact absurd mem List.not_mem_nil
  · cases ok

/-- A view that holds the project is told. -/
theorem exists_viewLines (view : String) (h : g.contains q.project.identifier = true) :
    ∃ block, q.viewLines view g = .ok block ∧ q.Tells view g block := by
  obtain ⟨i, hi⟩ := Option.isSome_iff_exists.1 (Graph.contains_eq_isSome ▸ h)
  cases found : g.nodes.find? q.isTarget with
  | none =>
    refine ⟨q.pathLines view [], ?_, tells_noPath h (isCutOff_of_none found)⟩
    rw [viewLines, path, if_pos h, found]
    rfl
  | some c =>
    obtain ⟨j, hc⟩ := Array.mem_iff_getElem?.1 (Array.mem_of_find?_eq_some found)
    have target : q.isTarget c = true := Array.find?_some found
    obtain ⟨l, ok, none_iff, route⟩ := Routes.exists_route hi (Graph.indexOf?_of_node hc)
    refine ⟨q.pathLines view l, ?_, ?_⟩
    · rw [viewLines, path, if_pos h, found]
      simp only [ok]
      rfl
    · cases l with
      | nil => exact tells_noPath h ((isCutOff_iff hi hc target).2 (none_iff.1 rfl))
      | cons first hops =>
        have reached : g.Reaches i j := not_not.1 (mt none_iff.2 (List.cons_ne_nil _ _))
        obtain ⟨edges, isRoute⟩ := route (List.cons_ne_nil _ _)
        exact tells_path hi hc target reached isRoute

end ClasspathAdvice.Question
