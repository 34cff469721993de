import ClasspathAdvice.Proofs.Graph.Content
import ClasspathAdvice.Proofs.Graph.Route.Walk

/-!
# Whether distances and routes agree

On a graph with cycles a node may come nearer after its own edges have been taken; the nodes
behind it keep the distance that they had, while their routes change. So a route may have fewer
edges than its distance says. `ofIdentifier_consistent_iff` says what the distances are on every
graph, and that the queries agree exactly if each reached node has a shortest path that follows
reverse postorder up to its last edge.
-/

namespace ClasspathAdvice.Routes
set_option autoImplicit false

/-- The queries agree: a reached node is as far as its route has edges, and an edge leads no
more than one farther. -/
structure Consistent (r : Routes) : Prop where
  length_eq : ∀ target j, r.graph.indexOf? target = some j → r.graph.Reaches r.source j →
    ∃ d edges, r.distanceTo target = .ok (some d) ∧ r.edgesTo target = .ok edges ∧ edges.length = d
  triangle : ∀ source target i j, r.graph.indexOf? source = some i →
    r.graph.indexOf? target = some j → (i, j) ∈ r.graph.edges → r.graph.Reaches r.source i →
    ∃ d e, r.distanceTo source = .ok (some d) ∧ r.distanceTo target = .ok (some e) ∧ e ≤ d + 1

variable {g : Graph} {source i j n : Nat} {l : List Nat}

theorem exists_identifier (h : i < g.nodes.size) : ∃ identifier, g.indexOf? identifier = some i :=
  ⟨_, (g.index_iff _ i).2 ⟨g.nodes[i], Array.getElem?_eq_getElem h, rfl⟩⟩

/-- Where no edge leads more than one farther, no path is shorter than the distance. -/
theorem Consistent.le_of_path (c : (ofSource g source).Consistent) (p : g.Path source j l) :
    ∃ d, distance (ofSource g source).table j = some d ∧ d + 1 ≤ l.length := by
  have lt : source < g.nodes.size := p.mem_lt p.source_mem
  induction p with
  | start h =>
    have k : Taken g source (g.reversePostorder source) (ofSource g source).table := taken_ofSource lt
    have zero : 0 ∈ g.lengthsAlong (g.reversePostorder source) source source :=
      ⟨_, .start h, by simp, rfl⟩
    obtain ⟨d, dist, le⟩ := (k.minimum source).le_of_mem zero
    exact ⟨d, dist, by simpa using le⟩
  | @step i j l p e ih =>
    obtain ⟨first, hi⟩ := exists_identifier (Graph.edge_lt e).1
    obtain ⟨last, hj⟩ := exists_identifier (Graph.edge_lt e).2
    obtain ⟨d, d', atSource, atTarget, le⟩ := c.triangle first last i j hi hj e ⟨l, p⟩
    obtain ⟨n, dist, short⟩ := ih
    have known := (answers_of_index source hi).distance.symm.trans atSource
    have known' := (answers_of_index source hj).distance.symm.trans atTarget
    rw [dist] at known
    obtain rfl : n = d := by simpa using known
    refine ⟨d', by simpa using known', ?_⟩
    rw [List.length_append, List.length_singleton]
    omega

/-- A least length that some path along reverse postorder has is the distance. -/
theorem distance_eq_of_isLeast (h : source < g.nodes.size)
    (along : n ∈ g.lengthsAlong (g.reversePostorder source) source j)
    (least : IsLeast (g.lengths source j) n) : distance (ofSource g source).table j = some n := by
  have k : Taken g source (g.reversePostorder source) (ofSource g source).table := taken_ofSource h
  have here : Graph.IsMinimum (g.lengthsAlong (g.reversePostorder source) source j) (some n) :=
    ⟨along, fun m hm => least.2 (Graph.lengthsAlong_subset hm)⟩
  exact (k.minimum j).unique here

/-- The queries agree if and only if each reached node has a shortest path that follows reverse
postorder up to its last edge. -/
theorem consistent_iff (h : source < g.nodes.size) : (ofSource g source).Consistent ↔
    ∀ j, g.Reaches source j → ∃ n ∈ g.lengthsAlong (g.reversePostorder source) source j,
      IsLeast (g.lengths source j) n := by
  have k : Taken g source (g.reversePostorder source) (ofSource g source).table := taken_ofSource h
  constructor
  · intro c j reached
    obtain ⟨l, p⟩ := reached
    obtain ⟨d, dist, -⟩ := c.le_of_path p
    have along := k.mem_along dist
    refine ⟨d, along, Graph.lengthsAlong_subset along, ?_⟩
    intro n hn
    obtain ⟨m, q, length⟩ := hn
    obtain ⟨d', dist', le⟩ := c.le_of_path q
    obtain rfl : d = d' := Option.some.inj (dist.symm.trans dist')
    omega
  · intro straight
    constructor
    case length_eq =>
      intro target j hj reached
      obtain ⟨n, along, least⟩ := straight j reached
      have dist := distance_eq_of_isLeast h along least
      obtain ⟨path, edges, l, answers, traces, -, route⟩ := exists_answers h hj
      obtain ⟨p, short, -⟩ := route n dist
      have pos := List.length_pos_iff.2 p.ne_nil
      have le := least.2 ⟨l, p, (Nat.sub_add_cancel pos).symm⟩
      have length := traces.length_edges
      exact ⟨n, edges, answers.distance.trans (congrArg _ dist), answers.edges, by omega⟩
    case triangle =>
      intro first last i j hi hj e reached
      obtain ⟨n, along, least⟩ := straight i reached
      obtain ⟨m, along', least'⟩ := straight j (reached.step e)
      have dist := distance_eq_of_isLeast h along least
      have dist' := distance_eq_of_isLeast h along' least'
      refine ⟨n, m, ?_, ?_, least'.2 (Graph.succ_mem_lengths least.1 e)⟩
      · exact (answers_of_index source hi).distance.trans (congrArg _ dist)
      · exact (answers_of_index source hj).distance.trans (congrArg _ dist')

/-- On every graph the distance to a node is the least number of edges on those paths that
follow reverse postorder up to their last edge, and its route is a path that has no more edges.
The queries agree exactly if one of these paths to each reached node is a shortest of all. -/
theorem ofIdentifier_consistent_iff {g : Graph} {identifier : String} {source : Nat}
    (h : g.indexOf? identifier = some source) :
    ∃ r, ofIdentifier g identifier = .ok r ∧
      (∀ target j, g.indexOf? target = some j →
        ∃ distance path edges l, r.Answers target distance path edges ∧ Traces g l path edges ∧
          Graph.IsMinimum (g.lengthsAlong (g.reversePostorder source) source j) distance ∧
          (distance = none ↔ ¬ g.Reaches source j) ∧ (distance = none → l = []) ∧
          ∀ d, distance = some d → g.Path source j l ∧ edges.length ≤ d) ∧
      (r.Consistent ↔ ∀ j, g.Reaches source j →
        ∃ n ∈ g.lengthsAlong (g.reversePostorder source) source j,
          IsLeast (g.lengths source j) n) := by
  have lt := Graph.indexOf?_lt h
  have k : Taken g source (g.reversePostorder source) (ofSource g source).table := taken_ofSource lt
  refine ⟨_, ofIdentifier_eq h, fun target j hj => ?_, consistent_iff lt⟩
  obtain ⟨path, edges, l, answers, traces, noRoute, route⟩ := exists_answers lt hj
  refine ⟨_, path, edges, l, answers, traces, k.minimum j, ?_, noRoute, fun d dist => ?_⟩
  · rw [(k.minimum j).eq_none_iff, Graph.lengthsAlong_eq_empty_iff lt]
  · obtain ⟨p, short, -⟩ := route d dist
    refine ⟨p, ?_⟩
    rw [traces.length_edges]
    omega

/-- A node that is first met on a long way and then by an edge back from behind it. -/
def detour : Graph :=
  let s := Coordinates.flat "s"
  let a := Coordinates.flat "a"
  let b := Coordinates.flat "b"
  let u := Coordinates.flat "u"
  let w := Coordinates.flat "w"
  let x := Coordinates.flat "x"
  .ofNodesAndEdges [] [(s, a), (a, b), (b, u), (u, w), (w, u), (u, x), (s, w)]

theorem listing_detour : detour.listing =
    ⟨[.flat "s", .flat "a", .flat "b", .flat "u", .flat "w", .flat "x"],
      [(0, 1), (1, 2), (2, 3), (3, 4), (4, 3), (3, 5), (0, 4)]⟩ := by
  rw [detour, Graph.listing_ofNodesAndEdges]
  decide

theorem edges_detour :
    detour.edges = #[(0, 1), (1, 2), (2, 3), (3, 4), (4, 3), (3, 5), (0, 4)] :=
  Array.toList_inj.1 (congrArg Content.edges listing_detour)

theorem size_detour : detour.nodes.size = 6 := by
  rw [Graph.size_nodes, listing_detour]
  rfl

theorem successorTable_detour : detour.successorTable = #[[1, 4], [2], [3], [4, 5], [3], []] := by
  rw [Graph.successorTable, edges_detour, size_detour]
  rfl

theorem reversePostorder_detour : detour.reversePostorder 0 = [0, 1, 2, 3, 5, 4] := by
  rw [Graph.reversePostorder, successorTable_detour, size_detour]
  cbv

/-- The last node keeps the distance by the long way, though its route takes the short one. -/
theorem table_detour : (ofSource detour 0).table =
    (#[some 0, some 1, some 2, some 2, some 1, some 4],
      #[none, some 0, some 1, some 4, some 0, some 3]) := by
  rw [table, ofSource, reversePostorder_detour, successorTable_detour, size_detour]
  rfl

/-- The distance of the last node is one more than the number of edges on its route. -/
theorem ofIdentifier_consistent_iff_detour :
    detour.indexOf? "s" = some 0 ∧ ∃ r path edges, ofIdentifier detour "s" = .ok r ∧
      r.Answers "x" (some 4) path edges ∧ edges.length = 3 ∧ ¬ r.Consistent ∧
      ∃ j, detour.Reaches 0 j ∧ ∀ n ∈ detour.lengthsAlong (detour.reversePostorder 0) 0 j,
        ¬ IsLeast (detour.lengths 0 j) n := by
  have index : ∀ s, detour.indexOf? s =
      Content.position ⟨[.flat "s", .flat "a", .flat "b", .flat "u", .flat "w", .flat "x"], []⟩ s := by
    intro s
    rw [Graph.indexOf?_eq, listing_detour]
    rfl
  have s : detour.indexOf? "s" = some 0 := by rw [index]; decide
  have x : detour.indexOf? "x" = some 5 := by rw [index]; decide
  have lt := Graph.indexOf?_lt s
  obtain ⟨r, ok, -, iff⟩ := ofIdentifier_consistent_iff s
  obtain rfl : ofSource detour 0 = r := Except.ok.inj ((ofIdentifier_eq s).symm.trans ok)
  have dist : distance (ofSource detour 0).table 5 = some 4 := by rw [table_detour]; rfl
  have back : (ofSource detour 0).numbersTo 5 = [0, 4, 3, 5] := by
    have distances : (ofSource detour 0).distances = _ := congrArg Prod.fst table_detour
    have previous : (ofSource detour 0).previous = _ := congrArg Prod.snd table_detour
    have size : (ofSource detour 0).graph.nodes.size = 6 := size_detour
    rw [numbersTo, distances, previous, size]
    rfl
  have answers := answers_of_index 0 x
  have traces : Traces detour _ _ _ := traces_of_lt fun k => (numbersTo_of_some lt dist).1.mem_lt
  have reached : detour.Reaches 0 5 := ⟨_, (numbersTo_of_some lt dist).1⟩
  have three := traces.length_edges
  rw [dist] at answers
  rw [back] at answers three
  have disagree : ¬ (ofSource detour 0).Consistent := by
    intro c
    obtain ⟨d, edges, atX, isEdges, length⟩ := c.length_eq "x" 5 x reached
    have four : 4 = d := by simpa using answers.distance.symm.trans atX
    obtain rfl := Except.ok.inj (answers.edges.symm.trans isEdges)
    rw [three, ← four] at length
    cases length
  refine ⟨s, _, _, _, ok, answers, three, disagree, ?_⟩
  by_contra none
  apply disagree
  apply iff.2
  intro j isReached
  by_contra notAlong
  exact none ⟨j, isReached, fun n along least => notAlong ⟨n, along, least⟩⟩

end ClasspathAdvice.Routes
