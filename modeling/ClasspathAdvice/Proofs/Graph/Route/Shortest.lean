import ClasspathAdvice.Proofs.Graph.Content
import ClasspathAdvice.Proofs.Graph.Route.Walk

/-!
# Shortest routes where no cycle is reached

If no cycle is reached, every path follows reverse postorder, so the distances are the least
numbers of edges on paths and the routes are paths with so many edges. Each node on a route
comes from the first in the order of its predecessors that are nearer by one edge
(`ofIdentifier_shortest`).
-/

namespace ClasspathAdvice.Routes
set_option autoImplicit false

/-- Of the predecessors of `j` that are nearer to the source by one edge, `i` comes first in a
list. -/
def IsFirstNearer (g : Graph) (source : Nat) (order : List Nat) (i j : Nat) : Prop :=
  ∃ a b n, order = a ++ i :: b ∧ (i, j) ∈ g.edges ∧
    IsLeast (g.lengths source i) n ∧ IsLeast (g.lengths source j) (n + 1) ∧
    ∀ u ∈ a, (u, j) ∈ g.edges → ¬ IsLeast (g.lengths source u) n

variable {g : Graph} {source i j n : Nat}

/-- A path to a node follows what stands in the order up to the node. -/
theorem mem_lengthsAlong_of_lengths (acyclic : g.AcyclicFrom source) {a b : List Nat}
    (split : g.reversePostorder source = a ++ i :: b) (hn : n ∈ g.lengths source i) :
    n ∈ g.lengthsAlong a source i := by
  obtain ⟨l, p, length⟩ := hn
  have follows := p.sublist acyclic
  have nodup := Graph.nodup_reversePostorder (p.mem_lt p.source_mem)
  rw [split] at follows nodup
  rw [p.eq_dropLast_append] at follows
  exact ⟨l, p, Graph.sublist_of_append_singleton follows nodup, length⟩

/-- Where no cycle is reached the node before another is the first nearer one. -/
theorem isFirstNearer_of_before (h : source < g.nodes.size) (acyclic : g.AcyclicFrom source)
    (prev : before (ofSource g source).table j = some i) :
    IsFirstNearer g source (g.reversePostorder source) i j := by
  have k : Taken g source (g.reversePostorder source) (ofSource g source).table := taken_ofSource h
  obtain ⟨n, dist, a, b, split, e, here, fresh⟩ := k.enters i j prev
  have target : IsLeast (g.lengths source j) (n + 1) := by
    have least := k.minimum j
    rw [dist, Graph.lengthsAlong_eq_lengths acyclic] at least
    exact least
  have nearer : IsLeast (g.lengths source i) n := by
    refine ⟨Graph.lengthsAlong_subset here, ?_⟩
    intro m hm
    have le := target.2 (Graph.succ_mem_lengths hm e)
    omega
  refine ⟨a, b, n, split, e, nearer, target, ?_⟩
  -- an earlier one would have given the node its distance before
  intro u hu eu least
  obtain ⟨c, d, rfl⟩ := List.append_of_mem hu
  have earlier : g.reversePostorder source = c ++ u :: (d ++ i :: b) := by simp [split]
  have along := mem_lengthsAlong_of_lengths acyclic earlier least.1
  have met : n + 1 ∈ g.lengthsAlong (c ++ [u]) source j := by
    rw [Graph.lengthsAlong_concat]
    exact .inr ⟨eu, n, along, rfl⟩
  have front : c ++ u :: d = c ++ [u] ++ d := by simp
  apply fresh
  rw [front]
  exact Graph.lengthsAlong_mono (List.sublist_append_left _ _) met

/-- From a source that reaches no cycle, the distance to a node is the least number of edges
on a path, none if there is no path; then there is no route either. Else the nodes and edges
of the route are those of a path with so many edges, and each node on it comes from the first
in reverse postorder of its predecessors that are nearer by one edge. -/
theorem ofIdentifier_shortest {g : Graph} {identifier : String} {source : Nat}
    (h : g.indexOf? identifier = some source) (acyclic : g.AcyclicFrom source) :
    ∃ r, ofIdentifier g identifier = .ok r ∧ ∀ target j, g.indexOf? target = some j →
      ∃ distance path edges l, r.Answers target distance path edges ∧ Traces g l path edges ∧
        Graph.IsMinimum (g.lengths source j) distance ∧
        (distance = none → l = []) ∧
        ∀ d, distance = some d → g.Path source j l ∧ path.length = d + 1 ∧ edges.length = d ∧
          l.IsChain (IsFirstNearer g source (g.reversePostorder source)) := by
  have lt := Graph.indexOf?_lt h
  have k : Taken g source (g.reversePostorder source) (ofSource g source).table := taken_ofSource lt
  refine ⟨_, ofIdentifier_eq h, fun target j hj => ?_⟩
  have minimum := k.minimum j
  rw [Graph.lengthsAlong_eq_lengths acyclic] at minimum
  obtain ⟨path, edges, l, answers, traces, noRoute, route⟩ := exists_answers lt hj
  refine ⟨_, path, edges, l, answers, traces, minimum, noRoute, fun d dist => ?_⟩
  obtain ⟨p, short, chain⟩ := route d dist
  have pos := List.length_pos_iff.2 p.ne_nil
  have length : l.length = d + 1 := by
    rw [dist] at minimum
    have least := minimum.2 ⟨l, p, (Nat.sub_add_cancel pos).symm⟩
    omega
  refine ⟨p, traces.length_path.trans length, ?_, ?_⟩
  · rw [traces.length_edges, length]
    rfl
  · exact chain.imp fun u v => isFirstNearer_of_before lt acyclic

/-- Two ways of the same length to one node. -/
def diamond : Graph :=
  let app := Coordinates.flat "app"
  let a := Coordinates.flat "a"
  let b := Coordinates.flat "b"
  let c := Coordinates.flat "c"
  .ofNodesAndEdges [] [(app, a), (app, b), (a, c), (b, c)]

theorem listing_diamond : diamond.listing =
    ⟨[.flat "app", .flat "a", .flat "b", .flat "c"], [(0, 1), (0, 2), (1, 3), (2, 3)]⟩ := by
  rw [diamond, Graph.listing_ofNodesAndEdges]
  decide

theorem edge_diamond {e : Nat × Nat} :
    e ∈ diamond.edges ↔ e ∈ [(0, 1), (0, 2), (1, 3), (2, 3)] := by
  rw [Graph.mem_edges, listing_diamond]

/-- The middle nodes are one edge from the start and from the end. -/
theorem length_diamond {l : List Nat} (p : diamond.Path i j l) :
    (i + 1) / 2 + l.length = (j + 1) / 2 + 1 := by
  have level : ∀ e ∈ [(0, 1), (0, 2), (1, 3), (2, 3)], (e.2 + 1) / 2 = (e.1 + 1) / 2 + 1 := by
    decide
  induction p with
  | start => rfl
  | step _ e ih =>
    have next := level _ (edge_diamond.1 e)
    rw [List.length_append, List.length_singleton]
    omega

theorem acyclicFrom_diamond : diamond.AcyclicFrom 0 := by
  intro i l _ p
  have length := length_diamond p
  cases p with
  | start => rfl
  | step p e =>
    have pos := List.length_pos_iff.2 p.ne_nil
    rw [List.length_append, List.length_singleton] at length
    omega

theorem isLeast_diamond (reached : diamond.Reaches 0 j) :
    IsLeast (diamond.lengths 0 j) ((j + 1) / 2) := by
  obtain ⟨l, p⟩ := reached
  refine ⟨⟨l, p, ?_⟩, ?_⟩
  · have length := length_diamond p
    omega
  · intro n hn
    obtain ⟨m, q, eq⟩ := hn
    have length := length_diamond q
    omega

theorem middle_diamond {l : List Nat} (p : diamond.Path 0 3 l) : l = [0, 1, 3] ∨ l = [0, 2, 3] := by
  have length := length_diamond p
  have middle : ∀ e ∈ [(0, 1), (0, 2), (1, 3), (2, 3)], e.2 = 3 → e.1 = 1 ∨ e.1 = 2 := by decide
  have first : ∀ e ∈ [(0, 1), (0, 2), (1, 3), (2, 3)], e.2 = 1 ∨ e.2 = 2 → e.1 = 0 := by decide
  cases p with
  | @step y _ l p e =>
    have before := middle _ (edge_diamond.1 e) rfl
    cases p with
    | start => omega
    | @step x _ l p e' =>
      obtain rfl : x = 0 := first _ (edge_diamond.1 e') before
      have alone := acyclicFrom_diamond 0 l ⟨l, p⟩ p
      subst alone
      rcases before with rfl | rfl
      · exact .inl rfl
      · exact .inr rfl

theorem reversePostorder_diamond : diamond.reversePostorder 0 = [0, 2, 1, 3] := by
  have edges : diamond.edges = #[(0, 1), (0, 2), (1, 3), (2, 3)] :=
    Array.toList_inj.1 (congrArg Content.edges listing_diamond)
  have size : diamond.nodes.size = 4 := by
    rw [Graph.size_nodes, listing_diamond]
    rfl
  have table : diamond.successorTable = #[[1, 2], [3], [3], []] := by
    rw [Graph.successorTable, edges, size]
    rfl
  rw [Graph.reversePostorder, table, size]
  cbv

/-- Of the two ways the one is taken whose middle node comes first in reverse postorder. -/
theorem ofIdentifier_shortest_diamond :
    diamond.indexOf? "app" = some 0 ∧ diamond.AcyclicFrom 0 ∧
      ∃ r edges, ofIdentifier diamond "app" = .ok r ∧
        r.Answers "c" (some 2) [.flat "app", .flat "b", .flat "c"] edges := by
  have index : ∀ s, diamond.indexOf? s =
      Content.position ⟨[.flat "app", .flat "a", .flat "b", .flat "c"], []⟩ s := by
    intro s
    rw [Graph.indexOf?_eq, listing_diamond]
    rfl
  have app : diamond.indexOf? "app" = some 0 := by rw [index]; decide
  have c : diamond.indexOf? "c" = some 3 := by rw [index]; decide
  obtain ⟨r, ok, answers⟩ := ofIdentifier_shortest app acyclicFrom_diamond
  obtain ⟨distance, path, edges, l, isAnswer, traces, minimum, -, route⟩ := answers "c" 3 c
  have start : diamond.Reaches 0 0 := .refl (Graph.indexOf?_lt app)
  have viaA : diamond.Reaches 0 1 := start.step (edge_diamond.2 (by decide))
  have viaB : diamond.Reaches 0 2 := start.step (edge_diamond.2 (by decide))
  have least := isLeast_diamond (viaB.step (edge_diamond.2 (by decide)) : diamond.Reaches 0 3)
  obtain rfl : distance = some 2 := minimum.unique least
  obtain ⟨p, length, -, chain⟩ := route 2 rfl
  have taken : l = [0, 2, 3] := by
    rcases middle_diamond p with rfl | rfl
    · -- the other middle node comes first in the order and is as near
      have pair : IsFirstNearer diamond 0 (diamond.reversePostorder 0) 1 3 := by
        simpa using (List.isChain_cons_cons.1 chain).2
      obtain ⟨a, b, n, split, -, nearer, -, first⟩ := pair
      rw [reversePostorder_diamond] at split
      have ahead : 2 ∈ a := by
        rcases a with _ | ⟨x, _ | ⟨y, a⟩⟩ <;> simp_all
      obtain rfl : n = 1 := nearer.unique (isLeast_diamond viaA)
      exact absurd (isLeast_diamond viaB) (first 2 ahead (edge_diamond.2 (by decide)))
    · rfl
  have names : path = [.flat "app", .flat "b", .flat "c"] := by
    have nodes := traces.nodes
    simp only [taken, Graph.getElem?_nodes, listing_diamond] at nodes
    exact List.map_injective_iff.2 (Option.some_injective _) nodes
  exact ⟨app, acyclicFrom_diamond, r, edges, ok, names ▸ isAnswer⟩

end ClasspathAdvice.Routes
