import ClasspathAdvice.Proofs.Graph.Queries
import ClasspathAdvice.Proofs.Graph.Route.Consistency
import Mathlib.Computability.StateTransition

/-!
# The routes that are read off

The nodes and the edges of a route are read off by going back from its target as long as a node
before is known (`stepBack`). A node before is known with a distance that is less, on a graph with
cycles too, where distances and the nodes before them have changed during the pass. So this comes
to an end at the source, meets no node twice, and what it has collected is a path of the graph
that is no longer than the distance (`ofIdentifier_extracts`).
-/

namespace ClasspathAdvice
set_option autoImplicit false

theorem Graph.Path.exists_cons {g : Graph} {i j : Nat} {l : List Nat} (p : g.Path i j l) :
    ∃ rest, l = i :: rest := by
  induction p with
  | start h => exact ⟨[], rfl⟩
  | step p e ih =>
    obtain ⟨rest, rfl⟩ := ih
    exact ⟨_, List.cons_append⟩

namespace Routes

open StateTransition

/-- One step back on a route: to the node before, which is put in front of what is collected. It
ends at a node without one. -/
def stepBack {α : Type} (r : Routes) (piece : Nat → Nat → α) :
    Nat × List α → Option (Nat × List α)
  | (j, collected) => (before r.table j).map fun i => (i, piece i j :: collected)

/-- A list of nodes that leads from one node to another along the edges of a graph and repeats
none, and these edges. -/
structure IsRoute (g : Graph) (i j : Nat) (path : List Coordinates) (edges : List Edge) : Prop where
  starts : path.head? = g.nodes[i]?
  ends : path.getLast? = g.nodes[j]?
  nodup : (path.map (·.identifier)).Nodup
  connected : path.IsChain fun u v => { source := u, target := v } ∈ g.edgeList
  edges_eq : edges = (path.zip path.tail).map fun e => { source := e.1, target := e.2 }

variable {g : Graph} {source i j k n : Nat} {order l : List Nat} {t : Table} {c d : Coordinates}

/-! ## No node is met twice -/

/-- The first of two nodes is nearer. -/
def Nearer (t : Table) (i j : Nat) : Prop :=
  ∃ m n, distance t i = some m ∧ distance t j = some n ∧ m < n

theorem Nearer.trans (h : Nearer t i j) (h' : Nearer t j k) : Nearer t i k := by
  obtain ⟨m, n, near, middle, lt⟩ := h
  obtain ⟨n', o, middle', far, lt'⟩ := h'
  obtain rfl : n = n' := Option.some.inj (middle.symm.trans middle')
  exact ⟨m, o, near, far, lt.trans lt'⟩

theorem Nearer.ne (h : Nearer t i j) : i ≠ j := by
  obtain ⟨m, n, near, far, lt⟩ := h
  rintro rfl
  obtain rfl : m = n := Option.some.inj (near.symm.trans far)
  exact Nat.lt_irrefl m lt

instance (t : Table) : Trans (Nearer t) (Nearer t) (Nearer t) := ⟨Nearer.trans⟩

/-- Each node on a route is before the next, so the nodes come in the order of their distances. -/
theorem Taken.nodup (k : Taken g source order t)
    (chain : l.IsChain fun u v => before t v = some u) : l.Nodup := by
  have nearer : l.IsChain (Nearer t) := by
    apply chain.imp
    intro u v before
    obtain ⟨-, n, m, far, near, le⟩ := k.before_nearer before
    exact ⟨m, n + 1, near, far, Nat.lt_succ_of_le le⟩
  exact nearer.pairwise.imp Nearer.ne

/-! ## The way back -/

/-- Going back along a list of nodes of which each is before the next. -/
theorem reaches_stepBack {α : Type} {r : Routes} {piece : Nat → Nat → α} {collected : List α}
    (chain : (i :: l).IsChain fun u v => before r.table v = some u) :
    Reaches (stepBack r piece) ((i :: l).getLast (List.cons_ne_nil i l), collected)
      (i, ((i :: l).zip l).map (fun e => piece e.1 e.2) ++ collected) := by
  induction l generalizing i with
  | nil => exact .refl
  | cons k l ih =>
    obtain ⟨first, rest⟩ := List.isChain_cons_cons.1 chain
    rw [List.getLast_cons (List.cons_ne_nil k l)]
    apply (ih rest).tail
    rw [stepBack, first]
    rfl

/-- The source has no node before it. -/
theorem Taken.before_source (k : Taken g source order t) (lt : source < g.nodes.size) :
    before t source = none := by
  have zero : 0 ∈ g.lengthsAlong order source source := ⟨_, .start lt, by simp, rfl⟩
  obtain ⟨d, dist, le⟩ := (k.minimum source).le_of_mem zero
  rw [Option.eq_none_iff_forall_ne_some]
  intro i known
  obtain ⟨n, far, -⟩ := k.enters i source known
  obtain rfl : d = n + 1 := Option.some.inj (dist.symm.trans far)
  omega

/-- The way back from a node ends at the source. -/
theorem mem_eval_stepBack {α : Type} {piece : Nat → Nat → α} {collected : List α}
    (p : g.Path source j l)
    (chain : l.IsChain fun u v => before (ofSource g source).table v = some u) :
    (source, (l.zip l.tail).map (fun e => piece e.1 e.2) ++ collected) ∈
      eval (stepBack (ofSource g source) piece) (j, collected) := by
  have lt : source < g.nodes.size := p.mem_lt p.source_mem
  have k : Taken g source (g.reversePostorder source) (ofSource g source).table := taken_ofSource lt
  have last : l.getLast p.ne_nil = j := by
    apply Option.some.inj
    rw [← List.getLast?_eq_some_getLast p.ne_nil, p.eq_dropLast_append, List.getLast?_concat]
  obtain ⟨rest, rfl⟩ := p.exists_cons
  apply mem_eval.2
  constructor
  · rw [← last]
    exact reaches_stepBack chain
  · rw [stepBack, k.before_source lt]
    rfl

/-! ## The route of a path -/

/-- The edges between the nodes of a list, one after the other. -/
theorem edges_of_lt (h : ∀ x ∈ l, x < g.nodes.size) :
    (l.zip l.tail).filterMap g.edgeBetween =
      ((g.nodesAt l).zip (g.nodesAt l).tail).map fun e => { source := e.1, target := e.2 } := by
  induction l with
  | nil => rfl
  | cons x l ih =>
    have first := Array.getElem?_eq_getElem (h x List.mem_cons_self)
    have rest := ih fun y hy => h y (List.mem_cons_of_mem _ hy)
    cases l with
    | nil =>
      rw [Graph.nodesAt_cons first]
      rfl
    | cons y l =>
      have second := Array.getElem?_eq_getElem (h y (by simp))
      rw [Graph.nodesAt_cons second] at rest
      rw [Graph.nodesAt_cons first, Graph.nodesAt_cons second]
      simp only [List.tail_cons, List.zip_cons_cons, List.map_cons] at rest ⊢
      rw [List.filterMap_cons_some (Graph.edgeBetween_eq first second), rest]

theorem getLast?_nodesAt (p : g.Path i j l) : (g.nodesAt l).getLast? = g.nodes[j]? := by
  have isNode := Array.getElem?_eq_getElem p.target_lt
  rw [p.eq_dropLast_append, Graph.nodesAt_append, Graph.nodesAt_cons isNode, isNode]
  exact List.getLast?_concat

/-- From each node of a path to the next there is an edge. -/
theorem isChain_nodesAt (p : g.Path i j l) :
    (g.nodesAt l).IsChain fun u v => { source := u, target := v } ∈ g.edgeList := by
  induction p with
  | start lt =>
    rw [Graph.nodesAt_cons (Array.getElem?_eq_getElem lt)]
    exact List.isChain_singleton _
  | @step j k l p e ih =>
    have lt := (Graph.edge_lt e).2
    have isNode := Array.getElem?_eq_getElem lt
    rw [Graph.nodesAt_append, Graph.nodesAt_cons isNode]
    apply ih.append (List.isChain_singleton _)
    intro u last v next
    obtain rfl : g.nodes[k] = v := by simpa using next
    rw [getLast?_nodesAt p] at last
    exact Graph.mem_edgeList.2 ⟨j, k, e, last, isNode, rfl⟩

/-- The nodes and edges of a path without repetition are a route. -/
theorem isRoute_of_path (p : g.Path i j l) (nodup : l.Nodup) :
    IsRoute g i j (g.nodesAt l) ((l.zip l.tail).filterMap g.edgeBetween) where
  starts := by
    have isNode := Array.getElem?_eq_getElem (p.mem_lt p.source_mem)
    obtain ⟨rest, rfl⟩ := p.exists_cons
    rw [Graph.nodesAt_cons isNode, isNode, List.head?_cons]
  ends := getLast?_nodesAt p
  nodup := Graph.nodup_nodesAt nodup
  connected := isChain_nodesAt p
  edges_eq := edges_of_lt fun _ mem => p.mem_lt mem

/-- All but the last of a list come first in the pairs of it and the next. -/
theorem map_fst_zip_tail (l : List Nat) : (l.zip l.tail).map Prod.fst = l.dropLast := by
  induction l with
  | nil => rfl
  | cons x l ih =>
    cases l with
    | nil => rfl
    | cons y l => exact congrArg (x :: ·) ih

/-- What going back along a path collects of its nodes, and the target: each of its nodes. -/
theorem map_nodes_path (p : g.Path i j l) :
    (l.zip l.tail).map (fun e => g.nodes[e.1]?) ++ [g.nodes[j]?] = (g.nodesAt l).map some := by
  have traces := traces_of_lt (fun x (mem : x ∈ l) => p.mem_lt mem)
  have firsts : (l.zip l.tail).map (fun e => g.nodes[e.1]?) =
      ((l.zip l.tail).map Prod.fst).map (g.nodes[·]?) := List.map_map.symm
  have split := congrArg (List.map (g.nodes[·]?)) p.eq_dropLast_append
  rw [firsts, map_fst_zip_tail, traces.nodes, split, List.map_append]
  rfl

/-! ## Answers -/

/-- There is no answer about a target that is no node. -/
theorem answers_of_unknown {target : String} (unknown : g.contains target = false) :
    (ofSource g source).distanceTo target = .error (.missingNode target) ∧
      (ofSource g source).pathTo target = .error (.missingNode target) ∧
      (ofSource g source).edgesTo target = .error (.missingNode target) := by
  have none : g.indexOf? target = none := by
    rw [Graph.contains_eq_isSome] at unknown
    simpa using unknown
  have graph : (ofSource g source).graph = g := rfl
  simp [distanceTo, pathTo, edgesTo, graph, Graph.indexOf_of_none none, bind, Except.bind]

theorem distance_eq_none_iff (lt : source < g.nodes.size) :
    distance (ofSource g source).table j = none ↔ ¬ g.Reaches source j := by
  have k : Taken g source (g.reversePostorder source) (ofSource g source).table := taken_ofSource lt
  rw [(k.minimum j).eq_none_iff, Graph.lengthsAlong_eq_empty_iff lt]

/-- A path has nodes. -/
theorem nodesAt_ne_nil (p : g.Path i j l) : g.nodesAt l ≠ [] := by
  have isNode := Array.getElem?_eq_getElem p.target_lt
  rw [p.eq_dropLast_append, Graph.nodesAt_append, Graph.nodesAt_cons isNode]
  exact List.append_ne_nil_of_right_ne_nil _ (List.cons_ne_nil _ _)

/-- Between two nodes the nodes of a route are found, or none if the first does not reach the
second. -/
theorem exists_route {s target : String} (hi : g.indexOf? s = some i)
    (hj : g.indexOf? target = some j) :
    ∃ l, g.route s target = .ok l ∧ (l = [] ↔ ¬ g.Reaches i j) ∧
      (l ≠ [] → ∃ edges, IsRoute g i j l edges) := by
  have lt := Graph.indexOf?_lt hi
  have answers := answers_of_index i hj
  refine ⟨_, by rw [Graph.route, ofIdentifier_eq hi]; exact answers.path, ?_⟩
  cases dist : distance (ofSource g i).table j with
  | none =>
    rw [numbersTo_of_none dist]
    exact ⟨iff_of_true rfl ((distance_eq_none_iff lt).1 dist), fun some => absurd rfl some⟩
  | some d =>
    obtain ⟨p, -, chain⟩ := numbersTo_of_some lt dist
    exact ⟨iff_of_false (nodesAt_ne_nil p) (not_not_intro ⟨_, p⟩),
      fun _ => ⟨_, isRoute_of_path p ((taken_ofSource lt).nodup chain)⟩⟩

/-- What is found on a route are nodes. -/
theorem mem_nodes_of_route {s target : String} {path : List Coordinates}
    (ok : g.route s target = .ok path) (mem : c ∈ path) : c ∈ g.nodes := by
  rw [Graph.route, ofIdentifier] at ok
  cases start : g.indexOf s with
  | error e =>
    rw [start] at ok
    cases ok
  | ok i =>
    rw [start] at ok
    replace ok : (ofSource g i).pathTo target = .ok path := ok
    rw [pathTo] at ok
    cases last : (ofSource g i).graph.indexOf target with
    | error e =>
      rw [last] at ok
      cases ok
    | ok j =>
      rw [last] at ok
      obtain rfl := Except.ok.inj ok
      obtain ⟨k, -, isNode⟩ := Graph.mem_nodesAt.1 mem
      exact Array.mem_of_getElem? isNode

/-- From each source the routes can be asked for, and there is no answer about a target that is
no node. For each other target there are nodes exactly if the source reaches it. They are then a
route that is no longer than the distance, and both the nodes and the edges of it are what going
back from the target has collected when it has come to its end, at the source. -/
theorem ofIdentifier_extracts {g : Graph} {identifier : String} {source : Nat}
    (h : g.indexOf? identifier = some source) :
    ∃ r, ofIdentifier g identifier = .ok r ∧
      (∀ target, g.contains target = false → r.distanceTo target = .error (.missingNode target) ∧
        r.pathTo target = .error (.missingNode target) ∧
        r.edgesTo target = .error (.missingNode target)) ∧
      ∀ target j, g.indexOf? target = some j →
        ∃ distance path edges, r.Answers target distance path edges ∧
          (path ≠ [] ↔ g.Reaches source j) ∧ (path = [] → edges = []) ∧
          (path ≠ [] → IsRoute g source j path edges ∧
            (∃ d, distance = some d ∧ edges.length ≤ d) ∧
            (source, path.map some) ∈
              eval (stepBack r fun i _ => g.nodes[i]?) (j, [g.nodes[j]?]) ∧
            (source, edges.map some) ∈
              eval (stepBack r fun i k => g.edgeBetween (i, k)) (j, [])) := by
  have lt := Graph.indexOf?_lt h
  have k : Taken g source (g.reversePostorder source) (ofSource g source).table := taken_ofSource lt
  refine ⟨_, ofIdentifier_eq h, fun target => answers_of_unknown, fun target j hj => ?_⟩
  refine ⟨_, _, _, answers_of_index source hj, ?_⟩
  cases dist : distance (ofSource g source).table j with
  | none =>
    have notReached := (distance_eq_none_iff lt).1 dist
    rw [numbersTo_of_none dist]
    exact ⟨iff_of_false (not_not_intro rfl) notReached, fun _ => rfl, fun some => absurd rfl some⟩
  | some d =>
    obtain ⟨p, short, chain⟩ := numbersTo_of_some lt dist
    generalize (ofSource g source).numbersTo j = l at p short chain
    have isReached : g.Reaches source j := ⟨l, p⟩
    have traces := traces_of_lt (fun x (mem : x ∈ l) => p.mem_lt mem)
    have some : g.nodesAt l ≠ [] := by
      intro none
      have length := traces.length_path
      rw [none] at length
      exact p.ne_nil (List.length_eq_zero_iff.1 length.symm)
    refine ⟨iff_of_true some isReached, fun none => absurd none some, fun _ => ?_⟩
    refine ⟨isRoute_of_path p (k.nodup chain), ⟨d, rfl, ?_⟩, ?_, ?_⟩
    · rw [traces.length_edges]
      omega
    · rw [← map_nodes_path p]
      exact mem_eval_stepBack p chain
    · rw [traces.edges, ← List.append_nil (List.map _ _)]
      exact mem_eval_stepBack p chain

/-- On a graph with a cycle a route is read off, and none to a target that is no node. -/
theorem ofIdentifier_extracts_detour :
    detour.indexOf? "s" = some 0 ∧ ∃ r distance path edges, ofIdentifier detour "s" = .ok r ∧
      r.pathTo "y" = .error (.missingNode "y") ∧ r.Answers "x" distance path edges ∧
      IsRoute detour 0 5 path edges := by
  have s : detour.indexOf? "s" = some 0 := by
    rw [Graph.indexOf?_eq, listing_detour]
    decide
  have x : detour.indexOf? "x" = some 5 := by
    rw [Graph.indexOf?_eq, listing_detour]
    decide
  have y : detour.contains "y" = false := by
    rw [Graph.contains_eq_isSome, Graph.indexOf?_eq, listing_detour]
    decide
  have edge : ∀ e ∈ [(0, 4), (4, 3), (3, 5)], e ∈ detour.edges := by
    simp [edges_detour]
  have start : detour.Reaches 0 0 := ⟨_, .start (Graph.indexOf?_lt s)⟩
  have reached : detour.Reaches 0 5 :=
    ((start.step (edge (0, 4) (by decide))).step (edge (4, 3) (by decide))).step
      (edge (3, 5) (by decide))
  obtain ⟨r, ok, unknown, known⟩ := ofIdentifier_extracts s
  obtain ⟨distance, path, edges, answers, some, -, route⟩ := known "x" 5 x
  exact ⟨s, r, distance, path, edges, ok, (unknown "y" y).2.1, answers, (route (some.2 reached)).1⟩

end Routes

end ClasspathAdvice
