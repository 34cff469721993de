import ClasspathAdvice.Proofs.Graph.Route.Relaxation
import Mathlib.Data.List.Chain

/-!
# Walking back

From the node before another the source is nearer, so walking back from a node ends at the
source and passes a path that is no longer than the distance of the node (`walkBack_eq`). The
queries spell this path out in nodes and in edges (`exists_answers`).
-/

namespace ClasspathAdvice.Routes
set_option autoImplicit false

/-- A list of nodes and one of edges spell out a list of node numbers. -/
structure Traces (g : Graph) (l : List Nat) (path : List Coordinates) (edges : List Edge) : Prop where
  nodes : path.map some = l.map (g.nodes[·]?)
  edges : edges.map some = (l.zip l.tail).map g.edgeBetween

/-- The answers to the queries about the node with an identifier. -/
structure Answers (r : Routes) (identifier : String) (distance : Option Nat)
    (path : List Coordinates) (edges : List Edge) : Prop where
  distance : r.distanceTo identifier = .ok distance
  path : r.pathTo identifier = .ok path
  edges : r.edgesTo identifier = .ok edges

/-- The distances and the nodes they come from. -/
def table (r : Routes) : Table := (r.distances, r.previous)

variable {g : Graph} {source i j d n steps : Nat} {order l : List Nat} {t : Table}
  {path : List Coordinates} {edges : List Edge}

namespace Taken

theorem mem_along (k : Taken g source order t) (h : distance t j = some n) :
    n ∈ g.lengthsAlong order source j := by
  have least := k.minimum j
  rw [h] at least
  exact least.1

/-- The node before another is nearer to the source. -/
theorem before_nearer (k : Taken g source order t) (h : before t j = some i) :
    (i, j) ∈ g.edges ∧ ∃ n m, distance t j = some (n + 1) ∧ distance t i = some m ∧ m ≤ n := by
  obtain ⟨n, dist, a, b, rfl, e, here, -⟩ := k.enters i j h
  have along : n ∈ g.lengthsAlong (a ++ i :: b) source i :=
    Graph.lengthsAlong_mono (List.sublist_append_left _ _) here
  obtain ⟨m, dist', le⟩ := (k.minimum i).le_of_mem along
  exact ⟨e, n, m, dist, dist', le⟩

/-- Only the source has a distance without a node before it. -/
theorem source_of_before (k : Taken g source order t) (h : distance t j = some d)
    (first : before t j = none) : d = 0 ∧ j = source := by
  cases d with
  | zero => exact ⟨rfl, Graph.eq_of_zero_mem_lengths (Graph.lengthsAlong_subset (k.mem_along h))⟩
  | succ n =>
    obtain ⟨i, known⟩ := k.entered j n h
    rw [first] at known
    cases known

/-- Walking back passes a path from the source that is no longer than the distance. -/
theorem walkBack_eq (k : Taken g source order t) (h : distance t j = some d) (enough : d ≤ steps) :
    ∃ l, g.Path source j l ∧ l.length ≤ d + 1 ∧ l.IsChain (fun u v => before t v = some u) ∧
      ∀ following, walkBack t.2 steps j following = l ++ following := by
  induction steps generalizing j d with
  | zero =>
    obtain rfl : d = 0 := by omega
    have same : j = source := Graph.eq_of_zero_mem_lengths (Graph.lengthsAlong_subset (k.mem_along h))
    obtain ⟨l, p, -⟩ := k.mem_along h
    subst same
    exact ⟨[j], .start (p.mem_lt p.source_mem), by simp, by simp, fun _ => rfl⟩
  | succ steps ih =>
    cases prev : before t j with
    | none =>
      obtain ⟨rfl, same⟩ := k.source_of_before h prev
      obtain ⟨l, p, -⟩ := k.mem_along h
      subst same
      refine ⟨[j], .start (p.mem_lt p.source_mem), by simp, by simp, fun following => ?_⟩
      unfold before at prev
      simp [walkBack, prev]
    | some i =>
      obtain ⟨e, n, m, dist, dist', le⟩ := k.before_nearer prev
      obtain rfl : d = n + 1 := Option.some.inj (h.symm.trans dist)
      obtain ⟨l, p, length, chain, eq⟩ := ih dist' (by omega)
      refine ⟨l ++ [j], p.step e, ?_, ?_, fun following => ?_⟩
      · rw [List.length_append, List.length_singleton]
        omega
      · rw [p.eq_dropLast_append] at chain ⊢
        refine chain.append (List.isChain_singleton j) ?_
        intro u hu v hv
        obtain rfl : u = i := by simpa using hu.symm
        obtain rfl : v = j := by simpa using hv.symm
        exact prev
      · unfold before at prev
        rw [walkBack, prev]
        simp [eq]

end Taken

/-! ## The answers to the queries -/

/-- Where a function is defined on a list, its values are listed one by one. -/
theorem map_some_filterMap {α β : Type} {f : α → Option β} {l : List α}
    (h : ∀ x ∈ l, (f x).isSome) : (l.filterMap f).map some = l.map f := by
  induction l with
  | nil => rfl
  | cons x l ih =>
    obtain ⟨y, hy⟩ := Option.isSome_iff_exists.1 (h x List.mem_cons_self)
    have rest := ih fun z hz => h z (List.mem_cons_of_mem _ hz)
    simp [hy, rest]

theorem Traces.length_path (h : Traces g l path edges) : path.length = l.length := by
  simpa using congrArg List.length h.nodes

theorem Traces.length_edges (h : Traces g l path edges) : edges.length = l.length - 1 := by
  simpa using congrArg List.length h.edges

/-- The nodes and edges of a path spell it out. -/
theorem traces_of_lt (h : ∀ x ∈ l, x < g.nodes.size) :
    Traces g l (g.nodesAt l) ((l.zip l.tail).filterMap g.edgeBetween) where
  nodes := by
    apply map_some_filterMap
    intro x hx
    simp [Array.getElem?_eq_getElem (h x hx)]
  edges := by
    apply map_some_filterMap
    intro e he
    have mem := List.of_mem_zip he
    have lt := h _ mem.1
    have lt' := h _ (List.mem_of_mem_tail mem.2)
    simp [Graph.edgeBetween, Array.getElem?_eq_getElem lt, Array.getElem?_eq_getElem lt']

theorem ofIdentifier_eq {identifier : String} (h : g.indexOf? identifier = some source) :
    ofIdentifier g identifier = .ok (ofSource g source) := by
  simp [ofIdentifier, Graph.indexOf, h, bind, Except.bind, pure, Except.pure]

/-- The queries find the number of the node that they are asked about. -/
theorem answers_of_index (source : Nat) {identifier : String}
    (h : g.indexOf? identifier = some j) :
    Answers (ofSource g source) identifier (distance (ofSource g source).table j)
      (g.nodesAt ((ofSource g source).numbersTo j))
      ((((ofSource g source).numbersTo j).zip ((ofSource g source).numbersTo j).tail).filterMap
        g.edgeBetween) := by
  have graph : (ofSource g source).graph = g := rfl
  constructor <;>
    simp [distanceTo, pathTo, edgesTo, Graph.indexOf, graph, h, bind, Except.bind, pure,
      Except.pure, distance, table]

theorem numbersTo_of_none (h : distance (ofSource g source).table j = none) :
    (ofSource g source).numbersTo j = [] := by
  unfold distance table at h
  simp [numbersTo, h]

/-- The numbers on the route to a node are those that walking back passes. -/
theorem numbersTo_of_some (h : source < g.nodes.size)
    (dist : distance (ofSource g source).table j = some d) :
    g.Path source j ((ofSource g source).numbersTo j) ∧
      ((ofSource g source).numbersTo j).length ≤ d + 1 ∧
      ((ofSource g source).numbersTo j).IsChain
        (fun u v => before (ofSource g source).table v = some u) := by
  have k : Taken g source (g.reversePostorder source) (ofSource g source).table := taken_ofSource h
  have enough : d ≤ g.nodes.size := by
    have along := Graph.le_of_mem_lengthsAlong (k.mem_along dist)
    have nodes : (g.reversePostorder source).length ≤ g.nodes.size := by
      apply Graph.length_le_size (Graph.nodup_reversePostorder h)
      intro x hx
      obtain ⟨l, p⟩ := (Graph.mem_reversePostorder h).1 hx
      exact p.target_lt
    omega
  obtain ⟨l, p, length, chain, eq⟩ := k.walkBack_eq dist enough
  have numbers : (ofSource g source).numbersTo j = l := by
    have walked := eq []
    rw [List.append_nil] at walked
    unfold distance table at dist
    rw [numbersTo, dist]
    exact walked
  rw [numbers]
  exact ⟨p, length, chain⟩

/-- The queries answer with the distance of a node and with a path that is no longer, or with
no route if there is no distance. -/
theorem exists_answers (h : source < g.nodes.size) {identifier : String}
    (hj : g.indexOf? identifier = some j) :
    ∃ path edges l, (ofSource g source).Answers identifier
        (distance (ofSource g source).table j) path edges ∧ Traces g l path edges ∧
      (distance (ofSource g source).table j = none → l = []) ∧
      ∀ d, distance (ofSource g source).table j = some d → g.Path source j l ∧
        l.length ≤ d + 1 ∧ l.IsChain fun u v => before (ofSource g source).table v = some u := by
  refine ⟨_, _, (ofSource g source).numbersTo j, answers_of_index source hj, traces_of_lt ?_,
    numbersTo_of_none, fun d => numbersTo_of_some h⟩
  intro x hx
  cases dist : distance (ofSource g source).table j with
  | none =>
    rw [numbersTo_of_none dist] at hx
    exact absurd hx List.not_mem_nil
  | some d => exact (numbersTo_of_some h dist).1.mem_lt hx

end ClasspathAdvice.Routes
