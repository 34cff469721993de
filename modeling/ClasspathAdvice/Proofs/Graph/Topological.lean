import ClasspathAdvice.Proofs.Graph.Search

/-!
# Where edges lead in reverse postorder

During a depth-first search the nodes on the trail reach each other from its bottom up, and an
edge of a finished node leads to a node finished before it or back to one that reaches it
(`Descending`). So in reverse postorder an edge leads further down the list, unless it lies on
a cycle (`mem_after_of_edge`), and a path past no cycle follows the list (`Path.sublist`).
-/

namespace ClasspathAdvice.Graph
set_option autoImplicit false

/-- No path leads from a node that is reached from `start` back to that node. -/
def AcyclicFrom (g : Graph) (start : Nat) : Prop :=
  ∀ i l, g.Reaches start i → g.Path i i l → l = [i]

/-- An edge from a node of the list leads further down it, or to a node that reaches the first. -/
def LeadsDown (g : Graph) (order : List Nat) : Prop :=
  ∀ a i b, order = a ++ i :: b → ∀ j, (i, j) ∈ g.edges → j ∈ b ∨ g.Reaches j i

/-- How the trail and the finished nodes of a depth-first search are connected. -/
structure Descending (g : Graph) (trail : List (Nat × List Nat)) (order : List Nat) : Prop where
  chain : (trail.map Prod.fst).Pairwise fun i j => g.Reaches j i
  leadsDown : LeadsDown g order

variable {g : Graph} {start i j : Nat} {trail : List (Nat × List Nat)} {marks : Array Bool}
  {order l : List Nat}

theorem Reaches.refl (h : i < g.nodes.size) : g.Reaches i i := ⟨_, .start h⟩

/-- Where no cycle is reached, no edge has a way back. -/
theorem AcyclicFrom.not_reaches (acyclic : g.AcyclicFrom start) (reached : g.Reaches start i)
    (e : (i, j) ∈ g.edges) : ¬ g.Reaches j i := by
  intro back
  obtain ⟨l, p⟩ := back
  have round := acyclic j _ (reached.step e) (p.step e)
  have empty : l = [] := by simpa using round
  exact p.ne_nil empty

namespace Descending

theorem initial : Descending g [(start, l)] [] where
  chain := by simp
  leadsDown a i b split := by simp at split

/-- The edges of a node that is finished lead to finished nodes, or to the trail. -/
theorem finish (d : Descending g ((i, []) :: trail) order)
    (s : Searching g start ((i, []) :: trail) marks order) (lt : i < g.nodes.size) :
    Descending g trail (i :: order) := by
  obtain ⟨above, chain⟩ := List.pairwise_cons.1 d.chain
  refine ⟨chain, ?_⟩
  intro a k b split j e
  cases a with
  | cons x a =>
    obtain ⟨-, split⟩ := List.cons.inj split
    exact d.leadsDown a k b split j e
  | nil =>
    obtain ⟨rfl, rfl⟩ := List.cons.inj split
    have explored := s.explored _ List.mem_cons_self j e
    rw [found_finish, found, List.mem_append, List.mem_reverse, List.mem_cons] at explored
    rcases explored with none | onTrail | rfl | finished
    · exact absurd none List.not_mem_nil
    · exact .inr (above j onTrail)
    · exact .inr (.refl lt)
    · exact .inl finished

theorem skip {rest : List Nat} (d : Descending g ((i, j :: rest) :: trail) order) :
    Descending g ((i, rest) :: trail) order := ⟨d.chain, d.leadsDown⟩

/-- What reaches the top of the trail reaches the node that is visited from there. -/
theorem visit {rest next : List Nat} (d : Descending g ((i, j :: rest) :: trail) order)
    (e : (i, j) ∈ g.edges) : Descending g ((j, next) :: (i, rest) :: trail) order := by
  refine ⟨List.pairwise_cons.2 ⟨?_, d.chain⟩, d.leadsDown⟩
  intro k hk
  rcases List.mem_cons.1 hk with rfl | hk
  · exact (Reaches.refl (edge_lt e).1).step e
  · exact ((List.pairwise_cons.1 d.chain).1 k hk).step e

/-- The connections are kept until the trail is used up. -/
theorem run (d : Descending g trail order) (s : Searching g start trail marks order) :
    LeadsDown g (depthFirst g.successorTable trail marks order) := by
  fun_induction depthFirst g.successorTable trail marks order with
  | case1 marks order => exact d.leadsDown
  | case2 marks order i trail ih =>
    have isFound : marks[i]? = some true := (s.marked i).2 (by simp [found])
    have lt : i < marks.size := (Array.getElem?_eq_some_iff.1 isFound).1
    exact ih (d.finish s (s.size ▸ lt)) s.finish
  | case3 marks order i j rest trail lt hj ih =>
    exact ih d.skip (s.skip (by rw [Array.getElem?_eq_getElem lt, hj]))
  | case4 marks order i j rest trail lt hj ih =>
    have e := s.pending _ List.mem_cons_self j List.mem_cons_self
    exact ih (d.visit e) (s.visit lt (by simpa using hj))
  | case5 marks order i j rest trail lt ih =>
    have e := s.pending _ List.mem_cons_self j List.mem_cons_self
    exact absurd (s.size ▸ (edge_lt e).2) lt

end Descending

theorem leadsDown_reversePostorder (h : start < g.nodes.size) :
    LeadsDown g (g.reversePostorder start) := Descending.initial.run (Searching.initial h)

/-- An edge leads further down the order, unless its target reaches its source. -/
theorem mem_after_of_edge (h : start < g.nodes.size) {a b : List Nat}
    (split : g.reversePostorder start = a ++ i :: b) (e : (i, j) ∈ g.edges)
    (noWayBack : ¬ g.Reaches j i) : j ∈ b :=
  (leadsDown_reversePostorder h a i b split j e).resolve_right noWayBack

/-! ## Paths that follow a list -/

theorem Path.eq_dropLast_append (p : g.Path i j l) : l = l.dropLast ++ [j] := by
  cases p <;> simp

/-- Of a list that follows another up to an element, what is before the element follows what
is before it there. -/
theorem sublist_of_append_singleton {a b m : List Nat} (h : (m ++ [j]).Sublist (a ++ j :: b))
    (nodup : (a ++ j :: b).Nodup) : m.Sublist a := by
  have apart := List.nodup_middle.1 nodup
  have notIn : j ∉ a ∧ j ∉ b := by simpa using (List.nodup_cons.1 apart).1
  obtain ⟨x, y, eq, hx, hy⟩ := List.sublist_append_iff.1 h
  rcases List.append_eq_append_iff.1 eq with ⟨z, rfl, hz⟩ | ⟨z, rfl, hz⟩
  · -- the element itself cannot be in `x`
    cases z with
    | nil => simpa using hx
    | cons w z =>
      obtain ⟨rfl, -⟩ := List.cons.inj hz
      exact absurd (hx.subset (by simp)) notIn.1
  · rw [hz] at hy
    cases z with
    | nil => simpa using hx
    | cons w z =>
      cases hy with
      | cons _ hy => exact absurd (hy.subset (by simp)) notIn.2
      | cons_cons _ hy => exact absurd (hy.subset (by simp)) notIn.2

/-- Where no cycle is reached, every path from the start follows the order. -/
theorem Path.sublist (p : g.Path start j l) (acyclic : g.AcyclicFrom start) :
    l.Sublist (g.reversePostorder start) := by
  have lt : start < g.nodes.size := p.mem_lt p.source_mem
  induction p with
  | start h =>
    apply List.singleton_sublist.2
    exact (mem_reversePostorder lt).2 (.refl lt)
  | @step j k l p e ih =>
    have reached : g.Reaches start j := ⟨l, p⟩
    obtain ⟨a, b, split⟩ := List.append_of_mem ((mem_reversePostorder lt).2 reached)
    have after : k ∈ b := mem_after_of_edge lt split e (acyclic.not_reaches reached e)
    have nodup := nodup_reversePostorder lt
    rw [split] at ih nodup ⊢
    rw [p.eq_dropLast_append] at ih ⊢
    have before := sublist_of_append_singleton ih nodup
    rw [List.append_assoc]
    exact before.append (.cons_cons _ (List.singleton_sublist.2 after))

end ClasspathAdvice.Graph
