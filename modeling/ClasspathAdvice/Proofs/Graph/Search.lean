import ClasspathAdvice.Graph.Search
import ClasspathAdvice.Proofs.Graph.Path

/-!
# What a depth-first search finds

The loop of `depthFirst` keeps `Searching`: the nodes on the trail, from its bottom, and
then the finished ones are a list without repetition in which every node but the first
has a predecessor ahead of it, and successors that are not found yet are still to visit.
Finishing a node does not change that list and visiting one inserts it, so the order at
the end begins with the start and holds exactly the nodes that it reaches.
-/

namespace ClasspathAdvice.Graph
set_option autoImplicit false

/-- The nodes found so far: those on the trail, from its bottom, and the finished ones. -/
def found (trail : List (Nat × List Nat)) (order : List Nat) : List Nat :=
  (trail.map Prod.fst).reverse ++ order

/-- Every node of a list but the first has a predecessor ahead of it. -/
def Grounded (g : Graph) (l : List Nat) : Prop :=
  ∀ a j b, l = a ++ j :: b → a ≠ [] → ∃ i ∈ a, (i, j) ∈ g.edges

/-- The state of a depth-first search from `start`. -/
structure Searching (g : Graph) (start : Nat) (trail : List (Nat × List Nat)) (marks : Array Bool)
    (order : List Nat) : Prop where
  size : marks.size = g.nodes.size
  marked : ∀ i, marks[i]? = some true ↔ i ∈ found trail order
  nodup : (found trail order).Nodup
  head : (found trail order).head? = some start
  grounded : Grounded g (found trail order)
  pending : ∀ p ∈ trail, ∀ j ∈ p.2, (p.1, j) ∈ g.edges
  explored : ∀ p ∈ trail, ∀ j, (p.1, j) ∈ g.edges → j ∈ p.2 ∨ j ∈ found trail order
  closed : ∀ i ∈ order, ∀ j, (i, j) ∈ g.edges → j ∈ found trail order

variable {g : Graph} {start i j : Nat} {trail : List (Nat × List Nat)} {marks : Array Bool}
  {order l : List Nat}

theorem found_finish (rest : List Nat) :
    found ((i, rest) :: trail) order = found trail (i :: order) := by simp [found]

theorem found_visit (rest next : List Nat) :
    found ((j, next) :: (i, rest) :: trail) order =
      ((trail.map Prod.fst).reverse ++ [i]) ++ j :: order := by simp [found]

theorem Grounded.singleton : Grounded g [i] := by
  rintro (_ | ⟨a, l⟩) j b h ne
  · exact absurd rfl ne
  · simp at h

/-- A node may be put anywhere behind one of its predecessors. -/
theorem Grounded.insert {a b : List Nat} (h : Grounded g (a ++ b)) (hi : i ∈ a)
    (e : (i, j) ∈ g.edges) : Grounded g (a ++ j :: b) := by
  intro c k d split ne
  rcases List.append_eq_append_iff.1 split with ⟨m, rfl, hm⟩ | ⟨m, rfl, hm⟩
  · -- the cut is behind `a`: at `j` itself, or further on, where `j` is one more node ahead
    cases m with
    | nil =>
      obtain ⟨rfl, -⟩ := List.cons.inj hm
      exact ⟨i, by simpa using hi, e⟩
    | cons x m =>
      obtain ⟨rfl, rfl⟩ := List.cons.inj hm
      obtain ⟨p, hp, ep⟩ := h (a ++ m) k d (by simp) (by rintro eq; simp_all)
      exact ⟨p, by rcases List.mem_append.1 hp with hp | hp <;> simp [hp], ep⟩
  · cases m with
    | nil =>
      obtain ⟨rfl, -⟩ := List.cons.inj hm
      exact ⟨i, by simpa using hi, e⟩
    | cons x m =>
      obtain ⟨rfl, rfl⟩ := List.cons.inj hm
      exact h c k (m ++ b) (by simp) ne

/-- To each node of a grounded list leads a path from its first that follows the list. -/
theorem Grounded.exists_path (h : Grounded g l) (head : l.head? = some start)
    (lt : start < g.nodes.size) (a b : List Nat) (split : l = a ++ j :: b) :
    ∃ p, g.Path start j p ∧ p.Sublist (a ++ [j]) := by
  generalize hn : a.length = n
  induction n using Nat.strongRecOn generalizing a j b with
  | ind n ih =>
    by_cases ne : a = []
    · subst ne split
      obtain rfl : j = start := by simpa using head
      exact ⟨_, .start lt, List.Sublist.refl _⟩
    · obtain ⟨i, hi, e⟩ := h a j b split ne
      obtain ⟨c, d, rfl⟩ := List.append_of_mem hi
      have shorter : c.length < n := by
        rw [← hn, List.length_append, List.length_cons]
        omega
      have earlier : l = c ++ i :: (d ++ j :: b) := by simp [split]
      obtain ⟨p, isPath, follows⟩ := ih c.length shorter c (d ++ j :: b) earlier rfl
      refine ⟨p ++ [j], isPath.step e, List.Sublist.append ?_ (List.Sublist.refl _)⟩
      have front : c ++ i :: d = c ++ [i] ++ d := by simp
      rw [front]
      exact follows.trans (List.sublist_append_left _ _)

/-- The nodes of a grounded list are reached from its first. -/
theorem Grounded.reaches (h : Grounded g l) (head : l.head? = some start)
    (lt : start < g.nodes.size) : ∀ i ∈ l, g.Reaches start i := by
  intro i hi
  obtain ⟨a, b, split⟩ := List.append_of_mem hi
  obtain ⟨p, isPath, -⟩ := h.exists_path head lt a b split
  exact ⟨p, isPath⟩

/-! ## The loop -/

namespace Searching

/-- At the start only the start is found. -/
theorem initial (h : start < g.nodes.size) :
    Searching g start [(start, g.successorTable.getD start [])]
      ((Array.replicate g.nodes.size false).setIfInBounds start true) [] where
  size := by simp
  marked i := by
    rw [Array.getElem?_setIfInBounds, Array.size_replicate]
    by_cases hi : start = i
    · simp [found, hi, hi ▸ h]
    · simp [found, hi, Ne.symm hi, Array.getElem?_replicate]
  nodup := by simp [found]
  head := rfl
  grounded := Grounded.singleton
  pending := by
    intro p hp j hj
    rw [List.mem_singleton.1 hp] at hj ⊢
    exact (mem_successors h).1 hj
  explored := by
    intro p hp j e
    rw [List.mem_singleton.1 hp] at e ⊢
    exact .inl ((mem_successors h).2 e)
  closed := by simp

/-- A node whose successors are done is finished. -/
theorem finish (s : Searching g start ((i, []) :: trail) marks order) :
    Searching g start trail marks (i :: order) where
  size := s.size
  marked := by simpa only [found_finish] using s.marked
  nodup := by simpa only [found_finish] using s.nodup
  head := by simpa only [found_finish] using s.head
  grounded := by simpa only [found_finish] using s.grounded
  pending p hp := s.pending p (List.mem_cons_of_mem _ hp)
  explored p hp j e := by
    simpa only [found_finish] using s.explored p (List.mem_cons_of_mem _ hp) j e
  closed k hk j e := by
    rcases List.mem_cons.1 hk with rfl | hk
    · have := s.explored _ List.mem_cons_self j e
      simpa only [found_finish, List.not_mem_nil, false_or] using this
    · simpa only [found_finish] using s.closed k hk j e

/-- A successor that is found already is passed over. -/
theorem skip {rest : List Nat} (s : Searching g start ((i, j :: rest) :: trail) marks order)
    (hj : marks[j]? = some true) : Searching g start ((i, rest) :: trail) marks order where
  size := s.size
  marked := s.marked
  nodup := s.nodup
  head := s.head
  grounded := s.grounded
  pending p hp k hk := by
    rcases List.mem_cons.1 hp with rfl | hp
    · exact s.pending _ List.mem_cons_self k (List.mem_cons_of_mem _ hk)
    · exact s.pending p (List.mem_cons_of_mem _ hp) k hk
  explored p hp k e := by
    rcases List.mem_cons.1 hp with rfl | hp
    · rcases s.explored _ List.mem_cons_self k e with hk | hk
      · rcases List.mem_cons.1 hk with rfl | hk
        · exact .inr ((s.marked k).1 hj)
        · exact .inl hk
      · exact .inr hk
    · exact s.explored p (List.mem_cons_of_mem _ hp) k e
  closed := s.closed

/-- A successor that is not found yet is visited: it is marked and put on the trail. -/
theorem visit {rest : List Nat} (s : Searching g start ((i, j :: rest) :: trail) marks order)
    (lt : j < marks.size) (hj : marks[j] = false) :
    Searching g start ((j, g.successorTable.getD j []) :: (i, rest) :: trail) (mark marks j lt)
      order := by
  have e : (i, j) ∈ g.edges := s.pending _ List.mem_cons_self j List.mem_cons_self
  have jlt : j < g.nodes.size := (edge_lt e).2
  have before : found ((i, j :: rest) :: trail) order =
      ((trail.map Prod.fst).reverse ++ [i]) ++ order := by simp [found]
  have fresh : j ∉ found ((i, j :: rest) :: trail) order := by
    rw [← s.marked, Array.getElem?_eq_getElem lt, hj]
    simp
  have mem : ∀ k, k ∈ found ((j, g.successorTable.getD j []) :: (i, rest) :: trail) order ↔
      k = j ∨ k ∈ found ((i, j :: rest) :: trail) order := by
    intro k
    rw [found_visit, before]
    simp only [List.mem_append, List.mem_cons]
    grind
  constructor
  case size => simp [mark, s.size]
  case marked =>
    intro k
    rw [mem, ← s.marked, mark, Array.getElem?_set]
    by_cases hk : j = k
    · simp [hk]
    · simp [hk, Ne.symm hk]
  case nodup =>
    rw [found_visit, List.nodup_middle, ← before]
    exact List.nodup_cons.2 ⟨fresh, s.nodup⟩
  case head =>
    have := s.head
    rw [before] at this
    rw [found_visit]
    cases h : (trail.map Prod.fst).reverse <;> simp_all
  case grounded =>
    rw [found_visit]
    exact Grounded.insert (before ▸ s.grounded) (by simp) e
  case pending =>
    intro p hp k hk
    rcases List.mem_cons.1 hp with rfl | hp
    · exact (mem_successors jlt).1 hk
    · rcases List.mem_cons.1 hp with rfl | hp
      · exact s.pending _ List.mem_cons_self k (List.mem_cons_of_mem _ hk)
      · exact s.pending p (List.mem_cons_of_mem _ hp) k hk
  case explored =>
    intro p hp k ek
    rw [mem]
    rcases List.mem_cons.1 hp with rfl | hp
    · exact .inl ((mem_successors jlt).2 ek)
    · rcases List.mem_cons.1 hp with rfl | hp
      · rcases s.explored _ List.mem_cons_self k ek with hk | hk
        · rcases List.mem_cons.1 hk with rfl | hk
          · exact .inr (.inl rfl)
          · exact .inl hk
        · exact .inr (.inr hk)
      · exact (s.explored p (List.mem_cons_of_mem _ hp) k ek).imp_right .inr
  case closed =>
    intro k hk m em
    rw [mem]
    exact .inr (s.closed k hk m em)

/-- The search keeps its invariant until the trail is used up. -/
theorem run (s : Searching g start trail marks order) :
    ∃ marks', Searching g start [] marks' (depthFirst g.successorTable trail marks order) := by
  fun_induction depthFirst g.successorTable trail marks order with
  | case1 marks order => exact ⟨marks, s⟩
  | case2 marks order i trail ih => exact ih s.finish
  | case3 marks order i j rest trail lt hj ih =>
    exact ih (s.skip (by rw [Array.getElem?_eq_getElem lt, hj]))
  | case4 marks order i j rest trail lt hj ih => exact ih (s.visit lt (by simpa using hj))
  | case5 marks order i j rest trail lt ih =>
    have e := s.pending _ List.mem_cons_self j List.mem_cons_self
    exact absurd (s.size ▸ (edge_lt e).2) lt

end Searching

/-! ## The order that is found -/

/-- A search that is over has the state of one with an empty trail. -/
theorem searching_reversePostorder (h : start < g.nodes.size) :
    ∃ marks, Searching g start [] marks (g.reversePostorder start) := (Searching.initial h).run

theorem nodup_reversePostorder (h : start < g.nodes.size) : (g.reversePostorder start).Nodup := by
  obtain ⟨_, s⟩ := searching_reversePostorder h
  exact s.nodup

theorem head?_reversePostorder (h : start < g.nodes.size) :
    (g.reversePostorder start).head? = some start := by
  obtain ⟨_, s⟩ := searching_reversePostorder h
  exact s.head

theorem grounded_reversePostorder (h : start < g.nodes.size) :
    Grounded g (g.reversePostorder start) := by
  obtain ⟨_, s⟩ := searching_reversePostorder h
  exact s.grounded

/-- The order holds exactly the nodes that can be reached. -/
theorem mem_reversePostorder (h : start < g.nodes.size) :
    i ∈ g.reversePostorder start ↔ g.Reaches start i := by
  refine ⟨(grounded_reversePostorder h).reaches (head?_reversePostorder h) h i, ?_⟩
  rintro ⟨l, p⟩
  obtain ⟨_, s⟩ := searching_reversePostorder h
  induction p with
  | start => exact List.mem_of_mem_head? s.head
  | step _ e ih => exact s.closed _ ih _ e

end ClasspathAdvice.Graph
