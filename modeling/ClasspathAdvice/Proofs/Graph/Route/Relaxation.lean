import ClasspathAdvice.Proofs.Graph.Route.Lengths

/-!
# A pass over the edges

Taking the edges of a node lowers the distances of its successors to one more than its own
where they are longer (`entry_foldl_relax`). So when the edges of a list of nodes have been
taken, each distance is the least length of a path along the list, and the node that it comes
from is the first in the list through which that length is met (`Taken`).
-/

namespace ClasspathAdvice.Routes
set_option autoImplicit false

/-- The distance of a node. -/
def distance (t : Table) (j : Nat) : Option Nat := t.1.getD j none

/-- The node before another on its route. -/
def before (t : Table) (j : Nat) : Option Nat := t.2.getD j none

/-- What the table says of a node. -/
def entry (t : Table) (j : Nat) : Option Nat × Option Nat := (distance t j, before t j)

/-- In the list `order`, a path to `j` with `n + 1` edges is first met by an edge from `i`. -/
def Enters (g : Graph) (source : Nat) (order : List Nat) (i j n : Nat) : Prop :=
  ∃ a b, order = a ++ i :: b ∧ (i, j) ∈ g.edges ∧ n ∈ g.lengthsAlong a source i ∧
    n + 1 ∉ g.lengthsAlong a source j

/-- The edges of the nodes `done` have been taken, in this order. -/
structure Taken (g : Graph) (source : Nat) (done : List Nat) (t : Table) : Prop where
  size : t.1.size = g.nodes.size ∧ t.2.size = g.nodes.size
  minimum : ∀ j, Graph.IsMinimum (g.lengthsAlong done source j) (distance t j)
  enters : ∀ i j, before t j = some i → ∃ n, distance t j = some (n + 1) ∧ Enters g source done i j n
  entered : ∀ j n, distance t j = some (n + 1) → ∃ i, before t j = some i

variable {g : Graph} {source i j k n base size : Nat} {done rest : List Nat} {t : Table}

/-! ## One edge, and the edges of one node -/

theorem relax_eq : relax i base t k = if isLonger (distance t k) (base + 1) then
    (t.1.setIfInBounds k (some (base + 1)), t.2.setIfInBounds k (some i)) else t := rfl

theorem size_relax (h : t.1.size = size ∧ t.2.size = size) :
    (relax i base t k).1.size = size ∧ (relax i base t k).2.size = size := by
  rw [relax_eq]
  split
  · simpa using h
  · exact h

theorem entry_relax (h : t.1.size = size ∧ t.2.size = size) (lt : k < size) :
    entry (relax i base t k) j =
      if j = k ∧ isLonger (distance t j) (base + 1) then (some (base + 1), some i) else entry t j := by
  have set : ∀ (a : Array (Option Nat)) (x : Option Nat), a.size = size →
      (a.setIfInBounds k x).getD j none = if j = k then x else a.getD j none := by
    intro a x eq
    rw [Array.getD_eq_getD_getElem?, Array.getElem?_setIfInBounds, Array.getD_eq_getD_getElem?]
    by_cases same : k = j
    · have lt' : j < a.size := by omega
      simp [same, lt']
    · simp [same, Ne.symm same]
  rw [relax_eq]
  by_cases longer : isLonger (distance t k) (base + 1) = true
  · rw [if_pos longer, entry, distance, before, set _ _ h.1, set _ _ h.2]
    by_cases same : j = k
    · simp [same, longer]
    · simp [same, entry, distance, before]
  · rw [if_neg longer]
    by_cases same : j = k
    · simp [same, longer]
    · simp [same]

/-- The edges of a node are taken once for each successor that is farther with another route. -/
theorem entry_foldl_relax (targets : List Nat) (h : t.1.size = size ∧ t.2.size = size)
    (lt : ∀ k ∈ targets, k < size) : entry (targets.foldl (relax i base) t) j =
      if j ∈ targets ∧ isLonger (distance t j) (base + 1) then (some (base + 1), some i)
      else entry t j := by
  induction targets generalizing t with
  | nil => simp
  | cons k targets ih =>
    have first : entry (relax i base t k) j = _ := entry_relax h (lt k List.mem_cons_self)
    have others : entry (targets.foldl (relax i base) (relax i base t k)) j = _ :=
      ih (size_relax h) fun m hm => lt m (List.mem_cons_of_mem _ hm)
    have dist : distance (relax i base t k) j = (entry (relax i base t k) j).1 := rfl
    rw [List.foldl_cons, others, dist, first]
    by_cases taken : j = k ∧ isLonger (distance t j) (base + 1) = true
    · have settled : isLonger (some (base + 1)) (base + 1) = false := by simp [isLonger]
      simp [taken.1, taken.1 ▸ taken.2, settled]
    · by_cases same : j = k
      · have near : ¬ isLonger (distance t j) (base + 1) = true := fun longer => taken ⟨same, longer⟩
        simp [near, entry]
      · simp [same, entry]

theorem size_foldl_relax (targets : List Nat) (h : t.1.size = size ∧ t.2.size = size) :
    (targets.foldl (relax i base) t).1.size = size ∧
      (targets.foldl (relax i base) t).2.size = size := by
  induction targets generalizing t with
  | nil => exact h
  | cons k targets ih => exact ih (size_relax h)

/-- A node without a distance is passed over. -/
theorem relaxFrom_of_none {successors : Array (List Nat)} (h : distance t i = none) :
    relaxFrom successors t i = t := by
  unfold distance at h
  simp [relaxFrom, h]

theorem relaxFrom_of_some {successors : Array (List Nat)} (h : distance t i = some base) :
    relaxFrom successors t i = (successors.getD i []).foldl (relax i base) t := by
  unfold distance at h
  simp [relaxFrom, h]

/-- Taking the edges of a node with a distance. -/
theorem entry_relaxFrom (h : t.1.size = g.nodes.size ∧ t.2.size = g.nodes.size)
    (lt : i < g.nodes.size) (reached : distance t i = some base) :
    entry (relaxFrom g.successorTable t i) j =
      if (i, j) ∈ g.edges ∧ isLonger (distance t j) (base + 1) then (some (base + 1), some i)
      else entry t j := by
  have targets : ∀ k ∈ g.successorTable.getD i [], k < g.nodes.size := by
    intro k hk
    exact (Graph.edge_lt ((Graph.mem_successors lt).1 hk)).2
  rw [relaxFrom_of_some reached, entry_foldl_relax _ h targets]
  simp only [Graph.mem_successors lt]

/-! ## The pass -/

theorem Enters.concat (h : Enters g source done i j n) : Enters g source (done ++ [k]) i j n := by
  obtain ⟨a, b, split, e, here, fresh⟩ := h
  exact ⟨a, b ++ [k], by simp [split], e, here, fresh⟩

namespace Taken

/-- Before the pass only the source has a distance. -/
theorem initial (h : source < g.nodes.size) :
    Taken g source [] ((Array.replicate g.nodes.size none).setIfInBounds source (some 0),
      Array.replicate g.nodes.size none) := by
  have none' : ∀ j, (Array.replicate g.nodes.size (none : Option Nat)).getD j none = none := by
    intro j
    rw [Array.getD_eq_getD_getElem?, Array.getElem?_replicate]
    split <;> rfl
  have start : ∀ j, distance ((Array.replicate g.nodes.size none).setIfInBounds source (some 0),
      Array.replicate g.nodes.size none) j = if j = source then some 0 else none := by
    intro j
    unfold distance
    rw [Array.getD_eq_getD_getElem?, Array.getElem?_setIfInBounds]
    by_cases same : source = j
    · simp [same, same ▸ h]
    · rw [if_neg same, if_neg (Ne.symm same), ← Array.getD_eq_getD_getElem?]
      exact none' j
  refine ⟨by simp, fun j => ?_, fun i j eq => ?_, fun j n eq => ?_⟩
  · rw [start, Graph.lengthsAlong_nil h]
    split
    · exact isLeast_singleton
    · rfl
  · rw [before, none'] at eq
    cases eq
  · rw [start] at eq
    split at eq <;> cases eq

/-- A node without a distance has no path along the list, so it adds none. -/
theorem concat_of_none (k : Taken g source done t) (reached : distance t i = none) :
    Taken g source (done ++ [i]) t := by
  have nothing : g.lengthsAlong done source i = ∅ := ((k.minimum i).eq_none_iff).1 reached
  refine ⟨k.size, fun j => ?_, fun u j eq => ?_, k.entered⟩
  · rw [Graph.lengthsAlong_concat]
    simpa [nothing] using k.minimum j
  · obtain ⟨n, dist, enters⟩ := k.enters u j eq
    exact ⟨n, dist, enters.concat⟩

/-- The edges of a node are the last edges of the paths that it adds along the list. -/
theorem concat_of_some (k : Taken g source done t) (lt : i < g.nodes.size)
    (reached : distance t i = some base) :
    Taken g source (done ++ [i]) (relaxFrom g.successorTable t i) := by
  have here := k.minimum i
  rw [reached] at here
  have least : IsLeast (g.lengthsAlong done source i) base := here
  have next : ∀ j, (distance (relaxFrom g.successorTable t i) j,
      before (relaxFrom g.successorTable t i) j) =
        if (i, j) ∈ g.edges ∧ isLonger (distance t j) (base + 1) then (some (base + 1), some i)
        else (distance t j, before t j) := fun j => entry_relaxFrom k.size lt reached
  constructor
  case size =>
    rw [relaxFrom_of_some reached]
    exact size_foldl_relax _ k.size
  case minimum =>
    intro j
    rw [Graph.lengthsAlong_concat]
    have relaxed := (k.minimum j).relax least
    by_cases e : (i, j) ∈ g.edges
    · by_cases longer : isLonger (distance t j) (base + 1) = true
      · obtain ⟨dist, -⟩ := Prod.mk.inj ((next j).trans (if_pos ⟨e, longer⟩))
        simpa [dist, e, longer] using relaxed
      · obtain ⟨dist, -⟩ := Prod.mk.inj ((next j).trans (if_neg fun taken => longer taken.2))
        simpa [dist, e, longer] using relaxed
    · obtain ⟨dist, -⟩ := Prod.mk.inj ((next j).trans (if_neg fun taken => e taken.1))
      simpa [dist, e] using k.minimum j
  case enters =>
    intro u j eq
    by_cases taken : (i, j) ∈ g.edges ∧ isLonger (distance t j) (base + 1) = true
    · obtain ⟨dist, prev⟩ := Prod.mk.inj ((next j).trans (if_pos taken))
      obtain rfl : i = u := Option.some.inj (prev.symm.trans eq)
      refine ⟨base, dist, done, [], rfl, taken.1, least.1, ?_⟩
      exact (k.minimum j).not_mem_of_isLonger taken.2
    · obtain ⟨dist, prev⟩ := Prod.mk.inj ((next j).trans (if_neg taken))
      obtain ⟨n, known, enters⟩ := k.enters u j (prev.symm.trans eq)
      exact ⟨n, dist.trans known, enters.concat⟩
  case entered =>
    intro j n eq
    by_cases taken : (i, j) ∈ g.edges ∧ isLonger (distance t j) (base + 1) = true
    · exact ⟨i, (Prod.mk.inj ((next j).trans (if_pos taken))).2⟩
    · obtain ⟨dist, prev⟩ := Prod.mk.inj ((next j).trans (if_neg taken))
      obtain ⟨u, known⟩ := k.entered j n (dist.symm.trans eq)
      exact ⟨u, prev.trans known⟩

/-- One more node is taken. -/
theorem concat (k : Taken g source done t) (lt : i < g.nodes.size) :
    Taken g source (done ++ [i]) (relaxFrom g.successorTable t i) := by
  cases reached : distance t i with
  | none =>
    rw [relaxFrom_of_none reached]
    exact k.concat_of_none reached
  | some base => exact k.concat_of_some lt reached

/-- The pass takes the edges of one node after the other. -/
theorem foldl (k : Taken g source done t) (lt : ∀ i ∈ rest, i < g.nodes.size) :
    Taken g source (done ++ rest) (rest.foldl (relaxFrom g.successorTable) t) := by
  induction rest generalizing done t with
  | nil => simpa using k
  | cons i rest ih =>
    have next := k.concat (lt i List.mem_cons_self)
    have all := ih next fun j hj => lt j (List.mem_cons_of_mem _ hj)
    simpa using all

end Taken

/-- The routes from a node are found in one pass over reverse postorder. -/
theorem taken_ofSource (h : source < g.nodes.size) :
    Taken g source (g.reversePostorder source)
      ((ofSource g source).distances, (ofSource g source).previous) := by
  have lt : ∀ i ∈ g.reversePostorder source, i < g.nodes.size := by
    intro i hi
    obtain ⟨l, p⟩ := (Graph.mem_reversePostorder h).1 hi
    exact p.target_lt
  exact (Taken.initial h).foldl lt

end ClasspathAdvice.Routes
