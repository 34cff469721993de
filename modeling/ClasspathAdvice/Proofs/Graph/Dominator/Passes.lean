import ClasspathAdvice.Proofs.Graph.Dominator.Look
import ClasspathAdvice.Proofs.Graph.Dominator.Numbering

/-!
# What the passes leave

In a search order a predecessor of each node is looked at before the node, so the first
pass looks at all nodes (`progress_first`), and each further pass clears paths that are one
node longer (`Progress.round`). After as many passes as there are nodes a chain holds the
dominators of its node and nothing else (`Progress.above_iff`).
-/

namespace ClasspathAdvice.DominatorTree
set_option autoImplicit false

/-- The candidates after a pass over an order of the nodes. -/
def round (g : Graph) (root : Nat) (order : List Nat) (c : Candidates) : Candidates :=
  (pass (numbering g.nodes.size order) g.predecessorTable root (order.filter (· != root)) c).1

/-- The candidates before the first pass. -/
def initial (g : Graph) (root : Nat) : Candidates :=
  (Array.replicate g.nodes.size none).setIfInBounds root (some root)

section Pass

variable {number : Array Nat} {predecessors : Array (List Nat)} {g : Graph} {root : Nat}
  {order : List Nat} {c : Candidates}

theorem foldl_refine_fst (l : List Nat) (b : Bool) :
    (l.foldl (refine number predecessors root) (c, b)).1 =
      l.foldl (look number predecessors root) c := by
  induction l generalizing c b with
  | nil => rfl
  | cons i l ih =>
    rw [List.foldl_cons, List.foldl_cons, ← refine_fst b]
    exact ih _

theorem foldl_refine_of_not_changed (l : List Nat) {b : Bool}
    (h : (l.foldl (refine number predecessors root) (c, b)).2 = false) :
    b = false ∧ l.foldl (look number predecessors root) c = c := by
  induction l generalizing c b with
  | nil => exact ⟨h, rfl⟩
  | cons i l ih =>
    rw [List.foldl_cons] at h ⊢
    obtain ⟨hb, hl⟩ := ih (c := (refine number predecessors root (c, b) i).1) h
    obtain ⟨hb', hi⟩ := refine_of_not_changed hb
    rw [refine_fst, hi] at hl
    exact ⟨hb', by rw [hi, hl]⟩

theorem round_eq : round g root order c = (order.filter (· != root)).foldl
    (look (numbering g.nodes.size order) g.predecessorTable root) c := foldl_refine_fst _ false

/-- Stopping when nothing changes is no different from going on. -/
theorem passes_eq (steps : Nat) :
    passes (numbering g.nodes.size order) g.predecessorTable root (order.filter (· != root)) steps c =
      (round g root order)^[steps] c := by
  induction steps generalizing c with
  | zero => rfl
  | succ steps ih =>
    have fst : round g root order c = (pass (numbering g.nodes.size order) g.predecessorTable root
        (order.filter (· != root)) c).1 := rfl
    rw [passes, Function.iterate_succ_apply, fst]
    split
    · rename_i h
      rw [h, ih]
    · rename_i c' h
      have still : round g root order c = c := by
        rw [round_eq]
        exact (foldl_refine_of_not_changed _ (congrArg Prod.snd h)).2
      have eq : c' = c := (congrArg Prod.fst h).symm.trans still
      rw [h, eq, Function.iterate_fixed still]

/-- What every look of a pass keeps holds after the pass. -/
theorem round_induction {P : List Nat → Candidates → Prop} (start : P [] c)
    (step : ∀ done i rest c, order.filter (· != root) = done ++ i :: rest → P done c →
      P (done ++ [i]) (look (numbering g.nodes.size order) g.predecessorTable root c i)) :
    P (order.filter (· != root)) (round g root order c) := by
  suffices ∀ l done c, order.filter (· != root) = done ++ l → P done c →
      P (order.filter (· != root))
        (l.foldl (look (numbering g.nodes.size order) g.predecessorTable root) c) by
    rw [round_eq]
    exact this _ [] c rfl start
  intro l
  induction l with
  | nil =>
    intro done c split h
    rw [List.append_nil] at split
    exact split ▸ h
  | cons i l ih =>
    intro done c split h
    exact ih (done ++ [i]) _ (by simp [split]) (step done i l c split h)

end Pass

/-- After `k` passes all nodes were looked at, no dominator is missing, and paths of up to `k`
nodes are cleared. -/
structure Progress (g : Graph) (root : Nat) (number : Array Nat) (c : Candidates) (k : Nat) : Prop
    extends Approximates g root number c where
  all : ∀ i < g.nodes.size, Known c i
  cleared : Cleared g root c fun _ => k

/-- When paths as long as there are nodes are cleared, the chain of a node holds its dominators
and nothing else. -/
theorem Progress.above_iff {g : Graph} {root i k d : Nat} {number : Array Nat} {c : Candidates}
    (h : Progress g root number c k) (enough : g.nodes.size ≤ k) (hi : i < g.nodes.size) :
    Above c d i ↔ g.Dominates root d i := by
  refine ⟨fun above => ?_, h.above_of_dominates (h.all i hi)⟩
  by_contra dom
  obtain ⟨l, p, hd, len⟩ := Graph.exists_avoiding dom
  exact h.cleared i d l p (len.trans enough) hd above

section Order

variable {g : Graph} {root i k d : Nat} {order done rest : List Nat} {c : Candidates}
  (s : g.Spanning root order)

include s

theorem ranked : Ranked g root (numbering g.nodes.size order) where
  root_lt := s.root_lt
  inj hi hj := numbering_inj s hi hj
  top hi := numbering_le s hi

theorem lt_of_split (split : order.filter (· != root) = done ++ rest) :
    ∀ j, j = root ∨ j ∈ done → j < g.nodes.size := by
  rintro j (rfl | hj)
  · exact s.root_lt
  · have mem : j ∈ order.filter (· != root) := by simp [split, hj]
    exact (s.mem j).1 (List.mem_of_mem_filter mem)

/-- In a search order each node may be looked at once all before it were. -/
theorem next_of_split (split : order.filter (· != root) = done ++ i :: rest)
    (known : ∀ j, j = root ∨ j ∈ done → Known c j) :
    Next g root (numbering g.nodes.size order) c i := by
  have eq : order = (root :: done) ++ i :: rest := by
    rw [List.cons_append, ← split]
    exact s.eq_cons
  have mem : i ∈ order.filter (· != root) := by simp [split]
  obtain ⟨u, hu, e⟩ := s.grounded _ i rest eq (by simp)
  refine ⟨(s.mem i).1 (List.mem_of_mem_filter mem), by simpa using (List.mem_filter.1 mem).2, u, e,
    known u (List.mem_cons.1 hu), numbering_lt s eq hu⟩

theorem leads_initial {j : Nat} : Leads (initial g root) i j ↔ i = root ∧ j = root := by
  rw [initial, leads_set (by simpa using s.root_lt)]
  by_cases h : i = root
  · simp [h]
  · by_cases hi : i < g.nodes.size <;> simp [h, Leads, Array.getD_eq_getD_getElem?, hi]

theorem approximates_initial :
    Approximates g root (numbering g.nodes.size order) (initial g root) := by
  have leads : ∀ {i j}, Leads (initial g root) i j ↔ i = root ∧ j = root := leads_initial s
  have only : ∀ {i}, Known (initial g root) i → i = root := fun ⟨_, h⟩ => (leads.1 h).1
  exact {
    self := leads.2 ⟨rfl, rfl⟩
    higher := fun h ne => absurd (leads.1 h).1 ne
    known := fun h => ⟨root, leads.2 ⟨(leads.1 h).2, rfl⟩⟩
    inj := fun h h' _ => (only h).trans (only h').symm
    top := fun h => by rw [only h]
    size := by simp [initial]
    keeps := fun h ne _ _ => absurd (leads.1 h).1 ne }

/-- The first pass looks at all nodes. -/
theorem progress_first :
    Progress g root (numbering g.nodes.size order) (round g root order (initial g root)) 1 := by
  have ⟨a, known⟩ := @round_induction g root order (initial g root)
    (fun done c => Approximates g root (numbering g.nodes.size order) c ∧
      ∀ j, j = root ∨ j ∈ done → Known c j)
    ⟨approximates_initial s, fun j h => ⟨root, (leads_initial s).2 (by simpa using h)⟩⟩
    fun done i rest c split ⟨a, known⟩ => by
      have next := next_of_split s split known
      exact ⟨a.after_look (ranked s) next, next.known_append a known⟩
  refine ⟨a, fun i hi => known i ?_, ?_⟩
  · by_cases h : i = root
    · exact .inl h
    · exact .inr (List.mem_filter.2 ⟨(s.mem i).2 hi, by simpa using h⟩)
  · -- a path of one node ends at the root, whose chain is itself
    rintro i d l (_ | ⟨p, e⟩) len hd above
    · exact hd (by simp [a.eq_root above])
    · have := List.length_pos_iff.2 p.ne_nil
      simp only [List.length_append, List.length_singleton] at len
      omega

/-- A further pass clears paths that are one node longer. -/
theorem Progress.round (h : Progress g root (numbering g.nodes.size order) c k) :
    Progress g root (numbering g.nodes.size order) (round g root order c) (k + 1) := by
  have ⟨a, all, cleared⟩ := @round_induction g root order c
    (fun done c => Approximates g root (numbering g.nodes.size order) c ∧
      (∀ i < g.nodes.size, Known c i) ∧ Cleared g root c fun i => if i ∈ done then k + 1 else k)
    ⟨h.toApproximates, h.all, by simpa using h.cleared⟩
    fun done i rest c split ⟨a, all, cleared⟩ => by
      have next := next_of_split s split fun j hj => all j (lt_of_split s split j hj)
      have more := cleared.after_look (k := k) a next all fun j => by split <;> omega
      refine ⟨a.after_look (ranked s) next, fun j hj => next.known_look a (.inr (all j hj)), ?_⟩
      convert more using 2 with j
      by_cases hj : j = i <;> simp [hj]
  refine ⟨a, all, fun i d l p len hd above => ?_⟩
  by_cases hi : i = root
  · subst hi
    exact hd (a.eq_root above ▸ p.target_mem)
  · have mem : i ∈ order.filter (· != root) :=
      List.mem_filter.2 ⟨(s.mem i).2 p.target_lt, by simpa using hi⟩
    exact cleared i d l p (by simpa only [if_pos mem] using len) hd above

theorem progress_passes (steps : Nat) : Progress g root (numbering g.nodes.size order)
    (passes (numbering g.nodes.size order) g.predecessorTable root (order.filter (· != root))
      (steps + 1) (initial g root)) (steps + 1) := by
  rw [passes_eq]
  induction steps with
  | zero => exact progress_first s
  | succ steps ih =>
    rw [Function.iterate_succ_apply']
    exact ih.round s

end Order

end ClasspathAdvice.DominatorTree
