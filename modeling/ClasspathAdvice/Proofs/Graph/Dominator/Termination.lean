import ClasspathAdvice.Proofs.Graph.DominatorTree
import ClasspathAdvice.Proofs.Graph.Numbers
import Mathlib.Computability.StateTransition
import Mathlib.Data.Nat.Find

/-!
# The search for dominators comes to an end

Nothing bounds the loops of the search by a number of rounds: two nodes move up until they
are the same, passes are made until nothing changes, and a node is followed up until the
dominator or the root is met. `step` is that search one move at a time, and `ascend` the way
up one node at a time. From a root that reaches all nodes both come to an end, and where they
end is what the tree holds and answers (`ofRoot_terminates`).

A climb ends since each move raises a number. The passes end since after as many as there are
nodes the chain of each node holds its dominators and nothing else; a look then finds the
candidate that is already there (`Progress.refine_eq`).
-/

namespace ClasspathAdvice.DominatorTree
set_option autoImplicit false

open StateTransition

/-- A pass under way: the candidates, whether one has changed, and the nodes not yet looked at. -/
structure Underway where
  candidates : Candidates
  changed : Bool
  left : List Nat

/-- A point of the search. -/
inductive Point where
  /-- Between two looks. -/
  | between (p : Underway)
  /-- In the look at a node: where the chains of some predecessors meet, and the predecessors that
  are left. -/
  | gathering (p : Underway) (node : Nat) (predecessors : List Nat) (found : Nat)
  /-- In the climb of two nodes to where their chains meet. -/
  | climbing (p : Underway) (node : Nat) (predecessors : List Nat) (i j : Nat)

/-- The next point of the search, which ends after a pass without a change. -/
def step (number : Array Nat) (predecessors : Array (List Nat)) (root : Nat) (others : List Nat) :
    Point → Option Point
  | .between ⟨c, true, []⟩ => some (.between ⟨c, false, others⟩)
  | .between ⟨_, false, []⟩ => none
  | .between ⟨c, changed, node :: left⟩ =>
    match (predecessors.getD node []).filter (fun i => (c.getD i none).isSome) with
    | [] => some (.between ⟨c, changed, left⟩)
    | first :: rest => some (.gathering ⟨c, changed, left⟩ node rest first)
  | .gathering p node [] found =>
    if p.candidates.getD node none = some found then some (.between p)
    else some (.between ⟨p.candidates.setIfInBounds node (some found), true, p.left⟩)
  | .gathering p node (i :: rest) found => some (.climbing p node rest i found)
  | .climbing p node rest i j =>
    if number.getD i 0 = number.getD j 0 then some (.gathering p node rest i)
    else if number.getD i 0 < number.getD j 0 then
      some (.climbing p node rest (candidateOf root p.candidates i) j)
    else some (.climbing p node rest i (candidateOf root p.candidates j))

/-- The search over an order of the nodes of a graph. -/
def search (g : Graph) (root : Nat) (order : List Nat) : Point → Option Point :=
  step (numbering g.nodes.size order) g.predecessorTable root (order.filter (· != root))

/-- Whether a pass over an order of the nodes changes a candidate. -/
def changes (g : Graph) (root : Nat) (order : List Nat) (c : Candidates) : Bool :=
  (pass (numbering g.nodes.size order) g.predecessorTable root (order.filter (· != root)) c).2

/-- The next node on the way up from a node to a dominator, which ends there or at the root. -/
def ascend (t : DominatorTree) (dominator i : Nat) : Option Nat :=
  if i = dominator then none
  else if i = t.root then none
  else some (t.immediateOf i)

/-! ## A climb -/

section Climb

variable {number : Array Nat} {predecessors : Array (List Nat)} {root node i j : Nat}
  {others rest : List Nat} {p : Underway}

theorem step_climbing_same (same : number.getD i 0 = number.getD j 0) :
    step number predecessors root others (.climbing p node rest i j) =
      some (.gathering p node rest i) := if_pos same

theorem step_climbing_left (lt : number.getD i 0 < number.getD j 0) :
    step number predecessors root others (.climbing p node rest i j) =
      some (.climbing p node rest (candidateOf root p.candidates i) j) := by
  rw [step, if_neg (Nat.ne_of_lt lt), if_pos lt]

theorem step_climbing_right (lt : number.getD j 0 < number.getD i 0) :
    step number predecessors root others (.climbing p node rest i j) =
      some (.climbing p node rest i (candidateOf root p.candidates j)) := by
  rw [step, if_neg (Nat.ne_of_gt lt), if_neg (Nat.lt_asymm lt)]

/-- A climb of two nodes takes the moves that are counted for it. -/
theorem reaches_meetWithin (r : Rising number root p.candidates) (steps : Nat)
    (hi : Known p.candidates i) (hj : Known p.candidates j)
    (enough : (number.getD root 0 - number.getD i 0) +
      (number.getD root 0 - number.getD j 0) ≤ steps) :
    Reaches (step number predecessors root others) (.climbing p node rest i j)
      (.gathering p node rest (meetWithin number root p.candidates steps i j)) := by
  have topi := r.top hi
  have topj := r.top hj
  induction steps generalizing i j with
  | zero =>
    have same : number.getD i 0 = number.getD j 0 := by omega
    exact .single (step_climbing_same same)
  | succ steps ih =>
    simp only [meetWithin]
    split
    · exact .single (step_climbing_same ‹_›)
    · rename_i differ
      split
      · rename_i lt
        obtain ⟨k, e⟩ := hi
        have up := r.higher e (fun h => by subst h; omega)
        refine .head (step_climbing_left lt) ?_
        rw [Rising.candidateOf e]
        exact ih (r.known e) hj (by omega) (r.top (r.known e)) topj
      · rename_i notLt
        obtain ⟨k, e⟩ := hj
        have up := r.higher e (fun h => by subst h; omega)
        refine .head (step_climbing_right (by omega)) ?_
        rw [Rising.candidateOf e]
        exact ih hi (r.known e) (by omega) topi (r.top (r.known e))

/-- Two nodes climb to where their chains meet. -/
theorem reaches_meet (r : Rising number root p.candidates) (hi : Known p.candidates i)
    (hj : Known p.candidates j) :
    Reaches (step number predecessors root others) (.climbing p node rest i j)
      (.gathering p node rest (meet number root p.candidates i j)) :=
  reaches_meetWithin r _ hi hj (Nat.le_refl _)

/-- One climb after the other, all predecessors are gathered. -/
theorem reaches_gathered (r : Rising number root p.candidates)
    (known : ∀ i ∈ rest, Known p.candidates i) (hj : Known p.candidates j) :
    Reaches (step number predecessors root others) (.gathering p node rest j)
      (.gathering p node [] (rest.foldl (fun found i => meet number root p.candidates i found) j)) := by
  induction rest generalizing j with
  | nil => exact .refl
  | cons i rest ih =>
    obtain ⟨hi, known⟩ := List.forall_mem_cons.1 known
    have begins : Point.climbing p node rest i j ∈
        step number predecessors root others (.gathering p node (i :: rest) j) := rfl
    have met := r.known_above hi (meet_spec r hi hj).left
    exact .head begins ((reaches_meet r hi hj).trans (ih known met))

/-- A climb that is part of a search that ends comes to an end. -/
theorem climb_ends {final : Underway} {begin : Point}
    (ends : .between final ∈ eval (step number predecessors root others) begin)
    (reached : Reaches (step number predecessors root others) begin (.climbing p node rest i j)) :
    ∃ m, Reaches (step number predecessors root others) (.climbing p node rest i j)
      (.gathering p node rest m) := by
  rw [reaches_eval reached] at ends
  obtain ⟨run, -⟩ := mem_eval.1 ends
  clear ends reached
  -- along what is left of the run a climb goes on until its two nodes are the same
  generalize climb : Point.climbing p node rest i j = point at run
  induction run using Relation.ReflTransGen.head_induction_on generalizing i j with
  | refl => cases climb
  | head move _ ih =>
    subst climb
    rw [Option.mem_def] at move
    rcases Nat.lt_trichotomy (number.getD i 0) (number.getD j 0) with lt | same | gt
    · rw [step_climbing_left lt] at move
      cases move
      obtain ⟨m, onward⟩ := ih rfl
      exact ⟨m, .head (step_climbing_left lt) onward⟩
    · exact ⟨i, .single (step_climbing_same same)⟩
    · rw [step_climbing_right gt] at move
      cases move
      obtain ⟨m, onward⟩ := ih rfl
      exact ⟨m, .head (step_climbing_right gt) onward⟩

end Climb

/-! ## A pass -/

section Pass

variable {g : Graph} {number : Array Nat} {predecessors : Array (List Nat)} {root node i k n : Nat}
  {order done others left : List Nat} {c : Candidates} {b : Bool}

/-- A look at a node ends with what `refine` makes of the candidates. -/
theorem reaches_look (r : Rising number root c) :
    Reaches (step number predecessors root others) (.between ⟨c, b, node :: left⟩)
      (.between ⟨(refine number predecessors root (c, b) node).1,
        (refine number predecessors root (c, b) node).2, left⟩) := by
  cases known : (predecessors.getD node []).filter (fun i => (c.getD i none).isSome) with
  | nil =>
    have skips : refine number predecessors root (c, b) node = (c, b) := by
      simp only [refine, meetAll, known]
    rw [skips]
    refine .single ?_
    simp only [step, known]
    rfl
  | cons first rest =>
    have looked : ∀ i ∈ first :: rest, Known c i := by
      intro i hi
      rw [← known] at hi
      exact known_iff.2 (List.mem_filter.1 hi).2
    obtain ⟨hfirst, hrest⟩ := List.forall_mem_cons.1 looked
    have begins : Point.gathering ⟨c, b, left⟩ node rest first ∈
        step number predecessors root others (.between ⟨c, b, node :: left⟩) := by
      simp only [step, known]
      rfl
    have gathered : Reaches (step number predecessors root others)
        (.gathering ⟨c, b, left⟩ node rest first) (.gathering ⟨c, b, left⟩ node []
          (rest.foldl (fun found i => meet number root c i found) first)) :=
      reaches_gathered (p := ⟨c, b, left⟩) r hrest hfirst
    refine .head begins (gathered.tail ?_)
    simp only [step, refine, meetAll, known]
    split <;> rfl

/-- Look after look a pass goes through the nodes that are left. -/
theorem reaches_pass (s : g.Spanning root order)
    (a : Approximates g root (numbering g.nodes.size order) c)
    (split : order.filter (· != root) = done ++ left)
    (known : ∀ j, j = root ∨ j ∈ done → Known c j) :
    Reaches (search g root order) (.between ⟨c, b, left⟩)
      (.between ⟨(left.foldl (refine (numbering g.nodes.size order) g.predecessorTable root) (c, b)).1,
        (left.foldl (refine (numbering g.nodes.size order) g.predecessorTable root) (c, b)).2, []⟩) := by
  induction left generalizing done c b with
  | nil => exact .refl
  | cons i left ih =>
    have next := next_of_split s split known
    have looked := a.after_look (ranked s) next
    have known' := next.known_append a known
    rw [← refine_fst b] at looked known'
    exact (reaches_look a.toRising).trans (ih looked (by simp [split]) known')

/-- After a pass with a change the next one is made. -/
theorem reaches_round (s : g.Spanning root order)
    (a : Approximates g root (numbering g.nodes.size order) c) :
    Reaches (search g root order) (.between ⟨c, true, []⟩)
      (.between ⟨round g root order c, changes g root order c, []⟩) := by
  have begins : Point.between ⟨c, false, order.filter (· != root)⟩ ∈
      search g root order (.between ⟨c, true, []⟩) := rfl
  have rootKnown : Known c root := ⟨root, a.self⟩
  exact .head begins (reaches_pass s a (List.nil_append _).symm (by simpa using rootKnown))

/-- When the chains hold the dominators and nothing else, a look at a node finds the candidate
that it has. -/
theorem Progress.refine_eq (h : Progress g root number c k) (enough : g.nodes.size ≤ k)
    (next : Next g root number c i) :
    refine number g.predecessorTable root (c, b) i = (c, b) := by
  have isEdge : ∀ v, v ∈ g.predecessorTable.getD i [] ↔ (v, i) ∈ g.edges :=
    fun v => Graph.mem_predecessors next.lt
  obtain ⟨j, e⟩ := h.all i next.lt
  obtain ⟨u, eu, hu, lt⟩ := next.parent
  have spec := meetAll_spec h.toRising (g.predecessorTable.getD i [])
  cases found : meetAll number root c (g.predecessorTable.getD i []) with
  | none => simp only [refine, found]
  | some m =>
    rw [found] at spec
    -- the candidate dominates all predecessors, so it is above where their chains meet
    have up := h.higher e next.ne
    have jDom : g.Dominates root j i := (h.above_iff enough next.lt).1 (e.above_iff.2 (.inr .refl))
    have jAbove : Above c j m := spec.lowest j fun v hv known =>
      h.above_of_dominates known (jDom.of_edge (fun eq => by subst eq; omega) ((isEdge v).1 hv))
    -- and where they meet dominates all predecessors, so it is above the candidate
    have mDom : g.Dominates root m i := .of_predecessors next.ne fun v ev =>
      (h.above_iff enough (Graph.edge_lt ev).1).1
        (spec.above v ((isEdge v).2 ev) (h.all v (Graph.edge_lt ev).1))
    have higher := h.le_above (spec.above u ((isEdge u).2 eu) hu)
    have mAbove : Above c m j := (e.above_iff.1 (h.above_of_dominates ⟨j, e⟩ mDom)).resolve_left
      fun eq => by subst eq; omega
    have same : j = m := h.inj (h.known e) spec.known
      (Nat.le_antisymm (h.le_above mAbove) (h.le_above jAbove))
    simp only [refine, found]
    exact if_pos (same ▸ e)

/-- Then a pass changes nothing. -/
theorem Progress.not_changes (s : g.Spanning root order)
    (h : Progress g root (numbering g.nodes.size order) c k) (enough : g.nodes.size ≤ k) :
    changes g root order c = false := by
  have same : pass (numbering g.nodes.size order) g.predecessorTable root (order.filter (· != root)) c =
      (c, false) := by
    refine List.foldlRecOn (motive := (· = (c, false))) _ _ rfl fun b eq i hi => ?_
    obtain ⟨done, rest, split⟩ := List.append_of_mem hi
    rw [eq]
    exact h.refine_eq enough (next_of_split s split fun j hj => h.all j (lt_of_split s split j hj))
  rw [changes, same]

theorem approximates_rounds (s : g.Spanning root order) :
    Approximates g root (numbering g.nodes.size order) ((round g root order)^[n] (initial g root)) := by
  cases n with
  | zero => exact approximates_initial s
  | succ n =>
    rw [← passes_eq]
    exact (progress_passes s n).toApproximates

/-- As long as each pass makes a change the search goes on. -/
theorem reaches_rounds (s : g.Spanning root order)
    (busy : ∀ k < n, changes g root order ((round g root order)^[k] (initial g root)) = true) :
    Reaches (search g root order) (.between ⟨initial g root, true, []⟩)
      (.between ⟨(round g root order)^[n] (initial g root), true, []⟩) := by
  induction n with
  | zero => exact .refl
  | succ n ih =>
    have onward := reaches_round s (approximates_rounds s (n := n))
    rw [busy n n.lt_succ_self, ← Function.iterate_succ_apply' (round g root order)] at onward
    exact (ih fun k hk => busy k (hk.trans n.lt_succ_self)).trans onward

/-- The search ends, and with what more passes than there are nodes leave. -/
theorem search_ends (s : g.Spanning root order) (enough : g.nodes.size < n) :
    Point.between ⟨passes (numbering g.nodes.size order) g.predecessorTable root
        (order.filter (· != root)) n (initial g root), false, []⟩ ∈
      eval (search g root order) (.between ⟨initial g root, true, []⟩) := by
  have settles : changes g root order
      ((round g root order)^[g.nodes.size + 1] (initial g root)) = false := by
    rw [← passes_eq]
    exact (progress_passes s g.nodes.size).not_changes s (Nat.le_succ _)
  have quietOnce :
      ∃ k, changes g root order ((round g root order)^[k] (initial g root)) = false := ⟨_, settles⟩
  -- the search ends with the first pass without a change
  have quiet := Nat.find_spec quietOnce
  have le := Nat.find_min' quietOnce settles
  have busy : ∀ k < Nat.find quietOnce,
      changes g root order ((round g root order)^[k] (initial g root)) = true :=
    fun k hk => Bool.eq_true_of_not_eq_false (Nat.find_min quietOnce hk)
  generalize Nat.find quietOnce = k at quiet le busy
  have still : round g root order ((round g root order)^[k] (initial g root)) =
      (round g root order)^[k] (initial g root) := by
    rw [round_eq]
    exact (foldl_refine_of_not_changed _ quiet).2
  have onward := (reaches_rounds s busy).trans (reaches_round s (approximates_rounds s))
  rw [quiet, still] at onward
  have same : passes (numbering g.nodes.size order) g.predecessorTable root
      (order.filter (· != root)) n (initial g root) = (round g root order)^[k] (initial g root) := by
    rw [passes_eq, ← Nat.sub_add_cancel (le.trans enough), Function.iterate_add_apply,
      Function.iterate_fixed still]
  rw [same]
  exact mem_eval.2 ⟨onward, rfl⟩

end Pass

/-! ## The way up -/

/-- The way up from a node ends, at a dominator exactly if `isAbove` meets it. -/
theorem Settled.exists_ascend {g : Graph} {root i d : Nat} {t : DominatorTree} {c : Candidates}
    (st : Settled g root t c) (steps : Nat) (hi : i < g.nodes.size)
    (enough : g.nodes.size ≤ (numbering g.nodes.size t.order).getD i 0 + steps) :
    ∃ m ∈ eval (t.ascend d) i, t.isAbove d steps i = (m == d) := by
  have stays : ∀ i, i = d ∨ i = t.root → i ∈ eval (t.ascend d) i := by
    intro i h
    refine mem_eval.2 ⟨.refl, ?_⟩
    rw [ascend]
    split
    · rfl
    · exact if_pos (h.resolve_left ‹_›)
  induction steps generalizing i with
  | zero =>
    have top := numbering_le st.spanning hi
    have highest := numbering_root st.spanning
    obtain rfl : i = root :=
      numbering_inj st.spanning hi st.spanning.root_lt (by omega)
    exact ⟨i, stays i (.inr st.root_eq.symm), rfl⟩
  | succ steps ih =>
    rw [isAbove]
    split
    · rename_i eq
      exact ⟨i, stays i (.inl eq), (beq_iff_eq.2 eq).symm⟩
    · rename_i ne
      split
      · exact ⟨i, stays i (.inr ‹_›), (beq_eq_false_iff_ne.2 ne).symm⟩
      · rename_i notRoot
        have up := st.number_lt_immediateOf hi (st.root_eq ▸ notRoot)
        obtain ⟨m, ends, eq⟩ := ih (st.immediateOf_lt hi) (by omega)
        have move : t.immediateOf i ∈ t.ascend d i := by
          rw [ascend, if_neg ne, if_neg notRoot]
          rfl
        exact ⟨m, reaches_eval (.single move) ▸ ends, eq⟩

theorem ofRoot_immediate {g : Graph} {identifier : String} {root : Nat} {t : DominatorTree}
    (h : g.indexOf? identifier = some root) (ok : ofRoot g identifier = .ok t) :
    t.immediate = immediateDominators g root t.order := by
  rw [ofRoot, Graph.indexOf_of_some h] at ok
  simp only [bind, Except.bind] at ok
  split at ok
  · cases ok
    rfl
  · cases ok

/-- From a root that reaches all nodes the search for dominators ends, after finitely many
passes and with the immediate dominators of the tree. Each climb in it ends, and so does the way
up from each node, which tells whether the one node dominates the other. -/
theorem ofRoot_terminates {g : Graph} {identifier : String} {root : Nat}
    (h : g.indexOf? identifier = some root) (all : ∀ i < g.nodes.size, g.Reaches root i) :
    ∃ t c, ofRoot g identifier = .ok t ∧ t.immediate = c.map (·.getD root) ∧
      .between ⟨c, false, []⟩ ∈ eval (search g root t.order) (.between ⟨initial g root, true, []⟩) ∧
      (∀ p node rest i j,
        Reaches (search g root t.order) (.between ⟨initial g root, true, []⟩)
          (.climbing p node rest i j) →
        ∃ m, Reaches (search g root t.order) (.climbing p node rest i j)
          (.gathering p node rest m)) ∧
      ∀ dominator node d n, g.indexOf? dominator = some d → g.indexOf? node = some n →
        ∃ m ∈ eval (t.ascend d) n, t.dominates dominator node = .ok (m == d) := by
  obtain ⟨t, c, eq, st⟩ := ofRoot_settled h all
  have enough : g.nodes.size < g.nodes.size * g.nodes.size + 2 :=
    (Nat.le_mul_self _).trans_lt (by omega)
  have ends := search_ends st.spanning enough
  refine ⟨t, _, eq, ofRoot_immediate h eq, ends, fun _ _ _ _ _ => climb_ends ends, ?_⟩
  intro dominator node d n hd hn
  obtain ⟨m, way, answer⟩ := st.exists_ascend (d := d) t.size (Graph.indexOf?_lt hn)
    (by simp [size, st.graph_eq])
  refine ⟨m, way, ?_⟩
  rw [dominates, st.graph_eq, Graph.indexOf_of_some hd, Graph.indexOf_of_some hn, ← answer]
  rfl

theorem ofRoot_terminates_irreducible :
    irreducible.indexOf? "a" = some 0 ∧ (∀ i < irreducible.nodes.size, irreducible.Reaches 0 i) ∧
      ∃ t c, ofRoot irreducible "a" = .ok t ∧
        .between ⟨c, false, []⟩ ∈ eval (search irreducible 0 t.order)
          (.between ⟨initial irreducible 0, true, []⟩) ∧
        ∃ m ∈ eval (t.ascend 1) 2, t.dominates "b" "c" = .ok (m == 1) := by
  have index : ∀ s, irreducible.indexOf? s =
      Content.position ⟨[.flat "a", .flat "b", .flat "c"], []⟩ s := by
    intro s
    rw [Graph.indexOf?_eq, listing_irreducible]
    rfl
  have root : irreducible.indexOf? "a" = some 0 := by rw [index]; decide
  obtain ⟨t, c, eq, -, ends, -, ways⟩ := ofRoot_terminates root reaches_irreducible
  exact ⟨root, reaches_irreducible, t, c, eq, ends,
    ways "b" "c" 1 2 (by rw [index]; decide) (by rw [index]; decide)⟩

end ClasspathAdvice.DominatorTree
