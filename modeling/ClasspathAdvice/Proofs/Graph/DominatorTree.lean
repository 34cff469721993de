import ClasspathAdvice.Proofs.Graph.Content
import ClasspathAdvice.Proofs.Graph.Dominator.Passes

/-!
# What a dominator tree answers

From a root that reaches all nodes `ofRoot` always builds a tree, and what it left in the
tree is `Settled`: chains of immediate dominators that hold the dominators of a node and
nothing else. So the tree answers by paths (`ofRoot_dominates`).
-/

namespace ClasspathAdvice.DominatorTree
set_option autoImplicit false

/-- A tree of a root that reaches all nodes, and the candidates that the last pass left. -/
structure Settled (g : Graph) (root : Nat) (t : DominatorTree) (c : Candidates) : Prop where
  graph_eq : t.graph = g
  root_eq : t.root = root
  spanning : g.Spanning root t.order
  rising : Rising (numbering g.nodes.size t.order) root c
  known : ∀ i < g.nodes.size, Known c i
  lt : ∀ {i}, Known c i → i < g.nodes.size
  above_iff : ∀ {d i}, i < g.nodes.size → (Above c d i ↔ g.Dominates root d i)
  immediate : t.immediate = c.map (·.getD root)

/-- A root that reaches all nodes has a dominator tree. -/
theorem ofRoot_settled {g : Graph} {identifier : String} {root : Nat}
    (h : g.indexOf? identifier = some root) (all : ∀ i < g.nodes.size, g.Reaches root i) :
    ∃ t c, ofRoot g identifier = .ok t ∧ Settled g root t c := by
  have s := g.spanning_reversePostorder (Graph.indexOf?_lt h) all
  have index : g.indexOf identifier = .ok root := by simp [Graph.indexOf, h]
  have progress := progress_passes s (g.nodes.size * g.nodes.size + 1)
  have enough : g.nodes.size ≤ g.nodes.size * g.nodes.size + 1 + 1 :=
    (Nat.le_mul_self _).trans (by omega)
  refine ⟨{
      graph := g
      root := root
      order := g.reversePostorder root
      immediate := immediateDominators g root (g.reversePostorder root) }, _, ?_, {
      graph_eq := rfl
      root_eq := rfl
      spanning := s
      rising := progress.toRising
      known := progress.all
      lt := progress.lt_of_known
      above_iff := progress.above_iff enough
      immediate := rfl }⟩
  rw [ofRoot, index]
  simp only [bind, Except.bind, s.length_eq, if_true]
  rfl

namespace Settled

variable {g : Graph} {root i j d : Nat} {t : DominatorTree} {c : Candidates}

/-- The immediate dominator is the next node of the chain. -/
theorem leads_immediateOf (st : Settled g root t c) (hi : i < g.nodes.size) :
    Leads c i (t.immediateOf i) := by
  obtain ⟨j, e⟩ := st.known i hi
  have e' := e
  rw [Leads, Array.getD_eq_getD_getElem?] at e'
  have at_i : (c)[i]? = some (some j) := by
    cases hc : (c)[i]? <;> simp_all
  have eq : t.immediateOf i = j := by
    rw [immediateOf, st.immediate, Array.getD_eq_getD_getElem?, Array.getElem?_map, at_i]
    rfl
  rwa [eq]

theorem immediateOf_lt (st : Settled g root t c) (hi : i < g.nodes.size) :
    t.immediateOf i < g.nodes.size := st.lt (st.rising.known (st.leads_immediateOf hi))

/-- The dominators of a node are itself and those of its immediate dominator. -/
theorem dominates_iff (st : Settled g root t c) (hi : i < g.nodes.size) :
    g.Dominates root d i ↔ d = i ∨ g.Dominates root d (t.immediateOf i) := by
  rw [← st.above_iff hi, ← st.above_iff (st.immediateOf_lt hi), (st.leads_immediateOf hi).above_iff]

theorem number_lt_immediateOf (st : Settled g root t c) (hi : i < g.nodes.size) (ne : i ≠ root) :
    (numbering g.nodes.size t.order).getD i 0 <
      (numbering g.nodes.size t.order).getD (t.immediateOf i) 0 :=
  st.rising.higher (st.leads_immediateOf hi) ne

/-- No node but the root is its own immediate dominator. -/
theorem immediateOf_ne (st : Settled g root t c) (hi : i < g.nodes.size) (ne : i ≠ root) :
    t.immediateOf i ≠ i := fun h => by
  have := st.number_lt_immediateOf hi ne
  rw [h] at this
  exact Nat.lt_irrefl _ this

/-- The way up meets the dominators; it has fewer steps than there are nodes. -/
theorem isAbove_iff (st : Settled g root t c) (steps : Nat) (hi : i < g.nodes.size)
    (enough : g.nodes.size ≤ (numbering g.nodes.size t.order).getD i 0 + steps) :
    t.isAbove d steps i = true ↔ g.Dominates root d i := by
  have atRoot : g.Dominates root d root ↔ d = root :=
    ⟨fun h => h.eq_root st.spanning.root_lt, fun h => h ▸ .refl⟩
  induction steps generalizing i with
  | zero =>
    have top := numbering_le st.spanning hi
    have highest := numbering_root st.spanning
    obtain rfl : i = root :=
      numbering_inj st.spanning hi st.spanning.root_lt (by omega)
    rw [isAbove, atRoot, beq_iff_eq, eq_comm]
  | succ steps ih =>
    rw [isAbove, st.root_eq]
    split
    · subst i
      exact ⟨fun _ => .refl, fun _ => rfl⟩
    · rename_i ne
      split
      · subst i
        simp [atRoot, Ne.symm ne]
      · rename_i notRoot
        have up := st.number_lt_immediateOf hi notRoot
        have onward := ih (st.immediateOf_lt hi) (by omega)
        refine onward.trans ?_
        rw [st.dominates_iff hi]
        simp [Ne.symm ne]

/-- The queries find the numbers of the nodes that they are asked about. -/
theorem dominates_eq (st : Settled g root t c) {dominator node : String}
    (hd : g.indexOf? dominator = some d) (hi : g.indexOf? node = some i) :
    ∃ b, t.dominates dominator node = .ok b ∧ (b = true ↔ g.Dominates root d i) := by
  refine ⟨t.isAbove d t.size i, ?_, st.isAbove_iff _ (Graph.indexOf?_lt hi) ?_⟩
  · simp [dominates, Graph.indexOf, st.graph_eq, hd, hi, bind, Except.bind, pure, Except.pure]
  · simp [size, st.graph_eq]

theorem immediateDominator_root (st : Settled g root t c) {identifier : String}
    (h : g.indexOf? identifier = some root) : t.immediateDominator identifier = .ok none := by
  simp [immediateDominator, Graph.indexOf, st.graph_eq, st.root_eq, h, bind, Except.bind, pure, Except.pure]

theorem immediateDominator_eq (st : Settled g root t c) {identifier : String}
    (h : g.indexOf? identifier = some i) (ne : i ≠ root) :
    ∃ m, t.immediateDominator identifier = .ok (some m) ∧ g.nodes[t.immediateOf i]? = some m := by
  have lt := st.immediateOf_lt (Graph.indexOf?_lt h)
  refine ⟨g.nodes[t.immediateOf i], ?_, Array.getElem?_eq_getElem lt⟩
  simp [immediateDominator, Graph.indexOf, st.graph_eq, st.root_eq, h, ne, bind, Except.bind, pure,
    Except.pure, Array.getElem?_eq_getElem lt]

end Settled

/-- A root that reaches all nodes has a dominator tree, in which one node dominates another
exactly if every path from the root to the other passes it. The root has no immediate
dominator; that of any other node dominates it strictly and is dominated by all its other
strict dominators. -/
theorem ofRoot_dominates {g : Graph} {identifier : String} {root : Nat}
    (h : g.indexOf? identifier = some root) (all : ∀ i < g.nodes.size, g.Reaches root i) :
    ∃ t, ofRoot g identifier = .ok t ∧
      (∀ dominator node d n, g.indexOf? dominator = some d → g.indexOf? node = some n →
        ∃ b, t.dominates dominator node = .ok b ∧ (b = true ↔ ∀ l, g.Path root n l → d ∈ l)) ∧
      t.immediateDominator identifier = .ok none ∧
      ∀ node n, g.indexOf? node = some n → n ≠ root →
        ∃ d m, t.immediateDominator node = .ok (some m) ∧ g.nodes[d]? = some m ∧
          d ≠ n ∧ g.Dominates root d n ∧
          ∀ e, g.Dominates root e n → e ≠ n → g.Dominates root e d := by
  obtain ⟨t, c, eq, st⟩ := ofRoot_settled h all
  refine ⟨t, eq, fun _ _ _ _ hd hn => st.dominates_eq hd hn, st.immediateDominator_root h, ?_⟩
  intro node n hn ne
  have lt := Graph.indexOf?_lt hn
  obtain ⟨m, answer, isNode⟩ := st.immediateDominator_eq hn ne
  refine ⟨t.immediateOf n, m, answer, isNode, st.immediateOf_ne lt ne, ?_, fun e dom strict => ?_⟩
  · exact (st.dominates_iff lt).2 (.inr .refl)
  · exact ((st.dominates_iff lt).1 dom).resolve_left strict

/-- A cycle that is entered at both its nodes, with an edge back to the root. -/
def irreducible : Graph :=
  let a := Coordinates.flat "a"
  let b := Coordinates.flat "b"
  let c := Coordinates.flat "c"
  .ofNodesAndEdges [] [(a, b), (a, c), (b, c), (c, b), (c, a)]

theorem listing_irreducible : irreducible.listing =
    ⟨[.flat "a", .flat "b", .flat "c"], [(0, 1), (0, 2), (1, 2), (2, 1), (2, 0)]⟩ := by
  rw [irreducible, Graph.listing_ofNodesAndEdges]
  decide

theorem reaches_irreducible : ∀ i < irreducible.nodes.size, irreducible.Reaches 0 i := by
  have size : irreducible.nodes.size = 3 := by rw [Graph.size_nodes, listing_irreducible]; rfl
  have edge : ∀ i, i = 1 ∨ i = 2 → (0, i) ∈ irreducible.edges := by
    rintro i (rfl | rfl) <;> rw [Graph.mem_edges, listing_irreducible] <;> decide
  have start : irreducible.Reaches 0 0 := ⟨_, .start (by omega)⟩
  intro i hi
  by_cases h : i = 0
  · exact h ▸ start
  · exact start.step (edge i (by omega))

theorem ofRoot_dominates_irreducible :
    irreducible.indexOf? "a" = some 0 ∧ (∀ i < irreducible.nodes.size, irreducible.Reaches 0 i) ∧
      ∃ t, ofRoot irreducible "a" = .ok t ∧ t.dominates "b" "c" = .ok false ∧
        t.immediateDominator "c" = .ok (some (.flat "a")) := by
  have index : ∀ s, irreducible.indexOf? s =
      Content.position ⟨[.flat "a", .flat "b", .flat "c"], []⟩ s := by
    intro s
    rw [Graph.indexOf?_eq, listing_irreducible]
    rfl
  have root : irreducible.indexOf? "a" = some 0 := by rw [index]; decide
  have b : irreducible.indexOf? "b" = some 1 := by rw [index]; decide
  have c : irreducible.indexOf? "c" = some 2 := by rw [index]; decide
  -- the edge from the root avoids the other entry of the cycle
  have direct : irreducible.Path 0 2 [0, 2] :=
    (Graph.Path.start (Graph.indexOf?_lt root)).step (by
      rw [Graph.mem_edges, listing_irreducible]; decide)
  obtain ⟨t, eq, dominates, -, immediate⟩ := ofRoot_dominates root reaches_irreducible
  refine ⟨root, reaches_irreducible, t, eq, ?_, ?_⟩
  · obtain ⟨answer, ans, iff⟩ := dominates _ _ _ _ b c
    cases answer with
    | false => exact ans
    | true => exact absurd (iff.1 rfl _ direct) (by decide)
  · obtain ⟨d, m, ans, isNode, ne, dom, -⟩ := immediate _ _ c (by decide)
    obtain rfl : d = 0 := by simpa [ne] using dom _ direct
    rw [Graph.getElem?_nodes, listing_irreducible] at isNode
    rw [ans, ← Option.some.inj isNode]

end ClasspathAdvice.DominatorTree
