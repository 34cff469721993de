import ClasspathAdvice.Proofs.Graph.DominatorTree

/-!
# What a node dominates

A node other than the root dominates itself and all that the root does not reach once the
node is deleted (`dominates_iff_cut_off`). In the dominator tree these are the node itself
and, each once, what its children dominate (`Settled.dominated_perm`).
-/

namespace ClasspathAdvice
set_option autoImplicit false

namespace Graph

/-- A path leads from one node to another when `d` and its edges are deleted. -/
def ReachesWithout (g : Graph) (d i j : Nat) : Prop :=
  Relation.ReflTransGen (fun u v => (u, v) ∈ g.edges ∧ u ≠ d ∧ v ≠ d) i j

variable {g : Graph} {root d i j n : Nat} {l : List Nat}

theorem Path.reachesWithout (p : g.Path i j l) (h : d ∉ l) : g.ReachesWithout d i j := by
  induction p with
  | start => exact .refl
  | @step j k l p e ih =>
    rw [List.mem_append, List.mem_singleton, not_or] at h
    refine (ih h.1).tail ⟨e, ?_, Ne.symm h.2⟩
    rintro rfl
    exact h.1 p.target_mem

theorem ReachesWithout.path (h : g.ReachesWithout d i j) (lt : i < g.nodes.size) (ne : i ≠ d) :
    ∃ l, g.Path i j l ∧ d ∉ l := by
  induction h with
  | refl => exact ⟨_, .start lt, by simpa using Ne.symm ne⟩
  | tail _ e ih =>
    obtain ⟨l, p, avoids⟩ := ih
    refine ⟨_, p.step e.1, ?_⟩
    simpa [avoids] using Ne.symm e.2.2

/-- A node other than the root dominates itself and what is cut off without it. -/
theorem dominates_iff_cut_off (lt : root < g.nodes.size) (ne : d ≠ root) :
    g.Dominates root d n ↔ n = d ∨ ¬ g.ReachesWithout d root n := by
  constructor
  · intro dom
    refine .inr fun reached => ?_
    obtain ⟨l, p, avoids⟩ := reached.path lt (Ne.symm ne)
    exact avoids (dom l p)
  · rintro (rfl | cut) l p
    · exact p.target_mem
    · by_contra avoids
      exact cut (p.reachesWithout avoids)

open Classical in
/-- The nodes that a node dominates. -/
noncomputable def dominated (g : Graph) (root d : Nat) : List Nat :=
  (List.range g.nodes.size).filter fun n => g.Dominates root d n

theorem mem_dominated : n ∈ g.dominated root d ↔ n < g.nodes.size ∧ g.Dominates root d n := by
  simp [dominated]

theorem nodup_dominated : (g.dominated root d).Nodup := List.nodup_range.filter _

/-- The root dominates all nodes. -/
theorem dominated_root : g.dominated root root = List.range g.nodes.size :=
  List.filter_eq_self.2 fun _ _ => by simpa using root_dominates

end Graph

namespace DominatorTree.Settled

variable {g : Graph} {root d i j k n : Nat} {t : DominatorTree} {c : Candidates}

theorem size_eq (st : Settled g root t c) : t.size = g.nodes.size := by rw [size, st.graph_eq]

theorem immediateOf_root (st : Settled g root t c) : t.immediateOf root = root :=
  (st.leads_immediateOf st.spanning.root_lt).unique st.rising.self

theorem childTable_getD (st : Settled g root t c) (hi : i < g.nodes.size) :
    t.childTable.getD i [] =
      (t.order.filter (fun j => t.immediateOf j ≠ j)).filter (t.immediateOf · == i) := by
  have table : t.childTable = (t.order.filter (fun j => t.immediateOf j ≠ j)).foldr
      (fun j table => table.modify (t.immediateOf j) (id j :: ·)) (Array.replicate t.size []) := by
    rw [List.foldr_filter, childTable]
    congr 1
    funext j table
    by_cases h : t.immediateOf j = j <;> simp [h]
  rw [table, Graph.getD_foldr_modify t.immediateOf id _ _ (by simpa [st.size_eq])]
  simp [st.size_eq, hi]

/-- The children of a node are what it immediately dominates. -/
theorem mem_children (st : Settled g root t c) (hi : i < g.nodes.size) :
    j ∈ t.childTable.getD i [] ↔ j < g.nodes.size ∧ j ≠ root ∧ t.immediateOf j = i := by
  rw [st.childTable_getD hi]
  simp only [List.mem_filter, st.spanning.mem, decide_eq_true_eq, beq_iff_eq]
  constructor
  · rintro ⟨⟨hj, ne⟩, eq⟩
    refine ⟨hj, ?_, eq⟩
    rintro rfl
    exact ne st.immediateOf_root
  · rintro ⟨hj, ne, eq⟩
    exact ⟨⟨hj, st.immediateOf_ne hj ne⟩, eq⟩

theorem nodup_children (st : Settled g root t c) (hi : i < g.nodes.size) :
    (t.childTable.getD i []).Nodup := by
  rw [st.childTable_getD hi]
  exact (st.spanning.nodup.filter _).filter _

/-- A node does not dominate its immediate dominator. -/
theorem not_dominates_immediateOf (st : Settled g root t c) (hj : j < g.nodes.size)
    (ne : j ≠ root) : ¬ g.Dominates root j (t.immediateOf j) := by
  intro dom
  have above := (st.above_iff (st.immediateOf_lt hj)).2 dom
  have up := st.rising.le_above above
  have down := st.number_lt_immediateOf hj ne
  omega

/-- What a node dominates strictly is dominated by one of its children. -/
theorem exists_child (st : Settled g root t c) (hn : n < g.nodes.size)
    (dom : g.Dominates root i n) (ne : i ≠ n) :
    ∃ j, j < g.nodes.size ∧ j ≠ root ∧ t.immediateOf j = i ∧ g.Dominates root j n := by
  have above := (st.above_iff hn).2 dom
  induction above using Relation.ReflTransGen.head_induction_on with
  | refl => exact absurd rfl ne
  | @head n m e a ih =>
    have eq : t.immediateOf n = m := (st.leads_immediateOf hn).unique e
    have hm : m < g.nodes.size := eq ▸ st.immediateOf_lt hn
    have notRoot : n ≠ root := by
      rintro rfl
      exact ne (dom.eq_root hn)
    by_cases h : i = m
    · exact ⟨n, hn, notRoot, eq.trans h.symm, .refl⟩
    · obtain ⟨j, hj, child, up, under⟩ := ih hm ((st.above_iff hm).1 a) h
      refine ⟨j, hj, child, up, ?_⟩
      rw [st.dominates_iff hn, eq]
      exact .inr under

/-- What dominates a dominator of a node dominates the node. -/
theorem dominates_trans (st : Settled g root t c) (hj : j < g.nodes.size) (hn : n < g.nodes.size)
    (h : g.Dominates root i j) (h' : g.Dominates root j n) : g.Dominates root i n :=
  (st.above_iff hn).1 (Above.trans ((st.above_iff hj).2 h) ((st.above_iff hn).2 h'))

/-- Of two nodes one dominates the other at most. -/
theorem dominates_antisymm (st : Settled g root t c) (hi : i < g.nodes.size) (hj : j < g.nodes.size)
    (h : g.Dominates root i j) (h' : g.Dominates root j i) : i = j := by
  have up := st.rising.le_above ((st.above_iff hj).2 h)
  have down := st.rising.le_above ((st.above_iff hi).2 h')
  exact numbering_inj st.spanning hi hj (Nat.le_antisymm down up)

/-- Two children of a node dominate no node in common. -/
theorem children_disjoint (st : Settled g root t c) (hn : n < g.nodes.size)
    (hj : j < g.nodes.size) (hk : k < g.nodes.size) (jNot : j ≠ root) (kNot : k ≠ root)
    (same : t.immediateOf j = t.immediateOf k)
    (h : g.Dominates root j n) (h' : g.Dominates root k n) : j = k := by
  rcases Rising.above_total ((st.above_iff hn).2 h) ((st.above_iff hn).2 h') with above | above
  · have dom := (st.above_iff hk).1 above
    refine ((st.dominates_iff hk).1 dom).resolve_right fun up => ?_
    exact st.not_dominates_immediateOf hj jNot (same ▸ up)
  · have dom := (st.above_iff hj).1 above
    refine (((st.dominates_iff hj).1 dom).resolve_right fun up => ?_).symm
    exact st.not_dominates_immediateOf hk kNot (same ▸ up)

/-- The children of a node dominate what it dominates strictly. -/
theorem mem_flatMap_children (st : Settled g root t c) (hi : i < g.nodes.size) :
    n ∈ (t.childTable.getD i []).flatMap (g.dominated root) ↔
      n < g.nodes.size ∧ i ≠ n ∧ g.Dominates root i n := by
  simp only [List.mem_flatMap, st.mem_children hi, Graph.mem_dominated]
  constructor
  · rintro ⟨j, ⟨hj, ne, rfl⟩, hn, dom⟩
    have up : g.Dominates root (t.immediateOf j) j := (st.dominates_iff hj).2 (.inr .refl)
    refine ⟨hn, ?_, st.dominates_trans hj hn up dom⟩
    rintro rfl
    exact st.not_dominates_immediateOf hj ne dom
  · rintro ⟨hn, ne, dom⟩
    obtain ⟨j, hj, notRoot, up, under⟩ := st.exists_child hn dom ne
    exact ⟨j, ⟨hj, notRoot, up⟩, hn, under⟩

theorem nodup_flatMap_children (st : Settled g root t c) (hi : i < g.nodes.size) :
    ((t.childTable.getD i []).flatMap (g.dominated root)).Nodup := by
  refine List.nodup_flatMap.2 ⟨fun _ _ => Graph.nodup_dominated, ?_⟩
  refine (st.nodup_children hi).imp_of_mem fun {j k} hj hk ne n h h' => ne ?_
  obtain ⟨hj, jNot, jUp⟩ := (st.mem_children hi).1 hj
  obtain ⟨hk, kNot, kUp⟩ := (st.mem_children hi).1 hk
  obtain ⟨hn, under⟩ := Graph.mem_dominated.1 h
  obtain ⟨-, under'⟩ := Graph.mem_dominated.1 h'
  exact st.children_disjoint hn hj hk jNot kNot (jUp.trans kUp.symm) under under'

/-- A node dominates itself and, each once, the nodes that its children dominate. -/
theorem dominated_perm (st : Settled g root t c) (hi : i < g.nodes.size) :
    (g.dominated root i).Perm (i :: (t.childTable.getD i []).flatMap (g.dominated root)) := by
  have fresh : i ∉ (t.childTable.getD i []).flatMap (g.dominated root) :=
    fun h => ((st.mem_flatMap_children hi).1 h).2.1 rfl
  have nodup := List.nodup_cons.2 ⟨fresh, st.nodup_flatMap_children hi⟩
  refine (List.perm_ext_iff_of_nodup Graph.nodup_dominated nodup).2 fun n => ?_
  rw [List.mem_cons, st.mem_flatMap_children hi, Graph.mem_dominated]
  constructor
  · rintro ⟨hn, dom⟩
    by_cases h : i = n
    · exact .inl h.symm
    · exact .inr ⟨hn, h, dom⟩
  · rintro (rfl | ⟨hn, -, dom⟩)
    · exact ⟨hi, .refl⟩
    · exact ⟨hn, dom⟩

end DominatorTree.Settled

end ClasspathAdvice
