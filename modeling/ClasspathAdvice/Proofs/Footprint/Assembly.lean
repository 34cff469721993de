import ClasspathAdvice.Footprint
import ClasspathAdvice.Proofs.Graph.Dominated
import Mathlib.Data.List.Forall2

/-!
# How a footprint is put together

A visit of the dominator tree meets all nodes once and each before its children
(`visit_perm`, `subset_of_suffix_visit`). So when the nodes are taken from the last to the
first, the footprints of a node's children wait in the table: `Waiting` is what holds of
the table after each node.
-/

namespace ClasspathAdvice.Footprint
set_option autoImplicit false

open DominatorTree

/-! ## The order of the visit -/

section

variable {g : Graph} {root i j : Nat} {t : DominatorTree} {c : Candidates} {pending : List Nat}

/-- After a node its children wait with the others, and a step for each is left. -/
theorem visit_next (st : Settled g root t c) {steps : Nat}
    (h : ∀ j ∈ i :: pending, j < g.nodes.size)
    (enough : ((i :: pending).flatMap (g.dominated root)).length ≤ steps + 1) :
    (∀ j ∈ (t.childTable.getD i []).reverse ++ pending, j < g.nodes.size) ∧
      (((t.childTable.getD i []).reverse ++ pending).flatMap (g.dominated root)).length ≤ steps := by
  have hi := h i List.mem_cons_self
  constructor
  · intro j hj
    rcases List.mem_append.1 hj with hj | hj
    · exact ((st.mem_children hi).1 (List.mem_reverse.1 hj)).1
    · exact h j (List.mem_cons_of_mem _ hj)
  · have split := (st.dominated_perm hi).length_eq
    have flip := ((List.reverse_perm (t.childTable.getD i [])).flatMap_right
      (g.dominated root)).length_eq
    simp only [List.flatMap_cons, List.flatMap_append, List.length_append, List.length_cons]
      at enough split ⊢
    omega

/-- With a step for each node that the pending ones dominate, all these are visited. -/
theorem visit_perm (st : Settled g root t c) (steps : Nat) (h : ∀ i ∈ pending, i < g.nodes.size)
    (enough : (pending.flatMap (g.dominated root)).length ≤ steps) :
    (visit t.childTable steps pending).Perm (pending.flatMap (g.dominated root)) := by
  induction steps generalizing pending with
  | zero => rw [visit, List.length_eq_zero_iff.1 (Nat.le_zero.1 enough)]
  | succ steps ih =>
    cases pending with
    | nil => exact .refl _
    | cons i pending =>
      obtain ⟨lt, enough⟩ := visit_next st h enough
      have split := st.dominated_perm (h i List.mem_cons_self)
      have flip := (List.reverse_perm (t.childTable.getD i [])).flatMap_right (g.dominated root)
      rw [visit, List.flatMap_cons]
      refine .trans (.cons i ?_) (split.append_right _).symm
      refine (ih lt enough).trans ?_
      rw [List.flatMap_append]
      exact flip.append_right _

/-- Each node is visited before its children. -/
theorem subset_of_suffix_visit (st : Settled g root t c) (steps : Nat) {rest : List Nat}
    (h : ∀ i ∈ pending, i < g.nodes.size)
    (enough : (pending.flatMap (g.dominated root)).length ≤ steps)
    (suffix : i :: rest <:+ visit t.childTable steps pending) :
    t.childTable.getD i [] ⊆ rest := by
  induction steps generalizing pending with
  | zero =>
    rw [visit] at suffix
    exact absurd (List.eq_nil_of_suffix_nil suffix) (List.cons_ne_nil _ _)
  | succ steps ih =>
    cases pending with
    | nil => exact absurd (List.eq_nil_of_suffix_nil suffix) (List.cons_ne_nil _ _)
    | cons k pending =>
      obtain ⟨lt, enough⟩ := visit_next st h enough
      rw [visit] at suffix
      rcases List.suffix_cons_iff.1 suffix with eq | suffix
      · obtain ⟨rfl, rfl⟩ := List.cons.inj eq
        intro j hj
        have waits : j ∈ (t.childTable.getD i []).reverse ++ pending :=
          List.mem_append_left _ (List.mem_reverse.2 hj)
        apply (visit_perm st steps lt enough).mem_iff.2
        exact List.mem_flatMap.2 ⟨j, waits, Graph.mem_dominated.2 ⟨lt j waits, .refl⟩⟩
      · exact ih lt enough suffix

/-- From the root all nodes are visited, each once and before its children. -/
theorem visit_root (st : Settled g root t c) :
    ∃ below, visit t.childTable t.size [root] = root :: below ∧
      (root :: below).Perm (List.range g.nodes.size) ∧
      ∀ i rest, i :: rest <:+ root :: below → t.childTable.getD i [] ⊆ rest := by
  have lt : ∀ i ∈ [root], i < g.nodes.size := by simpa using st.spanning.root_lt
  have all : [root].flatMap (g.dominated root) = List.range g.nodes.size := by
    rw [List.flatMap_singleton, Graph.dominated_root]
  have enough : ([root].flatMap (g.dominated root)).length ≤ t.size := by
    rw [all, List.length_range, st.size_eq]
  have perm := visit_perm st t.size lt enough
  obtain ⟨below, visited⟩ : ∃ below, visit t.childTable t.size [root] = root :: below := by
    have positive : 0 < t.size := by
      rw [st.size_eq]
      exact Nat.lt_of_le_of_lt (Nat.zero_le _) st.spanning.root_lt
    obtain ⟨steps, eq⟩ := Nat.exists_eq_add_of_lt positive
    rw [eq]
    exact ⟨_, rfl⟩
  rw [visited, all] at perm
  refine ⟨below, visited, perm, fun i rest suffix => ?_⟩
  rw [← visited] at suffix
  exact subset_of_suffix_visit st t.size lt enough suffix

end

/-! ## The table -/

section

variable {P : Nat → Footprint → Prop} {built : Array (Option Footprint)} {l : List Nat}

theorem getD_set_self {i : Nat} {x : Option Footprint} (h : i < built.size) :
    (built.setIfInBounds i x).getD i none = x := by
  rw [Array.getD_eq_getD_getElem?, Array.getElem?_setIfInBounds, if_pos rfl, if_pos h,
    Option.getD_some]

theorem getD_set_ne {i j : Nat} {x : Option Footprint} (h : j ≠ i) :
    (built.setIfInBounds i x).getD j none = built.getD j none := by
  rw [Array.getD_eq_getD_getElem?, Array.getElem?_setIfInBounds, if_neg (Ne.symm h),
    Array.getD_eq_getD_getElem?]

/-- From a table that holds a footprint for each of some nodes, these are taken in order and
no others are touched. -/
theorem take_spec (nodup : l.Nodup) (lt : ∀ i ∈ l, i < built.size)
    (h : ∀ i ∈ l, ∃ f, built.getD i none = some f ∧ P i f) :
    List.Forall₂ P l (take built l).1 ∧ (take built l).2.size = built.size ∧
      ∀ j, j ∉ l → (take built l).2.getD j none = built.getD j none := by
  induction l generalizing built with
  | nil => exact ⟨.nil, rfl, fun _ _ => rfl⟩
  | cons i l ih =>
    obtain ⟨fresh, nodup⟩ := List.nodup_cons.1 nodup
    have rest := @ih (built.setIfInBounds i none) nodup
      (fun j hj => by simpa using lt j (List.mem_cons_of_mem _ hj))
      (fun j hj => by
        have ne : j ≠ i := fun eq => fresh (eq ▸ hj)
        rw [getD_set_ne ne]
        exact h j (List.mem_cons_of_mem _ hj))
    obtain ⟨f, at_i, holds⟩ := h i List.mem_cons_self
    simp only [take, at_i, Option.toList_some, List.singleton_append]
    refine ⟨.cons holds rest.1, rest.2.1.trans (by simp), fun j hj => ?_⟩
    rw [List.mem_cons, not_or] at hj
    rw [rest.2.2 j hj.2, getD_set_ne hj.1]

end

/-- What the table holds when the nodes of a list are done: a footprint of each whose
immediate dominator is not done. -/
structure Waiting (P : Nat → Footprint → Prop) (t : DominatorTree) (done : List Nat)
    (built : Array (Option Footprint)) : Prop where
  size : built.size = t.size
  holds : ∀ i ∈ done, t.immediateOf i ∉ done → ∃ f, built.getD i none = some f ∧ P i f

section

variable {g : Graph} {root i : Nat} {t : DominatorTree} {c : Candidates} {done : List Nat}
variable {P : Nat → Footprint → Prop} {built : Array (Option Footprint)}
variable {sizeOf : Coordinates → Option Nat} {comparator : Footprint → Footprint → Ordering}

/-- The footprints of a node's children are in the table when they are done and it is not. -/
theorem Waiting.take_children (w : Waiting P t done built) (st : Settled g root t c)
    (hi : i < g.nodes.size) (fresh : i ∉ done) (children : t.childTable.getD i [] ⊆ done) :
    List.Forall₂ P (t.childTable.getD i []) (take built (t.childTable.getD i [])).1 ∧
      (take built (t.childTable.getD i [])).2.size = built.size ∧
      ∀ j, j ∉ t.childTable.getD i [] →
        (take built (t.childTable.getD i [])).2.getD j none = built.getD j none := by
  apply take_spec (st.nodup_children hi)
  · intro j hj
    rw [w.size, st.size_eq]
    exact ((st.mem_children hi).1 hj).1
  · intro j hj
    apply w.holds j (children hj)
    rwa [((st.mem_children hi).1 hj).2.2]

/-- A node is done after its children. -/
theorem Waiting.assemble (w : Waiting P t done built) (st : Settled g root t c)
    (combined : ∀ i node fs, g.nodes[i]? = some node → List.Forall₂ P (t.childTable.getD i []) fs →
      P i (combine sizeOf comparator node fs))
    (hi : i < g.nodes.size) (fresh : i ∉ done) (children : t.childTable.getD i [] ⊆ done) :
    Waiting P t (i :: done) (assemble sizeOf comparator g.nodes t.childTable i built) := by
  obtain ⟨taken, size, others⟩ := w.take_children st hi fresh children
  have node := Array.getElem?_eq_getElem hi
  have left : (take built (t.childTable.getD i [])).2.size = t.size := size.trans w.size
  unfold Footprint.assemble
  simp only [node]
  refine ⟨by rw [Array.size_setIfInBounds, left], fun j hj up => ?_⟩
  rw [List.mem_cons, not_or] at up
  by_cases eq : j = i
  · subst eq
    refine ⟨_, getD_set_self ?_, combined _ _ _ node taken⟩
    rwa [left, st.size_eq]
  · have before : j ∈ done := (List.mem_cons.1 hj).resolve_left eq
    have other : j ∉ t.childTable.getD i [] := fun h => up.1 ((st.mem_children hi).1 h).2.2
    rw [getD_set_ne eq, others j other]
    exact w.holds j before up.2

/-- When nodes are taken so that each comes after its children, the table stays as `Waiting`
says. -/
theorem waiting_foldr (st : Settled g root t c)
    (combined : ∀ i node fs, g.nodes[i]? = some node → List.Forall₂ P (t.childTable.getD i []) fs →
      P i (combine sizeOf comparator node fs))
    (nodup : done.Nodup) (lt : ∀ i ∈ done, i < g.nodes.size)
    (order : ∀ i rest, i :: rest <:+ done → t.childTable.getD i [] ⊆ rest) :
    Waiting P t done (done.foldr (Footprint.assemble sizeOf comparator g.nodes t.childTable)
      (Array.replicate t.size none)) := by
  induction done with
  | nil => exact ⟨by simp, fun i hi => absurd hi List.not_mem_nil⟩
  | cons i done ih =>
    have ⟨fresh, nodup⟩ := List.nodup_cons.1 nodup
    have before := ih nodup (fun j hj => lt j (List.mem_cons_of_mem _ hj))
      (fun j rest suffix => order j rest (suffix.trans (List.suffix_cons _ _)))
    exact before.assemble st combined (lt i List.mem_cons_self) fresh (order i done List.suffix_rfl)

/-- What holds of the footprint of a node when it holds of those of its children holds of the
footprint of the whole tree. -/
theorem ofDominatorTree_spec (st : Settled g root t c)
    (combined : ∀ i node fs, g.nodes[i]? = some node → List.Forall₂ P (t.childTable.getD i []) fs →
      P i (combine sizeOf comparator node fs)) :
    P root (ofDominatorTree t sizeOf comparator) := by
  obtain ⟨below, visited, perm, order⟩ := visit_root st
  have nodup : (root :: below).Nodup := perm.nodup_iff.2 List.nodup_range
  have lt : ∀ i ∈ root :: below, i < g.nodes.size := fun i hi =>
    List.mem_range.1 (perm.mem_iff.1 hi)
  have ⟨fresh, nodup⟩ := List.nodup_cons.1 nodup
  have last := waiting_foldr st combined nodup (fun i hi => lt i (List.mem_cons_of_mem _ hi))
    (fun i rest suffix => order i rest (suffix.trans (List.suffix_cons _ _)))
  have taken := (last.take_children st st.spanning.root_lt fresh (order _ _ List.suffix_rfl)).1
  have top : g.nodes[root]? = some (t.rootNode?.getD default) := by
    rw [rootNode?, st.graph_eq, st.root_eq, Array.getElem?_eq_getElem st.spanning.root_lt,
      Option.getD_some]
  have whole := combined root _ _ top taken
  rw [ofDominatorTree, st.root_eq, visited, st.graph_eq]
  exact whole

end

end ClasspathAdvice.Footprint
