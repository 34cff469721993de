import ClasspathAdvice.Graph.Dominator
import Mathlib.Logic.Relation

/-!
# Chains of candidates and where they meet

The candidates of a pass make a forest: from each node that was looked at a chain leads
up, `Above` says which nodes are on it. `Rising` is what keeps a chain from turning back:
each candidate has a higher number, and none is higher than the root. Then `meet` finds the
lowest node on both chains (`meet_spec`), and `meetAll` the lowest on the chains of all
predecessors that were looked at (`meetAll_spec`).
-/

namespace ClasspathAdvice.DominatorTree
set_option autoImplicit false

/-- The candidate of a node. -/
def Leads (c : Candidates) (i j : Nat) : Prop := c.getD i none = some j

/-- The node was looked at. -/
def Known (c : Candidates) (i : Nat) : Prop := ∃ j, Leads c i j

/-- The node `d` is on the chain of candidates from `i`. -/
def Above (c : Candidates) (d i : Nat) : Prop := Relation.ReflTransGen (Leads c) i d

/-- Chains lead up to the root: what is looked at has a candidate of a higher number that was
looked at too. -/
structure Rising (number : Array Nat) (root : Nat) (c : Candidates) : Prop where
  self : Leads c root root
  higher : ∀ {i j}, Leads c i j → i ≠ root → number.getD i 0 < number.getD j 0
  known : ∀ {i j}, Leads c i j → Known c j
  inj : ∀ {i j}, Known c i → Known c j → number.getD i 0 = number.getD j 0 → i = j
  top : ∀ {i}, Known c i → number.getD i 0 ≤ number.getD root 0

variable {number : Array Nat} {root : Nat} {c : Candidates} {d i j k m : Nat}

theorem Leads.unique (h : Leads c i j) (h' : Leads c i k) : j = k :=
  Option.some.inj (h.symm.trans h')

theorem known_iff : Known c i ↔ (c.getD i none).isSome = true := Option.isSome_iff_exists.symm

theorem Above.refl : Above c i i := Relation.ReflTransGen.refl

theorem Above.trans (h : Above c d i) (h' : Above c i j) : Above c d j :=
  Relation.ReflTransGen.trans h' h

/-- The chain from a node is the node and the chain from its candidate. -/
theorem Leads.above_iff (h : Leads c i j) : Above c d i ↔ d = i ∨ Above c d j := by
  constructor
  · intro a
    rcases Relation.ReflTransGen.cases_head a with rfl | ⟨k, hk, a⟩
    · exact .inl rfl
    · exact .inr (h.unique hk ▸ a)
  · rintro (rfl | a)
    · exact .refl
    · exact Relation.ReflTransGen.head h a

namespace Rising

theorem eq_root (r : Rising number root c) (h : Above c d root) : d = root := by
  induction h with
  | refl => rfl
  | tail _ e ih => exact (r.self.unique (ih ▸ e)).symm

theorem known_above (r : Rising number root c) (hi : Known c i) (h : Above c d i) : Known c d := by
  induction h with
  | refl => exact hi
  | tail _ e _ => exact r.known e

/-- Up the chain the numbers increase. -/
theorem lt_above (r : Rising number root c) (h : Above c d i) (ne : d ≠ i) :
    number.getD i 0 < number.getD d 0 := by
  induction h using Relation.ReflTransGen.head_induction_on with
  | refl => exact absurd rfl ne
  | @head i j e a ih =>
    by_cases hi : i = root
    · subst hi
      exact absurd (r.eq_root (a.head e)) ne
    · have step := r.higher e hi
      by_cases hj : d = j
      · exact hj ▸ step
      · exact Nat.lt_trans step (ih hj)

theorem le_above (r : Rising number root c) (h : Above c d i) :
    number.getD i 0 ≤ number.getD d 0 := by
  by_cases hd : d = i
  · exact hd ▸ Nat.le_refl _
  · exact Nat.le_of_lt (r.lt_above h hd)

/-- Of two nodes on one chain, one is above the other. -/
theorem above_total (h : Above c d i) (h' : Above c k i) : Above c d k ∨ Above c k d := by
  induction h using Relation.ReflTransGen.head_induction_on with
  | refl => exact .inr h'
  | head e a ih =>
    rcases (Leads.above_iff e).1 h' with rfl | h'
    · exact .inl (a.head e)
    · exact ih h'

end Rising

/-! ## Where two chains meet -/

/-- The lowest node on the chains of two nodes. -/
structure Meets (c : Candidates) (m i j : Nat) : Prop where
  left : Above c m i
  right : Above c m j
  lowest : ∀ d, Above c d i → Above c d j → Above c d m

theorem Meets.refl : Meets c i i i := ⟨Above.refl, Above.refl, fun _ h _ => h⟩

theorem Meets.symm (h : Meets c m i j) : Meets c m j i :=
  ⟨h.right, h.left, fun d hj hi => h.lowest d hi hj⟩

/-- The lower of two nodes may move up: it is not on the other's chain. -/
theorem Meets.of_step (r : Rising number root c) (lt : number.getD i 0 < number.getD j 0)
    (e : Leads c i k) (h : Meets c m k j) : Meets c m i j where
  left := (e.above_iff).2 (.inr h.left)
  right := h.right
  lowest d hi hj := by
    rcases (e.above_iff).1 hi with rfl | hk
    · exact absurd (r.le_above hj) (by omega)
    · exact h.lowest d hk hj

theorem Rising.candidateOf (h : Leads c i j) : candidateOf root c i = j := by
  rw [DominatorTree.candidateOf, h, Option.getD_some]

/-- The steps that are given suffice, since each raises a number. -/
theorem meetWithin_spec (r : Rising number root c) (steps : Nat) {left right : Nat}
    (hl : Known c left) (hr : Known c right)
    (enough : (number.getD root 0 - number.getD left 0) +
      (number.getD root 0 - number.getD right 0) ≤ steps) :
    Meets c (meetWithin number root c steps left right) left right := by
  have same : number.getD left 0 = number.getD right 0 → Meets c left left right := fun h => by
    rw [← r.inj hl hr h]
    exact .refl
  have topl := r.top hl
  have topr := r.top hr
  induction steps generalizing left right with
  | zero => exact same (by omega)
  | succ steps ih =>
    simp only [meetWithin]
    split
    · exact same ‹_›
    · split
      · have lt : number.getD left 0 < number.getD right 0 := ‹_›
        obtain ⟨k, e⟩ := hl
        have hk := r.known e
        have up := r.higher e (fun h => by subst h; omega)
        rw [Rising.candidateOf e]
        refine Meets.of_step r lt e (ih hk hr (by omega) ?_ (r.top hk) topr)
        exact fun h => r.inj hk hr h ▸ .refl
      · have lt : number.getD right 0 < number.getD left 0 := by omega
        obtain ⟨k, e⟩ := hr
        have hk := r.known e
        have up := r.higher e (fun h => by subst h; omega)
        rw [Rising.candidateOf e]
        refine (Meets.of_step r lt e (ih hl hk (by omega) ?_ topl (r.top hk)).symm).symm
        exact fun h => r.inj hl hk h ▸ .refl

/-- `meet` finds the lowest node on both chains. -/
theorem meet_spec (r : Rising number root c) (hi : Known c i) (hj : Known c j) :
    Meets c (meet number root c i j) i j :=
  meetWithin_spec r _ hi hj (Nat.le_refl _)

/-! ## Where the chains of all predecessors meet -/

/-- The lowest node on the chains of all nodes of a list that were looked at. -/
structure MeetsAll (c : Candidates) (m : Nat) (l : List Nat) : Prop where
  above : ∀ p ∈ l, Known c p → Above c m p
  lowest : ∀ d, (∀ p ∈ l, Known c p → Above c d p) → Above c d m
  known : Known c m

theorem foldl_meet_spec (r : Rising number root c) (l : List Nat) (hl : ∀ p ∈ l, Known c p)
    (hi : Known c i) :
    MeetsAll c (l.foldl (fun found p => meet number root c p found) i) (i :: l) := by
  induction l generalizing i with
  | nil =>
    refine ⟨fun p hp _ => ?_, fun d h => h i (by simp) hi, hi⟩
    rw [List.mem_singleton.1 hp]
    exact .refl
  | cons p l ih =>
    have hp := hl p List.mem_cons_self
    have m := meet_spec r hp hi
    have rest := ih (fun q hq => hl q (List.mem_cons_of_mem _ hq)) (r.known_above hp m.left)
    refine ⟨fun q hq known => ?_, fun d h => rest.lowest d fun q hq known => ?_, rest.known⟩
    · have above := rest.above _ List.mem_cons_self (r.known_above hp m.left)
      rcases List.mem_cons.1 hq with rfl | hq
      · exact above.trans m.right
      · rcases List.mem_cons.1 hq with rfl | hq
        · exact above.trans m.left
        · exact rest.above q (List.mem_cons_of_mem _ hq) known
    · rcases List.mem_cons.1 hq with rfl | hq
      · exact m.lowest d (h p (by simp) hp) (h i (by simp) hi)
      · exact h q (by simp [hq]) known

/-- `meetAll` finds the lowest node on the chains of all predecessors that were looked at, and
nothing only if there is no such predecessor. -/
theorem meetAll_spec (r : Rising number root c) (l : List Nat) :
    match meetAll number root c l with
    | none => ∀ p ∈ l, ¬ Known c p
    | some m => MeetsAll c m l := by
  have mem : ∀ p, p ∈ l.filter (fun i => (c.getD i none).isSome) ↔ p ∈ l ∧ Known c p := by
    intro p
    rw [List.mem_filter, known_iff]
  rw [meetAll]
  split
  case h_1 m eq =>
    split at eq
    · rename_i empty
      intro p hp known
      have := (mem p).2 ⟨hp, known⟩
      rw [empty] at this
      exact absurd this List.not_mem_nil
    · simp at eq
  case h_2 m eq =>
    split at eq
    · simp at eq
    · rename_i first rest split
      cases eq
      rw [split] at mem
      have spec := foldl_meet_spec r rest (fun p hp => ((mem p).1 (by simp [hp])).2)
        ((mem first).1 (by simp)).2
      exact ⟨fun p hp known => spec.above p ((mem p).2 ⟨hp, known⟩) known,
        fun d h => spec.lowest d fun p hp known => h p ((mem p).1 hp).1 known, spec.known⟩

end ClasspathAdvice.DominatorTree
