import ClasspathAdvice.Proofs.Graph.Dominance
import ClasspathAdvice.Proofs.Graph.Dominator.Chain

/-!
# What looking at a node keeps

Looking at a node moves its candidate, and with it the chains of all nodes below
(`above_of_set`). Two things are kept. `Approximates`: no dominator of a node is missing
from its chain. `Cleared`: a node that a path of bounded length avoids is not on the chain
of its end, where the look raises the bound for the node it is at. Candidates need not
move up steadily meanwhile: a chain may regain a node when a candidate on it moves to a
chain that is not up to date.
-/

namespace ClasspathAdvice.DominatorTree
set_option autoImplicit false

/-- The candidates after a node was looked at: its own is where the chains of its
predecessors meet. -/
def look (number : Array Nat) (predecessors : Array (List Nat)) (root : Nat) (c : Candidates)
    (i : Nat) : Candidates :=
  match meetAll number root c (predecessors.getD i []) with
  | none => c
  | some m => c.setIfInBounds i (some m)

section Steps

variable {number : Array Nat} {predecessors : Array (List Nat)} {root i j k m d : Nat}
  {c : Candidates}

theorem leads_set (hi : i < c.size) :
    Leads (c.setIfInBounds i (some m)) j k ↔ if j = i then k = m else Leads c j k := by
  rw [Leads, Array.getD_eq_getD_getElem?, Array.getElem?_setIfInBounds]
  by_cases h : i = j
  · subst h
    simp [hi, eq_comm]
  · simp [h, Ne.symm h, Leads, Array.getD_eq_getD_getElem?]

theorem set_eq_self (h : Leads c i m) : c.setIfInBounds i (some m) = c := by
  rw [Leads, Array.getD_eq_getD_getElem?] at h
  refine Array.ext_getElem? fun j => ?_
  rw [Array.getElem?_setIfInBounds]
  by_cases hj : i = j
  · subst hj
    by_cases hi : i < c.size
    · rw [Array.getElem?_eq_getElem hi] at h ⊢
      simpa [hi] using h.symm
    · simp [hi]
  · simp [hj]

theorem refine_fst (b : Bool) :
    (refine number predecessors root (c, b) i).1 = look number predecessors root c i := by
  simp only [refine, look]
  cases meetAll number root c (predecessors.getD i []) with
  | none => rfl
  | some m =>
    by_cases h : c.getD i none = some m
    · simp only [h, if_true, set_eq_self h]
    · simp only [h, if_false]

/-- Without a change the candidates are as before. -/
theorem refine_of_not_changed {b : Bool} (h : (refine number predecessors root (c, b) i).2 = false) :
    b = false ∧ look number predecessors root c i = c := by
  simp only [refine] at h
  simp only [look]
  cases hm : meetAll number root c (predecessors.getD i []) with
  | none =>
    rw [hm] at h
    exact ⟨h, rfl⟩
  | some m =>
    simp only [hm] at h
    by_cases hc : c.getD i none = some m
    · rw [if_pos hc] at h
      exact ⟨h, set_eq_self hc⟩
    · rw [if_neg hc] at h
      exact absurd h (by simp)

/-- After a candidate has moved a chain is what it was, or leads on from where the candidate
is now. -/
theorem above_of_set (hi : i < c.size) (h : Above (c.setIfInBounds i (some m)) d j) :
    Above c d j ∨ Above c i j ∧ Above c d m := by
  induction h using Relation.ReflTransGen.head_induction_on with
  | refl => exact .inl .refl
  | @head j k e _ ih =>
    rw [leads_set hi] at e
    by_cases hj : j = i
    · rw [if_pos hj] at e
      subst hj e
      exact .inr ⟨.refl, ih.elim id And.right⟩
    · rw [if_neg hj] at e
      rw [e.above_iff, e.above_iff]
      exact ih.imp .inr (.imp_left .inr)

end Steps

/-! ## No dominator is missing -/

/-- Chains lead up to the root, and the dominators of a node, itself aside, dominate its
candidate. -/
structure Approximates (g : Graph) (root : Nat) (number : Array Nat) (c : Candidates) : Prop
    extends Rising number root c where
  size : c.size = g.nodes.size
  keeps : ∀ {i j d}, Leads c i j → i ≠ root → g.Dominates root d i → d ≠ i → g.Dominates root d j

namespace Approximates

variable {g : Graph} {root i m d : Nat} {number : Array Nat} {c : Candidates}

/-- What was looked at is a node. -/
theorem lt_of_known (a : Approximates g root number c) (h : Known c i) : i < g.nodes.size := by
  obtain ⟨j, e⟩ := h
  by_contra hi
  rw [← a.size, Nat.not_lt] at hi
  simp [Leads, Array.getD_eq_getD_getElem?, Array.getElem?_eq_none hi] at e

/-- The dominators of a node are on its chain. -/
theorem above_of_dominates (a : Approximates g root number c) (hi : Known c i)
    (h : g.Dominates root d i) : Above c d i := by
  generalize hn : number.getD root 0 - number.getD i 0 = n
  induction n using Nat.strongRecOn generalizing i with
  | ind n ih =>
    by_cases ne : d = i
    · exact ne ▸ .refl
    · have notRoot : i ≠ root := by
        rintro rfl
        exact ne (h.eq_root (a.lt_of_known hi))
      obtain ⟨j, e⟩ := hi
      have up := a.higher e notRoot
      have top := a.top (a.known e)
      exact (e.above_iff).2 (.inr (ih _ (by omega) (a.known e) (a.keeps e notRoot h ne) rfl))

/-- A dominator stays one up the chain, as long as the chain has not reached it. -/
theorem dominates_above (a : Approximates g root number c) (hm : Above c m i)
    (hd : Above c d m) (h : g.Dominates root d i) : g.Dominates root d m := by
  induction hm using Relation.ReflTransGen.head_induction_on with
  | refl => exact h
  | @head i j e up ih =>
    by_cases hr : i = root
    · subst hr
      rw [a.eq_root (up.head e)]
      exact h
    · refine ih (a.keeps e hr h ?_)
      rintro rfl
      have back : number.getD m 0 ≤ number.getD d 0 := a.le_above hd
      have up := a.higher e hr
      have := a.le_above ‹Above c m j›
      omega

end Approximates

/-! ## What a look keeps -/

/-- Numbers that tell all nodes apart, the root's the highest. -/
structure Ranked (g : Graph) (root : Nat) (number : Array Nat) : Prop where
  root_lt : root < g.nodes.size
  inj : ∀ {i j}, i < g.nodes.size → j < g.nodes.size → number.getD i 0 = number.getD j 0 → i = j
  top : ∀ {i}, i < g.nodes.size → number.getD i 0 ≤ number.getD root 0

/-- A node that may be looked at next: a predecessor of a higher number was looked at. -/
structure Next (g : Graph) (root : Nat) (number : Array Nat) (c : Candidates) (i : Nat) : Prop where
  lt : i < g.nodes.size
  ne : i ≠ root
  parent : ∃ u, (u, i) ∈ g.edges ∧ Known c u ∧ number.getD i 0 < number.getD u 0

/-- A node is not on the chain of another that a path avoiding it leads to, if the path has no
more nodes than the bound for its end. -/
def Cleared (g : Graph) (root : Nat) (c : Candidates) (bound : Nat → Nat) : Prop :=
  ∀ i d l, g.Path root i l → l.length ≤ bound i → d ∉ l → ¬ Above c d i

section Look

variable {g : Graph} {root i j k : Nat} {number : Array Nat} {c : Candidates}

/-- A look moves the candidate to the lowest node on the chains of all predecessors that were
looked at. -/
theorem Next.look_eq (next : Next g root number c i) (a : Approximates g root number c) :
    ∃ m, look number g.predecessorTable root c i = c.setIfInBounds i (some m) ∧
      MeetsAll c m (g.predecessorTable.getD i []) := by
  obtain ⟨u, e, known, -⟩ := next.parent
  have spec := meetAll_spec a.toRising (g.predecessorTable.getD i [])
  cases hm : meetAll number root c (g.predecessorTable.getD i []) with
  | none =>
    rw [hm] at spec
    exact absurd known (spec u ((Graph.mem_predecessors next.lt).2 e))
  | some m =>
    rw [hm] at spec
    exact ⟨m, by rw [look, hm], spec⟩

theorem Next.known_look (next : Next g root number c i) (a : Approximates g root number c)
    (h : j = i ∨ Known c j) : Known (look number g.predecessorTable root c i) j := by
  obtain ⟨m, eq, -⟩ := next.look_eq a
  have hi : i < c.size := a.size ▸ next.lt
  rw [eq]
  by_cases hj : j = i
  · exact ⟨m, (leads_set hi).2 (by rw [if_pos hj])⟩
  · obtain ⟨k, e⟩ := h.resolve_left hj
    exact ⟨k, (leads_set hi).2 (by rw [if_neg hj]; exact e)⟩

/-- With a look at a node of an order all nodes up to it were looked at. -/
theorem Next.known_append {done : List Nat} (next : Next g root number c i)
    (a : Approximates g root number c) (known : ∀ j, j = root ∨ j ∈ done → Known c j) :
    ∀ j, j = root ∨ j ∈ done ++ [i] → Known (look number g.predecessorTable root c i) j := by
  intro j h
  refine next.known_look a ?_
  rcases h with h | h
  · exact .inr (known j (.inl h))
  · rcases List.mem_append.1 h with h | h
    · exact .inr (known j (.inr h))
    · exact .inl (List.mem_singleton.1 h)

/-- A look loses no dominator. -/
theorem Approximates.after_look (a : Approximates g root number c) (n : Ranked g root number)
    (next : Next g root number c i) :
    Approximates g root number (look number g.predecessorTable root c i) := by
  obtain ⟨m, eq, spec⟩ := next.look_eq a
  obtain ⟨u, e, hu, lt⟩ := next.parent
  have mem : ∀ v, v ∈ g.predecessorTable.getD i [] ↔ (v, i) ∈ g.edges :=
    fun v => Graph.mem_predecessors next.lt
  have meetsu : Above c m u := spec.above u ((mem u).2 e) hu
  have leads : ∀ {j k}, Leads (c.setIfInBounds i (some m)) j k ↔ if j = i then k = m else Leads c j k :=
    leads_set (a.size ▸ next.lt)
  have isNode : ∀ {j}, Known (c.setIfInBounds i (some m)) j → j < g.nodes.size := by
    rintro j ⟨k, h⟩
    rw [leads] at h
    split at h
    · exact ‹j = i› ▸ next.lt
    · exact a.lt_of_known ⟨k, h⟩
  rw [eq]
  refine ⟨⟨?self, ?higher, ?known, fun h h' => n.inj (isNode h) (isNode h'), fun h => n.top (isNode h)⟩,
    by simp [a.size], ?keeps⟩
  case self =>
    rw [leads, if_neg next.ne.symm]
    exact a.self
  case higher =>
    intro j k h hj
    rw [leads] at h
    split at h
    · subst h
      exact ‹j = i› ▸ lt.trans_le (a.le_above meetsu)
    · exact a.higher h hj
  case known =>
    intro j k h
    have old : Known c k := by
      rw [leads] at h
      split at h
      · exact h ▸ spec.known
      · exact a.known h
    exact eq ▸ next.known_look a (.inr old)
  case keeps =>
    intro j k d h hj dom ne
    rw [leads] at h
    split at h
    · subst h
      obtain rfl : j = i := ‹_›
      have domu : ∀ {v}, (v, j) ∈ g.edges → g.Dominates root d v := fun e => dom.of_edge ne e
      have above : Above c d k := spec.lowest d fun v hv known =>
        a.above_of_dominates known (domu ((mem v).1 hv))
      exact a.dominates_above meetsu above (domu e)
    · exact a.keeps h hj dom ne

/-- A look clears one more step of the paths to the node. -/
theorem Cleared.after_look {bound : Nat → Nat} (cl : Cleared g root c bound)
    (a : Approximates g root number c) (next : Next g root number c i)
    (all : ∀ j < g.nodes.size, Known c j) (hb : ∀ j, k ≤ bound j ∧ bound j ≤ k + 1) :
    Cleared g root (look number g.predecessorTable root c i)
      (fun j => if j = i then k + 1 else bound j) := by
  obtain ⟨m, eq, spec⟩ := next.look_eq a
  have hi : i < c.size := a.size ▸ next.lt
  -- the new candidate is on the chain of the last node but one of any path to `i`
  have avoided : ∀ {d l}, g.Path root i l → l.length ≤ k + 1 → d ∉ l → ¬ Above c d m := by
    rintro d _ (_ | ⟨p, e⟩) len hd above
    · exact next.ne rfl
    · rename_i u l
      have known := all u p.target_lt
      have meets := spec.above u ((Graph.mem_predecessors next.lt).2 e) known
      have len' : l.length ≤ bound u := by
        have := (hb u).1
        simp only [List.length_append, List.length_singleton] at len
        omega
      exact cl u d l p len' (fun h => hd (List.mem_append_left _ h)) (above.trans meets)
  rw [eq]
  intro j d l p len hd above
  simp only at len
  by_cases hj : j = i
  · subst hj
    have leads : Leads (c.setIfInBounds j (some m)) j m := (leads_set hi).2 (by rw [if_pos rfl])
    have up := ((leads.above_iff).1 above).resolve_left fun h => hd (h ▸ p.target_mem)
    rw [if_pos rfl] at len
    exact avoided p len hd ((above_of_set hi up).elim id And.right)
  · rw [if_neg hj] at len
    rcases above_of_set hi above with old | ⟨onward, meets⟩
    · exact cl j d l p len hd old
    · have hil : i ∈ l := by
        by_contra hil
        exact cl j i l p len hil onward
      obtain ⟨l', p', pre⟩ := p.upTo hil
      have len' := pre.length_le.trans (len.trans (hb j).2)
      exact avoided p' len' (fun h => hd (pre.subset h)) meets

end Look

end ClasspathAdvice.DominatorTree
