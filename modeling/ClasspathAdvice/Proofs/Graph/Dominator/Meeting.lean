import ClasspathAdvice.Proofs.Graph.Dominator.Chain
import Mathlib.Computability.StateTransition

/-!
# Two nodes climb to where their chains meet

Of two nodes the one climbs while its number is the lower, then the other does, and this is done
over until the numbers are the same (`climb`). No number of moves is given, and the candidates may
be incomplete: only the chains of the two nodes matter. Each move up raises a number, and the node
that moves is not on the chain of the other, so neither passes the node where they meet. The climb
ends there (`climb_meets`), at the lowest node on both chains, which is what `meet` finds
(`meet_nearest`).
-/

namespace ClasspathAdvice.DominatorTree
set_option autoImplicit false

open StateTransition

/-- What comes next in a climb of two nodes. -/
inductive Turn where
  /-- The numbers are compared; if they are the same, the climb is over. -/
  | both
  /-- The left node climbs while its number is lower. -/
  | left
  /-- The right node climbs while its number is lower. -/
  | right
  deriving DecidableEq, Repr

/-- The next point of a climb: whose turn it is, and the two nodes. -/
def climb (number : Array Nat) (root : Nat) (c : Candidates) :
    Turn × Nat × Nat → Option (Turn × Nat × Nat)
  | (.both, i, j) => if number.getD i 0 = number.getD j 0 then none else some (.left, i, j)
  | (.left, i, j) =>
    if number.getD i 0 < number.getD j 0 then some (.left, candidateOf root c i, j)
    else some (.right, i, j)
  | (.right, i, j) =>
    if number.getD j 0 < number.getD i 0 then some (.right, i, candidateOf root c j)
    else some (.both, i, j)

/-- The climb from a point ends with both at the lowest node on the chains of `i` and `j`. -/
def EndsAtMeeting (number : Array Nat) (root : Nat) (c : Candidates) (p : Turn × Nat × Nat)
    (i j : Nat) : Prop :=
  ∃ m, (.both, m, m) ∈ eval (climb number root c) p ∧ Meets c m i j

variable {number : Array Nat} {root i j k m m' : Nat} {c : Candidates} {p p' : Turn × Nat × Nat}

/-- Two chains have one lowest node in common. -/
theorem Meets.unique (r : Rising number root c) (h : Meets c m i j) (h' : Meets c m' i j) :
    m = m' := by
  by_contra ne
  have below := r.lt_above (h.lowest m' h'.left h'.right) (Ne.symm ne)
  have above := r.lt_above (h'.lowest m h.left h.right) ne
  omega

/-! ## A move -/

theorem EndsAtMeeting.of_move (move : p' ∈ climb number root c p)
    (h : EndsAtMeeting number root c p' i j) : EndsAtMeeting number root c p i j := by
  obtain ⟨m, ends, meets⟩ := h
  rw [← reaches_eval (.single move)] at ends
  exact ⟨m, ends, meets⟩

/-- The left node may climb where its number is lower. -/
theorem EndsAtMeeting.of_left (r : Rising number root c) (lt : number.getD i 0 < number.getD j 0)
    (e : Leads c i k) (h : EndsAtMeeting number root c p k j) :
    EndsAtMeeting number root c p i j := by
  obtain ⟨m, ends, meets⟩ := h
  exact ⟨m, ends, meets.of_step r lt e⟩

/-- So may the right node. -/
theorem EndsAtMeeting.of_right (r : Rising number root c) (lt : number.getD j 0 < number.getD i 0)
    (e : Leads c j k) (h : EndsAtMeeting number root c p i k) :
    EndsAtMeeting number root c p i j := by
  obtain ⟨m, ends, meets⟩ := h
  exact ⟨m, ends, (meets.symm.of_step r lt e).symm⟩

/-- A climb is over when the numbers are the same, since then the nodes are. -/
theorem endsAtMeeting_of_same (r : Rising number root c) (hi : Known c i) (hj : Known c j)
    (same : number.getD i 0 = number.getD j 0) :
    EndsAtMeeting number root c (.both, i, j) i j := by
  obtain rfl := r.inj hi hj same
  exact ⟨i, mem_eval.2 ⟨.refl, if_pos rfl⟩, .refl⟩

/-! ## The climb -/

/-- Whoever's turn it is, the climb of two nodes that were looked at ends where their chains meet.
The induction is on how far both numbers are from that of the root. -/
theorem climb_meets (r : Rising number root c) (hi : Known c i) (hj : Known c j) (turn : Turn) :
    EndsAtMeeting number root c (turn, i, j) i j := by
  generalize left : (number.getD root 0 - number.getD i 0) +
    (number.getD root 0 - number.getD j 0) = n
  induction n using Nat.strongRecOn generalizing i j turn with
  | ind n ih =>
    have topi := r.top hi
    have topj := r.top hj
    have goesLeft : number.getD i 0 < number.getD j 0 →
        EndsAtMeeting number root c (.left, i, j) i j := by
      intro lt
      obtain ⟨k, e⟩ := hi
      have up := r.higher e (fun h => by subst h; omega)
      have topk := r.top (r.known e)
      refine .of_move (if_pos lt) ?_
      rw [Rising.candidateOf e]
      exact .of_left r lt e (ih _ (by omega) (r.known e) hj .left rfl)
    have compares : EndsAtMeeting number root c (.both, i, j) i j ∨
        number.getD j 0 < number.getD i 0 := by
      rcases Nat.lt_trichotomy (number.getD i 0) (number.getD j 0) with lt | same | gt
      · exact .inl (.of_move (if_neg (Nat.ne_of_lt lt)) (goesLeft lt))
      · exact .inl (endsAtMeeting_of_same r hi hj same)
      · exact .inr gt
    have goesRight : EndsAtMeeting number root c (.right, i, j) i j := by
      by_cases lt : number.getD j 0 < number.getD i 0
      · obtain ⟨k, e⟩ := hj
        have up := r.higher e (fun h => by subst h; omega)
        have topk := r.top (r.known e)
        refine .of_move (if_pos lt) ?_
        rw [Rising.candidateOf e]
        exact .of_right r lt e (ih _ (by omega) hi (r.known e) .right rfl)
      · exact .of_move (if_neg lt) (compares.resolve_right lt)
    have takesTurn : EndsAtMeeting number root c (.left, i, j) i j := by
      by_cases lt : number.getD i 0 < number.getD j 0
      · exact goesLeft lt
      · exact .of_move (if_neg lt) goesRight
    cases turn with
    | left => exact takesTurn
    | right => exact goesRight
    | both =>
      rcases compares with ends | gt
      · exact ends
      · exact .of_move (if_neg (Nat.ne_of_gt gt)) takesTurn

/-- Where chains rise to the root, the climb of two nodes that were looked at ends, with both at
the node that `meet` finds: it was looked at, is on both chains, and has the lowest number of all
nodes that are. -/
theorem meet_nearest (r : Rising number root c) (hi : Known c i) (hj : Known c j) :
    ∃ m, (.both, m, m) ∈ eval (climb number root c) (.both, i, j) ∧
      meet number root c i j = m ∧ Known c m ∧ Above c m i ∧ Above c m j ∧
      ∀ d, Above c d i → Above c d j → d ≠ m → number.getD m 0 < number.getD d 0 := by
  obtain ⟨m, ends, meets⟩ := climb_meets r hi hj .both
  refine ⟨m, ends, (meet_spec r hi hj).unique r meets, r.known_above hi meets.left, meets.left,
    meets.right, fun d left right ne => ?_⟩
  exact r.lt_above (meets.lowest d left right) ne

/-- The numbers of six nodes, the first of which is the root. -/
def sixNumbers : Array Nat := #[6, 3, 5, 2, 4, 1]

/-- Candidates of the six; one was not looked at yet. -/
def fiveCandidates : Candidates := #[some 0, some 2, some 0, some 2, none, some 1]

theorem leads_fiveCandidates :
    Leads fiveCandidates i j ↔ (i, j) ∈ [(0, 0), (1, 2), (2, 0), (3, 2), (5, 1)] := by
  rcases i with _ | _ | _ | _ | _ | _ | i <;> simp [Leads, fiveCandidates, eq_comm]

theorem known_fiveCandidates : Known fiveCandidates i ↔ i ∈ [0, 1, 2, 3, 5] := by
  simp [Known, leads_fiveCandidates, exists_or]

theorem rising_fiveCandidates : Rising sixNumbers 0 fiveCandidates where
  self := leads_fiveCandidates.2 (by decide)
  higher {i j} e := by
    have all : ∀ e ∈ [(0, 0), (1, 2), (2, 0), (3, 2), (5, 1)],
        e.1 ≠ 0 → sixNumbers.getD e.1 0 < sixNumbers.getD e.2 0 := by decide
    exact all (i, j) (leads_fiveCandidates.1 e)
  known {i j} e := by
    have all : ∀ e ∈ [(0, 0), (1, 2), (2, 0), (3, 2), (5, 1)], e.2 ∈ [0, 1, 2, 3, 5] := by decide
    exact known_fiveCandidates.2 (all (i, j) (leads_fiveCandidates.1 e))
  inj {i j} hi hj := by
    have all : ∀ i ∈ [0, 1, 2, 3, 5], ∀ j ∈ [0, 1, 2, 3, 5],
        sixNumbers.getD i 0 = sixNumbers.getD j 0 → i = j := by decide
    exact all i (known_fiveCandidates.1 hi) j (known_fiveCandidates.1 hj)
  top {i} hi := by
    have all : ∀ i ∈ [0, 1, 2, 3, 5], sixNumbers.getD i 0 ≤ sixNumbers.getD 0 0 := by decide
    exact all i (known_fiveCandidates.1 hi)

/-- The climb of the last node and another takes turns and ends below the root. -/
theorem meet_nearest_fiveCandidates :
    Rising sixNumbers 0 fiveCandidates ∧ Known fiveCandidates 5 ∧ Known fiveCandidates 3 ∧
      (.both, 2, 2) ∈ eval (climb sixNumbers 0 fiveCandidates) (.both, 5, 3) ∧
      Above fiveCandidates 2 5 ∧ Above fiveCandidates 2 3 := by
  have last : Known fiveCandidates 5 := known_fiveCandidates.2 (by decide)
  have other : Known fiveCandidates 3 := known_fiveCandidates.2 (by decide)
  obtain ⟨m, ends, meets, -, left, right, -⟩ := meet_nearest rising_fiveCandidates last other
  obtain rfl : 2 = m := Eq.trans (by decide) meets
  exact ⟨rising_fiveCandidates, last, other, ends, left, right⟩

end ClasspathAdvice.DominatorTree
