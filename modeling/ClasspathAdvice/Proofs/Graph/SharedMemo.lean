import ClasspathAdvice.Graph.SharedMemo
import ClasspathAdvice.Proofs.Graph.DominatorTree

/-!
# A shared memo does not show

Each entry comes from a call that computed it, so a call that finds an entry, or publishes a tree
where another was faster, answers with what a call on a graph of the same fingerprint computes.
Where equal fingerprints mean equal graphs this is what it would compute itself
(`calls_transparent`). `Consistent` is what every step keeps.
-/

namespace ClasspathAdvice
set_option autoImplicit false

namespace FingerprintMemo

variable {φ : Type} [DecidableEq φ] {m : FingerprintMemo φ} {k : DominatorKey φ}
  {tree : DominatorTree}

theorem mem_of_get? (h : m.get? k = some tree) : (k, tree) ∈ m.entries := by
  rw [get?, List.lookup_eq_some_iff] at h
  obtain ⟨before, after, split, -⟩ := h
  rw [split]
  exact List.mem_append_right _ List.mem_cons_self

theorem not_mem_of_get? (h : m.get? k = none) : k ∉ m.entries.map Prod.fst := by
  rw [get?, List.lookup_eq_none_iff] at h
  intro mem
  obtain ⟨e, isEntry, eq⟩ := List.mem_map.1 mem
  have other := h e isEntry
  simp [eq] at other

end FingerprintMemo

namespace Call

variable {φ : Type} [DecidableEq φ] {fingerprint : Graph → φ} {m : FingerprintMemo φ} {c : Call}

/-- All that a step of a call can do: the stage it comes to and the memo it leaves. -/
inductive Moves (fingerprint : Graph → φ) (m : FingerprintMemo φ) (c : Call) :
    CallStage → FingerprintMemo φ → Prop
  | hit {tree : DominatorTree} (stage : c.stage = .asked)
      (found : m.get? (c.key fingerprint) = some tree) :
      Moves fingerprint m c (.answered (.ok tree)) { m with hits := m.hits + 1 }
  | miss (stage : c.stage = .asked) (absent : m.get? (c.key fingerprint) = none) :
      Moves fingerprint m c .missed { m with misses := m.misses + 1 }
  | compute {tree : DominatorTree} (stage : c.stage = .missed)
      (computed : DominatorTree.ofRoot c.graph c.root = .ok tree) :
      Moves fingerprint m c (.computed tree) m
  | fail {e : GraphError} (stage : c.stage = .missed)
      (failed : DominatorTree.ofRoot c.graph c.root = .error e) :
      Moves fingerprint m c (.answered (.error e)) m
  | publish {tree : DominatorTree} (stage : c.stage = .computed tree)
      (absent : m.get? (c.key fingerprint) = none) :
      Moves fingerprint m c (.answered (.ok tree))
        { m with entries := m.entries ++ [(c.key fingerprint, tree)] }
  | keep {tree kept : DominatorTree} (stage : c.stage = .computed tree)
      (found : m.get? (c.key fingerprint) = some kept) :
      Moves fingerprint m c (.answered (.ok kept)) m
  | rest {answer : Except GraphError DominatorTree} (stage : c.stage = .answered answer) :
      Moves fingerprint m c (.answered answer) m

theorem step_moves (fingerprint : Graph → φ) (m : FingerprintMemo φ) (c : Call) :
    ∃ stage m', c.step fingerprint m = ({ c with stage }, m') ∧ Moves fingerprint m c stage m' := by
  cases h : c.stage with
  | asked =>
    cases found : m.get? (c.key fingerprint) with
    | some tree => exact ⟨_, _, by simp [step, h, FingerprintMemo.lookup, found], .hit h found⟩
    | none => exact ⟨_, _, by simp [step, h, FingerprintMemo.lookup, found], .miss h found⟩
  | missed =>
    cases computed : DominatorTree.ofRoot c.graph c.root with
    | ok tree => exact ⟨_, _, by simp [step, h, computed], .compute h computed⟩
    | error e => exact ⟨_, _, by simp [step, h, computed], .fail h computed⟩
  | computed tree =>
    cases found : m.get? (c.key fingerprint) with
    | some kept => exact ⟨_, _, by simp [step, h, FingerprintMemo.publish, found], .keep h found⟩
    | none => exact ⟨_, _, by simp [step, h, FingerprintMemo.publish, found], .publish h found⟩
  | answered answer =>
    have same : c = { c with stage := .answered answer } := by rw [← h]
    refine ⟨_, _, ?_, .rest h⟩
    rw [← same, step, h]

/-- A step adds to the counts what it adds to the look-ups. -/
theorem Moves.counts {stage : CallStage} {m' : FingerprintMemo φ}
    (moves : c.Moves fingerprint m stage m') :
    m'.hits + m'.misses + (if c.stage.isLookedUp then 1 else 0) =
      m.hits + m.misses + (if stage.isLookedUp then 1 else 0) := by
  cases moves with
  | hit at_ | miss at_ =>
    simp only [at_, CallStage.isLookedUp, Bool.false_eq_true, if_true, if_false]
    omega
  | compute at_ | fail at_ | publish at_ | keep at_ | rest at_ =>
    simp only [at_, CallStage.isLookedUp]

/-- What makes an entry is no longer computing, and what starts to compute has missed. -/
theorem Moves.bounds {stage : CallStage} {m' : FingerprintMemo φ}
    (moves : c.Moves fingerprint m stage m') :
    m'.size + (if stage.isComputing then 1 else 0) + m.misses ≤
      m.size + (if c.stage.isComputing then 1 else 0) + m'.misses := by
  cases moves with
  | publish at_ =>
    simp only [at_, CallStage.isComputing, FingerprintMemo.size, List.length_append,
      List.length_singleton, Bool.false_eq_true, if_true, if_false]
    omega
  | hit at_ | miss at_ | compute at_ | fail at_ | keep at_ | rest at_ =>
    simp only [at_, CallStage.isComputing, FingerprintMemo.size, Bool.false_eq_true, if_true, if_false]
    omega

/-- No call waits for another: each of its steps brings it nearer to its answer, whatever the
memo holds. -/
theorem stepsLeft_step (fingerprint : Graph → φ) (m : FingerprintMemo φ) (c : Call) :
    (c.step fingerprint m).1.stage.stepsLeft < c.stage.stepsLeft ∨ c.stage.stepsLeft = 0 := by
  obtain ⟨stage, m', eq, moves⟩ := c.step_moves fingerprint m
  rw [eq]
  cases moves with
  | hit at_ | miss at_ => exact .inl (by simp [at_, CallStage.stepsLeft])
  | compute at_ | fail at_ => exact .inl (by simp [at_, CallStage.stepsLeft])
  | publish at_ | keep at_ => exact .inl (by simp [at_, CallStage.stepsLeft])
  | rest at_ => exact .inr (by simp [at_, CallStage.stepsLeft])

/-- Three steps that nothing interrupts are the whole call. -/
theorem three_steps (fingerprint : Graph → φ) (m : FingerprintMemo φ) (g : Graph) (root : String) :
    (fun x : Call × FingerprintMemo φ => x.1.step fingerprint x.2)^[3] ({ graph := g, root }, m) =
      ({ graph := g, root, stage := .answered (m.getOrComputeBy fingerprint g root).1 },
        (m.getOrComputeBy fingerprint g root).2) := by
  cases found : m.get? { fingerprint := fingerprint g, root } with
  | some tree => simp [step, key, FingerprintMemo.lookup, FingerprintMemo.getOrComputeBy, found]
  | none =>
    cases computed : DominatorTree.ofRoot g root with
    | error e =>
      simp [step, key, FingerprintMemo.lookup, FingerprintMemo.getOrComputeBy, found, computed]
    | ok tree =>
      simp [step, key, FingerprintMemo.lookup, FingerprintMemo.getOrComputeBy, found, computed]

end Call

namespace SharedMemo

variable {φ : Type} {fingerprint : Graph → φ} {s s' : SharedMemo φ}
  {m m' : FingerprintMemo φ} {c : Call} {before after : List Call} {stage : CallStage}

/-- What the calls are about. -/
def requests (s : SharedMemo φ) : List (Graph × String) := s.calls.map Call.request

/-- A tree that was computed for a key by one of the requests. -/
def Computes (fingerprint : Graph → φ) (requests : List (Graph × String)) (k : DominatorKey φ)
    (tree : DominatorTree) : Prop :=
  ∃ g root, (g, root) ∈ requests ∧ k = { fingerprint := fingerprint g, root } ∧
    DominatorTree.ofRoot g root = .ok tree

/-- Where the tree or the error that a call has come to is from. -/
def Sound (fingerprint : Graph → φ) (requests : List (Graph × String)) (c : Call) : Prop :=
  match c.stage with
  | .asked | .missed => True
  | .computed tree => DominatorTree.ofRoot c.graph c.root = .ok tree
  | .answered (.error e) => DominatorTree.ofRoot c.graph c.root = .error e
  | .answered (.ok tree) => Computes fingerprint requests (c.key fingerprint) tree

theorem Computes.mono {l l' : List (Graph × String)} {k : DominatorKey φ} {tree : DominatorTree}
    (h : Computes fingerprint l k tree) (sub : l ⊆ l') : Computes fingerprint l' k tree := by
  obtain ⟨g, root, mem, eq, computed⟩ := h
  exact ⟨g, root, sub mem, eq, computed⟩

theorem Sound.mono {l l' : List (Graph × String)} (h : Sound fingerprint l c) (sub : l ⊆ l') :
    Sound fingerprint l' c := by
  obtain ⟨g, root, stage⟩ := c
  cases stage with
  | asked => trivial
  | missed => trivial
  | computed tree => exact h
  | answered answer =>
    cases answer with
    | error e => exact h
    | ok tree => exact Computes.mono h sub

/-- What every step keeps. -/
structure Consistent (fingerprint : Graph → φ) (s : SharedMemo φ) : Prop where
  entries : ∀ k tree, (k, tree) ∈ s.memo.entries → Computes fingerprint s.requests k tree
  keys : (s.memo.entries.map Prod.fst).Nodup
  calls : ∀ c ∈ s.calls, Sound fingerprint s.requests c
  counted : s.memo.hits + s.memo.misses = s.calls.countP (·.stage.isLookedUp)
  bounded : s.memo.size + s.calls.countP (·.stage.isComputing) ≤ s.memo.misses

namespace Consistent

theorem initial : Consistent fingerprint (SharedMemo.initial : SharedMemo φ) where
  entries _ _ mem := absurd mem List.not_mem_nil
  keys := List.nodup_nil
  calls _ mem := absurd mem List.not_mem_nil
  counted := rfl
  bounded := Nat.le_refl 0

theorem ask (h : Consistent fingerprint s) (graph : Graph) (root : String) :
    Consistent fingerprint { s with calls := s.calls ++ [{ graph, root }] } := by
  have more : s.requests ⊆ requests { s with calls := s.calls ++ [{ graph, root }] } := by
    simp [requests]
  constructor
  case entries =>
    intro k tree mem
    exact (h.entries k tree mem).mono more
  case keys => exact h.keys
  case calls =>
    intro c mem
    rcases List.mem_append.1 mem with mem | mem
    · exact (h.calls c mem).mono more
    · rw [List.mem_singleton.1 mem]
      trivial
  case counted =>
    rw [List.countP_append]
    exact h.counted
  case bounded =>
    rw [List.countP_append]
    exact h.bounded

variable [DecidableEq φ]

/-- The stage that a step leads to is as sound as the one before. -/
theorem sound_of_moves (h : Consistent fingerprint { memo := m, calls := before ++ c :: after })
    (moves : c.Moves fingerprint m stage m') :
    Sound fingerprint (requests { memo := m, calls := before ++ c :: after }) { c with stage } := by
  have old : Sound fingerprint (requests { memo := m, calls := before ++ c :: after }) c :=
    h.calls c (List.mem_append_right _ List.mem_cons_self)
  cases moves with
  | hit _ found => exact h.entries _ _ (FingerprintMemo.mem_of_get? found)
  | miss => trivial
  | compute _ computed => exact computed
  | fail _ failed => exact failed
  | publish at_ =>
    rw [Sound, at_] at old
    exact ⟨c.graph, c.root, by simp [requests, Call.request], rfl, old⟩
  | keep _ found => exact h.entries _ _ (FingerprintMemo.mem_of_get? found)
  | rest at_ =>
    rw [Sound, at_] at old
    exact old

theorem move (h : Consistent fingerprint { memo := m, calls := before ++ c :: after })
    (moves : c.Moves fingerprint m stage m') :
    Consistent fingerprint { memo := m', calls := before ++ { c with stage } :: after } := by
  have same : requests { memo := m', calls := before ++ { c with stage } :: after } =
      requests { memo := m, calls := before ++ c :: after } := by
    simp [requests, Call.request]
  have sound := h.sound_of_moves moves
  constructor
  case entries =>
    rw [same]
    intro k tree mem
    cases moves with
    | publish at_ absent =>
      rcases List.mem_append.1 mem with mem | mem
      · exact h.entries k tree mem
      · cases List.mem_singleton.1 mem
        exact sound
    | _ => exact h.entries k tree mem
  case keys =>
    cases moves with
    | publish at_ absent =>
      rw [List.map_append]
      apply h.keys.append (List.nodup_singleton _)
      intro k mem mem'
      cases List.mem_singleton.1 mem'
      exact FingerprintMemo.not_mem_of_get? absent mem
    | _ => exact h.keys
  case calls =>
    rw [same]
    intro d mem
    rcases List.mem_append.1 mem with mem | mem
    · exact h.calls d (List.mem_append_left _ mem)
    · rcases List.mem_cons.1 mem with rfl | mem
      · exact sound
      · exact h.calls d (List.mem_append_right _ (List.mem_cons_of_mem _ mem))
  case counted =>
    have counted := h.counted
    have counts := moves.counts
    simp only [List.countP_append, List.countP_cons] at counted ⊢
    omega
  case bounded =>
    have bounded := h.bounded
    have bounds := moves.bounds
    simp only [List.countP_append, List.countP_cons] at bounded ⊢
    omega

theorem step (h : Consistent fingerprint s) (st : Step fingerprint s s') :
    Consistent fingerprint s' := by
  cases st with
  | ask s graph root => exact h.ask graph root
  | advance m before c after =>
    obtain ⟨stage, m', eq, moves⟩ := c.step_moves fingerprint m
    rw [eq]
    exact h.move moves

end Consistent

/-- Equal fingerprints of graphs that calls were made on mean equal graphs. -/
def IsFaithful (fingerprint : Graph → φ) (s : SharedMemo φ) : Prop :=
  ∀ c ∈ s.calls, ∀ d ∈ s.calls, fingerprint c.graph = fingerprint d.graph →
    c.graph.content = d.graph.content

/-- The whole content as fingerprint is faithful, whatever the calls. -/
theorem isFaithful_content (s : SharedMemo (List Coordinates × List (Nat × Nat))) :
    IsFaithful Graph.content s := by
  intro c _ d _ same
  exact same

/-- A tree that was computed for the key of a call is the one that the call would compute. -/
theorem Computes.ofRoot_eq {tree : DominatorTree} (faithful : IsFaithful fingerprint s)
    (mem : c ∈ s.calls) (h : Computes fingerprint s.requests (c.key fingerprint) tree) :
    DominatorTree.ofRoot c.graph c.root = .ok tree := by
  obtain ⟨g, root, isRequest, sameKey, computed⟩ := h
  obtain ⟨d, mem', request⟩ := List.mem_map.1 isRequest
  obtain ⟨rfl, rfl⟩ := Prod.mk.inj request
  obtain ⟨sameFingerprint, sameRoot⟩ := DominatorKey.mk.inj sameKey
  obtain ⟨nodes, edges⟩ := Prod.mk.inj (faithful c mem d mem' sameFingerprint)
  have sameGraph : c.graph = d.graph :=
    Graph.eq_of_content (Array.toList_inj.1 nodes) (Array.toList_inj.1 edges)
  rw [sameGraph, sameRoot, computed]

variable [DecidableEq φ]

theorem consistent_of_reachable (run : IsReachable fingerprint s) : Consistent fingerprint s := by
  induction run with
  | refl => exact .initial
  | tail _ st ih => exact ih.step st

/-- No step takes an entry away. -/
theorem entries_step (st : Step fingerprint s s') : s.memo.entries <+: s'.memo.entries := by
  cases st with
  | ask s graph root => exact List.prefix_rfl
  | advance m before c after =>
    obtain ⟨stage, m', eq, moves⟩ := c.step_moves fingerprint m
    rw [eq]
    cases moves with
    | publish => exact List.prefix_append _ _
    | _ => exact List.prefix_rfl

theorem entries_leads (run : Leads fingerprint s s') : s.memo.entries <+: s'.memo.entries := by
  induction run with
  | refl => exact List.prefix_rfl
  | tail _ st ih => exact ih.trans (entries_step st)

/-- A tree that was published stays. -/
theorem get?_leads {k : DominatorKey φ} {tree : DominatorTree} (run : Leads fingerprint s s')
    (found : s.memo.get? k = some tree) : s'.memo.get? k = some tree := by
  obtain ⟨later, eq⟩ := entries_leads run
  rw [FingerprintMemo.get?] at found ⊢
  rw [← eq, List.lookup_append, found, Option.some_or]

/-- However the steps of the calls interleave, and whatever graphs they are on: a call that has
ended has the answer that it would have computed alone, be it a tree or an error; a tree that was
published stays at its key, the only one there; calls that fail leave no entry and none is at
their keys; each look-up is counted once; and there are no more entries than look-ups that found
none. -/
theorem calls_transparent {φ : Type} [DecidableEq φ] {fingerprint : Graph → φ} {s : SharedMemo φ}
    (run : IsReachable fingerprint s) (faithful : IsFaithful fingerprint s) :
    (∀ c ∈ s.calls, ∀ answer, c.stage = .answered answer →
      answer = DominatorTree.ofRoot c.graph c.root) ∧
    (∀ s', Leads fingerprint s s' → s.memo.entries <+: s'.memo.entries ∧
      ∀ k tree, s.memo.get? k = some tree → s'.memo.get? k = some tree) ∧
    (s.memo.entries.map Prod.fst).Nodup ∧
    (∀ c ∈ s.calls, ∀ e, DominatorTree.ofRoot c.graph c.root = .error e →
      s.memo.get? (c.key fingerprint) = none ∧
        (c.step fingerprint s.memo).2.entries = s.memo.entries) ∧
    s.memo.hits + s.memo.misses = s.calls.countP (·.stage.isLookedUp) ∧
    s.memo.size ≤ s.memo.misses := by
  have consistent := consistent_of_reachable run
  refine ⟨?_, ?_, consistent.keys, ?_, consistent.counted, ?_⟩
  · intro c mem answer ended
    have sound := consistent.calls c mem
    rw [Sound, ended] at sound
    cases answer with
    | error e => exact sound.symm
    | ok tree => exact (sound.ofRoot_eq faithful mem).symm
  · intro s' later
    exact ⟨entries_leads later, fun k tree found => get?_leads later found⟩
  · intro c mem e failed
    constructor
    · cases found : s.memo.get? (c.key fingerprint) with
      | none => rfl
      | some tree =>
        have computes := consistent.entries _ _ (FingerprintMemo.mem_of_get? found)
        rw [computes.ofRoot_eq faithful mem] at failed
        cases failed
    · obtain ⟨stage, m', eq, moves⟩ := c.step_moves fingerprint s.memo
      rw [eq]
      cases moves with
      | publish at_ =>
        -- the call has a tree already, so it does not fail
        have sound := consistent.calls c mem
        rw [Sound, at_, failed] at sound
        cases sound
      | _ => rfl
  · have bounded := consistent.bounded
    omega

/-- The next step of one of the calls. -/
theorem IsReachable.advance {c' : Call} (before after : List Call)
    (run : IsReachable fingerprint { memo := m, calls := before ++ c :: after })
    (eq : c.step fingerprint m = (c', m')) :
    IsReachable fingerprint { memo := m', calls := before ++ c' :: after } := by
  have st : Step fingerprint _ _ := .advance m before c after
  rw [eq] at st
  exact run.tail st

/-- Two calls for one tree that both find none: each computes it, and the second answers with
the one that the first has published. -/
theorem reachable_race (fingerprint : Graph → φ) {g : Graph} {root : String} {tree : DominatorTree}
    (computed : DominatorTree.ofRoot g root = .ok tree) :
    IsReachable fingerprint
      { memo := { entries := [({ fingerprint := fingerprint g, root }, tree)], hits := 0, misses := 2 }
        calls := [{ graph := g, root, stage := .answered (.ok tree) },
          { graph := g, root, stage := .answered (.ok tree) }] } := by
  let call (stage : CallStage) : Call := { graph := g, root, stage }
  let missed (n : Nat) : FingerprintMemo φ := { entries := [], hits := 0, misses := n }
  have miss : ∀ n, (call .asked).step fingerprint (missed n) = (call .missed, missed (n + 1)) :=
    fun _ => rfl
  have compute : (call .missed).step fingerprint (missed 2) = (call (.computed tree), missed 2) := by
    simp [call, Call.step, computed]
  have publish : (call (.computed tree)).step fingerprint (missed 2) =
      (call (.answered (.ok tree)), { missed 2 with
        entries := [({ fingerprint := fingerprint g, root }, tree)] }) := rfl
  have keep : (call (.computed tree)).step fingerprint
      { missed 2 with entries := [({ fingerprint := fingerprint g, root }, tree)] } =
      (call (.answered (.ok tree)),
        { missed 2 with entries := [({ fingerprint := fingerprint g, root }, tree)] }) := by
    simp [call, Call.step, Call.key, FingerprintMemo.publish, FingerprintMemo.get?]
  have asked : IsReachable fingerprint { memo := missed 0, calls := [call .asked, call .asked] } :=
    .tail (.single (.ask _ g root)) (.ask _ g root)
  have missedFirst := asked.advance [] [call .asked] (miss 0)
  have missedBoth := missedFirst.advance [call .missed] [] (miss 1)
  have computedFirst := missedBoth.advance [] [call .missed] compute
  have computedBoth := computedFirst.advance [call (.computed tree)] [] compute
  have published := computedBoth.advance [] [call (.computed tree)] publish
  exact published.advance [call (.answered (.ok tree))] [] keep

/-- Of two calls that race, both have the tree, and it is there once. -/
theorem calls_transparent_race :
    ∃ s t, IsReachable Graph.content s ∧ IsFaithful Graph.content s ∧ s.calls.length = 2 ∧
      (∀ c ∈ s.calls, c.stage = .answered (.ok t) ∧
        Except.ok t = DominatorTree.ofRoot c.graph c.root) ∧
      s.memo.size = 1 ∧ s.memo.misses = 2 := by
  have root : DominatorTree.irreducible.indexOf? "a" = some 0 := by
    rw [Graph.indexOf?_eq, DominatorTree.listing_irreducible]
    decide
  obtain ⟨t, -, computed, -⟩ := DominatorTree.ofRoot_settled root DominatorTree.reaches_irreducible
  have run := reachable_race Graph.content computed
  obtain ⟨answers, -⟩ := calls_transparent run (isFaithful_content _)
  refine ⟨_, t, run, isFaithful_content _, rfl, ?_, rfl, rfl⟩
  intro c mem
  have ended : c.stage = .answered (.ok t) := by
    simp at mem
    rw [mem]
  exact ⟨ended, answers c mem _ ended⟩

end SharedMemo

end ClasspathAdvice
