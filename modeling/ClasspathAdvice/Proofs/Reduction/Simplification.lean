import ClasspathAdvice.Proofs.Reduction.Merging
import Mathlib.Data.Set.Basic

/-!
# Simplification keeps what advice does

To follow advice is to take the dependencies off all its sources and then to put them on all its
targets (`applied`). The simplification of any set of advice, on however many dependencies, is
told by the relation `Merges`: each addition is passed over if no removal of its dependency is
left, or merged with one of those (`exists_merges`). Then no dependency keeps both an addition
and a removal (`Merges.apart`), and what is declared in the end is the same
(`Merges.applied_eq`). The latter takes that nothing is dropped and moved at once, and that what
is dropped is declared: where an addition and a removal cancel, a declaration is left as it was.
-/

namespace ClasspathAdvice
set_option autoImplicit false

namespace AdviceSet

/-- The configurations that advice on a dependency names in one of its fields. -/
def ends (s : AdviceSet) (field : Advice → Option String) (c : Coordinates) : Set String :=
  {x | ∃ a ∈ s, a.coordinates = c ∧ field a = some x}

/-- The configurations that a dependency is taken off. -/
def sources (s : AdviceSet) : Coordinates → Set String := s.ends Advice.source

/-- The configurations that a dependency is put on. -/
def targets (s : AdviceSet) : Coordinates → Set String := s.ends Advice.target

/-- What is declared of each dependency when the advice has been followed. -/
def applied (s : AdviceSet) (declared : Coordinates → Set String) (c : Coordinates) : Set String :=
  (declared c \ s.sources c) ∪ s.targets c

end AdviceSet

theorem Advice.eq_add_of_isAnyAdd {a : Advice} (add : a.isAnyAdd) :
    ∃ x, a = .add a.coordinates x := by
  obtain ⟨c, _ | y, _ | x⟩ := a
  case none.some => exact ⟨x, rfl⟩
  all_goals cases add

theorem Advice.eq_remove_of_isAnyRemove {a : Advice} (named : a.IsNamed) (remove : a.isAnyRemove) :
    ∃ y, a = .remove a.coordinates y := by
  obtain ⟨c, _ | y, _ | x⟩ := a
  case some.none => exact ⟨y, rfl⟩
  case none.none => simp [IsNamed] at named
  all_goals cases remove

namespace Reduction

/-- How a set becomes another one when additions are merged with removals. -/
inductive Merges : List Advice → List Advice → AdviceSet → AdviceSet → Prop where
  | done {removes s} : Merges [] removes s s
  | skip {c x adds removes s t} (none : ∀ r ∈ removes, r.coordinates ≠ c)
      (rest : Merges adds removes s t) : Merges (.add c x :: adds) removes s t
  | pair {c x y adds removes s t} (mem : .remove c y ∈ removes)
      (rest : Merges adds (removes.erase (.remove c y)) (mergeOne c s x y) t) :
      Merges (.add c x :: adds) removes s t

variable {adds removes : List Advice} {s t : AdviceSet} {a : Advice} {c e : Coordinates}
  {x y : String} {declared : Coordinates → Set String}

/-- Merging never fails. -/
theorem exists_merges (adding : ∀ a ∈ adds, ∃ x, a = .add a.coordinates x)
    (removing : ∀ r ∈ removes, ∃ y, r = .remove r.coordinates y) (s : AdviceSet) :
    ∃ t, merge adds removes s = .ok t ∧ Merges adds removes s t := by
  induction adds generalizing removes s with
  | nil => exact ⟨s, rfl, .done⟩
  | cons a adds ih =>
    obtain ⟨⟨x, isAdd⟩, others⟩ := List.forall_mem_cons.1 adding
    generalize a.coordinates = c at isAdd
    subst isAdd
    cases found : removes.find? (·.coordinates = c) with
    | none =>
      have none : ∀ r ∈ removes, r.coordinates ≠ c := by simpa using found
      obtain ⟨t, eq, merges⟩ := ih others removing s
      refine ⟨t, ?_, .skip none merges⟩
      have first : removes.find? (·.coordinates = (Advice.add c x).coordinates) = .none := found
      rw [merge, first]
      exact eq
    | some r =>
      have mem : r ∈ removes := List.mem_of_find?_eq_some found
      have on_c : r.coordinates = c := by simpa using List.find?_some found
      obtain ⟨y, isRemove⟩ := removing r mem
      rw [on_c] at isRemove
      subst isRemove
      obtain ⟨t, eq, merges⟩ :=
        ih others (fun r mem => removing r (List.mem_of_mem_erase mem)) (mergeOne c s x y)
      exact ⟨t, (merge_cons_of_find found).trans eq, .pair mem merges⟩

/-! ## Additions and removals apart -/

/-- If the removals of a set are among those to be merged, and the additions too unless they have
no removal beside them, then no dependency keeps both. -/
theorem Merges.apart (h : Merges adds removes s t)
    (removing : ∀ r ∈ s, r.isAnyRemove → r ∈ removes)
    (adding : ∀ a ∈ s, a.isAnyAdd → a ∈ adds ∨ ∀ r ∈ removes, r.coordinates ≠ a.coordinates) :
    ∀ a ∈ t, ∀ r ∈ t, a.isAnyAdd → r.isAnyRemove → r.coordinates ≠ a.coordinates := by
  induction h with
  | done =>
    intro a memA r memR add remove
    exact (adding a memA add).resolve_left List.not_mem_nil r (removing r memR remove)
  | skip none _ ih =>
    refine ih removing fun a mem add => ?_
    rcases adding a mem add with mem | alone
    · rcases List.mem_cons.1 mem with rfl | mem
      · exact .inr none
      · exact .inl mem
    · exact .inr alone
  | pair mem _ ih =>
    apply ih
    · intro r memR remove
      rcases mem_mergeOne.1 memR with ⟨memR, -, other⟩ | ⟨-, rfl⟩
      · exact (List.mem_erase_of_ne other).2 (removing r memR remove)
      · cases remove
    · intro a memA add
      rcases mem_mergeOne.1 memA with ⟨memA, other, -⟩ | ⟨-, rfl⟩
      · refine (adding a memA add).imp ?_ ?_
        · exact fun mem => (List.mem_cons.1 mem).resolve_left other
        · exact fun alone r mem => alone r (List.mem_of_mem_erase mem)
      · cases add

/-! ## The same effect -/

section

variable {field : Advice → Option String} {z : String}

/-- A change names what the addition and the removal name that are merged into it. -/
theorem ends_mergeOne (ne : y ≠ x) (add : .add c x ∈ s) (remove : .remove c y ∈ s)
    (named : ∀ z, field ⟨c, some y, some x⟩ = some z ↔
      field (.add c x) = some z ∨ field (.remove c y) = some z) :
    (mergeOne c s x y).ends field = s.ends field := by
  funext e
  ext z
  constructor
  · rintro ⟨a, mem, on_e, at_z⟩
    rcases mem_mergeOne.1 mem with ⟨mem, -, -⟩ | ⟨-, rfl⟩
    · exact ⟨a, mem, on_e, at_z⟩
    · rcases (named z).1 at_z with at_z | at_z
      · exact ⟨_, add, on_e, at_z⟩
      · exact ⟨_, remove, on_e, at_z⟩
  · rintro ⟨a, mem, on_e, at_z⟩
    have change : ⟨c, some y, some x⟩ ∈ mergeOne c s x y := mem_mergeOne.2 (.inr ⟨ne, rfl⟩)
    by_cases isAdd : a = .add c x
    · subst isAdd
      exact ⟨_, change, on_e, (named z).2 (.inl at_z)⟩
    by_cases isRemove : a = .remove c y
    · subst isRemove
      exact ⟨_, change, on_e, (named z).2 (.inr at_z)⟩
    exact ⟨a, mem_mergeOne.2 (.inl ⟨mem, isAdd, isRemove⟩), on_e, at_z⟩

/-- An addition and a removal that cancel leave what they do not name as it is. -/
theorem mem_ends_cancelled (other : ¬ (e = c ∧ z = x))
    (named : ∀ z, field (.add c x) = some z ∨ field (.remove c x) = some z → z = x) :
    z ∈ (mergeOne c s x x).ends field e ↔ z ∈ s.ends field e := by
  constructor
  · rintro ⟨a, mem, on_e, at_z⟩
    rcases mem_mergeOne.1 mem with ⟨mem, -, -⟩ | ⟨ne, -⟩
    · exact ⟨a, mem, on_e, at_z⟩
    · exact absurd rfl ne
  · rintro ⟨a, mem, on_e, at_z⟩
    refine ⟨a, mem_mergeOne.2 (.inl ⟨mem, ?_, ?_⟩), on_e, at_z⟩
    · rintro rfl
      exact other ⟨on_e.symm, named z (.inl at_z)⟩
    · rintro rfl
      exact other ⟨on_e.symm, named z (.inr at_z)⟩

end

/-- Additions and removals in a set, where what is to be removed is declared, and no other advice
is to take it off. -/
structure Mergeable (declared : Coordinates → Set String) (adds removes : List Advice)
    (s : AdviceSet) : Prop where
  adds_nodup : adds.Nodup
  removes_nodup : removes.Nodup
  mem_of_add : ∀ a ∈ adds, a ∈ s ∧ a.isAnyAdd
  mem_of_remove : ∀ r ∈ removes, r ∈ s ∧ r.isAnyRemove
  isDeclared : ∀ c y, .remove c y ∈ removes → y ∈ declared c
  alone : ∀ c y, .remove c y ∈ removes → ∀ a ∈ s, a.coordinates = c → a.source = some y →
    a = .remove c y

namespace Mergeable

theorem skip (h : Mergeable declared (a :: adds) removes s) : Mergeable declared adds removes s where
  adds_nodup := h.adds_nodup.of_cons
  removes_nodup := h.removes_nodup
  mem_of_add b mem := h.mem_of_add b (List.mem_cons_of_mem _ mem)
  mem_of_remove := h.mem_of_remove
  isDeclared := h.isDeclared
  alone := h.alone

section

variable (h : Mergeable declared (.add c x :: adds) removes s)
include h

theorem pair : Mergeable declared adds (removes.erase (.remove c y)) (mergeOne c s x y) where
  adds_nodup := h.adds_nodup.of_cons
  removes_nodup := h.removes_nodup.erase _
  mem_of_add b memB := by
    obtain ⟨mem, add⟩ := h.mem_of_add b (List.mem_cons_of_mem _ memB)
    refine ⟨mem_mergeOne.2 (.inl ⟨mem, ?_, ?_⟩), add⟩
    · rintro rfl
      exact (List.nodup_cons.1 h.adds_nodup).1 memB
    · rintro rfl
      cases add
  mem_of_remove r memR := by
    obtain ⟨other, memR⟩ := h.removes_nodup.mem_erase_iff.1 memR
    obtain ⟨mem, remove⟩ := h.mem_of_remove r memR
    refine ⟨mem_mergeOne.2 (.inl ⟨mem, ?_, other⟩), remove⟩
    rintro rfl
    cases remove
  isDeclared e z mem := h.isDeclared e z (List.mem_of_mem_erase mem)
  alone e z memR b memB on_e source := by
    obtain ⟨other, memR⟩ := h.removes_nodup.mem_erase_iff.1 memR
    rcases mem_mergeOne.1 memB with ⟨memB, -, -⟩ | ⟨-, rfl⟩
    · exact h.alone e z memR b memB on_e source
    · obtain rfl : c = e := on_e
      obtain rfl : y = z := Option.some.inj source
      exact absurd rfl other

/-- What is dropped for itself was declared and is declared again. -/
theorem applied_cancelled (mem : .remove c x ∈ removes) :
    (mergeOne c s x x).applied declared = s.applied declared := by
  have add : .add c x ∈ s := (h.mem_of_add _ List.mem_cons_self).1
  have isDeclared : x ∈ declared c := h.isDeclared c x mem
  have taken : x ∉ (mergeOne c s x x).sources c := by
    rintro ⟨a, memA, on_c, source⟩
    rcases mem_mergeOne.1 memA with ⟨memA, -, other⟩ | ⟨ne, -⟩
    · exact other (h.alone c x mem a memA on_c source)
    · exact ne rfl
  funext e
  ext z
  rw [AdviceSet.applied, AdviceSet.applied, Set.mem_union, Set.mem_union, Set.mem_sdiff,
    Set.mem_sdiff]
  by_cases here : e = c ∧ z = x
  · obtain ⟨rfl, rfl⟩ := here
    exact iff_of_true (.inl ⟨isDeclared, taken⟩) (.inr ⟨_, add, rfl, rfl⟩)
  · rw [AdviceSet.sources, AdviceSet.sources, AdviceSet.targets, AdviceSet.targets,
      mem_ends_cancelled here (by simp [Advice.add, Advice.remove]),
      mem_ends_cancelled here (by simp [Advice.add, Advice.remove])]

theorem applied_mergeOne (mem : .remove c y ∈ removes) :
    (mergeOne c s x y).applied declared = s.applied declared := by
  by_cases same : y = x
  · subst same
    exact h.applied_cancelled mem
  · have add : .add c x ∈ s := (h.mem_of_add _ List.mem_cons_self).1
    have remove : .remove c y ∈ s := (h.mem_of_remove _ mem).1
    have sources : (mergeOne c s x y).sources = s.sources :=
      ends_mergeOne same add remove (by simp [Advice.add, Advice.remove])
    have targets : (mergeOne c s x y).targets = s.targets :=
      ends_mergeOne same add remove (by simp [Advice.add, Advice.remove])
    funext e
    rw [AdviceSet.applied, AdviceSet.applied, sources, targets]

end

end Mergeable

theorem Merges.applied_eq (merges : Merges adds removes s t)
    (h : Mergeable declared adds removes s) : t.applied declared = s.applied declared := by
  induction merges with
  | done => rfl
  | skip _ _ ih => exact ih h.skip
  | pair mem _ ih => exact (ih h.pair).trans (h.applied_mergeOne mem)

/-- Simplification never fails on advice that names a configuration, and leaves no dependency
with both an addition and a removal. If no declaration is both dropped and moved, and what is
dropped is declared, the same is declared after following the advice as it is and simplified. -/
theorem simplify_preserves {advice : AdviceSet} (named : ∀ a ∈ advice, a.IsNamed) :
    ∃ simple, simplify advice = .ok simple ∧
      (∀ a ∈ simple, ∀ r ∈ simple, a.isAnyAdd → r.isAnyRemove → r.coordinates ≠ a.coordinates) ∧
      ∀ declared : Coordinates → Set String,
        (∀ r ∈ advice, ∀ a ∈ advice, r.isAnyRemove → a.isAnyChange →
          r.coordinates = a.coordinates → r.source ≠ a.source) →
        (∀ r ∈ advice, r.isAnyRemove → ∀ x, r.source = some x → x ∈ declared r.coordinates) →
        simple.applied declared = advice.applied declared := by
  have adds : ∀ a ∈ advice.toList.filter Advice.isAnyAdd, a ∈ advice ∧ a.isAnyAdd :=
    fun a mem => List.mem_filter.1 mem
  have removes : ∀ r ∈ advice.toList.filter Advice.isAnyRemove, r ∈ advice ∧ r.isAnyRemove :=
    fun r mem => List.mem_filter.1 mem
  obtain ⟨simple, eq, merges⟩ := exists_merges
    (fun a mem => Advice.eq_add_of_isAnyAdd (adds a mem).2)
    (fun r mem => Advice.eq_remove_of_isAnyRemove (named r (removes r mem).1) (removes r mem).2)
    advice
  refine ⟨simple, eq, ?_, fun declared single isDeclared => ?_⟩
  · apply merges.apart
    · exact fun r mem remove => List.mem_filter.2 ⟨mem, remove⟩
    · exact fun a mem add => .inl (List.mem_filter.2 ⟨mem, add⟩)
  · have nodup : advice.toList.Nodup := nodup_of_ascending advice.ascending
    refine merges.applied_eq ⟨nodup.filter _, nodup.filter _, adds, removes, ?_, ?_⟩
    · intro c y mem
      exact isDeclared _ (removes _ mem).1 (removes _ mem).2 y rfl
    · intro c y mem a memA on_c source
      obtain ⟨memR, remove⟩ := removes _ mem
      -- other advice with the source has a target too, so it is a change
      obtain ⟨e, _ | z, _ | x⟩ := a
      case some.none =>
        obtain rfl : e = c := on_c
        obtain rfl : z = y := Option.some.inj source
        rfl
      case some.some =>
        exact absurd source.symm (single _ memR _ memA remove rfl on_c.symm)
      all_goals cases source

/-- Advice on three dependencies: two pairs to be merged beside a change, an addition alone and a
removal alone. -/
def assorted : AdviceSet :=
  .ofList [.add (.flat "a") "implementation", .remove (.flat "a") "compileOnly",
    .add (.flat "a") "api", .remove (.flat "a") "api",
    { coordinates := .flat "a", source := some "debugApi", target := some "api" },
    .add (.flat "b") "api", .remove (.flat "c") "api"]

/-- One pair cancels, and the other becomes a change. The first dependency is on `api` and
`implementation` in the end, the second on `api` besides, and the third not any more. -/
theorem simplify_preserves_assorted :
    let declared : Coordinates → Set String := fun _ => {x | x ∈ ["api", "compileOnly"]}
    (∀ a ∈ assorted, a.IsNamed) ∧
      (∀ r ∈ assorted, ∀ a ∈ assorted, r.isAnyRemove → a.isAnyChange →
        r.coordinates = a.coordinates → r.source ≠ a.source) ∧
      (∀ r ∈ assorted, r.isAnyRemove → ∀ x, r.source = some x → x ∈ declared r.coordinates) ∧
      ∃ simple, simplify assorted = .ok simple ∧ simple.toList =
          [{ coordinates := .flat "a", source := some "debugApi", target := some "api" },
            { coordinates := .flat "a", source := some "compileOnly", target := some "implementation" },
            .add (.flat "b") "api", .remove (.flat "c") "api"] ∧
        (∀ a ∈ simple, ∀ r ∈ simple, a.isAnyAdd → r.isAnyRemove → r.coordinates ≠ a.coordinates) ∧
        simple.applied declared = assorted.applied declared := by
  intro declared
  have named : ∀ a ∈ assorted.toList, a.IsNamed := by decide
  have single : ∀ r ∈ assorted.toList, ∀ a ∈ assorted.toList, r.isAnyRemove → a.isAnyChange →
      r.coordinates = a.coordinates → r.source ≠ a.source := by decide
  have isDeclared : ∀ r ∈ assorted.toList, r.isAnyRemove → ∀ x ∈ r.source,
      x ∈ ["api", "compileOnly"] := by decide
  obtain ⟨simple, eq, apart, same⟩ := simplify_preserves named
  have result : (simplify assorted).toOption.map (·.toList) = some
      [{ coordinates := .flat "a", source := some "debugApi", target := some "api" },
        { coordinates := .flat "a", source := some "compileOnly", target := some "implementation" },
        .add (.flat "b") "api", .remove (.flat "c") "api"] := by decide
  rw [eq] at result
  exact ⟨named, single, isDeclared, simple, eq, Option.some.inj result, apart,
    same declared single isDeclared⟩

end Reduction

end ClasspathAdvice
