import ClasspathAdvice.Proofs.Reduction.Plan
import Mathlib.Data.List.Nodup

/-!
# What merging does to the plan

Additions and removals of a plan are merged in order, the first with the first. Where both
name one configuration nothing is left of them (`Cancelled`), otherwise a change is. So the
advice takes declarations off the configurations that `Leaves` tells and puts them on those
that `Arrives` tells (`reduce_follows`).
-/

namespace ClasspathAdvice
set_option autoImplicit false

/-- Advice that names a configuration to leave or to come to. -/
def Advice.IsNamed (a : Advice) : Prop := ∃ x, a.source = some x ∨ a.target = some x

instance (a : Advice) : Decidable a.IsNamed :=
  decidable_of_iff (a.source.isSome ∨ a.target.isSome) <| by
    simp [Advice.IsNamed, Option.isSome_iff_exists, exists_or]

namespace Reduction

/-- The configurations that are declared anew. -/
def declares (steps : List Step) : OrderedSet String :=
  .ofList <| steps.filterMap fun
    | .declare target => some target
    | _ => none

/-- The configurations that are dropped. -/
def drops (steps : List Step) : OrderedSet String :=
  .ofList <| steps.filterMap fun
    | .drop source => some source
    | _ => none

/-- The configurations that are declared anew with those that are dropped for them. -/
def merged (steps : List Step) : List (String × String) :=
  (declares steps).toList.zip (drops steps).toList

/-- A declaration is dropped for itself. -/
def Cancelled (steps : List Step) (x : String) : Prop := (x, x) ∈ merged steps

/-- A declaration is to be made on a configuration. -/
def Arrives (steps : List Step) (x : String) : Prop :=
  (∃ source, source ≠ x ∧ .move source x ∈ steps) ∨ (.declare x ∈ steps ∧ ¬ Cancelled steps x)

/-- The declarations on a configuration are to go. -/
def Leaves (steps : List Step) (x : String) : Prop :=
  (∃ target, x ≠ target ∧ .move x target ∈ steps) ∨ (.drop x ∈ steps ∧ ¬ Cancelled steps x)

/-- The advice is on the configurations that the plan is on. -/
structure Follows (steps : List Step) (advice : AdviceSet) : Prop where
  source_iff : ∀ x, (∃ a ∈ advice, a.source = some x) ↔ Leaves steps x
  target_iff : ∀ x, (∃ a ∈ advice, a.target = some x) ↔ Arrives steps x
  named : ∀ a ∈ advice, ∃ x, a.source = some x ∨ a.target = some x

variable {c : Coordinates} {steps : List Step} {x y z : String} {a : Advice}

theorem mem_declares : x ∈ (declares steps).toList ↔ .declare x ∈ steps := by
  rw [← OrderedSet.mem_def, declares, OrderedSet.mem_ofList, List.mem_filterMap]
  constructor
  · rintro ⟨step, mem, eq⟩
    cases step <;> simp_all
  · exact fun mem => ⟨_, mem, rfl⟩

theorem mem_drops : x ∈ (drops steps).toList ↔ .drop x ∈ steps := by
  rw [← OrderedSet.mem_def, drops, OrderedSet.mem_ofList, List.mem_filterMap]
  constructor
  · rintro ⟨step, mem, eq⟩
    cases step <;> simp_all
  · exact fun mem => ⟨_, mem, rfl⟩

/-! ## The pairs that are merged -/

theorem zip_right_unique {α β : Type} {l : List α} {m : List β} {a : α} {b b' : β}
    (nodup : l.Nodup) (h : (a, b) ∈ l.zip m) (h' : (a, b') ∈ l.zip m) : b = b' := by
  obtain ⟨i, hi, eq⟩ := List.mem_iff_getElem.1 h
  obtain ⟨j, hj, eq'⟩ := List.mem_iff_getElem.1 h'
  rw [List.getElem_zip, Prod.mk.injEq] at eq eq'
  have same : i = j := (List.Nodup.getElem_inj_iff nodup).1 (eq.1.trans eq'.1.symm)
  subst same
  exact eq.2.symm.trans eq'.2

theorem zip_left_unique {α β : Type} {l : List α} {m : List β} {a a' : α} {b : β}
    (nodup : m.Nodup) (h : (a, b) ∈ l.zip m) (h' : (a', b) ∈ l.zip m) : a = a' := by
  obtain ⟨i, hi, eq⟩ := List.mem_iff_getElem.1 h
  obtain ⟨j, hj, eq'⟩ := List.mem_iff_getElem.1 h'
  rw [List.getElem_zip, Prod.mk.injEq] at eq eq'
  have same : i = j := (List.Nodup.getElem_inj_iff nodup).1 (eq.2.trans eq'.2.symm)
  subst same
  exact eq.1.symm.trans eq'.1

/-- Two lists leave no member of both when they are zipped. -/
theorem zip_covers {α β : Type} {l : List α} {m : List β} {a : α} {b : β} (ha : a ∈ l) (hb : b ∈ m) :
    (∃ b', (a, b') ∈ l.zip m) ∨ ∃ a', (a', b) ∈ l.zip m := by
  obtain ⟨i, hi, rfl⟩ := List.mem_iff_getElem.1 ha
  obtain ⟨j, hj, rfl⟩ := List.mem_iff_getElem.1 hb
  have at_index : ∀ k (hl : k < l.length) (hm : k < m.length), (l[k], m[k]) ∈ l.zip m := by
    intro k hl hm
    have inside : k < (l.zip m).length := by
      rw [List.length_zip]
      omega
    rw [← List.getElem_zip (h := inside)]
    exact List.getElem_mem inside
  by_cases h : i < m.length
  · exact .inl ⟨m[i], at_index i hi h⟩
  · exact .inr ⟨l[j], at_index j (by omega) hj⟩

/-! ## The advice that is left -/

theorem mem_erase {s : AdviceSet} {b : Advice} : a ∈ s.erase b ↔ a ∈ s ∧ a ≠ b := by
  rw [OrderedSet.erase, OrderedSet.mem_filter, decide_eq_true_eq]

/-- An addition and a removal are merged with each other. -/
def mergeOne (c : Coordinates) (s : AdviceSet) (target source : String) : AdviceSet :=
  let rest := (s.erase (.add c target)).erase (.remove c source)
  if source = target then rest else rest.insert ⟨c, some source, some target⟩

theorem mem_mergeOne {s : AdviceSet} :
    a ∈ mergeOne c s x y ↔ (a ∈ s ∧ a ≠ .add c x ∧ a ≠ .remove c y) ∨
      (y ≠ x ∧ a = ⟨c, some y, some x⟩) := by
  unfold mergeOne
  by_cases same : y = x
  · simp [same, mem_erase, and_assoc]
  · simp only [same, if_false, OrderedSet.mem_insert, mem_erase, and_assoc]
    constructor
    · rintro (h | h)
      · exact .inr ⟨same, h⟩
      · exact .inl h
    · rintro (h | h)
      · exact .inr h
      · exact .inl h.2

/-- An addition is merged with the first removal that has its coordinates. -/
theorem merge_cons_of_find {adds removes : List Advice} {s : AdviceSet}
    (found : removes.find? (·.coordinates = c) = some (.remove c y)) :
    merge (.add c x :: adds) removes s =
      merge adds (removes.erase (.remove c y)) (mergeOne c s x y) := by
  have first : removes.find? (·.coordinates = (Advice.add c x).coordinates) =
      some (.remove c y) := found
  rw [merge, first]
  simp only [mergeOne]
  by_cases same : y = x
  · simp [same, Advice.remove, Advice.add]
  · simp [same, Advice.remove, Advice.add, Advice.change, bind, Except.bind]

theorem merge_cons (targets sources : List String) (s : AdviceSet) :
    merge ((x :: targets).map (Advice.add c)) ((y :: sources).map (Advice.remove c)) s =
      merge (targets.map (Advice.add c)) (sources.map (Advice.remove c)) (mergeOne c s x y) := by
  have first : ((y :: sources).map (Advice.remove c)).find? (·.coordinates = c) =
      some (.remove c y) := by simp [Advice.remove]
  have rest : ((y :: sources).map (Advice.remove c)).erase (.remove c y) =
      sources.map (Advice.remove c) := by simp
  rw [List.map_cons, merge_cons_of_find first, rest]

/-- Of additions and removals with the same coordinates the first are merged with the first. -/
theorem merge_spec (targets sources : List String) (s : AdviceSet) :
    ∃ advice, merge (targets.map (Advice.add c)) (sources.map (Advice.remove c)) s = .ok advice ∧
      ∀ a, a ∈ advice ↔
        (a ∈ s ∧ ∀ p ∈ targets.zip sources, a ≠ .add c p.1 ∧ a ≠ .remove c p.2) ∨
        ∃ p ∈ targets.zip sources, p.2 ≠ p.1 ∧ a = ⟨c, some p.2, some p.1⟩ := by
  induction targets generalizing sources s with
  | nil => exact ⟨s, rfl, fun a => by simp⟩
  | cons t targets ih =>
    cases sources with
    | nil =>
      obtain ⟨advice, eq, mem⟩ := ih [] s
      refine ⟨advice, ?_, fun a => by simpa using mem a⟩
      simpa [merge] using eq
    | cons r sources =>
      obtain ⟨advice, eq, mem⟩ := ih sources (mergeOne c s t r)
      refine ⟨advice, (merge_cons targets sources s).trans eq, fun a => ?_⟩
      rw [mem, mem_mergeOne, List.zip_cons_cons]
      simp only [List.mem_cons, forall_eq_or_imp, exists_eq_or_imp]
      constructor
      · rintro (⟨⟨mem, ne, ne'⟩ | new, others⟩ | later)
        · exact .inl ⟨mem, ⟨ne, ne'⟩, others⟩
        · exact .inr (.inl new)
        · exact .inr (.inr later)
      · rintro (⟨mem, ⟨ne, ne'⟩, others⟩ | ⟨ne, rfl⟩ | later)
        · exact .inl ⟨.inl ⟨mem, ne, ne'⟩, others⟩
        · refine .inl ⟨.inr ⟨ne, rfl⟩, fun p _ => ⟨?_, ?_⟩⟩
          · simp [Advice.add]
          · simp [Advice.remove]
        · exact .inr later

/-- The advice of a plan before merging. -/
theorem mem_advice : a ∈ OrderedSet.ofList (steps.filterMap (Step.advice? c)) ↔
    (∃ source target, source ≠ target ∧ .move source target ∈ steps ∧
      a = ⟨c, some source, some target⟩) ∨
    (∃ source, .drop source ∈ steps ∧ a = .remove c source) ∨
    ∃ target, .declare target ∈ steps ∧ a = .add c target := by
  rw [OrderedSet.mem_ofList, List.mem_filterMap]
  constructor
  · rintro ⟨step, mem, eq⟩
    cases step with
    | move source target =>
      by_cases same : source = target
      · simp [Step.advice?, same] at eq
      · refine .inl ⟨source, target, same, mem, ?_⟩
        simpa [Step.advice?, same] using eq.symm
    | drop source => exact .inr (.inl ⟨source, mem, (Option.some.inj eq).symm⟩)
    | declare target => exact .inr (.inr ⟨target, mem, (Option.some.inj eq).symm⟩)
  · rintro (⟨source, target, ne, mem, rfl⟩ | ⟨source, mem, rfl⟩ | ⟨target, mem, rfl⟩)
    · exact ⟨_, mem, by simp [Step.advice?, ne]⟩
    · exact ⟨_, mem, rfl⟩
    · exact ⟨_, mem, rfl⟩

theorem compare_add : compare (Advice.add c x) (Advice.add c y) = compare x y := by
  have self : compare c c = .eq := Std.ReflCmp.compare_self
  show (compare c c).then ((compare x y).then .eq) = compare x y
  rw [self, Ordering.then_eq]
  rfl

theorem compare_remove : compare (Advice.remove c x) (Advice.remove c y) = compare x y := by
  have self : compare c c = .eq := Std.ReflCmp.compare_self
  show (compare c c).then (Ordering.eq.then (compare x y)) = compare x y
  rw [self]
  rfl

/-- The additions come in the order of their targets. -/
theorem filter_isAnyAdd :
    (OrderedSet.ofList (steps.filterMap (Step.advice? c))).toList.filter Advice.isAnyAdd =
      (declares steps).toList.map (Advice.add c) := by
  refine OrderedSet.eq_of_mem_iff ((OrderedSet.ascending _).filter _) ?_ fun a => ?_
  · refine List.pairwise_map.2 ((declares steps).ascending.imp fun {x y} before => ?_)
    exact compare_add.trans before
  · rw [List.mem_filter, ← OrderedSet.mem_def, mem_advice, List.mem_map]
    constructor
    · rintro ⟨⟨_, _, _, _, rfl⟩ | ⟨_, _, rfl⟩ | ⟨target, mem, rfl⟩, add⟩
      · simp [Advice.isAnyAdd] at add
      · simp [Advice.isAnyAdd, Advice.remove] at add
      · exact ⟨target, mem_declares.2 mem, rfl⟩
    · rintro ⟨target, mem, rfl⟩
      exact ⟨.inr (.inr ⟨target, mem_declares.1 mem, rfl⟩), rfl⟩

/-- The removals come in the order of their sources. -/
theorem filter_isAnyRemove :
    (OrderedSet.ofList (steps.filterMap (Step.advice? c))).toList.filter Advice.isAnyRemove =
      (drops steps).toList.map (Advice.remove c) := by
  refine OrderedSet.eq_of_mem_iff ((OrderedSet.ascending _).filter _) ?_ fun a => ?_
  · refine List.pairwise_map.2 ((drops steps).ascending.imp fun {x y} before => ?_)
    exact compare_remove.trans before
  · rw [List.mem_filter, ← OrderedSet.mem_def, mem_advice, List.mem_map]
    constructor
    · rintro ⟨⟨_, _, _, _, rfl⟩ | ⟨source, mem, rfl⟩ | ⟨_, _, rfl⟩, remove⟩
      · simp [Advice.isAnyRemove] at remove
      · exact ⟨source, mem_drops.2 mem, rfl⟩
      · simp [Advice.isAnyRemove, Advice.add] at remove
    · rintro ⟨source, mem, rfl⟩
      exact ⟨.inr (.inl ⟨source, mem_drops.1 mem, rfl⟩), rfl⟩

/-- What is left after merging: changes, and additions and removals that had no other half. -/
theorem simplify_spec :
    ∃ advice, simplify (.ofList (steps.filterMap (Step.advice? c))) = .ok advice ∧
      ∀ a, a ∈ advice ↔
        (∃ source target, source ≠ target ∧ a = ⟨c, some source, some target⟩ ∧
          (.move source target ∈ steps ∨ (target, source) ∈ merged steps)) ∨
        (∃ source, .drop source ∈ steps ∧ a = .remove c source ∧
          ∀ target, (target, source) ∉ merged steps) ∨
        ∃ target, .declare target ∈ steps ∧ a = .add c target ∧
          ∀ source, (target, source) ∉ merged steps := by
  obtain ⟨advice, eq, mem⟩ := merge_spec (c := c) (declares steps).toList (drops steps).toList
    (.ofList (steps.filterMap (Step.advice? c)))
  refine ⟨advice, ?_, fun a => ?_⟩
  · rw [simplify, filter_isAnyAdd, filter_isAnyRemove]
    exact eq
  · rw [mem, mem_advice]
    constructor
    · rintro (⟨⟨s, t, ne, mem, rfl⟩ | ⟨s, mem, rfl⟩ | ⟨t, mem, rfl⟩, kept⟩ | ⟨⟨t, s⟩, mem, ne, rfl⟩)
      · exact .inl ⟨s, t, ne, rfl, .inl mem⟩
      · exact .inr (.inl ⟨s, mem, rfl, fun t pair => (kept _ pair).2 rfl⟩)
      · exact .inr (.inr ⟨t, mem, rfl, fun s pair => (kept _ pair).1 rfl⟩)
      · exact .inl ⟨s, t, ne, rfl, .inr mem⟩
    · rintro (⟨s, t, ne, rfl, move | pair⟩ | ⟨s, mem, rfl, alone⟩ | ⟨t, mem, rfl, alone⟩)
      · refine .inl ⟨.inl ⟨s, t, ne, move, rfl⟩, fun p _ => ⟨?_, ?_⟩⟩
        · simp [Advice.add]
        · simp [Advice.remove]
      · exact .inr ⟨(t, s), pair, ne, rfl⟩
      · refine .inl ⟨.inr (.inl ⟨s, mem, rfl⟩), fun p pair => ⟨?_, ?_⟩⟩
        · simp [Advice.remove, Advice.add]
        · rintro eq
          obtain rfl : s = p.2 := by simpa [Advice.remove] using eq
          exact alone p.1 pair
      · refine .inl ⟨.inr (.inr ⟨t, mem, rfl⟩), fun p pair => ⟨?_, ?_⟩⟩
        · rintro eq
          obtain rfl : t = p.1 := by simpa [Advice.add] using eq
          exact alone p.2 pair
        · simp [Advice.remove, Advice.add]

theorem merged_mem (h : (x, y) ∈ merged steps) : .declare x ∈ steps ∧ .drop y ∈ steps :=
  ⟨mem_declares.1 (List.of_mem_zip h).1, mem_drops.1 (List.of_mem_zip h).2⟩

/-- The advice of a plan that only drops declarations is a removal of each. -/
theorem simplify_drops (l : List Declaration) :
    ∃ advice, simplify (.ofList ((l.map fun d => Step.drop d.configuration).filterMap
        (Step.advice? c))) = .ok advice ∧
      ∀ a, a ∈ advice ↔ ∃ d ∈ l, a = .remove c d.configuration := by
  obtain ⟨advice, eq, mem⟩ := @simplify_spec c (l.map fun d => Step.drop d.configuration)
  have noDeclare : ∀ x, Step.declare x ∉ l.map fun d => Step.drop d.configuration := by simp
  have none : ∀ x y, (x, y) ∉ merged (l.map fun d => Step.drop d.configuration) :=
    fun x y pair => noDeclare x (merged_mem pair).1
  refine ⟨advice, eq, fun a => ?_⟩
  rw [mem]
  simp only [none, not_false_eq_true, implies_true, and_true, or_false]
  constructor
  · rintro (⟨s, t, -, -, move⟩ | ⟨s, drop, rfl⟩ | ⟨t, declare, -⟩)
    · simp at move
    · obtain ⟨d, isDeclared, eq⟩ := List.mem_map.1 drop
      cases eq
      exact ⟨d, isDeclared, rfl⟩
    · exact absurd declare (noDeclare t)
  · rintro ⟨d, isDeclared, rfl⟩
    exact .inr (.inl ⟨_, List.mem_map.2 ⟨d, isDeclared, rfl⟩, rfl⟩)

/-- Where nothing is declared anew, nothing is cancelled. -/
theorem leaves_iff_of_no_declare (h : ∀ y, .declare y ∉ steps) :
    Leaves steps x ↔ (∃ target, x ≠ target ∧ .move x target ∈ steps) ∨ .drop x ∈ steps := by
  have alone : ¬ Cancelled steps x := fun same => h x (merged_mem same).1
  simp [Leaves, alone]

theorem arrives_iff_of_no_declare (h : ∀ y, .declare y ∉ steps) :
    Arrives steps x ↔ ∃ source, source ≠ x ∧ .move source x ∈ steps := by
  simp [Arrives, h x]

/-- Where nothing is dropped, nothing is cancelled. -/
theorem arrives_iff_of_no_drop (h : ∀ y, .drop y ∉ steps) :
    Arrives steps x ↔ (∃ source, source ≠ x ∧ .move source x ∈ steps) ∨ .declare x ∈ steps := by
  have alone : ¬ Cancelled steps x := fun same => h x (merged_mem same).2
  simp [Arrives, alone]

/-- What is dropped for itself is dropped for nothing else. -/
theorem cancelled_left (h : (x, y) ∈ merged steps) (same : Cancelled steps x) : y = x :=
  zip_right_unique (nodup_of_ascending (declares steps).ascending) h same

theorem cancelled_right (h : (x, y) ∈ merged steps) (same : Cancelled steps y) : x = y :=
  zip_left_unique (nodup_of_ascending (drops steps).ascending) h same

/-- The advice of a plan follows the plan. -/
theorem simplify_follows :
    ∃ advice, simplify (.ofList (steps.filterMap (Step.advice? c))) = .ok advice ∧
      Follows steps advice := by
  obtain ⟨advice, eq, mem⟩ := @simplify_spec c steps
  refine ⟨advice, eq, fun x => ?_, fun x => ?_, fun a isAdvice => ?named⟩
  case named =>
    rcases (mem a).1 isAdvice with ⟨s, _, _, rfl, _⟩ | ⟨s, _, rfl, _⟩ | ⟨t, _, rfl, _⟩
    · exact ⟨s, .inl rfl⟩
    · exact ⟨s, .inl rfl⟩
    · exact ⟨t, .inr rfl⟩
  · constructor
    · rintro ⟨a, isAdvice, source⟩
      rcases (mem a).1 isAdvice with ⟨s, t, ne, rfl, move | pair⟩ | ⟨s, drop, rfl, alone⟩ | ⟨t, _, rfl, _⟩
      · obtain rfl : s = x := by simpa using source
        exact .inl ⟨t, ne, move⟩
      · obtain rfl : s = x := by simpa using source
        exact .inr ⟨(merged_mem pair).2, fun same => ne (cancelled_right pair same).symm⟩
      · obtain rfl : s = x := by simpa [Advice.remove] using source
        exact .inr ⟨drop, alone s⟩
      · simp [Advice.add] at source
    · rintro (⟨t, ne, move⟩ | ⟨drop, alone⟩)
      · exact ⟨_, (mem _).2 (.inl ⟨x, t, ne, rfl, .inl move⟩), rfl⟩
      · by_cases h : ∃ t, (t, x) ∈ merged steps
        · obtain ⟨t, pair⟩ := h
          have ne : x ≠ t := by
            rintro rfl
            exact alone pair
          exact ⟨_, (mem _).2 (.inl ⟨x, t, ne, rfl, .inr pair⟩), rfl⟩
        · exact ⟨_, (mem _).2 (.inr (.inl ⟨x, drop, rfl, not_exists.1 h⟩)), rfl⟩
  · constructor
    · rintro ⟨a, isAdvice, target⟩
      rcases (mem a).1 isAdvice with ⟨s, t, ne, rfl, move | pair⟩ | ⟨s, _, rfl, _⟩ | ⟨t, declare, rfl, alone⟩
      · obtain rfl : t = x := by simpa using target
        exact .inl ⟨s, ne, move⟩
      · obtain rfl : t = x := by simpa using target
        exact .inr ⟨(merged_mem pair).1, fun same => ne (cancelled_left pair same)⟩
      · simp [Advice.remove] at target
      · obtain rfl : t = x := by simpa [Advice.add] using target
        exact .inr ⟨declare, alone t⟩
    · rintro (⟨s, ne, move⟩ | ⟨declare, alone⟩)
      · exact ⟨_, (mem _).2 (.inl ⟨s, x, ne, rfl, .inl move⟩), rfl⟩
      · by_cases h : ∃ s, (x, s) ∈ merged steps
        · obtain ⟨s, pair⟩ := h
          have ne : s ≠ x := by
            rintro rfl
            exact alone pair
          exact ⟨_, (mem _).2 (.inl ⟨s, x, ne, rfl, .inr pair⟩), rfl⟩
        · exact ⟨_, (mem _).2 (.inr (.inr ⟨x, declare, rfl, not_exists.1 h⟩)), rfl⟩

/-- There is no advice only if the plan is on no configuration. -/
theorem Follows.eq_empty_iff {advice : AdviceSet} (h : Follows steps advice) :
    advice = ∅ ↔ ∀ x, ¬ Leaves steps x ∧ ¬ Arrives steps x := by
  have none : ∀ a : Advice, a ∉ (∅ : AdviceSet) := fun _ => List.not_mem_nil
  constructor
  · rintro rfl x
    rw [← h.source_iff, ← h.target_iff]
    exact ⟨fun ⟨a, mem, _⟩ => none a mem, fun ⟨a, mem, _⟩ => none a mem⟩
  · intro still
    refine OrderedSet.ext fun a => ⟨fun mem => ?_, fun mem => absurd mem (none a)⟩
    obtain ⟨x, source | target⟩ := h.named a mem
    · exact absurd ((h.source_iff x).1 ⟨a, mem, source⟩) (still x).1
    · exact absurd ((h.target_iff x).1 ⟨a, mem, target⟩) (still x).2

section

variable {coordinates : Coordinates} {declarations : List Declaration} {usages : List Usage}

theorem reduce_nil : reduce coordinates declarations [] = .error (.noUsages coordinates.identifier) :=
  rfl

/-- With usages the reduction is the merging of the plan's advice. -/
theorem reduce_eq_simplify (some : usages ≠ []) : reduce coordinates declarations usages =
    simplify (.ofList ((plan (matching coordinates declarations) usages).filterMap
      (Step.advice? coordinates.withoutDefaultCapability))) := by
  have notEmpty : ¬ usages.isEmpty = true := by simpa using some
  unfold reduce
  simp only [if_neg notEmpty, raw_consolidate some]
  rfl

/-- The reduction always succeeds when there are usages, and its advice follows the plan. -/
theorem reduce_follows (some : usages ≠ []) :
    ∃ advice, reduce coordinates declarations usages = .ok advice ∧
      Follows (plan (matching coordinates declarations) usages) advice := by
  rw [reduce_eq_simplify some]
  exact simplify_follows

end

end Reduction

end ClasspathAdvice
