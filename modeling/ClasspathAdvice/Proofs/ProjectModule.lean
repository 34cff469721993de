import ClasspathAdvice.Proofs.Reduction.Merging
import ClasspathAdvice.Proofs.Usage.Completion

/-!
# Advice for a module that is surveyed

A survey keeps a dependency only together with a usage, and a module makes one for each variant
where nothing was observed. So no reduction is without usages, and the advice for the module of a
survey is always found, each piece of it with a configuration to leave or to come to
(`exists_analyze`).
-/

namespace ClasspathAdvice
set_option autoImplicit false

/-- Attempts of which each succeeds give a list of what they give. -/
theorem exists_mapM {α β ε : Type} {P : β → Prop} {f : α → Except ε β} {l : List α}
    (h : ∀ a ∈ l, ∃ b, f a = .ok b ∧ P b) : ∃ bs, l.mapM f = .ok bs ∧ ∀ b ∈ bs, P b := by
  induction l with
  | nil => exact ⟨[], rfl, fun _ mem => absurd mem List.not_mem_nil⟩
  | cons a l ih =>
    obtain ⟨here, others⟩ := List.forall_mem_cons.1 h
    obtain ⟨b, ok, holds⟩ := here
    obtain ⟨bs, oks, hold⟩ := ih others
    refine ⟨b :: bs, ?_, List.forall_mem_cons.2 ⟨holds, hold⟩⟩
    rw [List.mapM_cons, ok, oks]
    rfl

/-- What attempts give that all succeed. -/
theorem mem_of_mapM {α β ε : Type} {f : α → Except ε β} {l : List α} {bs : List β} {b : β}
    (h : l.mapM f = .ok bs) : b ∈ bs ↔ ∃ a ∈ l, f a = .ok b := by
  induction l generalizing bs with
  | nil =>
    obtain rfl : [] = bs := Except.ok.inj h
    simp
  | cons a l ih =>
    rw [List.mapM_cons] at h
    cases here : f a with
    | error e =>
      rw [here] at h
      cases h
    | ok first =>
      cases others : l.mapM f with
      | error e =>
        rw [here, others] at h
        cases h
      | ok rest =>
        rw [here, others] at h
        obtain rfl : first :: rest = bs := Except.ok.inj h
        rw [List.mem_cons, ih others]
        simp only [List.mem_cons, exists_eq_or_imp, here, Except.ok.injEq]
        rw [eq_comm]

/-- Attempts that all succeed give one result each. -/
theorem forall₂_of_mapM {α β ε : Type} {f : α → Except ε β} {l : List α} {bs : List β}
    (h : l.mapM f = .ok bs) : List.Forall₂ (fun a b => f a = .ok b) l bs := by
  induction l generalizing bs with
  | nil =>
    obtain rfl : [] = bs := Except.ok.inj h
    exact .nil
  | cons a l ih =>
    rw [List.mapM_cons] at h
    cases here : f a with
    | error e =>
      rw [here] at h
      cases h
    | ok first =>
      cases others : l.mapM f with
      | error e =>
        rw [here, others] at h
        cases h
      | ok rest =>
        rw [here, others] at h
        obtain rfl : first :: rest = bs := Except.ok.inj h
        exact .cons here (ih others)

/-- Attempts that can fail in one way only fail in this way if one of them does. -/
theorem mapM_eq_error_iff {α β ε : Type} {f : α → Except ε β} {l : List α} {failure e : ε}
    (only : ∀ a ∈ l, ∀ e, f a = .error e → e = failure) :
    l.mapM f = .error e ↔ (∃ a ∈ l, f a = .error failure) ∧ e = failure := by
  induction l with
  | nil =>
    rw [List.mapM_nil]
    exact iff_of_false (fun fails => by cases fails) (by simp)
  | cons a l ih =>
    obtain ⟨first, others⟩ := List.forall_mem_cons.1 only
    rw [List.mapM_cons]
    cases here : f a with
    | error x =>
      obtain rfl : x = failure := first x here
      constructor
      · intro fails
        exact ⟨⟨a, List.mem_cons_self, here⟩, (Except.error.inj fails).symm⟩
      · intro same
        rw [same.2]
        rfl
    | ok b =>
      have later : (∃ x ∈ a :: l, f x = .error failure) ↔ ∃ x ∈ l, f x = .error failure := by
        simp [here]
      rw [later, ← ih others]
      cases l.mapM f with
      | error x => exact Iff.rfl
      | ok bs => exact iff_of_false (fun fails => by cases fails) (fun fails => by cases fails)

/-- A surveyed dependency has a usage. -/
theorem Survey.completeUsages_ne_nil (s : Survey) : ∀ e ∈ s.completeUsages.entries, e.2 ≠ [] := by
  intro e mem
  have key : e.1 ∈ s.completeUsages.keys := List.mem_map_of_mem mem
  have found : s.completeUsages.get? e.1 = some e.2 := OrderedMap.get?_eq_some_iff.2 mem
  rw [completeUsages_eq] at key found
  obtain ⟨u, observed⟩ := Observations.mem_keys_complete.1 key
  exact List.ne_nil_of_mem (((Observations.completes_of_get? found).mem_iff u).2 (.inl observed))

/-! ## Advice -/

namespace ProjectModule

variable {m : ProjectModule}

theorem knownVariants_ne_nil : m.knownVariants ≠ [] := by
  rw [knownVariants, Variant.orMain]
  split
  · exact List.cons_ne_nil _ _
  · rename_i some
    simpa using some

/-- Every dependency has usages if those that were observed have. -/
theorem dependencies_ne_nil (h : ∀ e ∈ m.usages.entries, e.2 ≠ []) :
    ∀ d ∈ m.dependencies, d.2 ≠ [] := by
  intro d mem
  rcases List.mem_append.1 mem with mem | mem
  · exact h d mem
  · obtain ⟨identifier, -, rfl⟩ := List.mem_map.1 mem
    exact fun none => knownVariants_ne_nil (List.map_eq_nil_iff.1 none)

theorem mem_foldl_union {a : Advice} {l : List AdviceSet} {start : AdviceSet} :
    a ∈ l.foldl OrderedSet.union start ↔ a ∈ start ∨ ∃ s ∈ l, a ∈ s := by
  induction l generalizing start with
  | nil => simp
  | cons s l ih =>
    rw [List.foldl_cons, ih, OrderedSet.mem_union, or_assoc]
    simp only [List.mem_cons, exists_eq_or_imp]

/-- The advice is found where each dependency has usages, and all of it is named. -/
theorem exists_rawAdvice (h : ∀ e ∈ m.usages.entries, e.2 ≠ []) :
    ∃ advice, m.rawAdvice = .ok advice ∧ ∀ a ∈ advice, a.IsNamed := by
  have reduced : ∀ d ∈ m.dependencies, ∃ advice,
      Reduction.reduce d.1 m.declarations d.2 = .ok advice ∧ ∀ a ∈ advice, a.IsNamed := by
    intro d mem
    obtain ⟨advice, ok, follows⟩ := Reduction.reduce_follows (dependencies_ne_nil h d mem)
    exact ⟨advice, ok, follows.named⟩
  obtain ⟨parts, ok, named⟩ := exists_mapM reduced
  refine ⟨parts.foldl OrderedSet.union ∅, ?_, ?_⟩
  · simp only [rawAdvice, ok]
    rfl
  · intro a mem
    rcases mem_foldl_union.1 mem with none | ⟨part, isPart, mem⟩
    · exact absurd none List.not_mem_nil
    · exact named part isPart a mem

/-- The advice is what the dependencies are reduced to. -/
theorem mem_rawAdvice {advice : AdviceSet} {a : Advice} (h : m.rawAdvice = .ok advice) :
    a ∈ advice ↔ ∃ d ∈ m.dependencies, ∃ part,
      Reduction.reduce d.1 m.declarations d.2 = .ok part ∧ a ∈ part := by
  rw [rawAdvice] at h
  cases reduced : m.dependencies.mapM (fun d => Reduction.reduce d.1 m.declarations d.2) with
  | error e =>
    rw [reduced] at h
    cases h
  | ok parts =>
    rw [reduced] at h
    obtain rfl : parts.foldl OrderedSet.union ∅ = advice := Except.ok.inj h
    rw [mem_foldl_union]
    constructor
    · rintro (none | ⟨part, isPart, mem⟩)
      · exact absurd none List.not_mem_nil
      · obtain ⟨d, isDependency, ok⟩ := (mem_of_mapM reduced).1 isPart
        exact ⟨d, isDependency, part, ok, mem⟩
    · rintro ⟨d, isDependency, part, ok, mem⟩
      exact .inr ⟨part, (mem_of_mapM reduced).2 ⟨d, isDependency, ok⟩, mem⟩

theorem exists_analyze (h : ∀ e ∈ m.usages.entries, e.2 ≠ []) (filter : AdviceFilter) :
    ∃ advice, m.analyze filter = .ok advice ∧ ∀ a ∈ advice.advice, a.IsNamed := by
  obtain ⟨advice, ok, named⟩ := exists_rawAdvice h
  refine ⟨_, by rw [analyze, ok]; rfl, ?_⟩
  intro a mem
  exact named a (OrderedSet.mem_filter.1 mem).1

end ProjectModule

end ClasspathAdvice
