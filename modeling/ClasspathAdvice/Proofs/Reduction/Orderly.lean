import ClasspathAdvice.Proofs.Reduction.Stability

/-!
# One declaration and one usage in each variant

Usually a variant has one usage, and one declaration at most, on a configuration named for
it. Several declarations like that are then treated as they should be: the advice leaves what
is called for, and after following it none is given (`reduce_settles`). What can go wrong is
left to a single declaration and to variants that have several declarations or usages.
-/

namespace ClasspathAdvice.Reduction
set_option autoImplicit false

/-- Declarations are in the variants that their configurations are named for, and each
variant has one and one usage at most. -/
structure Orderly (declared : List Declaration) (usages : List Usage) : Prop where
  named : ∀ d ∈ declared, ∀ v, Variant.named? d.configuration = some v → d.variant = v
  once : (declared.map (·.variant)).Nodup
  single : (usages.map (·.variant)).Nodup

variable {identifier x : String} {declared : List Declaration} {usages : List Usage}
  {d e : Declaration} {u w : Usage}

namespace Orderly

variable (h : Orderly declared usages)
include h

theorem variant_eq (mem : d ∈ declared) (used : u.isUsed = true)
    (at_u : d.configuration = u.configuration) : d.variant = u.variant := by
  refine h.named d mem u.variant ?_
  rw [at_u]
  exact Variant.named?_configuration used

theorem declaration_eq (hd : d ∈ declared) (he : e ∈ declared) (same : d.variant = e.variant) :
    d = e :=
  List.inj_on_of_nodup_map h.once hd he same

theorem usage_eq (hu : u ∈ usages) (hw : w ∈ usages) (same : u.variant = w.variant) : u = w :=
  List.inj_on_of_nodup_map h.single hu hw same

/-! ## Pairs -/

theorem not_paired_of_unpaired (paired : (d, u) ∈ (pair declared (Usage.sorted usages)).pairs)
    (unpaired : d ∈ (pair declared (Usage.sorted usages)).unpaired) : False := by
  have nodup := (@declared_perm declared (Usage.sorted usages)).nodup_iff.2 h.once.of_map
  exact (List.nodup_append.1 nodup).2.2 d (List.mem_map.2 ⟨_, paired, rfl⟩) d unpaired rfl

theorem not_paired_of_remaining (paired : (d, u) ∈ (pair declared (Usage.sorted usages)).pairs)
    (left : u ∈ (pair declared (Usage.sorted usages)).remaining) : False := by
  have sorted : (Usage.sorted usages).Nodup :=
    (List.mergeSort_perm usages _).nodup_iff.2 h.single.of_map
  have nodup := (@usages_perm declared (Usage.sorted usages)).nodup_iff.2 sorted
  exact (List.nodup_append.1 nodup).2.2 u (List.mem_map.2 ⟨_, paired, rfl⟩) u left rfl

theorem usage_of_paired (paired : (d, w) ∈ (pair declared (Usage.sorted usages)).pairs)
    (mem : u ∈ usages) (same : d.variant = u.variant) : w = u := by
  have isUsage : w ∈ usages := Usage.mem_sorted.1 (snd_mem_of_pair paired)
  exact h.usage_eq isUsage mem ((variant_of_mem_pairs paired).trans same)

/-- The declaration and the usage of a variant are paired. -/
theorem paired (isDeclared : d ∈ declared) (mem : u ∈ usages) (same : d.variant = u.variant) :
    (d, u) ∈ (pair declared (Usage.sorted usages)).pairs := by
  rcases paired_or_unpaired (Usage.sorted usages) isDeclared with ⟨w, pair⟩ | unpaired
  · exact h.usage_of_paired pair mem same ▸ pair
  · rcases paired_or_remaining declared (Usage.mem_sorted.2 mem) with ⟨e, pair⟩ | left
    · have isE : e ∈ declared := fst_mem_of_pair pair
      have eq := h.declaration_eq isE isDeclared ((variant_of_mem_pairs pair).symm.trans same.symm)
      exact eq ▸ pair
    · exact absurd same (not_left_both unpaired left)

/-- No declaration is where a usage that is left over calls for one. -/
theorem not_at_leftover (isDeclared : d ∈ declared)
    (left : u ∈ (pair declared (Usage.sorted usages)).leftover) : d.configuration ≠ u.configuration := by
  intro at_u
  obtain ⟨remaining, used⟩ := List.mem_filter.1 left
  have mem : u ∈ usages := Usage.mem_sorted.1 (mem_of_remaining remaining)
  exact h.not_paired_of_remaining
    (h.paired isDeclared mem (h.variant_eq isDeclared used at_u)) remaining

/-! ## What the advice leaves -/

/-- No declaration leaves a configuration that is called for. -/
theorem not_leaves (mem : u ∈ usages) (used : u.isUsed = true) :
    ¬ Leaves (pair declared (Usage.sorted usages)).steps u.configuration := by
  rintro (⟨target, ne, move⟩ | ⟨drop, -⟩)
  · rcases move_mem_steps.1 move with ⟨e, pair, -, at_u, rfl⟩ | ⟨d, main, at_u, -⟩
    · have isDeclared : e.1 ∈ declared := fst_mem_of_pair pair
      have eq : e.2 = u := h.usage_of_paired pair mem (h.variant_eq isDeclared used at_u)
      exact ne (by rw [eq])
    · have unpaired := (main?_mem main).1
      have isDeclared : d ∈ declared := mem_of_unpaired unpaired
      exact h.not_paired_of_unpaired
        (h.paired isDeclared mem (h.variant_eq isDeclared used at_u)) unpaired
  · obtain ⟨e, pair, unused, at_u⟩ := drop_mem_steps.1 drop
    have isDeclared : e.1 ∈ declared := fst_mem_of_pair pair
    have eq : e.2 = u := h.usage_of_paired pair mem (h.variant_eq isDeclared used at_u)
    rw [eq, used] at unused
    cases unused

end Orderly

theorem steps_eq_differingPlan (several : 2 ≤ declared.length) :
    (pair declared usages).steps = differingPlan usages declared := by
  match declared with
  | [] => simp at several
  | [_] => simp at several
  | d :: e :: rest => rfl

/-- What several declarations in different variants are called for is kept. -/
theorem keeps_of_orderly (h : Orderly declared usages) (several : 2 ≤ declared.length) :
    Keeps usages declared := by
  rw [keeps_iff, ← steps_eq_differingPlan several]
  exact fun u mem used leaves => absurd leaves (h.not_leaves mem used)

/-! ## The declarations afterwards -/

/-- Declarations are told apart by identifier, configuration and variant. -/
theorem declaration_ext (identifier : d.identifier = e.identifier)
    (configuration : d.configuration = e.configuration) (variant : d.variant = e.variant) :
    d = e := by
  obtain ⟨i, c, v, b, is⟩ := d
  obtain ⟨i', c', v', b', is'⟩ := e
  simp only at identifier configuration variant
  subst identifier configuration variant
  have same : b = b' := Except.ok.inj (is.symm.trans is')
  subst same
  rfl

/-- Orderly declarations are in place if they are where they are called for, and only there. -/
theorem Orderly.inPlace (h : Orderly declared usages)
    (covered : ∀ u ∈ usages, u.isUsed → ∃ d ∈ declared, d.configuration = u.configuration)
    (needed : ∀ u ∈ usages, ∀ d ∈ declared, d.variant = u.variant → u.isUsed) :
    InPlace usages declared := by
  match declared with
  | [] =>
    intro u mem used
    obtain ⟨d, isDeclared, -⟩ := covered u mem used
    cases isDeclared
  | [d] =>
    intro u mem used
    obtain ⟨e, isDeclared, at_u⟩ := covered u mem used
    rw [← at_u, List.mem_singleton.1 isDeclared]
  | d :: e :: rest =>
    have none : ∀ u, u ∉ (pair (d :: e :: rest) (Usage.sorted usages)).leftover := by
      intro u left
      obtain ⟨isSorted, used⟩ := mem_of_leftover left
      obtain ⟨f, isDeclared, at_u⟩ := covered u (Usage.mem_sorted.1 isSorted) used
      exact h.not_at_leftover isDeclared left at_u
    refine ⟨fun f pair used => ?_, fun f _ u left => absurd left (none u), fun x => ?_⟩
    · have mem : f.2 ∈ usages := Usage.mem_sorted.1 (snd_mem_of_pair pair)
      obtain ⟨k, isDeclared, at_u⟩ := covered f.2 mem used
      have isF : f.1 ∈ d :: e :: rest := fst_mem_of_pair pair
      have variant := (h.variant_eq isDeclared used at_u).trans (variant_of_mem_pairs pair)
      rw [← h.declaration_eq isDeclared isF variant]
      exact at_u
    · constructor
      · rintro ⟨-, u, left, -⟩
        exact absurd left (none u)
      · rintro ⟨f, pair, unused, -⟩
        have mem : f.2 ∈ usages := Usage.mem_sorted.1 (snd_mem_of_pair pair)
        have isF : f.1 ∈ d :: e :: rest := fst_mem_of_pair pair
        have used := needed f.2 mem f.1 isF (variant_of_mem_pairs pair).symm
        rw [unused] at used
        cases used

/-- What is made by the steps is a declaration of a used usage. -/
theorem of_mem_afterwards
    (mem : d ∈ afterwards identifier (pair declared (Usage.sorted usages)).steps declared) :
    (d ∈ declared ∧ ¬ Leaves (pair declared (Usage.sorted usages)).steps d.configuration) ∨
      ∃ u ∈ usages, u.isUsed ∧ d.identifier = identifier ∧ d.configuration = u.configuration ∧
        d.variant = u.variant := by
  refine (mem_afterwards.1 mem).imp_right ?_
  rintro ⟨x, arrives, is⟩
  obtain ⟨u, isUsage, used, rfl⟩ := usage_of_arrives arrives
  obtain ⟨e, made, name, configuration, variant, -⟩ :=
    declarationOn?_configuration identifier u.variant used
  obtain rfl : e = d := Option.some.inj (made.symm.trans is)
  exact ⟨u, Usage.mem_sorted.1 isUsage, used, name, configuration, variant⟩

section

variable (h : Orderly declared usages)
include h

/-- A declaration stays only where the usage of its variant calls for it. -/
theorem Orderly.configuration_of_stays (isDeclared : d ∈ declared)
    (stays : ¬ Leaves (pair declared (Usage.sorted usages)).steps d.configuration)
    (mem : u ∈ usages) (used : u.isUsed = true) (same : d.variant = u.variant) :
    d.configuration = u.configuration := by
  by_contra ne
  have move := move_mem_steps.2 (.inl ⟨_, h.paired isDeclared mem same, used, rfl, rfl⟩)
  exact stays (.inl ⟨_, ne, move⟩)

/-- What an unused usage is paired with does not stay. -/
theorem Orderly.used_of_stays (isDeclared : d ∈ declared)
    (stays : ¬ Leaves (pair declared (Usage.sorted usages)).steps d.configuration)
    (mem : u ∈ usages) (same : d.variant = u.variant) : u.isUsed = true := by
  by_contra notUsed
  have unused : u.isUsed = false := by simpa using notUsed
  have drop := drop_mem_steps.2 ⟨_, h.paired isDeclared mem same, unused, rfl⟩
  -- it would have to be declared anew, for a used usage of the same variant
  have cancelled : Cancelled (pair declared (Usage.sorted usages)).steps d.configuration := by
    by_contra alone
    exact stays (.inr ⟨drop, alone⟩)
  obtain ⟨-, w, left, at_w⟩ := declare_mem_steps.1 (merged_mem cancelled).1
  obtain ⟨isSorted, wUsed⟩ := mem_of_leftover left
  have isUsage : w ∈ usages := Usage.mem_sorted.1 isSorted
  have variant := h.variant_eq isDeclared wUsed at_w.symm
  rw [h.usage_eq isUsage mem (variant.symm.trans same), unused] at wUsed
  cases wUsed

/-- The steps keep one declaration at most in each variant. -/
theorem Orderly.orderly_afterwards (identified : ∀ d ∈ declared, d.identifier = identifier) :
    Orderly (afterwards identifier (pair declared (Usage.sorted usages)).steps declared) usages := by
  refine ⟨fun d mem v named => ?_, ?_, h.single⟩
  · rcases of_mem_afterwards mem with ⟨there, -⟩ | ⟨u, -, used, -, at_u, variant⟩
    · exact h.named d there v named
    · rw [at_u, Usage.configuration, Variant.named?_configuration used] at named
      exact variant.trans (Option.some.inj named)
  · have nodup := nodup_of_ascending (@ascending_afterwards identifier
      (pair declared (Usage.sorted usages)).steps declared)
    refine (List.nodup_map_iff_inj_on nodup).2 fun d hd e he same => ?_
    rcases of_mem_afterwards hd with ⟨dThere, dStays⟩ | ⟨u, uMem, uUsed, dName, at_u, dVariant⟩ <;>
      rcases of_mem_afterwards he with ⟨eThere, eStays⟩ | ⟨w, wMem, wUsed, eName, at_w, eVariant⟩
    · exact h.declaration_eq dThere eThere same
    · have at_d := h.configuration_of_stays dThere dStays wMem wUsed (same.trans eVariant)
      exact declaration_ext ((identified d dThere).trans eName.symm) (at_d.trans at_w.symm) same
    · have at_e := h.configuration_of_stays eThere eStays uMem uUsed (same.symm.trans dVariant)
      exact declaration_ext (dName.trans (identified e eThere).symm) (at_u.trans at_e.symm) same
    · have eq : u = w := h.usage_eq uMem wMem (dVariant.symm.trans (same.trans eVariant))
      exact declaration_ext (dName.trans eName.symm) (at_u.trans (eq ▸ at_w.symm)) same

/-- After the steps several orderly declarations are in place. -/
theorem Orderly.inPlace_afterwards (several : 2 ≤ declared.length)
    (identified : ∀ d ∈ declared, d.identifier = identifier) :
    InPlace usages
      (afterwards identifier (pair declared (Usage.sorted usages)).steps declared) := by
  refine (h.orderly_afterwards identified).inPlace (fun u mem used => ?_) fun u mem d isDeclared same => ?_
  · have reached := declared_or_arrives declared (Usage.mem_sorted.2 mem) used
    rw [← steps_eq_differingPlan several] at reached
    rcases reached with ⟨d, there, at_u⟩ | arrives
    · exact ⟨d, mem_afterwards.2 (.inl ⟨there, at_u ▸ h.not_leaves mem used⟩), at_u⟩
    · obtain ⟨d, made, -, at_u, -⟩ := declarationOn?_configuration identifier u.variant used
      exact ⟨d, mem_afterwards.2 (.inr ⟨_, arrives, made⟩), at_u⟩
  · rcases of_mem_afterwards isDeclared with ⟨there, stays⟩ | ⟨w, wMem, used, -, -, variant⟩
    · exact h.used_of_stays there stays mem same
    · rw [h.usage_eq mem wMem (same.symm.trans variant)]
      exact used

end

/-- The advice on several orderly declarations and usages that differ leaves what the usages
call for, and there is none after following it. -/
theorem reduce_settles (coordinates : Coordinates) (declarations : List Declaration)
    (usages : List Usage) (differ : agree usages = false)
    (several : 2 ≤ (matching coordinates declarations).length)
    (orderly : Orderly (matching coordinates declarations) usages) :
    ∃ advice, reduce coordinates declarations usages = .ok advice ∧
      (∀ u ∈ usages, u.bucket ≠ .unused → u.configuration ∈
        configurationsAfter (matching coordinates declarations) advice) ∧
      reduce coordinates (follow coordinates.identifier advice declarations) usages = .ok ∅ := by
  have some : usages ≠ [] := by
    rintro rfl
    cases differ
  obtain ⟨advice, eq, follows⟩ := @reduce_follows coordinates declarations usages some
  obtain ⟨again, eq', follows'⟩ :=
    @reduce_follows coordinates (follow coordinates.identifier advice declarations) usages some
  have differing : plan (matching coordinates declarations) usages =
      (pair (matching coordinates declarations) (Usage.sorted usages)).steps := by
    rw [plan, if_neg (by simp [differ]), steps_eq_differingPlan several]
  refine ⟨advice, eq, ?_, ?_⟩
  · rw [differing, steps_eq_differingPlan several] at follows
    exact follows.keeps_iff.2 (keeps_of_orderly orderly several)
  · have identified : ∀ d ∈ matching coordinates declarations, d.identifier = coordinates.identifier :=
      fun d mem => (mem_matching.1 mem).2
    have quiet : again = ∅ := by
      rw [follows'.eq_empty_iff, matching_follow follows, differing]
      rw [plan, if_neg (by simp [differ])]
      exact quiet_differingPlan_iff.2 (orderly.inPlace_afterwards several identified)
    rw [eq', quiet]

end ClasspathAdvice.Reduction
