import ClasspathAdvice.Proofs.Reduction.Application
import ClasspathAdvice.Proofs.Reduction.Quiet

/-!
# Declarations that are just what usages call for

When usages differ and the dependency is declared exactly on the configurations that they
call for, each variant has its declarations in the order of their names and its usages in the
order of their buckets. That the two orders pair them rightly is `Declarable`
(`inPlace_iff_declarable`).
-/

namespace ClasspathAdvice.Reduction
set_option autoImplicit false

/-- The used usages call for one configuration, or each for one of its own and no variant both
for an implementation and for a compile-only one. -/
def Declarable (usages : List Usage) : Prop :=
  (∀ u ∈ usages, ∀ w ∈ usages, u.isUsed → w.isUsed → u.configuration = w.configuration) ∨
    (((usages.filter Usage.isUsed).map Usage.configuration).Nodup ∧
      ∀ u ∈ usages, ∀ w ∈ usages, u.variant = w.variant →
        u.bucket = .implementation → w.bucket ≠ .compileOnly)

/-- The declarations on the configurations that the used usages call for. -/
structure Called (identifier : String) (usages : List Usage) (declared : List Declaration) :
    Prop where
  ascending : declared.Pairwise Before
  mem : ∀ d, d ∈ declared ↔
    ∃ u ∈ usages, u.isUsed ∧ declarationOn? identifier u.configuration = some d

variable {identifier : String} {usages : List Usage} {declared : List Declaration}
  {d e : Declaration} {u w : Usage} {v : Variant}

/-! ## The usages of a variant in order -/

theorem rank_le_of_isLE (same : u.variant = w.variant) (le : (compare u w).isLE = true) :
    u.bucket.rank ≤ w.bucket.rank := by
  have self : compare w.variant.name w.variant.name = .eq := Std.ReflCmp.compare_self
  rw [compare_usage, same, self] at le
  by_contra lt
  have gt : compare u.bucket.rank w.bucket.rank = .gt := Nat.compare_eq_gt.2 (by omega)
  rw [gt] at le
  cases le

theorem mem_usagesIn : u ∈ usagesIn v usages ↔ u ∈ usages ∧ u.variant = v := by
  rw [usagesIn, List.mem_filter, beq_iff_eq]

theorem mem_declaredIn : d ∈ declaredIn v declared ↔ d ∈ declared ∧ d.variant = v := by
  rw [declaredIn, List.mem_filter, beq_iff_eq]

/-- In one variant the usages come in the order of their buckets. -/
theorem sorted_of_variant : (usagesIn v (Usage.sorted usages)).Pairwise fun u w =>
    u.bucket.rank ≤ w.bucket.rank := by
  refine (Usage.sorted_ordered.filter _).imp_of_mem fun {u w} hu hw le => ?_
  have same : u.variant = w.variant := (mem_usagesIn.1 hu).2.trans (mem_usagesIn.1 hw).2.symm
  exact rank_le_of_isLE same le

/-- In one variant the used ones come first. -/
theorem usedFirst_of_variant : (usagesIn v (Usage.sorted usages)).Pairwise fun u w =>
    w.isUsed → u.isUsed := by
  refine sorted_of_variant.imp fun {u w} le used => ?_
  revert le used
  unfold Usage.isUsed
  cases u.bucket <;> cases w.bucket <;> decide

/-- Where the used ones come first, pairing them with a list of the same length leaves none
and reaches no other. -/
theorem zip_of_map_eq {l : List Declaration} {s : List Usage}
    (usedFirst : s.Pairwise fun u w => w.isUsed → u.isUsed)
    (same : l.map (·.configuration) = (s.filter Usage.isUsed).map Usage.configuration) :
    (∀ e ∈ l.zip s, e.2.isUsed ∧ e.1.configuration = e.2.configuration) ∧
      ∀ u ∈ s.drop l.length, ¬ u.isUsed := by
  induction s generalizing l with
  | nil =>
    rw [List.filter_nil, List.map_nil, List.map_eq_nil_iff] at same
    simp [same]
  | cons u s ih =>
    have ⟨first, rest⟩ := List.pairwise_cons.1 usedFirst
    cases used : u.isUsed with
    | true =>
      rw [List.filter_cons, if_pos used, List.map_cons] at same
      obtain ⟨d, l, rfl, at_u, same⟩ := List.map_eq_cons_iff.1 same
      obtain ⟨pairs, left⟩ := ih rest same
      refine ⟨fun e mem => ?_, left⟩
      rcases List.mem_cons.1 mem with rfl | mem
      · exact ⟨used, at_u⟩
      · exact pairs e mem
    | false =>
      have none : ∀ w ∈ u :: s, ¬ w.isUsed := by
        intro w mem isUsed
        rcases List.mem_cons.1 mem with rfl | mem
        · simp [used] at isUsed
        · simp [first w mem isUsed] at used
      have empty : (u :: s).filter Usage.isUsed = [] := List.filter_eq_nil_iff.2 none
      rw [empty, List.map_nil, List.map_eq_nil_iff] at same
      subst same
      exact ⟨by simp, by simpa using none⟩

/-- What is left behind a pair of a list that has its used ones first is not used unless the
pair is. -/
theorem used_of_drop {l : List Declaration} {s : List Usage}
    (usedFirst : s.Pairwise fun u w => w.isUsed → u.isUsed) (left : u ∈ s.drop l.length)
    (used : u.isUsed = true) {e : Declaration × Usage} (mem : e ∈ l.zip s) : e.2.isUsed = true := by
  induction l generalizing s with
  | nil => simp at mem
  | cons d l ih =>
    cases s with
    | nil => simp at mem
    | cons w s =>
      have ⟨first, rest⟩ := List.pairwise_cons.1 usedFirst
      rcases List.mem_cons.1 mem with rfl | mem
      · exact first u (List.mem_of_mem_drop left) used
      · exact ih rest left mem

/-! ## What is called for -/

namespace Called

/-- A declaration that is called for stands where a usage of its variant wants it. -/
theorem exists_usage (h : Called identifier usages declared) (mem : d ∈ declared) :
    ∃ u ∈ usages, u.isUsed ∧ d.configuration = u.configuration ∧ d.variant = u.variant ∧
      d.identifier = identifier := by
  obtain ⟨u, isUsage, used, is⟩ := (h.mem d).1 mem
  obtain ⟨e, made, name, configuration, variant, -⟩ :=
    declarationOn?_configuration identifier u.variant used
  obtain rfl : e = d := Option.some.inj (made.symm.trans is)
  exact ⟨u, isUsage, used, configuration, variant, name⟩

/-- Each used usage has its declaration. -/
theorem exists_declaration (h : Called identifier usages declared) (mem : u ∈ usages)
    (used : u.isUsed = true) :
    ∃ d ∈ declared, d.configuration = u.configuration ∧ d.variant = u.variant := by
  obtain ⟨d, made, -, configuration, variant, -⟩ :=
    declarationOn?_configuration identifier u.variant used
  exact ⟨d, (h.mem d).2 ⟨u, mem, used, made⟩, configuration, variant⟩

/-- The configuration of a declaration that is called for tells the declaration. -/
theorem configuration_inj (h : Called identifier usages declared) (hd : d ∈ declared)
    (he : e ∈ declared) (same : d.configuration = e.configuration) : d = e := by
  obtain ⟨u, -, -, isD⟩ := (h.mem d).1 hd
  obtain ⟨w, -, -, isE⟩ := (h.mem e).1 he
  have at_d := (of_declarationOn? isD).2
  have at_e := (of_declarationOn? isE).2
  rw [← at_d, same, at_e] at isD
  exact Option.some.inj (isD.symm.trans isE)

theorem variant_eq (h : Called identifier usages declared) (mem : d ∈ declared)
    (used : u.isUsed = true) (same : d.configuration = u.configuration) : d.variant = u.variant := by
  obtain ⟨w, -, isUsed, configuration, variant, -⟩ := h.exists_usage mem
  have inj := Bucket.configuration_inj isUsed used (configuration.symm.trans same)
  exact variant.trans inj.2

/-- The declarations of a dependency come in the order of their configurations. -/
theorem configuration_lt (h : Called identifier usages declared) (hd : d ∈ declared)
    (he : e ∈ declared) (before : Before d e) : d.configuration < e.configuration := by
  obtain ⟨-, -, -, -, -, dName⟩ := h.exists_usage hd
  obtain ⟨-, -, -, -, -, eName⟩ := h.exists_usage he
  have order : compare d e = (compare d.identifier e.identifier).then
      ((compare d.configuration e.configuration).then ((compare d.variant.name e.variant.name).then
        (compare d.bucket.rank e.bucket.rank))) := rfl
  have self : compare identifier identifier = .eq := Std.ReflCmp.compare_self
  cases lt : compare d.configuration e.configuration with
  | lt => exact compareOfLessAndEq_eq_lt.1 lt
  | gt =>
    rw [Before, order, dName, eName, self, lt] at before
    cases before
  | eq =>
    have same := h.configuration_inj hd he (Std.LawfulEqCmp.eq_of_compare lt)
    subst same
    have self : compare d d = .eq := Std.ReflCmp.compare_self
    rw [Before, self] at before
    cases before

theorem nodup_configurations (h : Called identifier usages declared) :
    (declared.map (·.configuration)).Nodup := by
  refine List.pairwise_map.2 (h.ascending.imp_of_mem fun {d e} hd he before eq => ?_)
  have lt := h.configuration_lt hd he before
  rw [eq] at lt
  exact String.lt_irrefl _ lt

end Called

/-! ## Pairs in order -/

/-- Of two pairs of ordered lists one comes first on both sides. -/
theorem zip_ordered {α β : Type} {R : α → α → Prop} {S : β → β → Prop} {l : List α} {m : List β}
    (hl : l.Pairwise R) (hm : m.Pairwise S) {a a' : α} {b b' : β} (h : (a, b) ∈ l.zip m)
    (h' : (a', b') ∈ l.zip m) : (a = a' ∧ b = b') ∨ (R a a' ∧ S b b') ∨ (R a' a ∧ S b' b) := by
  obtain ⟨i, hi, eq⟩ := List.mem_iff_getElem.1 h
  obtain ⟨j, hj, eq'⟩ := List.mem_iff_getElem.1 h'
  rw [List.length_zip, Nat.lt_min] at hi hj
  rw [List.getElem_zip, Prod.mk.injEq] at eq eq'
  obtain ⟨rfl, rfl⟩ := eq
  obtain ⟨rfl, rfl⟩ := eq'
  rcases Nat.lt_trichotomy i j with lt | rfl | gt
  · exact .inr (.inl ⟨List.pairwise_iff_getElem.1 hl i j hi.1 hj.1 lt,
      List.pairwise_iff_getElem.1 hm i j hi.2 hj.2 lt⟩)
  · exact .inl ⟨rfl, rfl⟩
  · exact .inr (.inr ⟨List.pairwise_iff_getElem.1 hl j i hj.1 hi.1 gt,
      List.pairwise_iff_getElem.1 hm j i hj.2 hi.2 gt⟩)

theorem mem_zip_of_mem_pairs {e : Declaration × Usage} (h : e ∈ (pair declared usages).pairs) :
    e ∈ (declaredIn e.1.variant declared).zip (usagesIn e.1.variant usages) := by
  rw [← (pairs_of_variant e.1.variant).1]
  exact List.mem_filter.2 ⟨h, by simp⟩

theorem mem_drop_of_mem_remaining (h : u ∈ (pair declared usages).remaining) :
    u ∈ (usagesIn u.variant usages).drop (declaredIn u.variant declared).length := by
  rw [← (pairs_of_variant u.variant).2.2]
  exact mem_usagesIn.2 ⟨h, rfl⟩

theorem mem_drop_of_mem_unpaired (h : d ∈ (pair declared usages).unpaired) :
    d ∈ (declaredIn d.variant declared).drop (usagesIn d.variant usages).length := by
  rw [← (pairs_of_variant d.variant).2.1]
  exact mem_declaredIn.2 ⟨h, rfl⟩

/-- In a variant not both a declaration and a usage are left. -/
theorem not_left_both (hd : d ∈ (pair declared usages).unpaired)
    (hu : u ∈ (pair declared usages).remaining) : d.variant ≠ u.variant := by
  intro same
  have declaration := List.length_pos_of_mem (mem_drop_of_mem_unpaired hd)
  have usage := List.length_pos_of_mem (mem_drop_of_mem_remaining hu)
  rw [List.length_drop] at declaration usage
  rw [same] at declaration
  omega

/-! ## Settled and declarable -/

section

variable (h : Called identifier usages declared)
include h

/-- Where all is settled each used usage is paired. -/
theorem leftover_eq_nil (settled : (pair declared (Usage.sorted usages)).Settled) :
    (pair declared (Usage.sorted usages)).leftover = [] := by
  refine List.eq_nil_iff_forall_not_mem.2 fun u mem => ?_
  obtain ⟨left, used⟩ := List.mem_filter.1 mem
  have isUsage : u ∈ usages := Usage.mem_sorted.1 (mem_of_remaining left)
  cases main : (pair declared (Usage.sorted usages)).main? with
  | some d =>
    have unpaired := (main?_mem main).1
    have isDeclared : d ∈ declared := mem_of_unpaired unpaired
    exact not_left_both unpaired left
      (h.variant_eq isDeclared used (settled.covered d main u mem))
  | none =>
    obtain ⟨e, paired, unused, at_u⟩ := (settled.exchanged _).1 ⟨main, u, mem, rfl⟩
    have isDeclared : e.1 ∈ declared := fst_mem_of_pair paired
    have variant := h.variant_eq isDeclared used at_u
    have zipped := mem_zip_of_mem_pairs paired
    rw [variant] at zipped
    have isUsed := used_of_drop usedFirst_of_variant (mem_drop_of_mem_remaining left) used zipped
    rw [unused] at isUsed
    cases isUsed

theorem exists_pair (settled : (pair declared (Usage.sorted usages)).Settled) (mem : u ∈ usages)
    (used : u.isUsed = true) : ∃ d ∈ declared,
      (d, u) ∈ (pair declared (Usage.sorted usages)).pairs ∧ d.configuration = u.configuration := by
  rcases paired_or_remaining declared (Usage.mem_sorted.2 mem) with ⟨d, paired⟩ | left
  · exact ⟨d, fst_mem_of_pair paired, paired, settled.paired _ paired used⟩
  · have leftover := List.mem_filter.2 ⟨left, used⟩
    rw [← Pairing.leftover, leftover_eq_nil h settled] at leftover
    cases leftover

theorem nodup_of_settled (settled : (pair declared (Usage.sorted usages)).Settled) :
    ((usages.filter Usage.isUsed).map Usage.configuration).Nodup := by
  generalize paired : pair declared (Usage.sorted usages) = p at settled
  have none : p.remaining.filter Usage.isUsed = [] := by
    subst paired
    exact leftover_eq_nil h settled
  have usagesPerm : (p.pairs.map Prod.snd ++ p.remaining).Perm (Usage.sorted usages) :=
    paired ▸ usages_perm
  have declaredPerm : (p.pairs.map Prod.fst ++ p.unpaired).Perm declared := paired ▸ declared_perm
  -- the used usages are those of the pairs, whose declarations differ
  have needed : ((p.pairs.filter (·.2.isUsed)).map Prod.snd).Perm (usages.filter Usage.isUsed) := by
    have perm := (usagesPerm.trans (List.mergeSort_perm _ _)).filter Usage.isUsed
    rwa [List.filter_append, none, List.append_nil, List.filter_map] at perm
  have same : (p.pairs.filter (·.2.isUsed)).map (fun e => e.2.configuration) =
      (p.pairs.filter (·.2.isUsed)).map fun e => e.1.configuration := by
    refine List.map_congr_left fun e mem => ?_
    obtain ⟨isPair, used⟩ := List.mem_filter.1 mem
    exact (settled.paired e isPair used).symm
  have nodup := (declaredPerm.map (·.configuration)).nodup_iff.2 h.nodup_configurations
  rw [List.map_append, List.map_map] at nodup
  refine ((needed.map Usage.configuration).nodup_iff).1 ?_
  rw [List.map_map]
  show ((p.pairs.filter (·.2.isUsed)).map fun e => e.2.configuration).Nodup
  rw [same]
  exact (List.nodup_append.1 nodup).1.sublist (List.filter_sublist.map _)

theorem not_both_of_settled (settled : (pair declared (Usage.sorted usages)).Settled)
    (hu : u ∈ usages) (hw : w ∈ usages) (variant : u.variant = w.variant)
    (implementation : u.bucket = .implementation) : w.bucket ≠ .compileOnly := by
  intro compileOnly
  have uUsed : u.isUsed = true := by
    rw [Usage.isUsed, implementation]
    rfl
  have wUsed : w.isUsed = true := by
    rw [Usage.isUsed, compileOnly]
    rfl
  obtain ⟨d, hd, uPair, at_u⟩ := exists_pair h settled hu uUsed
  obtain ⟨e, he, wPair, at_w⟩ := exists_pair h settled hw wUsed
  have uZip := mem_zip_of_mem_pairs uPair
  have wZip := mem_zip_of_mem_pairs wPair
  have dVariant : d.variant = u.variant := h.variant_eq hd uUsed at_u
  have eVariant : e.variant = u.variant := (h.variant_eq he wUsed at_w).trans variant.symm
  rw [dVariant] at uZip
  rw [eVariant] at wZip
  rcases zip_ordered (h.ascending.filter _) sorted_of_variant uZip wZip with
    ⟨-, rfl⟩ | ⟨before, -⟩ | ⟨-, le⟩
  · rw [implementation] at compileOnly
    cases compileOnly
  · have lt := h.configuration_lt hd he before
    rw [at_u, at_w, Usage.configuration, Usage.configuration, implementation, compileOnly,
      variant] at lt
    have gt : Bucket.compileOnly.configuration w.variant < Bucket.implementation.configuration w.variant :=
      Bucket.configuration_lt rfl rfl (by decide)
    exact String.lt_asymm lt gt
  · rw [implementation, compileOnly] at le
    exact absurd le (by decide)

/-- The names of a variant's declarations are those that its usages call for, in order. -/
theorem configurations_of_variant
    (nodup : ((usages.filter Usage.isUsed).map Usage.configuration).Nodup)
    (apart : ∀ u ∈ usages, ∀ w ∈ usages, u.variant = w.variant → u.bucket = .implementation →
      w.bucket ≠ .compileOnly) (v : Variant) :
    (declaredIn v declared).map (·.configuration) =
      ((usagesIn v (Usage.sorted usages)).filter Usage.isUsed).map Usage.configuration := by
  have distinct : ((usagesIn v (Usage.sorted usages)).filter Usage.isUsed).Pairwise
      fun u w => u.configuration ≠ w.configuration := by
    have perm := ((List.mergeSort_perm usages fun u w => (compare u w).isLE).filter
      Usage.isUsed).map Usage.configuration
    have all := List.pairwise_map.1 (perm.nodup_iff.2 nodup)
    exact all.sublist (List.filter_sublist.filter _)
  refine OrderedSet.eq_of_mem_iff ?_ ?_ fun x => ?_
  · refine List.pairwise_map.2 ((h.ascending.filter _).imp_of_mem fun {d e} hd he before => ?_)
    exact compareOfLessAndEq_eq_lt.2
      (h.configuration_lt (mem_declaredIn.1 hd).1 (mem_declaredIn.1 he).1 before)
  · refine List.pairwise_map.2 ?_
    refine ((sorted_of_variant.filter _).and distinct).imp_of_mem fun {u w} hu hw both => ?_
    obtain ⟨le, ne⟩ := both
    obtain ⟨uIn, uUsed⟩ := List.mem_filter.1 hu
    obtain ⟨wIn, wUsed⟩ := List.mem_filter.1 hw
    obtain ⟨uMem, uVariant⟩ := mem_usagesIn.1 uIn
    obtain ⟨wMem, wVariant⟩ := mem_usagesIn.1 wIn
    have same : u.variant = w.variant := uVariant.trans wVariant.symm
    have notBoth := apart u (Usage.mem_sorted.1 uMem) w (Usage.mem_sorted.1 wMem) same
    refine compareOfLessAndEq_eq_lt.2 ?_
    rw [Usage.configuration, Usage.configuration, same] at ne ⊢
    refine Bucket.configuration_lt uUsed wUsed ?_
    have differ : u.bucket ≠ w.bucket := fun eq => ne (by rw [eq])
    unfold Usage.isUsed at uUsed wUsed
    revert le differ notBoth uUsed wUsed
    cases u.bucket <;> cases w.bucket <;> decide
  · simp only [List.mem_map, List.mem_filter, mem_declaredIn, mem_usagesIn, Usage.mem_sorted]
    constructor
    · rintro ⟨d, ⟨mem, rfl⟩, rfl⟩
      obtain ⟨u, isUsage, used, configuration, variant, -⟩ := h.exists_usage mem
      exact ⟨u, ⟨⟨isUsage, variant.symm⟩, used⟩, configuration.symm⟩
    · rintro ⟨u, ⟨⟨isUsage, rfl⟩, used⟩, rfl⟩
      obtain ⟨d, mem, configuration, variant⟩ := h.exists_declaration isUsage used
      exact ⟨d, ⟨mem, variant⟩, configuration⟩

theorem settled_of_declarable
    (nodup : ((usages.filter Usage.isUsed).map Usage.configuration).Nodup)
    (apart : ∀ u ∈ usages, ∀ w ∈ usages, u.variant = w.variant → u.bucket = .implementation →
      w.bucket ≠ .compileOnly) : (pair declared (Usage.sorted usages)).Settled := by
  have zipped : ∀ e ∈ (pair declared (Usage.sorted usages)).pairs,
      e.2.isUsed ∧ e.1.configuration = e.2.configuration := fun e mem =>
    (zip_of_map_eq usedFirst_of_variant (configurations_of_variant h nodup apart _)).1 e
      (mem_zip_of_mem_pairs mem)
  have none : ∀ u, u ∉ (pair declared (Usage.sorted usages)).leftover := by
    intro u mem
    obtain ⟨left, used⟩ := List.mem_filter.1 mem
    exact (zip_of_map_eq usedFirst_of_variant (configurations_of_variant h nodup apart _)).2 u
      (mem_drop_of_mem_remaining left) used
  refine ⟨fun e mem _ => (zipped e mem).2, fun d _ u mem => absurd mem (none u), fun x => ?_⟩
  constructor
  · rintro ⟨-, u, mem, -⟩
    exact absurd mem (none u)
  · rintro ⟨e, mem, unused, -⟩
    rw [(zipped e mem).1] at unused
    cases unused

/-- Declarations that are just what usages call for are in place if the usages can all be
declared side by side. -/
theorem inPlace_iff_declarable (some : ∃ u ∈ usages, u.isUsed) :
    InPlace usages declared ↔ Declarable usages := by
  obtain ⟨u, mem, used⟩ := some
  match declared with
  | [] =>
    obtain ⟨d, isDeclared, -⟩ := h.exists_declaration mem used
    cases isDeclared
  | [d] =>
    have all : ∀ u ∈ usages, u.isUsed → u.configuration = d.configuration := by
      intro u mem used
      obtain ⟨e, isDeclared, configuration, -⟩ := h.exists_declaration mem used
      rw [← configuration, List.mem_singleton.1 isDeclared]
    refine iff_of_true all (.inl fun u hu w hw uUsed wUsed => ?_)
    rw [all u hu uUsed, all w hw wUsed]
  | d :: e :: rest =>
    constructor
    · intro settled
      exact .inr ⟨nodup_of_settled h settled, fun u hu w hw => not_both_of_settled h settled hu hw⟩
    · rintro (one | ⟨nodup, apart⟩)
      · -- two declarations are on two configurations
        have nodup := h.nodup_configurations
        obtain ⟨u, hu, uUsed, at_u, -⟩ := h.exists_usage (d := d) (by simp)
        obtain ⟨w, hw, wUsed, at_w, -⟩ := h.exists_usage (d := e) (by simp)
        have same : d.configuration = e.configuration := by
          rw [at_u, at_w, one u hu w hw uUsed wUsed]
        simp [same] at nodup
      · exact settled_of_declarable h nodup apart

end

end ClasspathAdvice.Reduction
