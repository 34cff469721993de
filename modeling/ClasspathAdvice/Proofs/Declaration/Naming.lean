import ClasspathAdvice.Declaration

/-!
# The names of configurations

A configuration of a bucket that is used tells the bucket and the variant
(`configuration_inj`), so the variant can be read off the name (`named?_configuration`). The
bucket that `ofConfiguration` reads off it is the same, but for an API configuration of a
variant whose name ends with the name of the compile-only bucket (`configuration_lossless`).
-/

namespace ClasspathAdvice
set_option autoImplicit false

namespace Bucket

/-- What the configurations of a bucket end with in variants other than the main one. -/
def ending (b : Bucket) : List Char := Text.capitalize b.value.toList

theorem configuration_main (b : Bucket) : b.configuration .main = b.value := rfl

variable {b b' : Bucket} {v v' : Variant} {name : String}

theorem toList_configuration (h : v ≠ .main) :
    (b.configuration v).toList = v.name.toList ++ b.ending := by
  have notMain : ¬ v.isMain = true := by simpa [Variant.isMain] using h
  rw [configuration, Variant.configuration, if_neg notMain, String.toList_append, String.toList_ofList]
  rfl

/-- No ending of a bucket ends with that of another. -/
theorem eq_of_ending_suffix (used : b.isUsed = true) (used' : b'.isUsed = true)
    (h : b.ending <:+ b'.ending) : b = b' := by
  revert used used' h
  cases b <;> cases b' <;> decide

/-- The name of a bucket has a lower-case letter where an ending has one in upper case. -/
theorem not_ending_suffix_value (used : b.isUsed = true) (used' : b'.isUsed = true) :
    ¬ b.ending <:+ b'.value.toList := by
  revert used used'
  cases b <;> cases b' <;> decide

/-- The name of a configuration tells its bucket and its variant. -/
theorem configuration_inj (used : b.isUsed = true) (used' : b'.isUsed = true)
    (h : b.configuration v = b'.configuration v') : b = b' ∧ v = v' := by
  by_cases main : v = .main <;> by_cases main' : v' = .main
  · subst main main'
    refine ⟨?_, rfl⟩
    rw [configuration_main, configuration_main] at h
    revert h
    cases b <;> cases b' <;> decide
  · subst main
    have split := toList_configuration (b := b') main'
    rw [← h, configuration_main] at split
    exact absurd ⟨_, split.symm⟩ (not_ending_suffix_value used' used)
  · subst main'
    have split := toList_configuration (b := b) main
    rw [h, configuration_main] at split
    exact absurd ⟨_, split.symm⟩ (not_ending_suffix_value used used')
  · have split := toList_configuration (b := b) main
    rw [h, toList_configuration main'] at split
    have same : b = b' := by
      rcases List.suffix_or_suffix_of_suffix (List.suffix_append v.name.toList b.ending)
        (split ▸ List.suffix_append v'.name.toList b'.ending) with suffix | suffix
      · exact eq_of_ending_suffix used used' suffix
      · exact (eq_of_ending_suffix used' used suffix).symm
    subst same
    refine ⟨rfl, ?_⟩
    have names : v.name = v'.name := String.toList_inj.1 (List.append_cancel_right split).symm
    cases v
    cases v'
    exact congrArg _ names

/-- In one variant configurations are ordered like the names of their buckets. -/
theorem configuration_lt (used : b.isUsed = true) (used' : b'.isUsed = true)
    (h : b.value < b'.value) : b.configuration v < b'.configuration v := by
  by_cases main : v = .main
  · subst main
    exact h
  · have endings : b.ending < b'.ending := by
      revert used used' h
      cases b <;> cases b' <;> decide
    show (b.configuration v).toList < (b'.configuration v).toList
    rw [toList_configuration main, toList_configuration main]
    exact List.append_left_lt endings

/-! ## The variant of a configuration -/

/-- What stands before the ending of a bucket. -/
def front (b : Bucket) (name : String) : Variant :=
  ⟨String.ofList (name.toList.take (name.toList.length - b.ending.length))⟩

/-- The variant in which a configuration of the bucket has a name. -/
def variantNamed? (b : Bucket) (name : String) : Option Variant :=
  if name = b.value then some .main
  else if b.configuration (b.front name) = name then some (b.front name)
  else none

theorem configuration_of_variantNamed? (h : b.variantNamed? name = some v) :
    b.configuration v = name := by
  unfold variantNamed? at h
  split at h
  · rename_i isValue
    cases h
    rw [configuration_main, isValue]
  · split at h
    · rename_i isFront
      cases h
      exact isFront
    · cases h

theorem variantNamed?_configuration (used : b.isUsed = true) :
    b.variantNamed? (b.configuration v) = some v := by
  by_cases main : v = .main
  · subst main
    rw [configuration_main, variantNamed?, if_pos rfl]
  · have isFront : b.front (b.configuration v) = v := by
      have names : (b.configuration v).toList.take
          ((b.configuration v).toList.length - b.ending.length) = v.name.toList := by
        rw [toList_configuration main]
        simp
      rw [front, names, String.ofList_toList]
    have notValue : b.configuration v ≠ b.value := fun h =>
      main (configuration_inj used used (h.trans b.configuration_main.symm)).2
    rw [variantNamed?, if_neg notValue, isFront, if_pos rfl]

end Bucket

/-- The variant in which a configuration of some bucket has a name. -/
def Variant.named? (name : String) : Option Variant :=
  [Bucket.api, .implementation, .compileOnly, .runtimeOnly].findSome? (·.variantNamed? name)

variable {b : Bucket} {v : Variant}

theorem Variant.named?_configuration (used : b.isUsed = true) :
    Variant.named? (b.configuration v) = some v := by
  have mem : b ∈ [Bucket.api, .implementation, .compileOnly, .runtimeOnly] := by
    revert used
    cases b <;> decide
  cases h : Variant.named? (b.configuration v) with
  | none =>
    have none := List.findSome?_eq_none_iff.1 h b mem
    rw [Bucket.variantNamed?_configuration used] at none
    cases none
  | some w =>
    obtain ⟨b', mem', named⟩ := List.exists_of_findSome?_eq_some h
    have used' : b'.isUsed = true := by
      revert mem'
      cases b' <;> decide
    have same := Bucket.configuration_of_variantNamed? named
    rw [(Bucket.configuration_inj used' used same).2]

/-! ## The bucket of a configuration -/

/-- The name of the variant ends, ASCII case aside, with that of the compile-only bucket. -/
def Variant.EndsCompileOnly (v : Variant) : Prop :=
  ∃ front written, v.name.toList = front ++ written ∧
    Text.lowered written = Text.lowered "compileOnly".toList

namespace Bucket

/-- A configuration of a bucket ends with the name of the bucket. -/
theorem lowered_value_suffix (used : b.isUsed = true) :
    Text.lowered b.value.toList <:+ Text.lowered (b.configuration v).toList := by
  by_cases main : v = .main
  · subst main
    exact List.suffix_rfl
  · have same : Text.lowered b.ending = Text.lowered b.value.toList := by
      revert used
      cases b <;> decide
    have split : Text.lowered (v.name.toList ++ b.ending) =
        Text.lowered v.name.toList ++ Text.lowered b.ending := List.map_append
    rw [toList_configuration main, split, same]
    exact List.suffix_append _ _

/-- Where a configuration ends with another text, one of the two endings ends with the other. -/
theorem suffix_of_endsWith {suffix : String} (used : b.isUsed = true)
    (h : Text.endsWith (b.configuration v) suffix = true) :
    Text.lowered suffix.toList <:+ Text.lowered b.value.toList ∨
      Text.lowered b.value.toList <:+ Text.lowered suffix.toList :=
  List.suffix_or_suffix_of_suffix (List.isSuffixOf_iff_suffix.1 h) (lowered_value_suffix used)

theorem endsWith_value (used : b.isUsed = true) :
    Text.endsWith (b.configuration v) b.value = true :=
  List.isSuffixOf_iff_suffix.2 (lowered_value_suffix used)

theorem endsWith_eq_false (used : b.isUsed = true) (suffix : String)
    (h : ¬ Text.lowered suffix.toList <:+ Text.lowered b.value.toList)
    (h' : ¬ Text.lowered b.value.toList <:+ Text.lowered suffix.toList) :
    Text.endsWith (b.configuration v) suffix = false :=
  Bool.eq_false_iff.2 fun ends => (suffix_of_endsWith used ends).elim h h'

/-- Configurations of two of the buckets never look compile-only. -/
theorem any_endsWith_eq_false (used : b.isUsed = true) (notApi : b ≠ .api)
    (notCompileOnly : b ≠ .compileOnly) :
    ["compileOnly", "compileOnlyApi", "providedCompile"].any
      (Text.endsWith (b.configuration v)) = false := by
  have apart : ∀ suffix ∈ ["compileOnly", "compileOnlyApi", "providedCompile"],
      ¬ Text.lowered suffix.toList <:+ Text.lowered b.value.toList ∧
        ¬ Text.lowered b.value.toList <:+ Text.lowered suffix.toList := by
    revert used notApi notCompileOnly
    cases b <;> decide
  rw [List.any_eq_false]
  intro suffix mem
  rw [endsWith_eq_false used suffix (apart suffix mem).1 (apart suffix mem).2]
  exact Bool.false_ne_true

/-- The bucket is read off the name again, but for the API bucket. -/
theorem ofConfiguration_of_ne_api (used : b.isUsed = true) (other : b ≠ .api) :
    ofConfiguration (b.configuration v) = .ok b := by
  have own := endsWith_value (v := v) used
  unfold ofConfiguration
  cases b with
  | api => exact absurd rfl other
  | implementation =>
    have looks := any_endsWith_eq_false (v := v) used (by decide) (by decide)
    have api := endsWith_eq_false (v := v) used api.value (by decide) (by decide)
    simp [looks, api, own]
  | compileOnly =>
    have looks : ["compileOnly", "compileOnlyApi", "providedCompile"].any
        (Text.endsWith (compileOnly.configuration v)) = true :=
      List.any_eq_true.2 ⟨"compileOnly", by decide, own⟩
    exact if_pos looks
  | runtimeOnly =>
    have looks := any_endsWith_eq_false (v := v) used (by decide) (by decide)
    have api := endsWith_eq_false (v := v) used api.value (by decide) (by decide)
    have implementation :=
      endsWith_eq_false (v := v) used implementation.value (by decide) (by decide)
    simp [looks, api, implementation, own]
  | unused => cases used

/-- An API configuration ends like a compile-only one exactly if its variant does. -/
theorem endsWith_api_iff :
    Text.endsWith (api.configuration v) "compileOnlyApi" = true ↔ v.EndsCompileOnly := by
  rw [Variant.EndsCompileOnly, ← Text.endsWith_iff_exists]
  by_cases main : v = .main
  · subst main
    exact iff_of_false (by decide) (by decide)
  · have name : Text.lowered (api.configuration v).toList =
        Text.lowered v.name.toList ++ Text.lowered "api".toList := by
      rw [toList_configuration main]
      exact List.map_append
    have ending : Text.lowered "compileOnlyApi".toList =
        Text.lowered "compileOnly".toList ++ Text.lowered "api".toList := rfl
    rw [Text.endsWith, Text.endsWith, List.isSuffixOf_iff_suffix, List.isSuffixOf_iff_suffix, name,
      ending, List.suffix_append_self_iff]

theorem ofConfiguration_api_of_ends (ends : v.EndsCompileOnly) :
    ofConfiguration (api.configuration v) = .ok .compileOnly := by
  have looks : ["compileOnly", "compileOnlyApi", "providedCompile"].any
      (Text.endsWith (api.configuration v)) = true :=
    List.any_eq_true.2 ⟨"compileOnlyApi", by decide, endsWith_api_iff.2 ends⟩
  exact if_pos looks

theorem ofConfiguration_api_of_not_ends (ends : ¬ v.EndsCompileOnly) :
    ofConfiguration (api.configuration v) = .ok .api := by
  have used : api.isUsed = true := rfl
  have compileOnly := endsWith_eq_false (v := v) used "compileOnly" (by decide) (by decide)
  have compileOnlyApi : Text.endsWith (api.configuration v) "compileOnlyApi" = false :=
    Bool.eq_false_iff.2 (mt endsWith_api_iff.1 ends)
  have providedCompile := endsWith_eq_false (v := v) used "providedCompile" (by decide) (by decide)
  simp [ofConfiguration, compileOnly, compileOnlyApi, providedCompile, endsWith_value used]

/-- The bucket is read off the name again, unless the name of the variant makes an API
configuration look like a compile-only one. -/
theorem ofConfiguration_configuration (used : b.isUsed = true) :
    ofConfiguration (b.configuration v) = .ok b ∨
      (b = .api ∧ ofConfiguration (b.configuration v) = .ok .compileOnly) := by
  by_cases other : b = .api
  · subst other
    by_cases ends : v.EndsCompileOnly
    · exact .inr ⟨rfl, ofConfiguration_api_of_ends ends⟩
    · exact .inl (ofConfiguration_api_of_not_ends ends)
  · exact .inl (ofConfiguration_of_ne_api used other)

/-- No two configurations of buckets that are used share a name, whatever the variants are called.
The bucket is read off the name again but for an API configuration of a variant whose name ends,
ASCII case aside, with the name of the compile-only bucket: that is taken for compile-only. -/
theorem configuration_lossless :
    (∀ (b b' : Bucket) (v v' : Variant), b.isUsed = true → b'.isUsed = true →
      b.configuration v = b'.configuration v' → (v, b) = (v', b')) ∧
    ∀ (b : Bucket) (v : Variant), b.isUsed = true →
      (ofConfiguration (b.configuration v) = .ok b ↔ ¬ (b = .api ∧ v.EndsCompileOnly)) ∧
      (b = .api ∧ v.EndsCompileOnly → ofConfiguration (b.configuration v) = .ok .compileOnly) := by
  refine ⟨fun b b' v v' used used' same => ?_, fun b v used => ⟨⟨?_, ?_⟩, ?_⟩⟩
  · obtain ⟨rfl, rfl⟩ := configuration_inj used used' same
    rfl
  · rintro again ⟨rfl, ends⟩
    cases again.symm.trans (ofConfiguration_api_of_ends ends)
  · intro fine
    by_cases other : b = .api
    · subst other
      exact ofConfiguration_api_of_not_ends fun ends => fine ⟨rfl, ends⟩
    · exact ofConfiguration_of_ne_api used other
  · rintro ⟨rfl, ends⟩
    exact ofConfiguration_api_of_ends ends

/-- A variant without a name is told from the main one. A variant in capitals hides the API bucket,
and no other. -/
theorem configuration_lossless_capitals :
    api.configuration ⟨""⟩ ≠ api.configuration .main ∧
      ofConfiguration (api.configuration ⟨"testCOMPILEONLY"⟩) = .ok .compileOnly ∧
      ofConfiguration (implementation.configuration ⟨"testCOMPILEONLY"⟩) = .ok .implementation := by
  obtain ⟨inj, read⟩ := configuration_lossless
  have ends : Variant.EndsCompileOnly ⟨"testCOMPILEONLY"⟩ :=
    ⟨"test".toList, "COMPILEONLY".toList, rfl, by decide⟩
  refine ⟨fun same => ?_, (read .api ⟨"testCOMPILEONLY"⟩ rfl).2 ⟨rfl, ends⟩,
    (read .implementation ⟨"testCOMPILEONLY"⟩ rfl).1.2 fun isApi => ?_⟩
  · exact absurd (inj .api .api ⟨""⟩ .main rfl rfl same) (by decide)
  · cases isApi.1

end Bucket

end ClasspathAdvice
