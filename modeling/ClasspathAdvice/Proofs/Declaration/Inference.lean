import ClasspathAdvice.Proofs.Declaration.Naming
import Mathlib.Data.List.TakeWhile

/-!
# Which variant a configuration is taken for

Where no variant is given, it is read off the name of the configuration: the first variant
that the name starts with, an upper-case letter following. The variant that the name was made
for is one of those; but another may come first whose name is the beginning of it, or is made
of it and the first word of the bucket (`Shadows`). So the variant is found again exactly if
none that is tried before it shadows it (`infer_configuration`).
-/

namespace ClasspathAdvice
set_option autoImplicit false

namespace Bucket

/-- The first word of the name of a bucket, if there is a second. -/
def firstWord? : Bucket → Option String
  | compileOnly => some "compile"
  | runtimeOnly => some "runtime"
  | api | implementation | unused => none

variable {b : Bucket} {v : Variant} {word : String} {c : Char} {front rest : List Char}

/-- In the name of a bucket only the second word begins with an upper-case letter. -/
theorem firstWord?_of_value (used : b.isUsed = true) (upper : Text.isUppercase c = true)
    (h : b.value.toList = front ++ c :: rest) : b.firstWord? = some (String.ofList front) := by
  have only : ∀ i < b.value.toList.length, b.value.toList[i]?.any Text.isUppercase = true →
      b.firstWord? = some (String.ofList (b.value.toList.take i)) := by
    revert used
    cases b <;> decide +kernel
  have found := only front.length (by simp [h]) (by simp [h, upper])
  rwa [h, List.take_left] at found

/-- In an ending the first word begins with one too. -/
theorem firstWord?_of_ending (used : b.isUsed = true) (upper : Text.isUppercase c = true)
    (h : b.ending = front ++ c :: rest) :
    front = [] ∨ ∃ word, b.firstWord? = some word ∧ front = Text.capitalize word.toList := by
  have only : ∀ i < b.ending.length, b.ending[i]?.any Text.isUppercase = true →
      b.ending.take i = [] ∨
        b.firstWord?.map (Text.capitalize ·.toList) = some (b.ending.take i) := by
    revert used
    cases b <;> decide +kernel
  have found := only front.length (by simp [h]) (by simp [h, upper])
  rw [h, List.take_left, Option.map_eq_some_iff] at found
  exact found.imp_right fun ⟨word, first, eq⟩ => ⟨word, first, eq.symm⟩

theorem exists_ending (used : b.isUsed = true) :
    ∃ c rest, b.ending = c :: rest ∧ Text.isUppercase c = true := by
  have first : b.ending.head?.any Text.isUppercase = true := by
    revert used
    cases b <;> decide +kernel
  cases ending : b.ending with
  | nil =>
    rw [ending] at first
    cases first
  | cons c rest =>
    rw [ending] at first
    exact ⟨c, rest, rfl, first⟩

/-- A configuration of a bucket of two words is like one of a bucket that is only the first. -/
theorem toList_configuration_of_firstWord? (first : b.firstWord? = some word) :
    (b.configuration v).toList = (v.configuration word).toList ++ "Only".toList := by
  have value : b.value.toList = word.toList ++ "Only".toList ∧
      b.ending = Text.capitalize word.toList ++ "Only".toList := by
    revert first
    cases b <;> rintro ⟨⟩ <;> decide +kernel
  by_cases main : v = .main
  · subst main
    exact value.1
  · have notMain : ¬ v.isMain = true := by simpa [Variant.isMain] using main
    rw [toList_configuration main, value.2, Variant.configuration, if_neg notMain,
      String.toList_append, String.toList_ofList, String.toList_ofList, List.append_assoc]

end Bucket

namespace Variant

/-- The variants that are tried before one. The main variant is never tried but taken last. -/
def triedBefore (v : Variant) (variants : List Variant) : List Variant :=
  (if v.isMain then variants else variants.takeWhile (· != v)).filter (!·.isMain)

/-- The name of a configuration of `v` starts like one of `w`. -/
inductive Shadows (b : Bucket) (w v : Variant) : Prop where
  /-- The name of `v` is that of `w` and more, from an upper-case letter on. -/
  | begins {c : Char} {rest : List Char} (other : v ≠ .main) (upper : Text.isUppercase c = true)
      (name : v.name.toList = w.name.toList ++ c :: rest)
  /-- The name of `w` takes in the first of two words of the bucket. -/
  | reaches {word : String} (first : b.firstWord? = some word) (name : w.name = v.configuration word)

variable {b : Bucket} {v w : Variant} {name : String} {variants : List Variant}

theorem qualifies_iff : w.qualifies name = true ↔
    ∃ c rest, Text.isUppercase c = true ∧ name.toList = w.name.toList ++ c :: rest := by
  rw [qualifies, Bool.and_eq_true, List.isPrefixOf_iff_prefix]
  constructor
  · rintro ⟨⟨after, eq⟩, upper⟩
    rw [← eq, List.drop_left] at upper
    cases after with
    | nil => cases upper
    | cons c rest => exact ⟨c, rest, upper, eq.symm⟩
  · rintro ⟨c, rest, upper, eq⟩
    rw [eq, List.drop_left]
    exact ⟨List.prefix_append _ _, upper⟩

/-- A configuration starts with the variant that it is of. -/
theorem qualifies_configuration (used : b.isUsed = true) (other : v ≠ .main) :
    v.qualifies (b.configuration v) = true := by
  obtain ⟨c, rest, ending, upper⟩ := Bucket.exists_ending used
  exact qualifies_iff.2 ⟨c, rest, upper, by rw [Bucket.toList_configuration other, ending]⟩

/-- The other variants that it starts with are those that shadow it. -/
theorem qualifies_iff_shadows (used : b.isUsed = true) (ne : w ≠ v) :
    w.qualifies (b.configuration v) = true ↔ Shadows b w v := by
  have names : w.name.toList ≠ v.name.toList := fun h => ne (by
    cases w
    cases v
    exact congrArg _ (String.toList_inj.1 h))
  rw [qualifies_iff]
  constructor
  · rintro ⟨c, rest, upper, eq⟩
    by_cases main : v = .main
    · subst main
      have first := Bucket.firstWord?_of_value used upper eq
      exact .reaches first (by rw [String.ofList_toList]; rfl)
    · rw [Bucket.toList_configuration main, List.append_eq_append_iff] at eq
      rcases eq with ⟨more, name, ending⟩ | ⟨more, name, after⟩
      · rcases Bucket.firstWord?_of_ending used upper ending with none | ⟨word, first, word_eq⟩
        · rw [none, List.append_nil] at name
          exact absurd name names
        · have notMain : ¬ v.isMain = true := by simpa [isMain] using main
          refine .reaches first (String.toList_inj.1 ?_)
          rw [name, configuration, if_neg notMain, String.toList_append, String.toList_ofList,
            word_eq]
      · cases more with
        | nil =>
          rw [List.append_nil] at name
          exact absurd name.symm names
        | cons c' more =>
          cases after
          exact .begins main upper name
  · rintro (⟨main, upper, name⟩ | ⟨first, name⟩)
    · rename_i c rest
      refine ⟨c, rest ++ b.ending, upper, ?_⟩
      rw [Bucket.toList_configuration main, name, List.append_assoc, List.cons_append]
    · refine ⟨'O', "nly".toList, by decide +kernel, ?_⟩
      rw [Bucket.toList_configuration_of_firstWord? first, name]
      rfl

/-- Whether a name is taken for a configuration of the variant, if it is asked. -/
def claims (w : Variant) (name : String) : Bool := !w.isMain && w.qualifies name

theorem ofConfiguration_eq :
    ofConfiguration name variants = (variants.find? (·.claims name)).getD main := rfl

theorem claims_iff : w.claims name = true ↔ w ≠ main ∧ w.qualifies name = true := by
  simp [claims, isMain]

/-- What is in a list and satisfies a condition is found if nothing before it does. -/
theorem find?_eq_some_iff_of_mem {p : Variant → Bool} (mem : v ∈ variants) (holds : p v = true) :
    variants.find? p = some v ↔ ∀ w ∈ variants.takeWhile (· != v), ¬ p w = true := by
  induction variants with
  | nil => cases mem
  | cons u variants ih =>
    by_cases same : u = v
    · subst same
      simp [holds]
    · have rest := ih ((List.mem_cons.1 mem).resolve_left (Ne.symm same))
      cases first : p u <;> simp [first, same, rest]

/-- A configuration of the main variant is one to the end only if no variant claims it. -/
theorem ofConfiguration_main_iff (used : b.isUsed = true) :
    ofConfiguration (b.configuration main) variants = main ↔
      ∀ w ∈ variants, w ≠ main → ¬ Shadows b w main := by
  have claimed : ∀ w : Variant, w.claims (b.configuration main) = true ↔
      w ≠ main ∧ Shadows b w main := fun w => by
    rw [claims_iff]
    exact and_congr_right (qualifies_iff_shadows used)
  rw [ofConfiguration_eq]
  cases found : variants.find? (·.claims (b.configuration main)) with
  | none =>
    simp only [Option.getD_none, true_iff]
    intro w isOne other shadows
    exact List.find?_eq_none.1 found w isOne ((claimed w).2 ⟨other, shadows⟩)
  | some w =>
    have isOne : w ∈ variants := List.mem_of_find?_eq_some found
    have byClaim : w.claims (b.configuration main) = true :=
      (List.find?_eq_some_iff_append.1 found).1
    obtain ⟨other, shadows⟩ := (claimed w).1 byClaim
    exact ⟨fun h => absurd h other, fun h => absurd shadows (h w isOne other)⟩

/-- A configuration of another variant goes to the first of those that claim it. -/
theorem ofConfiguration_other_iff (used : b.isUsed = true) (mem : v ∈ variants) (other : v ≠ main) :
    ofConfiguration (b.configuration v) variants = v ↔
      ∀ w ∈ variants.takeWhile (· != v), w ≠ main → ¬ Shadows b w v := by
  have own : v.claims (b.configuration v) = true :=
    claims_iff.2 ⟨other, qualifies_configuration used other⟩
  have found : ofConfiguration (b.configuration v) variants = v ↔
      variants.find? (·.claims (b.configuration v)) = some v := by
    rw [ofConfiguration_eq]
    cases variants.find? (·.claims (b.configuration v)) with
    | none => simpa using Ne.symm other
    | some w => simp
  rw [found, find?_eq_some_iff_of_mem mem own]
  refine forall₂_congr fun w before => ?_
  have ne : w ≠ v := by simpa using List.mem_takeWhile_imp before
  rw [claims_iff, qualifies_iff_shadows used ne, not_and]

/-- The variant of a configuration is found again exactly if none that is tried before it shadows
it. -/
theorem ofConfiguration_eq_iff (mem : v ∈ variants ∨ v = main) (used : b.isUsed = true) :
    ofConfiguration (b.configuration v) variants = v ↔
      ∀ w ∈ v.triedBefore variants, ¬ Shadows b w v := by
  have tried : ∀ w, w ∈ v.triedBefore variants ↔
      w ∈ (if v.isMain then variants else variants.takeWhile (· != v)) ∧ w ≠ main := fun w => by
    simp [triedBefore, isMain]
  simp only [tried, and_imp]
  by_cases main : v = .main
  · subst main
    exact ofConfiguration_main_iff used
  · have notMain : ¬ v.isMain = true := by simpa [isMain] using main
    rw [if_neg notMain]
    exact ofConfiguration_other_iff used (mem.resolve_right main) main

end Variant

namespace Declaration

/-- A configuration of a known bucket can be declared on in any variant. -/
theorem exists_ofVariant {configuration : String} {b : Bucket} (identifier : String)
    (v : Variant) (h : Bucket.ofConfiguration configuration = .ok b) :
    ∃ d, ofVariant identifier configuration v = .ok d ∧ d.identifier = identifier ∧
      d.configuration = configuration ∧ d.variant = v := by
  unfold ofVariant
  split
  · exact ⟨_, rfl, rfl, rfl, rfl⟩
  · rename_i e failed
    rw [h] at failed
    cases failed

/-- A declaration on the configuration of a bucket in a variant is always read, and put in that
variant exactly if none that is tried before it shadows it. -/
theorem infer_configuration (identifier : String) {variants : List Variant} {v : Variant}
    {b : Bucket} (mem : v ∈ variants ∨ v = .main) (used : b.isUsed = true) :
    ∃ d, infer identifier (b.configuration v) variants = .ok d ∧ d.identifier = identifier ∧
      d.configuration = b.configuration v ∧
      (d.variant = v ↔ ∀ w ∈ v.triedBefore variants, ¬ Variant.Shadows b w v) := by
  have known : ∃ b', Bucket.ofConfiguration (b.configuration v) = .ok b' := by
    rcases Bucket.ofConfiguration_configuration (v := v) used with ok | ⟨-, ok⟩
    · exact ⟨_, ok⟩
    · exact ⟨_, ok⟩
  obtain ⟨b', known⟩ := known
  obtain ⟨d, ok, isOf, isOn, isIn⟩ := exists_ofVariant identifier
    (Variant.ofConfiguration (b.configuration v) variants) known
  refine ⟨d, ok, isOf, isOn, ?_⟩
  rw [isIn, Variant.ofConfiguration_eq_iff mem used]

/-- A variant whose name begins with that of another is found again if it is tried first, and is
mistaken for the other if it is tried last. The main variant is mistaken for one that is named
like the first word of a bucket. -/
theorem infer_configuration_nested :
    (∃ d, infer "g:a" "debugReleaseApi" [⟨"debugRelease"⟩, ⟨"debug"⟩] = .ok d ∧
      d.variant = ⟨"debugRelease"⟩) ∧
    (∃ d, infer "g:a" "debugReleaseApi" [⟨"debug"⟩, ⟨"debugRelease"⟩] = .ok d ∧
      d.variant ≠ ⟨"debugRelease"⟩) ∧
    ∃ d, infer "g:a" "compileOnly" [⟨"compile"⟩] = .ok d ∧ d.variant ≠ .main := by
  have name : Bucket.api.configuration ⟨"debugRelease"⟩ = "debugReleaseApi" := by decide +kernel
  refine ⟨?first, ?last, ?main⟩
  case first =>
    have mem : ⟨"debugRelease"⟩ ∈ [Variant.mk "debugRelease", ⟨"debug"⟩] ∨
        Variant.mk "debugRelease" = .main := .inl List.mem_cons_self
    have used : Bucket.api.isUsed = true := rfl
    obtain ⟨d, ok, -, -, found⟩ := infer_configuration "g:a" mem used
    refine ⟨d, name ▸ ok, found.2 fun w tried => ?_⟩
    have none : Variant.triedBefore ⟨"debugRelease"⟩ [⟨"debugRelease"⟩, ⟨"debug"⟩] = [] := by decide
    rw [none] at tried
    exact absurd tried List.not_mem_nil
  case last =>
    have mem : ⟨"debugRelease"⟩ ∈ [Variant.mk "debug", ⟨"debugRelease"⟩] ∨
        Variant.mk "debugRelease" = .main := .inl (by decide)
    have used : Bucket.api.isUsed = true := rfl
    obtain ⟨d, ok, -, -, found⟩ := infer_configuration "g:a" mem used
    refine ⟨d, name ▸ ok, fun h => found.1 h ⟨"debug"⟩ (by decide) ?_⟩
    have upper : Text.isUppercase 'R' = true := by decide +kernel
    exact .begins (by decide) upper rfl
  case main =>
    have mem : Variant.main ∈ [Variant.mk "compile"] ∨ Variant.main = .main := .inr rfl
    have used : Bucket.compileOnly.isUsed = true := rfl
    obtain ⟨d, ok, -, -, found⟩ := infer_configuration "g:a" mem used
    exact ⟨d, ok, fun h => found.1 h ⟨"compile"⟩ (by decide) (.reaches rfl rfl)⟩

end Declaration

end ClasspathAdvice
