import ClasspathAdvice.Proofs.Survey
import ClasspathAdvice.Proofs.Usage.Completion

/-!
# Texts that name dependencies survive

Coordinates that are read off a text have it as their text form, whatever the text, so no two texts
are read as the same coordinates. The usages of a survey are listed by text, and the module that
the survey describes lists as many dependencies as there are texts with a usage: what was observed
under one text is not mixed with what was observed under another. And whatever is asked for is
found under the name that it is asked for by, with or without a version (`texts_survive`).
-/

namespace ClasspathAdvice
set_option autoImplicit false

/-- No two texts are read as the same coordinates. -/
theorem Coordinates.parse_injective : Function.Injective Coordinates.parse :=
  Function.LeftInverse.injective gav_parse

namespace Survey

/-- The texts under which a usage was observed. -/
def usedTexts (s : Survey) : List String :=
  (s.usages.entries.filter fun e => !e.2.isEmpty).map Prod.fst

variable {s : Survey} {raw : String} {c : Coordinates} {u : Usage} {usages : List Usage}

/-! ## Usages -/

theorem mem_usedTexts : raw ∈ s.usedTexts ↔ ∃ usages, (raw, usages) ∈ s.usages.entries ∧
    usages ≠ [] := by
  simp [usedTexts]

theorem nodup_usedTexts (s : Survey) : s.usedTexts.Nodup :=
  (nodup_of_ascending s.usages.ascending).sublist (List.filter_sublist.map Prod.fst)

theorem mem_observed : (c, u) ∈ s.observed ↔
    ∃ raw usages, (raw, usages) ∈ s.usages.entries ∧ u ∈ usages ∧ Coordinates.parse raw = c := by
  simp [observed]

/-- What was observed of coordinates that are read off a text was observed under this text. -/
theorem mem_observed_parse (listed : s.usages.get? raw = some usages) :
    (Coordinates.parse raw, u) ∈ s.observed ↔ u ∈ usages := by
  rw [mem_observed]
  constructor
  · rintro ⟨other, usages', mem, used, same⟩
    obtain rfl := Coordinates.parse_injective same
    rw [OrderedMap.get?_eq_some_iff.2 mem] at listed
    exact Option.some.inj listed ▸ used
  · exact fun used => ⟨raw, usages, OrderedMap.get?_eq_some_iff.1 listed, used, rfl⟩

theorem mem_keys_completeUsages :
    c ∈ s.completeUsages.keys ↔ c ∈ s.usedTexts.map Coordinates.parse := by
  simp only [completeUsages_eq, Observations.mem_keys_complete, mem_observed, List.mem_map,
    mem_usedTexts]
  constructor
  · rintro ⟨u, raw, usages, mem, used, rfl⟩
    exact ⟨raw, ⟨usages, mem, List.ne_nil_of_mem used⟩, rfl⟩
  · rintro ⟨raw, ⟨usages, mem, some⟩, rfl⟩
    obtain ⟨u, used⟩ := List.exists_mem_of_ne_nil usages some
    exact ⟨u, raw, usages, mem, used, rfl⟩

/-- There is one dependency for each text under which a usage was observed. -/
theorem keys_completeUsages_perm (s : Survey) :
    s.completeUsages.keys.Perm (s.usedTexts.map Coordinates.parse) := by
  refine (List.perm_ext_iff_of_nodup ?_ ?_).2 fun c => mem_keys_completeUsages
  · exact nodup_of_ascending s.completeUsages.ascending
  · exact s.nodup_usedTexts.map Coordinates.parse_injective

/-- It has the usages that were observed under the text, and the placeholders of the variants that
none of these is in. -/
theorem exists_completeUsages (listed : s.usages.get? raw = some usages) (observed : usages ≠ []) :
    ∃ filled, s.completeUsages.get? (Coordinates.parse raw) = some filled ∧
      ∀ u, u ∈ filled ↔ u ∈ usages ∨ ∃ v ∈ s.knownVariants, (∀ w ∈ usages, w.variant ≠ v) ∧
        u = Usage.undeclared v := by
  obtain ⟨u, used⟩ := List.exists_mem_of_ne_nil usages observed
  obtain ⟨filled, found, completes⟩ :=
    Observations.exists_completes s.knownVariants ((mem_observed_parse listed).2 used)
  refine ⟨filled, found, fun u => ?_⟩
  simp only [completes.mem_iff, mem_observed_parse listed]

/-! ## Requests -/

/-- What a name is resolved to goes by the name. -/
theorem resolve_goes_by (s : Survey) (requested : String) :
    (s.resolve requested).identifier = requested ∨ (s.resolve requested).gav = requested := by
  rw [resolve]
  cases found : s.named.find? fun c => c.identifier == requested || c.gav == requested with
  | some c => simpa using List.find?_some found
  | none => exact .inr (Coordinates.gav_parse requested)

/-- The text form of the coordinates that any text is read as is the text, and no two texts are
read as the same coordinates. A module lists exactly one dependency for each text under which the
survey lists a usage, with what is listed there and the placeholders of the variants that this
leaves out. Whatever a survey is asked for, it resolves to coordinates with this identifier or
text form. -/
theorem texts_survive :
    (∀ raw, (Coordinates.parse raw).gav = raw) ∧ Function.Injective Coordinates.parse ∧
    (∀ (s : Survey) (m : ProjectModule), s.toModule = .ok m →
      m.usages.keys.Perm (s.usedTexts.map Coordinates.parse) ∧
      ∀ raw usages, s.usages.get? raw = some usages → usages ≠ [] →
        ∃ filled, m.usages.get? (Coordinates.parse raw) = some filled ∧
          ∀ u, u ∈ filled ↔ u ∈ usages ∨ ∃ v ∈ s.knownVariants, (∀ w ∈ usages, w.variant ≠ v) ∧
            u = Usage.undeclared v) ∧
    ∀ (s : Survey) (requested : String),
      (s.resolve requested).identifier = requested ∨ (s.resolve requested).gav = requested := by
  refine ⟨Coordinates.gav_parse, Coordinates.parse_injective, ?_, resolve_goes_by⟩
  intro s m described
  rw [(of_toModule described).2]
  exact ⟨s.keys_completeUsages_perm, fun raw usages => exists_completeUsages⟩

/-- A survey whose texts are close to each other, one of them without a usage. -/
def lookalikes : Survey where
  project := ":app"
  variants := [⟨"debug"⟩, ⟨"release"⟩]
  usages := .ofList [("g:a", [⟨⟨"debug"⟩, .api, []⟩]), ("g:a:1", [⟨⟨"debug"⟩, .implementation, []⟩]),
    ("g:a:", [⟨⟨"release"⟩, .api, []⟩]), (":g:a", [⟨⟨"debug"⟩, .api, []⟩]), ("g:a:2", [])]

/-- None of them is mixed with another. -/
theorem texts_survive_lookalikes :
    ∃ m, lookalikes.toModule = .ok m ∧
      m.usages.keys.Perm ([":g:a", "g:a", "g:a:", "g:a:1"].map Coordinates.parse) ∧
      ∃ filled, m.usages.get? (Coordinates.parse "g:a") = some filled ∧
        Usage.undeclared ⟨"release"⟩ ∈ filled := by
  have described : ∃ m, lookalikes.toModule = .ok m := ⟨_, rfl⟩
  obtain ⟨m, h⟩ := described
  obtain ⟨-, -, modules, -⟩ := texts_survive
  obtain ⟨keys, filled⟩ := modules lookalikes m h
  have texts : lookalikes.usedTexts = [":g:a", "g:a", "g:a:", "g:a:1"] := by decide
  rw [texts] at keys
  obtain ⟨filled, found, mem⟩ := filled "g:a" [⟨⟨"debug"⟩, .api, []⟩] (by decide) (by decide)
  refine ⟨m, h, keys, filled, found, (mem _).2 (.inr ⟨⟨"release"⟩, by decide, by decide, rfl⟩)⟩

end Survey

end ClasspathAdvice
