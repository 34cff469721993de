import ClasspathAdvice.Advice.Report
import ClasspathAdvice.Proofs.Explanation
import ClasspathAdvice.Proofs.Text.Escapes

/-!
# Colors change nothing but escape sequences

What is printed is put together from the texts of a question or of the advice for a module. If none
of them holds an escape character, no line that is made of them does, so all escape sequences in
colored output come from its styles, and without them it is the output without colors
(`colors_only_escape`). Whether there is an explanation is decided before any style is written.

`Unescaped` says of each thing that no text in it holds an escape character, and each function that
puts such texts together keeps this.
-/

namespace ClasspathAdvice
set_option autoImplicit false

open Text

/-! ## Coordinates -/

namespace Coordinates

/-- No text in coordinates holds an escape character. -/
structure Unescaped (c : Coordinates) : Prop where
  identifier : Text.Unescaped c.identifier
  version : ∀ s ∈ c.version, Text.Unescaped s
  capabilities : ∀ s ∈ c.capabilities.toList, Text.Unescaped s
  attributes : ∀ e ∈ c.identification.attributes.entries, Text.Unescaped e.1 ∧ Text.Unescaped e.2

theorem unescaped_gav {c : Coordinates} (clean : c.Unescaped) : Text.Unescaped c.gav := by
  rw [gav]
  split
  · rename_i version isVersion
    simp only [unescaped_append]
    exact ⟨⟨clean.identifier, .literal rfl⟩, clean.version version isVersion⟩
  · exact clean.identifier

end Coordinates

namespace Question

variable {c : Coordinates}

theorem unescaped_capabilitySuffix (clean : c.Unescaped) :
    Text.Unescaped (capabilitySuffix c) := by
  rw [capabilitySuffix]
  split
  · exact .literal rfl
  · simp only [unescaped_append]
    refine ⟨⟨.literal rfl, unescaped_joined (.literal rfl) fun s mem => ?_⟩, .literal rfl⟩
    obtain ⟨capability, selected, rfl⟩ := List.mem_map.1 mem
    have clean := clean.capabilities capability (List.mem_filter.1 selected).1
    split
    · exact unescaped_ofList.2 fun mem => clean (List.mem_of_mem_drop mem)
    · exact clean

theorem unescaped_hop (clean : c.Unescaped) (depth : Nat) : (hop depth c).Unescaped := by
  have margin : Text.Unescaped (blanks (6 * depth)) := unescaped_replicate (by decide) _
  simp only [hop, StyledText.unescaped_cons, text_plain, unescaped_append]
  exact ⟨⟨⟨⟨margin, .literal rfl⟩, c.unescaped_gav clean⟩, unescaped_capabilitySuffix clean⟩,
    .nil⟩

end Question

/-! ## Usages -/

namespace Reason

variable {r : Reason} {variant : Variant}

theorem unescaped_enumerate {verb : String} {noun : Noun} {items : List String}
    (first : Text.Unescaped verb) (singular : Text.Unescaped noun.singular)
    (plural : Text.Unescaped noun.plural) (clean : ∀ s ∈ items, Text.Unescaped s) :
    Text.Unescaped (enumerate verb noun items) := by
  rw [enumerate, unescaped_append]
  constructor
  · split
    · simp only [unescaped_append]
      exact ⟨⟨⟨first, .literal rfl⟩, singular⟩, .literal rfl⟩
    · split
      · simp only [unescaped_append]
        exact ⟨⟨⟨⟨⟨first, .literal rfl⟩, unescaped_toString _⟩, .literal rfl⟩, plural⟩,
          .literal rfl⟩
      · simp only [unescaped_append]
        exact ⟨⟨⟨⟨⟨⟨⟨first, .literal rfl⟩, unescaped_toString _⟩, .literal rfl⟩, plural⟩,
          .literal rfl⟩, unescaped_toString _⟩, .literal rfl⟩
  · exact unescaped_joined (.literal rfl) fun s mem => clean s (List.mem_of_mem_take mem)

theorem unescaped_summary (clean : ∀ s ∈ r.key.items, Text.Unescaped s) :
    Text.Unescaped r.summary := by
  cases r with
  | compileTimeAnnotations | undeclared | unused | excluded => exact .literal rfl
  | binaryIncompatible details =>
    exact unescaped_append.2 ⟨.literal rfl, unescaped_joined (.literal rfl) clean⟩
  | annotationProcessor items source =>
    cases source <;> exact unescaped_enumerate (.literal rfl) (.literal rfl) (.literal rfl) clean
  | runtimeAndroid component names =>
    cases component <;> exact unescaped_enumerate (.literal rfl) (.literal rfl) (.literal rfl) clean
  | _ => exact unescaped_enumerate (.literal rfl) (.literal rfl) (.literal rfl) clean

/-- The configurations that a reason can imply in the main variant. -/
def impliable : List String :=
  ["api", "kapt", "annotationProcessor", "compileOnly", "implementation, sometimes",
    "implementation", "runtimeOnly", "n/a"]

theorem configuration_mem (r : Reason) : r.configuration ∈ impliable := by
  cases r with
  | annotationProcessor items source isKapt => cases isKapt <;> simp [configuration, impliable]
  | _ => simp [configuration, impliable]

theorem unescaped_configuration (name : Text.Unescaped variant.name) {base : String}
    (known : base ∈ impliable) : Text.Unescaped (variant.configuration base) := by
  have all : ∀ base ∈ impliable,
      '\x1b' ∉ base.toList ∧ '\x1b' ∉ capitalize base.toList := by decide
  rw [Variant.configuration]
  split
  · exact (all base known).1
  · exact unescaped_append.2 ⟨name, unescaped_ofList.2 (all base known).2⟩

theorem unescaped_describe (name : Text.Unescaped variant.name)
    (clean : ∀ s ∈ r.key.items, Text.Unescaped s) (isCompileOnly : Bool) :
    Text.Unescaped (r.describe variant isCompileOnly) := by
  have summary := unescaped_summary clean
  have implied : Text.Unescaped (variant.configuration
      (if isCompileOnly && !r.isAnnotationProcessor then "compileOnly" else r.configuration)) := by
    split
    · exact unescaped_configuration name (by decide)
    · exact unescaped_configuration name r.configuration_mem
  unfold describe
  split
  · exact summary
  · simp only [unescaped_append]
    exact ⟨⟨⟨summary, .literal rfl⟩, implied⟩, .literal rfl⟩

end Reason

/-- No text in a usage holds an escape character. -/
structure Usage.Unescaped (u : Usage) : Prop where
  variant : Text.Unescaped u.variant.name
  reasons : ∀ r ∈ u.reasons, ∀ s ∈ r.key.items, Text.Unescaped s

namespace Question

theorem unescaped_usageLines {u : Usage} (clean : u.Unescaped) : UnescapedLines (usageLines u) := by
  rw [usageLines, unescapedLines_append]
  constructor
  · simp only [unescapedLines_cons, StyledText.unescaped_cons, Style.text_span, unescaped_append]
    exact ⟨.nil, ⟨⟨.literal rfl, clean.variant⟩, .nil⟩,
      ⟨unescaped_replicate (by decide) _, .nil⟩, .nil⟩
  · split
    · exact unescapedLines_cons.2 ⟨StyledText.unescaped_cons.2 ⟨.literal rfl, .nil⟩,
        .nil⟩
    · refine unescapedLines_map.2 fun r listed => StyledText.unescaped_cons.2 ⟨?_, .nil⟩
      have reason := clean.reasons r (List.mem_of_mem_filter listed)
      exact unescaped_append.2 ⟨.literal rfl, Reason.unescaped_describe clean.variant reason _⟩

theorem unescaped_usagesLines {usages : List Usage} (clean : ∀ u ∈ usages, u.Unescaped) :
    UnescapedLines (usagesLines usages) := by
  rw [usagesLines]
  split
  · simp only [unescapedLines_cons, StyledText.unescaped_cons, text_plain]
    exact ⟨.nil, ⟨.literal rfl, .nil⟩, .nil⟩
  · exact unescapedLines_flatMap fun u listed => unescaped_usageLines (clean u listed)

end Question

/-! ## Advice -/

namespace Advice

/-- No text in a piece of advice holds an escape character. -/
structure Unescaped (a : Advice) : Prop where
  coordinates : a.coordinates.Unescaped
  source : ∀ s ∈ a.source, Text.Unescaped s
  target : ∀ s ∈ a.target, Text.Unescaped s

theorem unescaped_text {a : Advice} (clean : a.Unescaped) : Text.Unescaped a.text := by
  have gav := Coordinates.unescaped_gav clean.coordinates
  rw [text]
  split
  · rename_i target _ isTarget
    simp only [unescaped_append]
    exact ⟨⟨⟨⟨.literal rfl, gav⟩, .literal rfl⟩, clean.target target isTarget⟩, .literal rfl⟩
  · rename_i source isSource _
    simp only [unescaped_append]
    exact ⟨⟨⟨⟨.literal rfl, gav⟩, .literal rfl⟩, clean.source source isSource⟩, .literal rfl⟩
  · rename_i source target isSource isTarget
    simp only [unescaped_append]
    exact ⟨⟨⟨⟨⟨⟨.literal rfl, gav⟩, .literal rfl⟩, clean.source source isSource⟩, .literal rfl⟩,
      clean.target target isTarget⟩, .literal rfl⟩
  · exact unescaped_append.2 ⟨gav, .literal rfl⟩

end Advice

/-! ## Reports -/

/-- No text in the advice for a module holds an escape character. -/
structure ModuleAdvice.Unescaped (m : ModuleAdvice) : Prop where
  project : m.project.Unescaped
  advice : ∀ a ∈ m.advice.toList, a.Unescaped
  filtered : ∀ a ∈ m.filtered.toList, a.Unescaped

namespace Report

variable {m : ModuleAdvice} {a : Advice}

theorem unescaped_declared {c : Coordinates} (clean : c.Unescaped) : Unescaped (declared c) := by
  have gav := c.unescaped_gav clean
  rw [declared]
  split
  · simp only [unescaped_append]
    exact ⟨⟨.literal rfl, gav⟩, .literal rfl⟩
  · simp only [unescaped_append]
    exact ⟨⟨.literal rfl, gav⟩, .literal rfl⟩

theorem unescaped_line (clean : a.Unescaped) : (line a).Unescaped := by
  have declared := unescaped_declared clean.coordinates
  rw [line]
  split
  · rename_i source target isSource isTarget
    simp only [StyledText.unescaped_cons, text_plain, Style.text_span, unescaped_append]
    exact ⟨⟨⟨⟨⟨.literal rfl, clean.target target isTarget⟩, .literal rfl⟩, declared⟩, .literal rfl⟩,
      ⟨⟨.literal rfl, clean.source source isSource⟩, .literal rfl⟩, .nil⟩
  · rename_i target _ isTarget
    simp only [StyledText.unescaped_cons, text_plain, unescaped_append]
    exact ⟨⟨⟨⟨⟨.literal rfl, clean.target target isTarget⟩, .literal rfl⟩, declared⟩, .literal rfl⟩,
      .nil⟩
  · rename_i source isSource _
    simp only [StyledText.unescaped_cons, text_plain, unescaped_append]
    exact ⟨⟨⟨⟨⟨.literal rfl, clean.source source isSource⟩, .literal rfl⟩, declared⟩, .literal rfl⟩,
      .nil⟩
  · simp only [StyledText.unescaped_cons, text_plain, unescaped_append]
    exact ⟨⟨.literal rfl, declared⟩, .nil⟩

theorem unescaped_heading {title : String} (clean : Unescaped title) :
    (heading title).Unescaped := StyledText.unescaped_cons.2 ⟨clean, .nil⟩

theorem unescaped_sectionLines (clean : m.Unescaped) (s : Section) :
    UnescapedLines (sectionLines m.advice s) := by
  rw [sectionLines]
  split
  · exact .nil
  · rename_i listed _
    have title : Unescaped s.title := by cases s <;> exact .literal rfl
    refine unescapedLines_cons.2 ⟨unescaped_heading title, unescapedLines_map.2 fun a mem => ?_⟩
    exact unescaped_line (clean.advice a (List.mem_of_mem_filter mem))

theorem unescaped_separated {blocks : List (List StyledText)}
    (clean : ∀ block ∈ blocks, UnescapedLines block) : UnescapedLines (separated blocks) := by
  fun_induction separated blocks with
  | case1 => exact .nil
  | case2 block => exact clean block List.mem_cons_self
  | case3 block blocks _ ih =>
    obtain ⟨first, others⟩ := List.forall_mem_cons.1 clean
    rw [unescapedLines_append, unescapedLines_cons]
    exact ⟨first, .nil, ih others⟩

theorem unescaped_adviceLines (clean : m.Unescaped) : UnescapedLines (adviceLines m) := by
  rw [adviceLines]
  split
  · have project := Coordinates.unescaped_gav clean.project
    simp only [unescapedLines_cons, StyledText.unescaped_cons, Style.text_span, unescaped_append]
    exact ⟨⟨⟨⟨.literal rfl, project⟩, .literal rfl⟩, .nil⟩, .nil⟩
  · refine unescaped_separated fun block mem => ?_
    obtain ⟨s, -, rfl⟩ := List.mem_map.1 (List.mem_of_mem_filter mem)
    exact unescaped_sectionLines clean s

theorem unescaped_filteredLines (clean : m.Unescaped) : UnescapedLines (filteredLines m) := by
  rw [filteredLines]
  split
  · exact .nil
  · rw [unescapedLines_cons, unescapedLines_cons]
    refine ⟨.nil, unescaped_heading (.literal rfl), unescapedLines_map.2 fun a mem => ?_⟩
    simp only [StyledText.unescaped_cons, text_plain, unescaped_append]
    exact ⟨⟨.literal rfl, Advice.unescaped_text (clean.filtered a mem)⟩, .nil⟩

theorem unescaped_text (clean : m.Unescaped) (showFiltered : Bool) :
    (text showFiltered m).Unescaped := by
  refine unescaped_unlines (unescapedLines_append.2 ⟨unescaped_adviceLines clean, ?_⟩)
  split
  · exact unescaped_filteredLines clean
  · exact .nil

end Report

/-! ## Explanations -/

namespace Question

/-- No text in a question holds an escape character. -/
structure Unescaped (q : Question) : Prop where
  project : q.project.Unescaped
  requested : q.requested.Unescaped
  target : q.target.Unescaped
  capability : ∀ s ∈ q.capability, Text.Unescaped s
  usages : ∀ u ∈ q.usages, u.Unescaped
  advice : ∀ a ∈ q.advice, a.Unescaped
  views : ∀ v ∈ q.views.entries, Text.Unescaped v.1 ∧ ∀ c ∈ v.2.nodes, c.Unescaped
  traces : ∀ t ∈ q.traces, t.top.Unescaped ∧ t.bottom.Unescaped
  aliases : ∀ e ∈ q.aliases.entries, Text.Unescaped e.1 ∧ Text.Unescaped e.2

variable {q : Question} {a : Advice} {c : Coordinates} {g : Graph} {view : String}
  {lines : List StyledText} {path : List Coordinates} {t : BundleTrace Coordinates}

theorem unescaped_display (clean : q.Unescaped) (named : c.Unescaped) :
    Text.Unescaped (q.display c) := by
  have gav := c.unescaped_gav named
  rw [display]
  split
  · rename_i shown found
    have listed : Text.Unescaped shown := by
      rcases Option.or_eq_some_iff.1 (Option.filter_eq_some_iff.1 found).1 with found | ⟨-, found⟩
      · exact (clean.aliases _ (OrderedMap.get?_eq_some_iff.1 found)).2
      · exact (clean.aliases _ (OrderedMap.get?_eq_some_iff.1 found)).2
    simp only [unescaped_append]
    exact ⟨⟨⟨gav, .literal rfl⟩, listed⟩, .literal rfl⟩
  · exact gav

theorem unescaped_sentence (clean : q.Unescaped) : Text.Unescaped q.sentence := by
  have requested := unescaped_display clean clean.requested
  unfold sentence
  simp only [unescaped_append]
  refine ⟨⟨⟨⟨.literal rfl, requested⟩, .literal rfl⟩, ?_⟩, .literal rfl⟩
  split
  · rename_i capability found
    have asked := clean.capability capability (Option.filter_eq_some_iff.1 found).1
    simp only [unescaped_append]
    exact ⟨⟨.literal rfl, asked⟩, .literal rfl⟩
  · exact .literal rfl

/-! ### The advice -/

theorem unescaped_suppression (clean : t.top.Unescaped ∧ t.bottom.Unescaped) :
    (suppression t).1.Unescaped ∧ Text.Unescaped (suppression t).2 := by
  rw [suppression]
  split
  · exact ⟨clean.1, .literal rfl⟩
  · exact ⟨clean.2, .literal rfl⟩
  · exact ⟨clean.1, .literal rfl⟩

theorem unescaped_trace (clean : q.Unescaped) (found : q.trace? = some t) :
    t.top.Unescaped ∧ t.bottom.Unescaped := clean.traces t (List.mem_of_find?_eq_some found)

theorem unescaped_noAdvice (clean : q.Unescaped) (ok : q.noAdvice = .ok lines) :
    UnescapedLines lines := by
  rw [noAdvice] at ok
  split at ok
  · split at ok
    · obtain rfl := Except.ok.inj ok
      simp only [unescapedLines_cons, StyledText.unescaped_cons, text_plain, Style.text_span]
      exact ⟨⟨.literal rfl, .nil⟩, ⟨.literal rfl, .literal rfl, .literal rfl, .nil⟩,
        .nil⟩
    · obtain rfl := Except.ok.inj ok
      simp only [unescapedLines_cons, StyledText.unescaped_cons, text_plain]
      exact ⟨⟨.literal rfl, .nil⟩, .nil⟩
  · split at ok
    · rename_i t found
      have suppressed := unescaped_suppression (unescaped_trace clean found)
      generalize suppression t = s at suppressed ok
      have subject := unescaped_display clean suppressed.1
      obtain rfl := Except.ok.inj ok
      simp only [bundle, unescapedLines_cons, StyledText.unescaped_cons, text_plain,
        Style.text_span, unescaped_append]
      exact ⟨⟨.literal rfl, .nil⟩, ⟨.literal rfl, .literal rfl, .literal rfl, subject,
        ⟨⟨.literal rfl, suppressed.2⟩, .literal rfl⟩, .nil⟩, .nil⟩
    · cases ok

theorem unescaped_additionLines {configuration : String} (clean : q.Unescaped)
    (named : Text.Unescaped configuration) (ok : q.additionLines configuration = .ok lines) :
    UnescapedLines lines := by
  have opening : StyledText.Unescaped [plain "You have been advised to add this dependency to '",
      Style.green.span configuration, plain "'."] := by
    simp only [StyledText.unescaped_cons, text_plain, Style.text_span]
    exact ⟨.literal rfl, named, .literal rfl, .nil⟩
  rw [additionLines] at ok
  split at ok
  · obtain rfl := Except.ok.inj ok
    exact unescapedLines_cons.2 ⟨opening, .nil⟩
  · rename_i t found
    split at ok
    · obtain ⟨top, bottom⟩ := unescaped_trace clean found
      have top := unescaped_display clean top
      have bottom := unescaped_display clean bottom
      obtain rfl := Except.ok.inj ok
      rw [unescapedLines_cons, unescapedLines_cons]
      refine ⟨opening, ?_, .nil⟩
      simp only [bundle, StyledText.unescaped_cons, text_plain, Style.text_span]
      exact ⟨.literal rfl, .literal rfl, .literal rfl, top, .literal rfl, bottom, .literal rfl,
        .nil⟩
    · cases ok

theorem unescaped_givenAdvice (clean : q.Unescaped) (advice : a.Unescaped)
    (ok : q.givenAdvice a = .ok lines) : UnescapedLines lines := by
  rw [givenAdvice] at ok
  split at ok
  · rename_i target _ isTarget
    exact unescaped_additionLines clean (advice.target target isTarget) ok
  · rename_i source isSource _
    have source := advice.source source isSource
    split at ok
    · obtain rfl := Except.ok.inj ok
      simp only [unescapedLines_cons, StyledText.unescaped_cons, text_plain, Style.text_span]
      exact ⟨⟨.literal rfl, source, .literal rfl, .nil⟩, .nil⟩
    · cases ok
  · rename_i source target isSource isTarget
    have source := advice.source source isSource
    have target := advice.target target isTarget
    split at ok
    · obtain rfl := Except.ok.inj ok
      simp only [unescapedLines_cons, StyledText.unescaped_cons, text_plain, Style.text_span]
      exact ⟨⟨.literal rfl, target, .literal rfl, source, .literal rfl, .nil⟩, .nil⟩
    · cases ok
  · cases ok

theorem unescaped_adviceLines (clean : q.Unescaped) (ok : q.adviceLines = .ok lines) :
    UnescapedLines lines := by
  rw [adviceLines] at ok
  split at ok
  · rename_i a advised
    exact unescaped_givenAdvice clean (clean.advice a advised) ok
  · exact unescaped_noAdvice clean ok

/-! ### The views -/

theorem unescaped_projectName (clean : q.Unescaped) : Text.Unescaped q.projectName := by
  rw [projectName]
  split
  · exact .literal rfl
  · exact Coordinates.unescaped_gav clean.project

theorem unescaped_pathLines (clean : q.Unescaped) (named : Text.Unescaped view)
    (nodes : ∀ c ∈ path, c.Unescaped) : UnescapedLines (q.pathLines view path) := by
  have project := unescaped_projectName clean
  cases path with
  | nil =>
    have target := unescaped_display clean clean.target
    simp only [pathLines, unescapedLines_cons, StyledText.unescaped_cons, Style.text_span,
      unescaped_append]
    exact ⟨.nil, ⟨⟨⟨⟨⟨⟨.literal rfl, project⟩, .literal rfl⟩, target⟩, .literal rfl⟩, named⟩,
      .nil⟩, .nil⟩
  | cons first hops =>
    have requested := unescaped_display clean clean.requested
    have start : Text.Unescaped q.project.gav := Coordinates.unescaped_gav clean.project
    rw [pathLines, unescapedLines_append]
    constructor
    · simp only [unescapedLines_cons, StyledText.unescaped_cons, text_plain, Style.text_span,
        unescaped_append]
      exact ⟨.nil, ⟨⟨⟨⟨⟨⟨⟨.literal rfl, project⟩, .literal rfl⟩, requested⟩, .literal rfl⟩, named⟩,
        .literal rfl⟩, .nil⟩, ⟨start, .nil⟩, .nil⟩
    · refine unescapedLines_map.2 fun e listed => unescaped_hop ?_ e.2
      exact nodes e.1 (List.mem_cons_of_mem _ (List.fst_mem_of_mem_zipIdx listed))

theorem unescaped_viewLines (clean : q.Unescaped) (named : Text.Unescaped view)
    (nodes : ∀ c ∈ g.nodes, c.Unescaped) (ok : q.viewLines view g = .ok lines) :
    UnescapedLines lines := by
  rw [viewLines] at ok
  cases found : q.path g with
  | error e =>
    rw [found] at ok
    cases ok
  | ok path =>
    rw [found] at ok
    obtain rfl := Except.ok.inj ok
    exact unescaped_pathLines clean named fun c mem => nodes c (mem_nodes_of_path found mem)

/-! ### The whole explanation -/

theorem unescaped_opening {advice : List StyledText} (clean : q.Unescaped)
    (advised : UnescapedLines advice) : UnescapedLines (q.opening advice) := by
  have line : StyledText.Unescaped [Style.bold.span rule] :=
    StyledText.unescaped_cons.2 ⟨.literal rfl, .nil⟩
  have asked : StyledText.Unescaped [Style.bold.span q.sentence] :=
    StyledText.unescaped_cons.2 ⟨unescaped_sentence clean, .nil⟩
  simp only [opening, unescapedLines_append, unescapedLines_cons]
  exact ⟨⟨⟨.nil, line, asked, .nil⟩, advised⟩, line, .nil⟩

theorem unescaped_explain {text : StyledText} (clean : q.Unescaped) (ok : q.explain = .ok text) :
    text.Unescaped := by
  cases advised : q.adviceLines with
  | error e => cases (explain_of_error advised).symm.trans ok
  | ok advice =>
    rw [explain_of_ok advised] at ok
    cases views : q.views.entries.mapM fun v => q.viewLines v.1 v.2 with
    | error e =>
      rw [views] at ok
      cases ok
    | ok blocks =>
      rw [views] at ok
      obtain rfl := Except.ok.inj ok
      have told : UnescapedLines blocks.flatten := by
        rw [← List.flatMap_id]
        refine unescapedLines_flatMap fun block isBlock => ?_
        obtain ⟨v, listed, ok⟩ := (mem_of_mapM views).1 isBlock
        obtain ⟨named, nodes⟩ := clean.views v listed
        exact unescaped_viewLines clean named nodes ok
      refine unescaped_unlines ?_
      rw [unescapedLines_append, unescapedLines_append]
      exact ⟨⟨unescaped_opening clean (unescaped_adviceLines clean advised), told⟩,
        unescaped_usagesLines clean.usages⟩

/-- The answer in writing, with colors or without. -/
def answer (q : Question) (colors : Bool) : Except ExplanationError String :=
  q.explain.map (·.render colors)

theorem answer_of_error {e : ExplanationError} (fails : q.explain = .error e) (colors : Bool) :
    q.answer colors = .error e := by
  rw [answer, fails]
  rfl

theorem answer_of_ok {text : StyledText} (ok : q.explain = .ok text) (colors : Bool) :
    q.answer colors = .ok (text.render colors) := by
  rw [answer, ok]
  rfl

end Question

/-- Whether a question has an answer, and the error if it has none, does not depend on colors. The
answer to a question whose texts hold no escape character, written with colors and stripped of its
escape sequences, is the answer written without; and so is a report, whatever it shows. -/
theorem colors_only_escape :
    (∀ q : Question, (∀ e, q.answer true = .error e ↔ q.answer false = .error e) ∧
      (q.Unescaped → (q.answer true).map withoutEscapes = q.answer false)) ∧
    ∀ (m : ModuleAdvice) (showFiltered : Bool), m.Unescaped →
      withoutEscapes ((Report.text showFiltered m).render true) =
        (Report.text showFiltered m).render false := by
  refine ⟨fun q => ?_, fun m showFiltered clean =>
    withoutEscapes_render (Report.unescaped_text clean showFiltered)⟩
  cases explained : q.explain with
  | error x =>
    rw [Question.answer_of_error explained true, Question.answer_of_error explained false]
    exact ⟨fun e => Iff.rfl, fun _ => rfl⟩
  | ok text =>
    rw [Question.answer_of_ok explained true, Question.answer_of_ok explained false, Except.map]
    refine ⟨fun e => iff_of_false (fun fails => by cases fails) (fun fails => by cases fails), ?_⟩
    intro clean
    rw [withoutEscapes_render (Question.unescaped_explain clean explained)]

/-- Advice to move a library. -/
def moved : Advice where
  coordinates := .library "g:a" "1"
  source := some "debugApi"
  target := some "debugImplementation"

/-- A question about it by a capability, which has an alias and a usage. -/
def Question.advised : Question where
  project := { kind := .project, identifier := ":app" }
  requested := .library "g:a" "1"
  target := .library "g:a" "1"
  capability := some "g:a-fixtures"
  usages := [⟨⟨"debug"⟩, .implementation, [.imported ["g.A"]]⟩]
  advice := some moved
  aliases := .ofList [("g:a", "libs.a")]

/-- The advice is given and, once more, set aside. -/
def ModuleAdvice.advised : ModuleAdvice where
  project := { kind := .project, identifier := ":app" }
  advice := .ofList [moved]
  filtered := .ofList [moved]

theorem Coordinates.Unescaped.of_plain {c : Coordinates} (plain : c.identification = {})
    (identifier : Text.Unescaped c.identifier) (version : ∀ s ∈ c.version, Text.Unescaped s) :
    c.Unescaped where
  identifier := identifier
  version := version
  capabilities _ mem := by
    rw [Coordinates.capabilities, plain] at mem
    exact absurd mem List.not_mem_nil
  attributes _ mem := by
    rw [plain] at mem
    exact absurd mem List.not_mem_nil

theorem unescaped_app :
    Coordinates.Unescaped { kind := .project, identifier := ":app" } :=
  .of_plain rfl (.literal rfl) (by simp)

theorem unescaped_library : (Coordinates.library "g:a" "1").Unescaped := by
  refine .of_plain rfl (.literal rfl) fun s isVersion => ?_
  cases isVersion
  exact .literal rfl

theorem unescaped_moved : moved.Unescaped where
  coordinates := unescaped_library
  source s isSource := by
    cases isSource
    exact .literal rfl
  target s isTarget := by
    cases isTarget
    exact .literal rfl

theorem Question.unescaped_advised : Question.advised.Unescaped where
  project := unescaped_app
  requested := unescaped_library
  target := unescaped_library
  capability s asked := by
    cases asked
    exact .literal rfl
  usages u listed := by
    rw [List.mem_singleton.1 listed]
    refine ⟨.literal rfl, fun r isReason s mem => ?_⟩
    rw [List.mem_singleton.1 isReason] at mem
    rw [List.mem_singleton.1 mem]
    exact .literal rfl
  advice a given := by
    cases given
    exact unescaped_moved
  views v mem := absurd mem List.not_mem_nil
  traces t mem := absurd mem List.not_mem_nil
  aliases e listed := by
    rw [List.mem_singleton.1 listed]
    exact ⟨.literal rfl, .literal rfl⟩

theorem ModuleAdvice.unescaped_advised : ModuleAdvice.advised.Unescaped where
  project := unescaped_app
  advice a listed := by
    rw [List.mem_singleton.1 listed]
    exact unescaped_moved
  filtered a listed := by
    rw [List.mem_singleton.1 listed]
    exact unescaped_moved

/-- Its answer has colors, and they are all that is taken out; and so with the report. -/
theorem colors_only_escape_advised :
    Question.advised.Unescaped ∧ ModuleAdvice.advised.Unescaped ∧
      (Question.advised.answer true).toOption ≠ (Question.advised.answer false).toOption ∧
      (Question.advised.answer true).map withoutEscapes = Question.advised.answer false ∧
      withoutEscapes ((Report.text true ModuleAdvice.advised).render true) =
        (Report.text true ModuleAdvice.advised).render false :=
  ⟨Question.unescaped_advised, ModuleAdvice.unescaped_advised, by decide,
    (colors_only_escape.1 Question.advised).2 Question.unescaped_advised,
    colors_only_escape.2 ModuleAdvice.advised true ModuleAdvice.unescaped_advised⟩

end ClasspathAdvice
