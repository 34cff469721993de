import ClasspathAdvice.Advice.Report

/-!
# Every piece of advice has one line in the report

The tests that put advice into sections leave none out and overlap nowhere: each piece belongs
in one section, which its configurations tell (`Section.holds_iff`). So a report lists each piece
of advice once, in the order of the set within a section, and has a heading for each section that
lists some (`text_lists`).
-/

namespace ClasspathAdvice.Report
set_option autoImplicit false

open Text

namespace Section

/-- The section that advice belongs in. -/
def ofAdvice (a : Advice) : Section :=
  if a.target.isNone then
    if a.isProcessor then processors else removals
  else if a.isCompileOnly then compileOnly
  else if a.source.isNone then additions
  else changes

/-- Whether a section has something to list. -/
def isListed (advice : AdviceSet) (s : Section) : Bool := advice.toList.any s.holds

variable {s : Section} {a : Advice}

/-- The tests of the sections tell them apart, and no advice fails all of them. -/
theorem holds_iff : s.holds a = true ↔ s = ofAdvice a := by
  rw [ofAdvice]
  cases target : a.target with
  | none =>
    -- without a target there is none that is compile-only
    have compile : a.isCompileOnly = false := by
      rw [Advice.isCompileOnly, Advice.targetEndsWith, target, Option.any_none]
    cases processor : a.isProcessor <;> cases s <;>
      simp [holds, Advice.isRemove, Advice.isAnyRemove, Advice.isAdd, Advice.isAnyAdd,
        Advice.isAnyChange, target, compile, processor]
  | some x =>
    -- an annotation processor that is to go has no target
    have processor : a.isProcessor = false := by
      rw [Advice.isProcessor, target, Option.isNone_some, Bool.false_and]
    cases compile : a.isCompileOnly <;> cases source : a.source <;> cases s <;>
      simp [holds, Advice.isRemove, Advice.isAnyRemove, Advice.isAdd, Advice.isAnyAdd,
        Advice.isAnyChange, target, source, compile, processor]

/-- Sorting advice into the sections keeps every piece and doubles none. -/
theorem flatMap_filter_perm (l : List Advice) : (all.flatMap fun s => l.filter s.holds).Perm l := by
  refine List.perm_iff_count.2 fun a => ?_
  have here : ∀ s : Section, (l.filter s.holds).count a = if s = ofAdvice a then l.count a else 0 := by
    intro s
    split
    · rename_i same
      exact List.count_filter (holds_iff.2 same)
    · rename_i other
      refine List.count_eq_zero.2 fun mem => other (holds_iff.1 ?_)
      exact (List.mem_filter.1 mem).2
  rw [List.count_flatMap]
  simp only [Function.comp_def, here]
  cases ofAdvice a <;> simp [all]

end Section

/-! ## The blocks of a report -/

/-- The sections that list something, each with what it lists. -/
def blocks (advice : AdviceSet) : List (Section × List Advice) :=
  (Section.all.filter (Section.isListed advice)).map fun s => (s, advice.toList.filter s.holds)

variable {advice : AdviceSet}

theorem isListed_eq (s : Section) :
    Section.isListed advice s = !(advice.toList.filter s.holds).isEmpty := by
  rw [Bool.eq_iff_iff, Bool.not_eq_true', Section.isListed, List.any_eq_true,
    List.isEmpty_eq_false_iff_exists_mem]
  simp only [List.mem_filter]

/-- Only sections that list nothing are left out. -/
theorem flatMap_snd_blocks :
    (blocks advice).flatMap Prod.snd = Section.all.flatMap fun s => advice.toList.filter s.holds := by
  rw [blocks, List.flatMap_map]
  induction Section.all with
  | nil => rfl
  | cons s rest ih =>
    rw [List.filter_cons, isListed_eq]
    cases listed : advice.toList.filter s.holds with
    | nil => simpa [listed] using ih
    | cons a l => simpa [listed] using ih

/-- The lines on advice are those of the blocks. -/
theorem filter_sectionLines :
    (Section.all.map (sectionLines advice)).filter (!·.isEmpty) =
      (blocks advice).map fun b => heading b.1.title :: b.2.map line := by
  rw [blocks, List.map_map]
  induction Section.all with
  | nil => rfl
  | cons s rest ih =>
    rw [List.map_cons, List.filter_cons, List.filter_cons, isListed_eq]
    cases listed : advice.toList.filter s.holds with
    | nil => simpa [sectionLines, listed] using ih
    | cons a l => simpa [sectionLines, listed] using ih

/-- Separated blocks in print have an empty line between them. -/
theorem render_separated (colors : Bool) (l : List (List StyledText)) :
    (unlines (separated l)).render colors =
      joined "\n" (l.map fun block => (unlines block).render colors) := by
  match l with
  | [] => rfl
  | [block] => rfl
  | block :: next :: rest =>
    calc (unlines (separated (block :: next :: rest))).render colors
      _ = (unlines (block ++ [] :: separated (next :: rest))).render colors := rfl
      _ = (unlines block).render colors ++ "\n" ++
            (unlines (separated (next :: rest))).render colors := by
        rw [unlines_append, unlines_cons, List.nil_append, StyledText.render_append,
          StyledText.render_cons, ← String.append_assoc]
        rfl
      _ = joined "\n" ((block :: next :: rest).map fun block => (unlines block).render colors) := by
        rw [render_separated colors (next :: rest)]
        rfl

/-- A report on a module with advice has a block for each section that holds some: its heading,
and a line for each piece that it lists, in the order of the advice. Together the blocks list
every piece of advice, and none twice. -/
theorem text_lists (m : ModuleAdvice) (some : m.advice ≠ ∅) :
    ∃ listed : List (Section × List Advice),
      (∀ colors, (text false m).render colors = joined "\n" (listed.map fun b =>
        (unlines (heading b.1.title :: b.2.map line)).render colors)) ∧
      listed.map Prod.fst = Section.all.filter (fun s => ∃ a ∈ m.advice, s.holds a) ∧
      (∀ b ∈ listed, b.2.Sublist m.advice.toList ∧ ∀ a ∈ b.2, b.1.holds a) ∧
      (listed.flatMap Prod.snd).Perm m.advice.toList ∧ (listed.flatMap Prod.snd).Nodup := by
  have notEmpty : m.advice.isEmpty = false := by
    rw [← Bool.not_eq_true]
    intro none
    refine some (OrderedSet.ext fun a => ?_)
    rw [OrderedSet.mem_def, List.isEmpty_iff.1 none]
    rfl
  refine ⟨blocks m.advice, fun colors => ?_, ?_, fun b mem => ?_, ?_, ?_⟩
  · rw [text, adviceLines, if_neg (by simp [notEmpty]), filter_sectionLines, if_neg Bool.false_ne_true,
      List.append_nil, render_separated, List.map_map]
    rfl
  · rw [blocks, List.map_map, Function.comp_def, List.map_id']
    refine List.filter_congr fun s _ => ?_
    rw [Section.isListed, Bool.eq_iff_iff, List.any_eq_true, decide_eq_true_eq]
    rfl
  · obtain ⟨s, -, rfl⟩ := List.mem_map.1 mem
    exact ⟨List.filter_sublist, fun a listed => (List.mem_filter.1 listed).2⟩
  · rw [flatMap_snd_blocks]
    exact Section.flatMap_filter_perm _
  · rw [flatMap_snd_blocks]
    exact (Section.flatMap_filter_perm _).nodup_iff.2 (nodup_of_ascending m.advice.ascending)

/-- Advice of every sort on one library: to drop an annotation processor, to declare and to move
under names in another case, and a piece that asks for nothing. -/
def assorted : ModuleAdvice where
  project := { kind := .project, identifier := ":app" }
  advice := .ofList [
    .remove (.flat "a") "KAPT", .add (.flat "a") "debugCompileonly",
    { coordinates := .flat "a", source := some "compileOnly", target := some "runtimeOnly" },
    { coordinates := .flat "a" }]
  filtered := ∅

/-- Four sections are headed, none for additions, and four lines are listed. -/
theorem text_lists_assorted :
    assorted.advice ≠ ∅ ∧ ∃ listed : List (Section × List Advice),
      (text false assorted).render false = joined "\n" (listed.map fun b =>
        (unlines (heading b.1.title :: b.2.map line)).render false) ∧
      listed.map Prod.fst = [.removals, .changes, .compileOnly, .processors] ∧
      (listed.flatMap Prod.snd).length = 4 := by
  have some : assorted.advice ≠ ∅ := by decide
  obtain ⟨listed, printed, headed, -, lines, -⟩ := text_lists assorted some
  exact ⟨some, listed, printed false, headed.trans (by decide), lines.length_eq.trans (by decide)⟩

end ClasspathAdvice.Report
