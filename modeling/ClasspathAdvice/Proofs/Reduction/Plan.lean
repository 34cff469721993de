import ClasspathAdvice.Advice.Reduction
import Mathlib.Data.List.Basic

/-!
# The plan behind the advice

`plan` says in steps what is to become of the declarations of a dependency: move one, drop
one, declare one more. A move from a configuration to itself asks for nothing. The reduction
never fails on a step and gives, before additions and removals are merged, the advice of the
plan (`raw_consolidate`).
-/

namespace ClasspathAdvice.Reduction
set_option autoImplicit false

/-- One thing to do about the declarations of a dependency. -/
inductive Step where
  | move (source target : String)
  | drop (source : String)
  | declare (target : String)
  deriving DecidableEq

/-- The advice to take a step. -/
def Step.advice? (c : Coordinates) : Step → Option Advice
  | move source target =>
    if source = target then none
    else some { coordinates := c, source := some source, target := some target }
  | drop source => some (.remove c source)
  | declare target => some (.add c target)

/-- The declaration may stay as it is when all usages agree on a bucket and there is no other. -/
def Trusted (d : Declaration) (b : Bucket) : Prop :=
  d.bucket = b ∨ d.bucket = .compileOnly ∨ (d.bucket = .runtimeOnly ∧ b.isUsed) ∨ b = .runtimeOnly

instance (d : Declaration) (b : Bucket) : Decidable (Trusted d b) :=
  inferInstanceAs (Decidable (_ ∨ _))

/-- What to do about several declarations when all usages agree on a bucket. -/
def consolidatingSteps (b : Bucket) (declared : List Declaration) : List Step :=
  if !b.isUsed then declared.map (.drop ·.configuration)
  else if declared.any Declaration.isMain then
    (declared.filter (!·.isMain)).map (.drop ·.configuration)
  else declared.map fun d => .move d.configuration (b.configuration d.variant)

/-- What to do when all usages agree on a bucket. -/
def agreedPlan (b : Bucket) : List Declaration → List Step
  | [] => if b = .api ∨ b = .implementation then [.declare b.value] else []
  | [d] =>
    if Trusted d b then []
    else if b.isUsed then [.move d.configuration (b.configuration d.variant)]
    else [.drop d.configuration]
  | declared => consolidatingSteps b declared

/-- What to do about a declaration and the usage of its variant. -/
def pairStep (d : Declaration) (u : Usage) : Step :=
  if u.isUsed then .move d.configuration u.configuration else .drop d.configuration

/-- What to do about a usage whose variant has no declaration left. -/
def leftoverStep (main : Option Declaration) (u : Usage) : Step :=
  match main with
  | some d => .move d.configuration u.configuration
  | none => .declare u.configuration

/-- The declaration of the main variant that no usage was paired with. -/
def Pairing.main? (p : Pairing) : Option Declaration := p.unpaired.find? Declaration.isMain

/-- The usages that no declaration was paired with. -/
def Pairing.leftover (p : Pairing) : List Usage := p.remaining.filter Usage.isUsed

/-- What to do when usages differ, with several declarations. -/
def Pairing.steps (p : Pairing) : List Step :=
  p.pairs.map (fun e => pairStep e.1 e.2) ++ p.leftover.map (leftoverStep p.main?)

/-- What to do when usages differ. -/
def differingPlan (usages : List Usage) : List Declaration → List Step
  | [] => (usages.filter Usage.isUsed).map (.declare ·.configuration)
  | [d] => (usages.filter Usage.isUsed).map (.move d.configuration ·.configuration)
  | declared => (pair declared usages).steps

/-- The bucket of the first usage, which all have if they agree. -/
def sharedBucket (usages : List Usage) : Bucket := (usages.head?.map (·.bucket)).getD .unused

/-- What to do about the declarations of a dependency. -/
def plan (declared : List Declaration) (usages : List Usage) : List Step :=
  if agree usages then agreedPlan (sharedBucket usages) declared
  else differingPlan (Usage.sorted usages) declared

variable {c : Coordinates} {d : Declaration} {declared : List Declaration} {u : Usage}
  {usages : List Usage} {b : Bucket}

/-- Usages agree if there is one bucket for all. -/
theorem agree_iff : agree usages ↔ ∃ b, ∀ u ∈ usages, u.bucket = b := by
  match usages with
  | [] => simp [agree]
  | u :: rest =>
    constructor
    · intro h
      exact ⟨u.bucket, by simpa [agree] using h⟩
    · rintro ⟨b, all⟩
      have first : u.bucket = b := all u List.mem_cons_self
      rw [agree, List.all_eq_true]
      intro w mem
      rw [all w (List.mem_cons_of_mem _ mem), first, beq_self_eq_true]

theorem sharedBucket_eq (all : ∀ u ∈ usages, u.bucket = b) (some : usages ≠ []) :
    sharedBucket usages = b := by
  obtain ⟨u, rest, rfl⟩ := List.exists_cons_of_ne_nil some
  exact all u List.mem_cons_self

/-! ## The advice of the plan -/

theorem moveTo_eq (target : String) :
    moveTo c d target = .ok ([Step.move d.configuration target].filterMap (Step.advice? c)) := by
  unfold moveTo
  by_cases h : d.configuration = target <;> simp [h, Step.advice?, Advice.change, Except.map]

/-- No step fails, so none of several does. -/
theorem gather_eq {α : Type} {l : List α} {step : α → Except AdviceError (List Advice)}
    {f : α → List Step} (h : ∀ a ∈ l, step a = .ok ((f a).filterMap (Step.advice? c))) :
    gather l step = .ok ((l.flatMap f).filterMap (Step.advice? c)) := by
  have all : l.mapM step = .ok (l.map fun a => (f a).filterMap (Step.advice? c)) := by
    induction l with
    | nil => rfl
    | cons a l ih =>
      rw [List.mapM_cons, h a List.mem_cons_self, ih fun b hb => h b (List.mem_cons_of_mem _ hb)]
      rfl
  unfold gather
  rw [all, List.filterMap_flatMap, List.flatMap_def]
  rfl

theorem declaredOnceSingle_eq :
    declaredOnceSingle c d u =
      .ok ((agreedPlan u.bucket [d]).filterMap (Step.advice? c)) := by
  unfold declaredOnceSingle agreedPlan Trusted
  by_cases same : d.bucket = u.bucket
  · simp [same]
  by_cases compileOnly : d.bucket = .compileOnly
  · simp [compileOnly]
  by_cases runtimeOnly : d.bucket = .runtimeOnly ∧ u.bucket.isUsed
  · simp [runtimeOnly, Usage.isUsed]
  simp only [same, compileOnly, runtimeOnly, Usage.isUsed, if_false, false_or]
  cases hb : u.bucket with
  | unused => rfl
  | runtimeOnly => rfl
  | api | implementation | compileOnly => exact moveTo_eq _

theorem declaredManySingle_eq :
    declaredManySingle c declared u =
      .ok ((consolidatingSteps u.bucket declared).filterMap (Step.advice? c)) := by
  have steps : consolidatingSteps u.bucket declared = declared.flatMap fun d =>
      if !u.isUsed then [Step.drop d.configuration]
      else if d.isMain then []
      else if declared.any Declaration.isMain then [Step.drop d.configuration]
      else [Step.move d.configuration (u.bucket.configuration d.variant)] := by
    unfold consolidatingSteps Usage.isUsed
    by_cases used : u.bucket.isUsed = true
    · by_cases main : declared.any Declaration.isMain = true
      · simp only [used, main, if_true, Bool.not_true, Bool.false_eq_true, if_false]
        rw [← List.filterMap_eq_map, List.filterMap_filter, List.filterMap_eq_flatMap_toList]
        congr 1
        funext d
        cases d.isMain <;> rfl
      · have none : ∀ d ∈ declared, d.isMain = false := by simpa using main
        simp only [used, main, Bool.not_true, Bool.false_eq_true, if_false]
        rw [← List.flatMap_singleton' (declared.map _), List.flatMap_map]
        exact List.flatMap_congr fun d hd => by simp [none d hd]
    · have unused : u.bucket.isUsed = false := by simpa using used
      simp only [unused, Bool.not_false, if_true]
      rw [← List.flatMap_singleton' (declared.map _), List.flatMap_map]
  unfold declaredManySingle
  rw [steps]
  apply gather_eq
  intro d _
  split
  · rfl
  · split
    · rfl
    · split
      · rfl
      · exact moveTo_eq _

theorem declaredManyMany_eq :
    declaredManyMany c declared usages =
      .ok ((pair declared usages).steps.filterMap (Step.advice? c)) := by
  let p := pair declared usages
  let follow (e : Declaration × Usage) : Except AdviceError (List Advice) :=
    if e.2.isUsed then moveTo c e.1 e.2.configuration else .ok (drop c e.1)
  let place (u : Usage) : Except AdviceError (List Advice) :=
    match p.main? with
    | some d => moveTo c d u.configuration
    | none => .ok [Advice.add c u.configuration]
  have paired : gather p.pairs follow =
      .ok ((p.pairs.flatMap fun e => [pairStep e.1 e.2]).filterMap (Step.advice? c)) := by
    apply gather_eq
    rintro ⟨d, u⟩ -
    simp only [follow, pairStep]
    cases u.isUsed with
    | true => exact moveTo_eq _
    | false => rfl
  have others : gather p.leftover place =
      .ok ((p.leftover.flatMap fun u => [leftoverStep p.main? u]).filterMap (Step.advice? c)) := by
    apply gather_eq
    intro u _
    simp only [place, leftoverStep]
    cases p.main? with
    | some d => exact moveTo_eq _
    | none => rfl
  calc declaredManyMany c declared usages
    _ = (gather p.pairs follow).bind fun paired =>
          (gather p.leftover place).bind fun others => .ok (paired ++ others) := rfl
    _ = .ok (p.steps.filterMap (Step.advice? c)) := by
      rw [paired, others]
      show Except.ok _ = Except.ok _
      rw [Pairing.steps, List.filterMap_append, ← List.flatMap_singleton' (p.pairs.map _),
        ← List.flatMap_singleton' (p.leftover.map _), List.flatMap_map, List.flatMap_map]

theorem declaredOnceMany_eq :
    declaredOnceMany c d usages =
      .ok ((differingPlan usages [d]).filterMap (Step.advice? c)) := by
  have moved : declaredOnceMany c d usages = _ :=
    @gather_eq c _ (usages.filter Usage.isUsed) _
      (fun u => [Step.move d.configuration u.configuration]) fun u _ => moveTo_eq _
  rw [moved]
  simp only [differingPlan]
  rw [← List.flatMap_singleton' (List.map _ _), List.flatMap_map]

/-- Usages that differ are two at least. -/
theorem sorted_of_differ (differ : agree usages = false) :
    ∃ u v rest, Usage.sorted usages = u :: v :: rest := by
  have length : (Usage.sorted usages).length = usages.length := List.length_mergeSort _
  match usages, differ with
  | [], differ => simp [agree] at differ
  | [u], differ => simp [agree] at differ
  | u :: v :: rest, _ =>
    match h : Usage.sorted (u :: v :: rest) with
    | [] => simp [h] at length
    | [_] => simp [h] at length
    | a :: b :: l => exact ⟨a, b, l, rfl⟩

/-- The reduction gives the advice of the plan. -/
theorem raw_consolidate (some : usages ≠ []) :
    raw c declared (consolidate usages) = .ok ((plan declared usages).filterMap (Step.advice? c)) := by
  obtain ⟨u, rest, rfl⟩ := List.exists_cons_of_ne_nil some
  unfold consolidate plan
  by_cases h : agree (u :: rest) = true
  · simp only [h, if_true]
    show raw c declared [Usage.ofReasons .main u.bucket _] = .ok ((agreedPlan u.bucket declared).filterMap _)
    match declared with
    | [] => cases hb : u.bucket <;> rfl
    | [d] => exact declaredOnceSingle_eq
    | d :: e :: rest => exact declaredManySingle_eq
  · have differ : agree (u :: rest) = false := by simpa using h
    obtain ⟨v, w, l, sorted⟩ := sorted_of_differ differ
    simp only [if_neg h, sorted]
    match declared with
    | [] =>
      show Except.ok (undeclaredMany c (v :: w :: l)) = _
      simp only [undeclaredMany, differingPlan]
      rw [List.filterMap_map, ← List.filterMap_eq_map]
      rfl
    | [d] => exact declaredOnceMany_eq
    | d :: e :: rest => exact declaredManyMany_eq

end ClasspathAdvice.Reduction
