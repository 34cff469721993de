import ClasspathAdvice.Ordered.Set

/-!
# Finite maps as ascending lists of entries

A map from an ordered type is kept as the list of its entries with strictly
ascending keys, so equal maps are equal values and are listed in the order of
their keys. Inserting at a key that is present replaces its value.
-/

namespace ClasspathAdvice
set_option autoImplicit false

universe u v w

/-- A finite map, as the list of its entries in strictly ascending order of keys. -/
structure OrderedMap (κ : Type u) (ν : Type v) [Ord κ] where
  entries : List (κ × ν)
  ascending : (entries.map Prod.fst).Pairwise Before

namespace OrderedMap

variable {κ : Type u} {ν : Type v} {μ : Type w} [Ord κ]

instance [DecidableEq κ] [DecidableEq ν] : DecidableEq (OrderedMap κ ν) := fun s t =>
  decidable_of_iff (s.entries = t.entries) (by cases s; cases t; simp)

theorem ascending_nil : (([] : List (κ × ν)).map Prod.fst).Pairwise Before := .nil

/-- The map without entries. -/
def empty : OrderedMap κ ν := ⟨[], ascending_nil⟩

instance : EmptyCollection (OrderedMap κ ν) := ⟨empty⟩
instance : Inhabited (OrderedMap κ ν) := ⟨empty⟩

/-- Whether the map has no entries. -/
def isEmpty (m : OrderedMap κ ν) : Bool := m.entries.isEmpty

/-- The keys in ascending order. -/
def keys (m : OrderedMap κ ν) : List κ := m.entries.map Prod.fst

/-- The value at a key. -/
def get? [DecidableEq κ] (m : OrderedMap κ ν) (k : κ) : Option ν :=
  (m.entries.find? (fun e => decide (e.1 = k))).map Prod.snd

/-- A map has one value at each of its keys. -/
theorem get?_eq_some_iff [DecidableEq κ] [Std.TransOrd κ] {m : OrderedMap κ ν} {k : κ} {v : ν} :
    m.get? k = some v ↔ (k, v) ∈ m.entries := by
  obtain ⟨entries, ascending⟩ := m
  simp only [get?]
  induction entries with
  | nil => simp
  | cons e rest ih =>
    obtain ⟨first, later⟩ := List.pairwise_cons.1 ascending
    rw [List.find?_cons, List.mem_cons]
    by_cases here : e.1 = k
    · subst here
      have absent : (e.1, v) ∉ rest := by
        intro mem
        exact Before.irrefl _ (first e.1 (List.mem_map.2 ⟨_, mem, rfl⟩))
      simp [absent, Prod.ext_iff, eq_comm]
    · have other : (k, v) ≠ e := by
        rintro rfl
        exact here rfl
      simp only [here, decide_false, other, false_or]
      exact ih later

theorem get?_eq_none_iff [DecidableEq κ] {m : OrderedMap κ ν} {k : κ} :
    m.get? k = none ↔ k ∉ m.keys := by
  simp only [get?, keys, Option.map_eq_none_iff, List.find?_eq_none, decide_eq_true_eq, List.mem_map,
    not_exists, not_and]

/-- Maps that answer alike are the same: their entries are, and these stand in one order. -/
theorem ext_get? [DecidableEq κ] [Std.TransOrd κ] {m n : OrderedMap κ ν}
    (h : ∀ k, m.get? k = n.get? k) : m = n := by
  have mem : ∀ e, e ∈ m.entries ↔ e ∈ n.entries := by
    intro e
    rw [← get?_eq_some_iff, ← get?_eq_some_iff, h]
  have ordered : ∀ m : OrderedMap κ ν, m.entries.Pairwise fun e f => Before e.1 f.1 :=
    fun m => List.pairwise_map.1 m.ascending
  have nodup : ∀ m : OrderedMap κ ν, m.entries.Nodup := by
    intro m
    refine (ordered m).imp ?_
    rintro e _ before rfl
    exact Before.irrefl _ before
  have perm := (List.perm_ext_iff_of_nodup (nodup m) (nodup n)).2 mem
  have same : m.entries = n.entries :=
    perm.eq_of_pairwise (fun _ _ _ _ before after => absurd after before.asymm) (ordered m) (ordered n)
  cases m
  cases n
  simpa using same

/-- Changes the value at `k`, or the absence of one, to what `f` makes of it. -/
def alterIn (k : κ) (f : Option ν → ν) : List (κ × ν) → List (κ × ν)
  | [] => [(k, f none)]
  | (k', v) :: rest =>
    match compare k k' with
    | .lt => (k, f none) :: (k', v) :: rest
    | .eq => (k', f (some v)) :: rest
    | .gt => (k', v) :: alterIn k f rest

theorem keys_alterIn (k : κ) (f : Option ν → ν) (l : List (κ × ν)) :
    (alterIn k f l).map Prod.fst = OrderedSet.insertInto k (l.map Prod.fst) := by
  induction l with
  | nil => rfl
  | cons e rest ih =>
    simp only [alterIn, List.map_cons, OrderedSet.insertInto]
    split <;> simp_all

/-- The map whose value at `k` is what `f` makes of the present one. -/
def alter [Std.TransOrd κ] (m : OrderedMap κ ν) (k : κ) (f : Option ν → ν) : OrderedMap κ ν :=
  ⟨alterIn k f m.entries, by
    rw [keys_alterIn]; exact OrderedSet.insertInto_ascending k m.ascending⟩

/-- Only the answer at the key is changed. -/
theorem get?_alter [DecidableEq κ] [Std.TransOrd κ] [Std.LawfulEqOrd κ] {m : OrderedMap κ ν}
    {k x : κ} {f : Option ν → ν} :
    (m.alter k f).get? x = if x = k then some (f (m.get? k)) else m.get? x := by
  obtain ⟨entries, ascending⟩ := m
  simp only [alter, get?]
  induction entries with
  | nil =>
    by_cases same : x = k
    · simp [alterIn, same]
    · simp [alterIn, same, Ne.symm same]
  | cons e rest ih =>
    obtain ⟨first, later⟩ := List.pairwise_cons.1 ascending
    have ih := ih later
    simp only [alterIn]
    split
    · rename_i before
      -- the key is ahead of all that are there
      have absent : ∀ d ∈ e :: rest, d.1 ≠ k := by
        rintro d mem rfl
        rcases List.mem_cons.1 mem with rfl | mem
        · exact Before.irrefl _ before
        · exact Before.asymm before (first _ (List.mem_map_of_mem mem))
      have none : (e :: rest).find? (fun d => decide (d.1 = k)) = none := by
        simpa using absent
      by_cases same : x = k
      · simp [same, none]
      · rw [List.find?_cons]
        simp [same, Ne.symm same]
    · rename_i eq
      have here : k = e.1 := Std.LawfulEqCmp.eq_of_compare eq
      by_cases same : x = e.1
      · simp [here, same]
      · simp [here, same, Ne.symm same]
    · rename_i after
      have ne : e.1 ≠ k := by
        rintro rfl
        exact absurd (after.symm.trans Std.ReflCmp.compare_self) (by decide)
      by_cases here : e.1 = x
      · simp [here, here ▸ ne]
      · simp [here, ne, ih]

/-- The map with `v` at `k`. -/
def insert [Std.TransOrd κ] (m : OrderedMap κ ν) (k : κ) (v : ν) : OrderedMap κ ν :=
  m.alter k (fun _ => v)

/-- The map of a list of entries; of two entries with one key the later stays. -/
def ofList [Std.TransOrd κ] (l : List (κ × ν)) : OrderedMap κ ν :=
  l.foldl (fun m e => m.insert e.1 e.2) ∅

/-- Applies a function to every value. -/
def mapValues (f : κ → ν → μ) (m : OrderedMap κ ν) : OrderedMap κ μ :=
  ⟨m.entries.map (fun e => (e.1, f e.1 e.2)), by
    have := m.ascending
    simpa [List.map_map, Function.comp_def] using this⟩

theorem get?_mapValues [DecidableEq κ] {f : κ → ν → μ} {m : OrderedMap κ ν} {k : κ} :
    (m.mapValues f).get? k = (m.get? k).map (f k) := by
  simp only [get?, mapValues, List.find?_map, Option.map_map]
  cases found : m.entries.find? (fun e => decide (e.1 = k)) with
  | none => simp [Function.comp_def, found]
  | some e =>
    have at_k : e.1 = k := by simpa using List.find?_some found
    simp [Function.comp_def, found, at_k]

end OrderedMap

end ClasspathAdvice
