import ClasspathAdvice.Advice
import Mathlib.Data.List.Nodup

/-!
# The order of advice

Advice is ordered by its parts, coordinates first, and coordinates by theirs, down to the
attributes that they select. No part is left out, so only equal advice ties, and a set of advice
keeps apart whatever differs anywhere and lists it once (`order_lawful`).
-/

namespace ClasspathAdvice
set_option autoImplicit false

/-- The laws of a total order that ties equals only. -/
structure LawfulOrder {α : Type} (cmp : α → α → Ordering) : Prop where
  total : ∀ a b, (cmp a b).isLE ∨ (cmp b a).isLE
  antisymm : ∀ a b, (cmp a b).isLE → (cmp b a).isLE → a = b
  trans : ∀ a b c, (cmp a b).isLE → (cmp b c).isLE → (cmp a c).isLE
  /-- The converse question has the converse answer. -/
  swap : ∀ a b, cmp b a = (cmp a b).swap
  eq_iff : ∀ a b, cmp a b = .eq ↔ a = b

theorem LawfulOrder.of_cmp {α : Type} (cmp : α → α → Ordering) [Std.TransCmp cmp]
    [Std.LawfulEqCmp cmp] : LawfulOrder cmp where
  total := isLE_total
  antisymm _ _ ab ba := Std.LawfulEqCmp.eq_of_compare (Std.OrientedCmp.isLE_antisymm ab ba)
  trans _ _ _ := Std.TransCmp.isLE_trans
  swap _ _ := Std.OrientedCmp.eq_swap
  eq_iff _ _ := Std.LawfulEqCmp.compare_eq_iff_eq

namespace OrderedSet

variable {α : Type} [Ord α] [Std.TransOrd α] [Std.LawfulEqOrd α] [DecidableEq α]

/-- What is inserted, however often and in whatever order, is listed once. -/
theorem count_ofList (inserted : List α) (a : α) :
    (ofList inserted).toList.count a = if a ∈ inserted then 1 else 0 := by
  have once : (ofList inserted).toList.Nodup := nodup_of_ascending (ofList inserted).ascending
  have listed : a ∈ (ofList inserted).toList ↔ a ∈ inserted := mem_ofList
  split
  · rename_i mem
    exact List.count_eq_one_of_mem once (listed.2 mem)
  · rename_i other
    exact List.count_eq_zero.2 (mt listed.1 other)

end OrderedSet

namespace Advice

/-- Advice and coordinates are totally ordered, and neither order ties what is not equal. So a set
into which advice is inserted, piece by piece, lists each piece that was inserted once and nothing
else. -/
theorem order_lawful :
    LawfulOrder Advice.order ∧ LawfulOrder Coordinates.order ∧
      ∀ (inserted : List Advice) (a : Advice),
        (inserted.foldl (fun s b => s.insert b) (∅ : AdviceSet)).toList.count a =
          if a ∈ inserted then 1 else 0 := by
  refine ⟨?_, ?_, OrderedSet.count_ofList⟩
  · have : Std.TransCmp Advice.order := inferInstanceAs (Std.TransOrd Advice)
    have : Std.LawfulEqCmp Advice.order := inferInstanceAs (Std.LawfulEqOrd Advice)
    exact .of_cmp Advice.order
  · have : Std.TransCmp Coordinates.order := inferInstanceAs (Std.TransOrd Coordinates)
    have : Std.LawfulEqCmp Coordinates.order := inferInstanceAs (Std.LawfulEqOrd Coordinates)
    exact .of_cmp Coordinates.order

/-- Advice that shares its coordinates and a configuration is kept apart and listed once, what has
no target first and then what has no source. -/
example :
    let lib := Coordinates.library "g:lib" "1.0"
    let moved : Advice := { coordinates := lib, source := some "implementation", target := some "api" }
    let removed := remove lib "implementation"
    let added := add lib "api"
    (OrderedSet.ofList [moved, added, moved, removed, added]).toList = [removed, added, moved] := by
  decide

end Advice

end ClasspathAdvice
