import ClasspathAdvice.Declaration.Bucket

/-!
# Declarations of dependencies

A declaration puts the dependency with some identifier on a configuration. Its bucket
is the one the configuration name ends with.
-/

namespace ClasspathAdvice
set_option autoImplicit false

/-- A dependency declared on a configuration. -/
structure Declaration where
  identifier : String
  configuration : String
  variant : Variant
  bucket : Bucket
  bucket_eq : Bucket.ofConfiguration configuration = .ok bucket
  deriving DecidableEq, Repr

namespace Declaration

/-- A declaration in a known variant. -/
def ofVariant (identifier configuration : String) (variant : Variant) :
    Except UnknownConfiguration Declaration :=
  match bucket_eq : Bucket.ofConfiguration configuration with
  | .ok bucket => .ok { identifier, configuration, variant, bucket, bucket_eq }
  | .error e => .error e

/-- A declaration whose variant is read off its configuration name. -/
def infer (identifier configuration : String) (variants : List Variant) :
    Except UnknownConfiguration Declaration :=
  ofVariant identifier configuration (Variant.ofConfiguration configuration variants)

/-- Whether the declaration is in the main variant. -/
def isMain (d : Declaration) : Bool := d.variant.isMain

/-- The declaration as it stands in a build script. -/
def text (d : Declaration) : String := d.configuration ++ "('" ++ d.identifier ++ "')"

/-- By identifier, configuration, variant and bucket. -/
def order : Declaration → Declaration → Ordering :=
  compareLex (compareOn identifier) <| compareLex (compareOn configuration) <|
    compareLex (compareOn (·.variant.name)) (compareOn (·.bucket.rank))

instance : Ord Declaration := ⟨order⟩

instance : Std.TransOrd Declaration := by
  unfold Std.TransOrd
  change Std.TransCmp order
  unfold order
  infer_instance

instance : Std.LawfulEqOrd Declaration where
  eq_of_compare {a b} h := by
    replace h : order a b = .eq := h
    simp only [order, compareLex, compareOn, Ordering.then_eq_eq] at h
    obtain ⟨hi, hc, hv, hb⟩ := h
    have hi := Std.LawfulEqCmp.eq_of_compare hi
    have hc := Std.LawfulEqCmp.eq_of_compare hc
    have hv := Std.LawfulEqCmp.eq_of_compare hv
    have hb := Bucket.rank_inj (Std.LawfulEqCmp.eq_of_compare hb)
    cases a with | mk ia ca va ba ea => cases b with | mk ib cb vb bb eb =>
    cases va; cases vb
    simp_all

end Declaration

end ClasspathAdvice
