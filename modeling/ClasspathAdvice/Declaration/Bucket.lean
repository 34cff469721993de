import ClasspathAdvice.Text.Split
import ClasspathAdvice.Text.Suffix
import ClasspathAdvice.Text.Uppercase

/-!
# Variants, buckets and the names of configurations

A variant of the build (`main`, `debug`, …) and a bucket (`api`, `implementation`, …)
make the name of a configuration: the bucket alone in `main`, elsewhere the variant
followed by the capitalised bucket. `Bucket.ofConfiguration` recovers the bucket from
the end of a name, `Variant.ofConfiguration` the variant from its start.
-/

namespace ClasspathAdvice
set_option autoImplicit false

/-- A variant of the build. -/
structure Variant where
  name : String
  deriving DecidableEq, Repr

namespace Variant

/-- The variant that every build has. -/
def main : Variant := ⟨"main"⟩

instance : Inhabited Variant := ⟨main⟩

/-- The given variants; `main` alone if there are none. -/
def orMain (variants : List Variant) : List Variant :=
  if variants.isEmpty then [main] else variants

/-- Whether this is the main variant. -/
def isMain (v : Variant) : Bool := v == main

/-- The name of the configuration `base` in this variant. -/
def configuration (v : Variant) (base : String) : String :=
  if v.isMain then base else v.name ++ String.ofList (Text.capitalize base.toList)

/-- Whether a configuration name is this variant's name followed by an upper-case letter. -/
def qualifies (v : Variant) (configuration : String) : Bool :=
  let name := v.name.toList
  name.isPrefixOf configuration.toList &&
    ((configuration.toList.drop name.length).head?.any Text.isUppercase)

/-- The first of the variants, `main` aside, that a configuration name starts with; `main`
if there is none. -/
def ofConfiguration (configuration : String) (variants : List Variant) : Variant :=
  (variants.find? (fun v => !v.isMain && v.qualifies configuration)).getD main

end Variant

/-- Where a dependency belongs. -/
inductive Bucket where
  | api
  | implementation
  | compileOnly
  | runtimeOnly
  | unused
  deriving DecidableEq, Repr, Inhabited

/-- A configuration name that ends like no bucket. -/
structure UnknownConfiguration where
  configuration : String
  deriving DecidableEq

/-- The wording of the error. -/
def UnknownConfiguration.message (e : UnknownConfiguration) : String :=
  "unknown configuration '" ++ e.configuration ++
    "': not an api, implementation, compileOnly or runtimeOnly bucket"

namespace Bucket

/-- The place of a bucket in the order of buckets. -/
def rank : Bucket → Nat
  | api => 0
  | implementation => 1
  | compileOnly => 2
  | runtimeOnly => 3
  | unused => 4

theorem rank_inj {a b : Bucket} (h : a.rank = b.rank) : a = b := by
  revert h; cases a <;> cases b <;> decide

/-- The name of the bucket in configurations. -/
def value : Bucket → String
  | api => "api"
  | implementation => "implementation"
  | compileOnly => "compileOnly"
  | runtimeOnly => "runtimeOnly"
  | unused => "n/a"

/-- Whether a dependency in this bucket is used at all. -/
def isUsed (b : Bucket) : Bool := b != unused

/-- The bucket that a configuration name ends with, ASCII case aside. `compileOnlyApi` and
`providedCompile` count as compile-only. -/
def ofConfiguration (configuration : String) : Except UnknownConfiguration Bucket :=
  if ["compileOnly", "compileOnlyApi", "providedCompile"].any (Text.endsWith configuration) then
    .ok compileOnly
  else
    match [api, implementation, runtimeOnly].find? (Text.endsWith configuration ·.value) with
    | some bucket => .ok bucket
    | none => .error ⟨configuration⟩

theorem ofConfiguration_api : ofConfiguration "api" = .ok api := rfl

theorem ofConfiguration_implementation :
    ofConfiguration "implementation" = .ok implementation := rfl

theorem ofConfiguration_compileOnly : ofConfiguration "compileOnly" = .ok compileOnly := rfl

/-- No configuration is for what is not used. -/
theorem isUsed_of_ofConfiguration {configuration : String} {b : Bucket}
    (h : ofConfiguration configuration = .ok b) : b.isUsed = true := by
  unfold ofConfiguration at h
  split at h
  · obtain rfl : compileOnly = b := Except.ok.inj h
    rfl
  · split at h
    · rename_i bucket found
      obtain rfl : bucket = b := Except.ok.inj h
      have used : ∀ known ∈ [api, implementation, runtimeOnly], known.isUsed = true := by decide
      exact used bucket (List.mem_of_find?_eq_some found)
    · cases h

/-- The name of this bucket's configuration in a variant. -/
def configuration (b : Bucket) (v : Variant) : String := v.configuration b.value

end Bucket

end ClasspathAdvice
