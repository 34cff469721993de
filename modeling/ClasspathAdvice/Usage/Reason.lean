import ClasspathAdvice.Declaration.Bucket

/-!
# Reasons for a usage

Each observation of how a dependency is used carries reasons. A reason has a summary
in words and implies a configuration; markers record that nothing was observed.
-/

namespace ClasspathAdvice
set_option autoImplicit false

/-- Where an annotation processor's annotations were found. -/
inductive ProcessorSource where
  | imports
  | classes
  deriving DecidableEq, Repr

/-- The components of an Android manifest. -/
inductive AndroidComponent where
  | activity
  | provider
  | receiver
  | service
  deriving DecidableEq, Repr

/-- Why a dependency is used the way it is. -/
inductive Reason where
  /-- Classes are exposed in the ABI. -/
  | abi (classes : List String)
  | annotationProcessor (items : List String) (source : ProcessorSource) (isKapt : Bool)
  | binaryIncompatible (details : List String)
  | compileTimeAnnotations
  | constant (constants : List String)
  | implementation (classes : List String)
  /-- Super classes or interfaces of used classes. -/
  | implementationSuper (classes : List String)
  | annotated (classes : List String)
  /-- Classes referenced only from annotations that are invisible at run time. -/
  | invisiblyAnnotated (classes : List String)
  | imported (imports : List String)
  | testInstrumentationRunner (runner : String)
  | inlineMember (members : List String)
  | lintJar (registry : String)
  | nativeLibrary (files : List String)
  | resourceBySource (imports : List String)
  | resourceByResource (resources : List String)
  /-- Resources referenced only at run time. -/
  | resourceAtRuntime (resources : List String)
  | asset (assets : List String)
  | runtimeAndroid (component : AndroidComponent) (names : List String)
  | securityProvider (providers : List String)
  | serviceLoader (providers : List String)
  | typealias (classes : List String)
  | undeclared
  | unused
  | excluded
  deriving DecidableEq, Repr

/-- A noun in singular and plural. -/
structure Noun where
  singular : String
  plural : String

namespace Noun

def androidAsset : Noun := ⟨"asset", "assets"⟩
def androidResource : Noun := ⟨"resource", "resources"⟩
def testInstrumentationRunner : Noun :=
  ⟨"test instrumentation runner", "test instrumentation runners"⟩
def annotations : Noun := ⟨"annotation", "annotations"⟩
def classFile : Noun := ⟨"class", "classes"⟩
def constant : Noun := ⟨"constant", "constants"⟩
def inlineMember : Noun := ⟨"inline member", "inline members"⟩
def lintRegistry : Noun := ⟨"lint registry", "lint registries"⟩
def nativeBinary : Noun := ⟨"native binary", "native binaries"⟩
def securityProvider : Noun := ⟨"security provider", "security providers"⟩
def serviceLoader : Noun := ⟨"service loader", "service loaders"⟩
def typealias : Noun := ⟨"typealias", "typealiases"⟩

end Noun

/-- The noun for a component of an Android manifest. -/
def AndroidComponent.noun : AndroidComponent → Noun
  | activity => ⟨"Android Activity", "Android Activities"⟩
  | provider => ⟨"Android Provider", "Android Providers"⟩
  | receiver => ⟨"Android Receiver", "Android Receivers"⟩
  | service => ⟨"Android Service", "Android Services"⟩

namespace Reason

/-- Of a longer list of items only the first few are shown. -/
def shownItems : Nat := 5

/-- A verb, how many items of which sort there are, and the first of them. -/
def enumerate (verb : String) (noun : Noun) (items : List String) : String :=
  let count := items.length
  let head :=
    if count = 1 then verb ++ " 1 " ++ noun.singular ++ ": "
    else if count ≤ shownItems then verb ++ " " ++ toString count ++ " " ++ noun.plural ++ ": "
    else verb ++ " " ++ toString count ++ " " ++ noun.plural ++ ", " ++ toString shownItems ++
      " of which are shown: "
  head ++ Text.joined ", " (items.take shownItems)

/-- The configuration that the reason implies in the main variant. -/
def configuration : Reason → String
  | abi _ => "api"
  | annotationProcessor _ _ isKapt => if isKapt then "kapt" else "annotationProcessor"
  | compileTimeAnnotations | invisiblyAnnotated _ => "compileOnly"
  | annotated _ => "implementation, sometimes"
  | constant _ | implementation _ | implementationSuper _ | imported _ | inlineMember _ | lintJar _
  | resourceBySource _ | resourceByResource _ | typealias _ => "implementation"
  | testInstrumentationRunner _ | nativeLibrary _ | resourceAtRuntime _ | asset _
  | runtimeAndroid _ _ | securityProvider _ | serviceLoader _ => "runtimeOnly"
  | binaryIncompatible _ | undeclared | unused | excluded => "n/a"

/-- Whether absence is recorded rather than usage. -/
def isMarker : Reason → Bool
  | undeclared | unused | excluded => true
  | _ => false

/-- Whether the dependency provides compile-time annotations. -/
def isCompileTimeAnnotations : Reason → Bool
  | compileTimeAnnotations => true
  | _ => false

/-- Whether an annotation processor was observed. -/
def isAnnotationProcessor : Reason → Bool
  | annotationProcessor _ _ _ => true
  | _ => false

/-- The observation in words. -/
def summary : Reason → String
  | abi classes => enumerate "Exposes" .classFile classes
  | annotationProcessor items .imports _ => enumerate "Imports" .annotations items
  | annotationProcessor items .classes _ => enumerate "Uses" .annotations items
  | binaryIncompatible details =>
    "Is binary-incompatible, and should be removed from the classpath:\n  " ++
      Text.joined "\n  " details
  | compileTimeAnnotations => "Provides compile-time annotations"
  | constant constants => enumerate "Imports" .constant constants
  | implementation classes => enumerate "Uses" .classFile classes
  | implementationSuper classes => enumerate "Uses (as a supertype)" .classFile classes
  | annotated classes => enumerate "Uses (in an annotation)" .classFile classes
  | invisiblyAnnotated classes => enumerate "Uses (in an invisible annotation)" .classFile classes
  | imported imports => enumerate "Imports" .classFile imports
  | testInstrumentationRunner runner => enumerate "Declares" .testInstrumentationRunner [runner]
  | inlineMember members => enumerate "Imports" .inlineMember members
  | lintJar registry => enumerate "Provides" .lintRegistry [registry]
  | nativeLibrary files => enumerate "Provides" .nativeBinary files
  | resourceBySource imports => enumerate "Imports" .androidResource imports
  | resourceByResource resources => enumerate "Uses" .androidResource resources
  | resourceAtRuntime resources => enumerate "Uses (at runtime)" .androidResource resources
  | asset assets => enumerate "Provides" .androidAsset assets
  | runtimeAndroid component names => enumerate "Provides" component.noun names
  | securityProvider providers => enumerate "Provides" .securityProvider providers
  | serviceLoader providers => enumerate "Provides" .serviceLoader providers
  | typealias classes => enumerate "Uses" .typealias classes
  | undeclared => "undeclared"
  | unused => "unused"
  | excluded => "excluded"

/-- The summary and the configuration that the reason implies in a variant. When the
dependency is to be compile-only, all but annotation processing implies `compileOnly`;
binary incompatibility implies nothing. -/
def describe (r : Reason) (variant : Variant) (isCompileOnly : Bool) : String :=
  match r with
  | binaryIncompatible _ => r.summary
  | _ =>
    let base := if isCompileOnly && !r.isAnnotationProcessor then "compileOnly" else r.configuration
    r.summary ++ " (implies " ++ variant.configuration base ++ ")."

/-- What the order of reasons goes by: the sort of reason, then what its fields hold. -/
structure Key where
  sort : Nat
  component : Nat := 0
  items : List String := []
  origin : Nat := 0

/-- The order of a processor's source and tool. -/
private def originRank : ProcessorSource → Bool → Nat
  | .imports, false => 0
  | .imports, true => 1
  | .classes, false => 2
  | .classes, true => 3

private def componentRank : AndroidComponent → Nat
  | .activity => 0
  | .provider => 1
  | .receiver => 2
  | .service => 3

/-- The key of a reason in the order of reasons. -/
def key : Reason → Key
  | abi classes => { sort := 0, items := classes }
  | annotationProcessor items source isKapt =>
    { sort := 1, items := items, origin := originRank source isKapt }
  | binaryIncompatible details => { sort := 2, items := details }
  | compileTimeAnnotations => { sort := 3 }
  | constant constants => { sort := 4, items := constants }
  | implementation classes => { sort := 5, items := classes }
  | implementationSuper classes => { sort := 6, items := classes }
  | annotated classes => { sort := 7, items := classes }
  | invisiblyAnnotated classes => { sort := 8, items := classes }
  | imported imports => { sort := 9, items := imports }
  | testInstrumentationRunner runner => { sort := 10, items := [runner] }
  | inlineMember members => { sort := 11, items := members }
  | lintJar registry => { sort := 12, items := [registry] }
  | nativeLibrary files => { sort := 13, items := files }
  | resourceBySource imports => { sort := 14, items := imports }
  | resourceByResource resources => { sort := 15, items := resources }
  | resourceAtRuntime resources => { sort := 16, items := resources }
  | asset assets => { sort := 17, items := assets }
  | runtimeAndroid component names =>
    { sort := 18, component := componentRank component, items := names }
  | securityProvider providers => { sort := 19, items := providers }
  | serviceLoader providers => { sort := 20, items := providers }
  | typealias classes => { sort := 21, items := classes }
  | undeclared => { sort := 22 }
  | unused => { sort := 23 }
  | excluded => { sort := 24 }

/-- The reason that has a key. -/
private def ofKey (k : Key) : Reason :=
  match k.sort with
  | 0 => abi k.items
  | 1 =>
    match k.origin with
    | 0 => annotationProcessor k.items .imports false
    | 1 => annotationProcessor k.items .imports true
    | 2 => annotationProcessor k.items .classes false
    | _ => annotationProcessor k.items .classes true
  | 2 => binaryIncompatible k.items
  | 3 => compileTimeAnnotations
  | 4 => constant k.items
  | 5 => implementation k.items
  | 6 => implementationSuper k.items
  | 7 => annotated k.items
  | 8 => invisiblyAnnotated k.items
  | 9 => imported k.items
  | 10 => testInstrumentationRunner (k.items.headD "")
  | 11 => inlineMember k.items
  | 12 => lintJar (k.items.headD "")
  | 13 => nativeLibrary k.items
  | 14 => resourceBySource k.items
  | 15 => resourceByResource k.items
  | 16 => resourceAtRuntime k.items
  | 17 => asset k.items
  | 18 =>
    match k.component with
    | 0 => runtimeAndroid .activity k.items
    | 1 => runtimeAndroid .provider k.items
    | 2 => runtimeAndroid .receiver k.items
    | _ => runtimeAndroid .service k.items
  | 19 => securityProvider k.items
  | 20 => serviceLoader k.items
  | 21 => typealias k.items
  | 22 => undeclared
  | 23 => unused
  | _ => excluded

/-- A key holds all that its reason does. -/
private theorem ofKey_key (r : Reason) : ofKey r.key = r := by
  cases r with
  | annotationProcessor items source isKapt => cases source <;> cases isKapt <;> rfl
  | runtimeAndroid component names => cases component <;> rfl
  | _ => rfl

/-- By the sort of reason, then by its fields. -/
def order : Reason → Reason → Ordering :=
  compareLex (compareOn (·.key.sort)) <| compareLex (compareOn (·.key.component)) <|
    compareLex (compareOn (·.key.items)) (compareOn (·.key.origin))

instance : Ord Reason := ⟨order⟩

instance : Std.TransOrd Reason := by
  unfold Std.TransOrd
  change Std.TransCmp order
  unfold order
  infer_instance

instance : Std.LawfulEqOrd Reason where
  eq_of_compare {a b} h := by
    replace h : order a b = .eq := h
    simp only [order, compareLex, compareOn, Ordering.then_eq_eq] at h
    obtain ⟨sort, component, items, origin⟩ := h
    have sort := Std.LawfulEqCmp.eq_of_compare sort
    have component := Std.LawfulEqCmp.eq_of_compare component
    have items := Std.LawfulEqCmp.eq_of_compare items
    have origin := Std.LawfulEqCmp.eq_of_compare origin
    rw [← ofKey_key a, ← ofKey_key b]
    congr 1
    cases ka : a.key
    cases kb : b.key
    simp_all

end Reason

end ClasspathAdvice
