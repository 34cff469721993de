import ClasspathAdvice.Document.Reading
import ClasspathAdvice.Usage

/-!
# Usages as documents

A reason is a union told apart by its field `type`; a usage has a variant, a bucket and
reasons.
-/

namespace ClasspathAdvice
set_option autoImplicit false

open Document

namespace Bucket

/-- The name of a bucket in documents. -/
def documentName : Bucket → String
  | unused => "none"
  | b => b.value

/-- The bucket with a name; `n/a` names the bucket of unused dependencies too. -/
def ofName? (name : String) : Option Bucket :=
  if name = unused.value then some unused
  else [api, implementation, compileOnly, runtimeOnly, unused].find? (·.documentName == name)

end Bucket

namespace ProcessorSource

/-- The name of a source in documents. -/
def name : ProcessorSource → String
  | imports => "imports"
  | classes => "classes"

/-- The source with a name. -/
def ofName? (name : String) : Option ProcessorSource := [imports, classes].find? (·.name == name)

end ProcessorSource

namespace AndroidComponent

/-- The name of a component in documents. -/
def name : AndroidComponent → String
  | activity => "activity"
  | provider => "provider"
  | receiver => "receiver"
  | service => "service"

/-- The component with a name. -/
def ofName? (name : String) : Option AndroidComponent :=
  [activity, provider, receiver, service].find? (·.name == name)

end AndroidComponent

namespace Reason

/-- The reasons that hold one list of texts: name in documents, name of the field, constructor. -/
def listed : List (String × String × (List String → Reason)) :=
  [("abi", "classes", abi), ("binary_incompatible", "details", binaryIncompatible),
    ("constant", "constants", constant), ("impl", "classes", implementation),
    ("impl_super", "classes", implementationSuper), ("annotation", "classes", annotated),
    ("invisible_annotation", "classes", invisiblyAnnotated), ("imported", "imports", imported),
    ("inline", "members", inlineMember), ("native_lib", "files", nativeLibrary),
    ("res_by_src", "imports", resourceBySource), ("res_by_res", "resources", resourceByResource),
    ("res_by_res_runtime", "resources", resourceAtRuntime), ("asset", "assets", asset),
    ("security_provider", "providers", securityProvider),
    ("service_loader", "providers", serviceLoader), ("typealias", "classes", typealias)]

/-- The reasons that hold one text. -/
def named : List (String × String × (String → Reason)) :=
  [("test_instrumentation_runner", "runner", testInstrumentationRunner),
    ("lint_jar", "registry", lintJar)]

/-- The reasons that hold nothing. -/
def bare : List (String × Reason) :=
  [("compile_time_annotations", compileTimeAnnotations), ("undeclared", undeclared),
    ("unused", unused), ("excluded", excluded)]

/-- Reads the fields of the reason with a name. -/
def ofFields? (name : String) (rest : Document) : Option Reason :=
  match listed.find? (·.1 == name), named.find? (·.1 == name), bare.lookup name with
  | some (_, field, make), _, _ => do
    match ← rest.fields? .settled [field] with
    | [items] => return make (← required (toList? toText?) items)
    | _ => none
  | _, some (_, field, make), _ => do
    match ← rest.fields? .settled [field] with
    | [item] => return make (← required toText? item)
    | _ => none
  | _, _, some reason => if rest.holdsNothing then some reason else none
  | none, none, none =>
    if name = "annotation_processor" then do
      match ← rest.fields? .settled ["items", "source", "is_kapt"] with
      | [items, source, isKapt] =>
        return annotationProcessor (← required (toList? toText?) items)
          (← required (toAlternative? .settled ProcessorSource.ofName?) source)
          (← withDefault false toBool? isKapt)
      | _ => none
    else if name = "runtime_android" then do
      match ← rest.fields? .settled ["component", "names"] with
      | [component, names] =>
        return runtimeAndroid
          (← required (toAlternative? .settled AndroidComponent.ofName?) component)
          (← required (toList? toText?) names)
      | _ => none
    else none

/-- Reads a reason. -/
def ofDocument? (d : Document) : Option Reason := do
  let (name, rest) ← d.alternative?
  ofFields? name rest

/-- The name of a reason and its fields. -/
def parts : Reason → String × List (String × Document)
  | abi classes => ("abi", [("classes", .texts classes)])
  | annotationProcessor items source isKapt =>
    ("annotation_processor",
      [("items", .texts items), ("source", .text source.name), ("is_kapt", .bool isKapt)])
  | binaryIncompatible details => ("binary_incompatible", [("details", .texts details)])
  | compileTimeAnnotations => ("compile_time_annotations", [])
  | constant constants => ("constant", [("constants", .texts constants)])
  | implementation classes => ("impl", [("classes", .texts classes)])
  | implementationSuper classes => ("impl_super", [("classes", .texts classes)])
  | annotated classes => ("annotation", [("classes", .texts classes)])
  | invisiblyAnnotated classes => ("invisible_annotation", [("classes", .texts classes)])
  | imported imports => ("imported", [("imports", .texts imports)])
  | testInstrumentationRunner runner =>
    ("test_instrumentation_runner", [("runner", .text runner)])
  | inlineMember members => ("inline", [("members", .texts members)])
  | lintJar registry => ("lint_jar", [("registry", .text registry)])
  | nativeLibrary files => ("native_lib", [("files", .texts files)])
  | resourceBySource imports => ("res_by_src", [("imports", .texts imports)])
  | resourceByResource resources => ("res_by_res", [("resources", .texts resources)])
  | resourceAtRuntime resources => ("res_by_res_runtime", [("resources", .texts resources)])
  | asset assets => ("asset", [("assets", .texts assets)])
  | runtimeAndroid component names =>
    ("runtime_android", [("component", .text component.name), ("names", .texts names)])
  | securityProvider providers => ("security_provider", [("providers", .texts providers)])
  | serviceLoader providers => ("service_loader", [("providers", .texts providers)])
  | typealias classes => ("typealias", [("classes", .texts classes)])
  | undeclared => ("undeclared", [])
  | unused => ("unused", [])
  | excluded => ("excluded", [])

/-- Writes a reason. -/
def toDocument (r : Reason) : Document := .object (("type", .text r.parts.1) :: r.parts.2)

end Reason

namespace Usage

/-- Reads a usage. Its reasons stay as they are written. -/
def ofDocument? (m : Manner) (d : Document) : Option Usage := do
  match ← d.fields? m ["variant", "bucket", "reasons"] with
  | [variant, bucket, reasons] =>
    return {
      variant := ⟨← required toText? variant⟩
      bucket := ← required (toAlternative? m Bucket.ofName?) bucket
      reasons := ← withDefault [] (toList? Reason.ofDocument?) reasons }
  | _ => none

/-- Writes a usage. -/
def toDocument (u : Usage) : Document :=
  .object [("variant", .text u.variant.name), ("bucket", .text u.bucket.documentName),
    ("reasons", .list (u.reasons.map Reason.toDocument))]

end Usage

end ClasspathAdvice
