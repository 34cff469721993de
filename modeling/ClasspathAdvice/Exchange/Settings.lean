import ClasspathAdvice.Exchange.Coordinates
import ClasspathAdvice.Settings

/-!
# Settings as documents

Every part of the settings may be left out.
-/

namespace ClasspathAdvice
set_option autoImplicit false

open Document

namespace Exclusions

/-- Reads the patterns of a rule. -/
def patterns? (m : Manner) (d : Document) : Option (List String) := do
  match ← d.fields? m ["exclude"] with
  | [exclude] => withDefault [] (toList? toText?) exclude
  | _ => none

/-- Reads exclusions. -/
def ofDocument? (m : Manner) (d : Document) : Option Exclusions := do
  let fields ← d.fields? m (Occasion.all.map Occasion.name ++ ["ignore_kapt"])
  let rules ← (Occasion.all.zip fields).mapM fun (occasion, field) => do
    return (occasion, ← withDefault [] (patterns? m) field)
  let ignoreKapt ← withDefault false toBool? fields[Occasion.all.length]?.join
  return { patterns := fun occasion => (rules.lookup occasion).getD [], ignoreKapt }

/-- Writes exclusions. -/
def toDocument (e : Exclusions) : Document :=
  .object <|
    Occasion.all.map (fun occasion =>
      (occasion.name, .object [("exclude", .texts (e.patterns occasion))])) ++
    [("ignore_kapt", .bool e.ignoreKapt)]

end Exclusions

namespace Settings

/-- Reads how to report. -/
def report? (m : Manner) (d : Document) : Option (Bool × Bool) := do
  match ← d.fields? m ["colors", "show_filtered"] with
  | [colors, showFiltered] =>
    return (← withDefault true toBool? colors, ← withDefault false toBool? showFiltered)
  | _ => none

/-- Reads how to analyse. -/
def analysis? (m : Manner) (d : Document) : Option Bool := do
  match ← d.fields? m ["parallel"] with
  | [parallel] => withDefault false toBool? parallel
  | _ => none

/-- Reads settings. -/
def ofDocument? (m : Manner) (d : Document) : Option Settings := do
  match ← d.fields? m ["issues", "dependency_map", "report", "analysis"] with
  | [issues, aliases, report, analysis] =>
    let exclusions ← withDefault {} (Exclusions.ofDocument? m) issues
    let aliases ← withDefault ∅ (toMap? toText?) aliases
    let (colors, showFiltered) ← withDefault (true, false) (report? m) report
    let parallel ← withDefault false (analysis? m) analysis
    return { exclusions, aliases, colors, showFiltered, parallel }
  | _ => none

/-- Writes settings. -/
def toDocument (s : Settings) : Document :=
  .object [("issues", s.exclusions.toDocument), ("dependency_map", s.aliases.toDocument .text),
    ("report", .object [("colors", .bool s.colors), ("show_filtered", .bool s.showFiltered)]),
    ("analysis", .object [("parallel", .bool s.parallel)])]

end Settings

end ClasspathAdvice
