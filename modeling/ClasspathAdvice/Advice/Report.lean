import ClasspathAdvice.ProjectModule
import ClasspathAdvice.Text.Styled

/-!
# Reports of advice

A report lists the advice for a module in sections by what it asks for, one line for
each piece. A module without advice gets a line that says so. What was set aside may
follow.
-/

namespace ClasspathAdvice.Report
set_option autoImplicit false

open Text

/-- The sections of a report. -/
inductive Section where
  | removals
  | additions
  | changes
  | compileOnly
  | processors
  deriving DecidableEq, Repr

namespace Section

/-- The sections in the order of a report. -/
def all : List Section := [removals, additions, changes, compileOnly, processors]

/-- What a section is headed by. -/
def title : Section → String
  | removals => "Unused dependencies which should be removed:"
  | additions => "Transitively used dependencies that should be declared directly as indicated:"
  | changes => "Existing dependencies which should be modified to be as indicated:"
  | compileOnly => "Dependencies which could be compile-only:"
  | processors => "Unused annotation processors that should be removed:"

/-- Whether advice belongs in a section. -/
def holds : Section → Advice → Bool
  | removals, a => a.isRemove
  | additions, a => a.isAdd
  | changes, a => a.isAnyChange && !a.isCompileOnly
  | compileOnly, a => a.isCompileOnly
  | processors, a => a.isProcessor

end Section

/-- A dependency as it is declared in a build script. -/
def declared (c : Coordinates) : String :=
  if c.isProject then "project(\"" ++ c.gav ++ "\")" else "\"" ++ c.gav ++ "\""

/-- The line of a piece of advice. -/
def line (a : Advice) : StyledText :=
  let name := declared a.coordinates
  match a.source, a.target with
  | some source, some target =>
    [plain ("  " ++ target ++ "(" ++ name ++ ") "), Style.dimmed.span ("(was " ++ source ++ ")")]
  | none, some target => [plain ("  " ++ target ++ "(" ++ name ++ ")")]
  | some source, none => [plain ("  " ++ source ++ "(" ++ name ++ ")")]
  | none, none => [plain ("  " ++ name)]

/-- The heading of a block. -/
def heading (title : String) : StyledText := [Style.boldYellow.span title]

/-- The lines of a section, none if no advice belongs in it. -/
def sectionLines (advice : AdviceSet) (s : Section) : List StyledText :=
  match advice.toList.filter s.holds with
  | [] => []
  | listed => heading s.title :: listed.map line

/-- Blocks of lines with an empty line between them. -/
def separated : List (List StyledText) → List StyledText
  | [] => []
  | [block] => block
  | block :: blocks => block ++ [] :: separated blocks

/-- The lines on the advice for a module. -/
def adviceLines (m : ModuleAdvice) : List StyledText :=
  if m.advice.isEmpty then
    [[Style.boldGreen.span ("No advice for " ++ m.project.gav ++
      ". Dependencies are declared correctly!")]]
  else separated ((Section.all.map (sectionLines m.advice)).filter (!·.isEmpty))

/-- The lines on the advice that was set aside. -/
def filteredLines (m : ModuleAdvice) : List StyledText :=
  if m.filtered.isEmpty then []
  else [] :: heading "Advice excluded by configuration:" ::
    m.filtered.toList.map fun a => [plain ("  " ++ a.text)]

/-- The report on a module. -/
def text (showFiltered : Bool) (m : ModuleAdvice) : StyledText :=
  unlines (adviceLines m ++ if showFiltered then filteredLines m else [])

end ClasspathAdvice.Report
