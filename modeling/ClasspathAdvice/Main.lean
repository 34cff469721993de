import ClasspathAdvice.Command

/-!
# The program

Reads the files that the arguments name, runs the command on them and prints.
-/

namespace ClasspathAdvice.Command
set_option autoImplicit false

/-- The text behind a handle, if it holds one. -/
def readText (handle : IO.FS.Handle) : IO (Option String) := do
  try
    return String.fromUTF8? (← handle.readBinToEnd)
  catch _ => return none

/-- What is at the end of a path: nothing, or something that holds a text or not. -/
def look (path : String) : IO (Option (Option String)) := do
  try
    return some (← readText (← IO.FS.Handle.mk path .read))
  catch _ => return none

/-- The folder as far as some paths show it. -/
def lookAt (paths : List String) : IO Folder := do
  let seen ← paths.mapM fun path => do return (path, ← look path)
  let found (path : String) : Option (Option String) := (seen.lookup path).join
  return { holds := fun path => (found path).isSome, read := fun path => (found path).join }

/-- Whether what is printed is to have styles. -/
def isStyled : IO Bool := do
  let isOn (value : Option String) : Bool := value.any (· ≠ "0")
  if isOn (← IO.getEnv "CLICOLOR_FORCE") then return true
  else if (← IO.getEnv "NO_COLOR").isSome then return false
  else return isOn ((← IO.getEnv "CLICOLOR").or (some "1")) && (← (← IO.getStdout).isTty)

end ClasspathAdvice.Command

open ClasspathAdvice.Command in
def main (arguments : List String) : IO UInt32 := do
  match Invocation.ofArguments arguments with
  | .error refusal =>
    IO.print refusal.printed
    if refusal = .usage then IO.eprint help
    return refusal.exitCode.toUInt32
  | .ok i =>
    let outcome := i.run (← lookAt i.paths) (← isStyled)
    IO.print outcome.printed
    match outcome.error with
    | some e => IO.eprintln ("Error: " ++ e.message)
    | none => pure ()
    return outcome.exitCode.toUInt32
