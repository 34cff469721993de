import ClasspathAdvice.Text.Split

/-!
# Paths of files

A path names directories, and a file at its end, between slashes. Empty parts and dots,
except for one at the start, do not count.
-/

namespace ClasspathAdvice.Path
set_option autoImplicit false

/-- The parts of a path between slashes. -/
def parts (path : String) : List String := (Text.splitAt '/' path.toList).map String.ofList

/-- Whether a part of a path says nothing. -/
def isIdle (part : String) : Bool := part = "" || part = "."

/-- Whether a path starts at the root. -/
def isAbsolute (path : String) : Bool := path.toList.head? == some '/'

/-- The parts of a path that count. -/
def components (path : String) : List String :=
  let counting := (parts path).filter (!isIdle ·)
  if (parts path).head? == some "." then "." :: counting else counting

/-- The name of the file at the end of a path. -/
def fileName? (path : String) : Option String :=
  (components path).getLast?.filter fun part => part ≠ "." && part ≠ ".."

/-- What follows the last dot in a name, the dot at its start aside. -/
def extension? (path : String) : Option String :=
  (fileName? path).bind fun name =>
    match (Text.splitAt '.' name.toList).reverse with
    | [_] | [_, []] | [] => none
    | last :: _ => some (String.ofList last)

/-- The directory that holds the file at the end of a path; a dot stands for the present one. -/
def directory (path : String) : String :=
  let outer := Text.joined "/" (components path).dropLast
  if isAbsolute path then "/" ++ outer else if outer.isEmpty then "." else outer

/-- A name in a directory. -/
def within (directory name : String) : String :=
  if directory.isEmpty || directory.toList.getLast? == some '/' then directory ++ name
  else directory ++ "/" ++ name

end ClasspathAdvice.Path
