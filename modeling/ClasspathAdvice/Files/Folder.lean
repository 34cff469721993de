import ClasspathAdvice.Files.Path

/-!
# Folders

What can be seen of files: which paths lead to anything, and what the files at their ends
hold. A folder may be given by the files in it; each part of a path then has to lead to a
directory, up to the last.
-/

namespace ClasspathAdvice
set_option autoImplicit false

/-- What can be seen of files, by paths. -/
structure Folder where
  /-- Whether a path leads to a file or directory. -/
  holds : String → Bool
  /-- The text of the file at the end of a path. -/
  read : String → Option String

namespace Folder

/-- Where the parts of a path lead, starting from a directory, given the files by their
components. -/
def follow (files : List (List String × String)) : List String → List String → Option (List String)
  | place, [] => some place
  | place, part :: rest =>
    let isDirectory := place.isEmpty || files.any fun (file, _) =>
      place.isPrefixOf file && place.length < file.length
    if !isDirectory then none
    else if Path.isIdle part then follow files place rest
    else if part = ".." then (if place.isEmpty then none else follow files place.dropLast rest)
    else if files.any fun (file, _) => (place ++ [part]).isPrefixOf file then
      follow files (place ++ [part]) rest
    else none

/-- The folder with some files in it, by their paths. -/
def ofFiles (files : List (String × String)) : Folder :=
  let files := files.map fun (path, text) => (Path.components path, text)
  let place? (path : String) : Option (List String) :=
    if path.isEmpty || Path.isAbsolute path then none else follow files [] (Path.parts path)
  { holds := fun path => (place? path).isSome
    read := fun path => (place? path).bind fun place => files.lookup place }

end Folder

end ClasspathAdvice
