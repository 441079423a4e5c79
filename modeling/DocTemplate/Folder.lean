import DocTemplate.Text.Quoted

/-!
# Folders

A folder with files and directories in it, and how paths are followed from it. A path is followed
one name after another: each name has to stand in a directory, the empty name and `.` stay where
they are, and `..` goes one step back. Where a path leaves the folder nothing is known but that
there is a directory.

* `locate` follows a path to what stands there.
* `save` writes a file, and makes the directories above it. Those are found on the path in its
  shortest form, without `.`, `..` and empty names; the file itself by following the path as it is.
-/

namespace DocTemplate

/-- Why a path cannot be opened. -/
inductive PathError where
  | notFound
  | notDirectory
  | isDirectory
  | nameTooLong
  /-- The path holds a character that no path can hold. -/
  | badCharacter
  deriving DecidableEq, Repr

namespace PathError

/-- The number and the wording of an error. -/
def reason : PathError → String
  | notFound => "[Errno 2] No such file or directory"
  | notDirectory => "[Errno 20] Not a directory"
  | isDirectory => "[Errno 21] Is a directory"
  | nameTooLong => "[Errno 36] File name too long"
  | badCharacter => "embedded null byte"

/-- An error at a path in words. -/
def message (path : String) : PathError → String
  | badCharacter => badCharacter.reason
  | e => s!"{e.reason}: " ++ String.ofList (Text.quoted path.toList)

end PathError

/-- What stands in a folder, each by the names on the way to it. Directories have no content. -/
structure Folder (α : Type) where
  entries : List (List String × Option α) := []

/-- Where a path leads. -/
inductive Place where
  /-- To what stands behind these names, or to the folder itself behind none. -/
  | inside (names : List String)
  | outside
  deriving DecidableEq, Repr

/-- The names in a path. -/
def pathNames (path : String) : List String :=
  path.splitOn "/"

/-- Whether a name stays in the directory where it is followed. -/
def isStay (name : String) : Bool :=
  name == "" || name == "."

/-- Where following a path starts. -/
def startOf (path : String) : Place :=
  if path.startsWith "/" then .outside else .inside []

/-- The place one step back. -/
def Place.back : Place → Place
  | .inside [] => .outside
  | .inside names => .inside names.dropLast
  | .outside => .outside

/-- How many bytes a name can have. -/
def maxNameSize : Nat := 255

/-- How many bytes a path can have. -/
def maxPathSize : Nat := 4095

namespace Folder

variable {α : Type}

/-- What stands behind some names: a directory or a file. -/
def entry? (f : Folder α) (names : List String) : Option (Option α) :=
  if names.isEmpty then some none else f.entries.lookup names

/-- Whether a place is a directory. -/
def isDirectory (f : Folder α) : Place → Bool
  | .outside => true
  | .inside names =>
    match f.entry? names with
    | some none => true
    | _ => false

/-- One step along a path. -/
def step (f : Folder α) (place : Place) (name : String) : Except PathError Place :=
  if !f.isDirectory place then .error .notDirectory
  else if isStay name then .ok place
  else if name == ".." then .ok place.back
  else if maxNameSize < name.utf8ByteSize then .error .nameTooLong
  else
    match place with
    | .outside => .error .notFound
    | .inside names =>
      if (f.entry? (names ++ [name])).isSome then .ok (.inside (names ++ [name]))
      else .error .notFound

/-- Refuses what no path can be. -/
def checkPath (path : String) : Except PathError Unit :=
  if path.contains '\x00' then .error .badCharacter
  else if path.isEmpty then .error .notFound
  else if maxPathSize < path.utf8ByteSize then .error .nameTooLong
  else .ok ()

/-- Where a path leads. Something stands there. -/
def locate (f : Folder α) (path : String) : Except PathError Place := do
  checkPath path
  (pathNames path).foldlM f.step (startOf path)

/-- The folder with something put behind some names. -/
def put (f : Folder α) (names : List String) (content : Option α) : Folder α :=
  ⟨(names, content) :: f.entries.filter (·.1 != names)⟩

/-- The folder with directories for `names` below `above`, as far as there are none yet. A file in
the way is an error. -/
def makeDirectories (f : Folder α) (above : List String) : List String →
    Folder α × Except PathError Unit
  | [] => (f, .ok ())
  | name :: rest =>
    let names := above ++ [name]
    match f.entry? names with
    | some none => f.makeDirectories names rest
    | some (some _) => (f, .error .notDirectory)
    | none =>
      if maxNameSize < name.utf8ByteSize then (f, .error .nameTooLong)
      else (f.put names none).makeDirectories names rest

/-- The place that a path has in its shortest form, whether anything stands there or not. -/
def shortest (path : String) : Place :=
  (pathNames path).foldl (fun place name =>
    if isStay name then place
    else if name == ".." then place.back
    else
      match place with
      | .inside names => .inside (names ++ [name])
      | .outside => .outside) (startOf path)

/-- The folder with the directories above a path. -/
def makeParents (f : Folder α) (path : String) : Folder α × Except PathError Unit :=
  match shortest path with
  | .inside names => f.makeDirectories [] names.dropLast
  | .outside => (f, .ok ())

/-- One step along a path after the directories above it were made, those outside of the folder
too. -/
def stepMade (f : Folder α) (place : Place) (name : String) : Except PathError Place :=
  match place, f.step place name with
  | .outside, .error .notFound => .ok .outside
  | _, outcome => outcome

/-- Where a file is to be written at a path. -/
def target (f : Folder α) (path : String) : Except PathError Place := do
  checkPath path
  let names := ((pathNames path).reverse.dropWhile (·.isEmpty)).reverse
  let parent ← names.dropLast.foldlM f.stepMade (startOf path)
  if !f.isDirectory parent then throw .notDirectory
  let name := names.getLast?.getD ""
  if path.endsWith "/" || isStay name || name == ".." then throw .isDirectory
  if maxNameSize < name.utf8ByteSize then throw .nameTooLong
  match parent with
  | .outside => return .outside
  | .inside above =>
    if f.isDirectory (.inside (above ++ [name])) then throw .isDirectory
    return .inside (above ++ [name])

/-- The folder after a file was written at a path, and whether that went well. What is written
outside the folder is not kept. -/
def save (f : Folder α) (path : String) (content : α) : Folder α × Except PathError Unit :=
  let made := if path.contains '\x00' then (f, .ok ()) else f.makeParents path
  match made with
  | (f, .error e) => (f, .error e)
  | (f, .ok ()) =>
    match f.target path with
    | .error e => (f, .error e)
    | .ok .outside => (f, .ok ())
    | .ok (.inside names) => (f.put names (some content), .ok ())

/-- The files in a folder, by the names on the way to them. -/
def files (f : Folder α) : List (List String × α) :=
  f.entries.filterMap fun (names, content) => content.map (names, ·)

/-- A folder that holds some files and directories, with the directories above them. -/
def ofList (entries : List (String × Option α)) : Folder α :=
  entries.foldl (fun f (path, content) =>
    match shortest path with
    | .inside names => (f.makeDirectories [] names.dropLast).1.put names content
    | .outside => f) {}

end Folder

end DocTemplate
