/-! # Paths and folders

A path is shown without the parts that lead nowhere. A folder holds texts under paths; what lies on the
way to one of them is a folder, too.
-/
namespace Formula.CommandLine

inductive FileTrouble where
  | missing
  | folder
  /-- A part of the path before the last one is no folder. -/
  | noFolder
deriving DecidableEq

def pathParts (path : String) : List String :=
  (path.splitOn "/").filter fun part => part ≠ "" ∧ part ≠ "."

/-- The path in its shortest form. Two slashes at the start are kept, more than two count as one. -/
def shownPath (path : String) : String :=
  let slashes := (path.toList.takeWhile (· == '/')).length
  let start := if slashes = 0 then "" else if slashes = 2 then "//" else "/"
  let shown := start ++ "/".intercalate (pathParts path)
  if shown.isEmpty then "." else shown

structure Folder where
  files : List (String × String)

namespace Folder

def text? (folder : Folder) (place : List String) : Option String :=
  (folder.files.find? fun file => (pathParts file.1).reverse == place).map (·.2)

def holds (folder : Folder) (place : List String) : Bool :=
  place.isEmpty || folder.files.any fun file => place.reverse.isPrefixOf (pathParts file.1).dropLast

def follow (folder : Folder) (place : List String) : List String → Except FileTrouble (List String)
  | [] => .ok place
  | part :: parts =>
    if !folder.holds place then .error (if (folder.text? place).isSome then .noFolder else .missing)
    else if part ≠ ".." then folder.follow (part :: place) parts
    else
      match place with
      | [] => .error .missing
      | _ :: outer => folder.follow outer parts

/-- The text under a path. Paths from the root lead out of the folder. -/
def read (folder : Folder) (path : String) : Except FileTrouble String :=
  if path.startsWith "/" then .error (if (pathParts path).isEmpty then .folder else .missing)
  else do
    let place ← folder.follow [] (pathParts path)
    match folder.text? place with
    | some text => return text
    | none => .error (if folder.holds place then .folder else .missing)

end Folder

end Formula.CommandLine
