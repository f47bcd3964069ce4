/-
# Paths

Paths are texts with components separated by `/`.  Repeated separators, a
separator at the end and components `.` do not count when two paths are compared,
except a `.` that begins a relative path.
-/

import MusicCollections.Text.Lines

namespace MusicCollections

/-- A path of the file system. -/
abbrev Path := String

namespace Path

def isAbsolute (path : Path) : Bool := path.toList.head? == some '/'

/-- Whether a part of a path after the first one is a component. -/
def counts (part : String) : Bool := !part.isEmpty && part != "."

/-- The components by which a path is known: the root is an empty component. -/
def components (path : Path) : List String :=
  match Text.parts '/' path with
  | [] => []
  | first :: rest =>
    let rest := rest.filter counts
    if isAbsolute path then "" :: rest else if first.isEmpty then rest else first :: rest

/-- Whether two paths have the same components. -/
def same (p q : Path) : Bool := components p == components q

/-- The path of its parts; the root is one empty part. -/
def ofParts (parts : List String) : Path :=
  if parts = [""] then "/" else Text.join "/" parts

/-- The paths that the parts lead through, the nearest first, without the root.
The parts after the first one are given backwards. -/
def ancestorsOf (first : String) : List String → List Path
  | [] => if first.isEmpty then [] else [first]
  | part :: before =>
    if counts part then
      ofParts (first :: (part :: before).reverse) :: ancestorsOf first before
    else ancestorsOf first before

/-- A path and the directories above it, the nearest first, without the root. -/
def ancestors (path : Path) : List Path :=
  match Text.parts '/' path with
  | [] => []
  | first :: rest => ancestorsOf first rest.reverse

/-- The path without its last component; `.` for a path that has one alone. -/
def parent (path : Path) : Path :=
  match Text.parts '/' path with
  | [] => "."
  | first :: rest =>
    match rest.reverse.dropWhile (!counts ·) with
    | [] => "."
    | _ :: before => ofParts (first :: (before.dropWhile (!counts ·)).reverse)

/-- `name` inside the directory `base`, or `name` itself if it is absolute. -/
def join (base name : Path) : Path :=
  if isAbsolute name ∨ base.isEmpty then name
  else if base.toList.getLast? = some '/' then base ++ name
  else base ++ "/" ++ name

/-- The components of an absolute path with `.` and `..` resolved by the text
alone; nothing is above the root. -/
def resolveDots (components : List String) : List String :=
  components.foldl (fun done c =>
    if c.isEmpty || c == "." then done else if c == ".." then done.dropLast else done ++ [c]) []

/-- The absolute path of `path` as seen from the directory `cwd`. -/
def absolute (cwd path : Path) : Path :=
  "/" ++ Text.join "/" (resolveDots (Text.parts '/' (join cwd path)))

end Path

end MusicCollections
