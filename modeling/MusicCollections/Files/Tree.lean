/-
# A tree of files

A file system as a value: directories, and files with their contents.  A change
takes the time that the clock of the tree shows.

A path is looked up by walking its components through directories.  What makes
an entry (a file in the place of another, a directory) walks to the directory
that the entry stands in, and then looks at the last component alone:

| the path | its last component |
| --- | --- |
| `d/name`, `d/name/` | the name |
| `d/.`, `d/..`, `d/./`, `/` | no entry of a directory |
-/

import MusicCollections.Dictionary
import MusicCollections.Files.Basic

namespace MusicCollections

namespace FileTree

inductive Node where
  | directory (modified : Time)
  | file (contents : Contents) (modified : Time)
  deriving DecidableEq, Repr

/-- When the node was last changed. -/
def Node.modified : Node → Time
  | .directory time => time
  | .file _ time => time

end FileTree

structure FileTree where
  /-- The nodes by the names that lead to them; the root is always there. -/
  nodes : List (List String × FileTree.Node) := []
  /-- The time that changes are given. -/
  clock : Time := 0

namespace FileTree

/-- The node that the names lead to. -/
def node? (tree : FileTree) (names : List String) : Option Node :=
  if names.isEmpty then some (.directory 0) else tree.nodes.lookup names

/-- Puts a node where the names lead, in the place of what was there. -/
def put (tree : FileTree) (names : List String) (node : Node) : FileTree :=
  { tree with nodes := (names, node) :: tree.nodes.filter (·.1 != names) }

/-- Takes away the node that the names lead to. -/
def erase (tree : FileTree) (names : List String) : FileTree :=
  { tree with nodes := tree.nodes.filter (·.1 != names) }

/-- Notes a change among the entries of a directory. -/
def touchDirectory (tree : FileTree) (names : List String) : FileTree :=
  match tree.node? names with
  | some (.directory _) => if names.isEmpty then tree else tree.put names (.directory tree.clock)
  | _ => tree

/-! ## Looking up paths -/

/-- Longest name of an entry, in bytes. -/
def maxNameBytes : Nat := 255

/-- Longest path that is looked up, in bytes. -/
def maxPathBytes : Nat := 4095

/-- Whether no directory has an entry of this name, since it is too long. -/
def isTooLong (name : String) : Bool := decide (maxNameBytes < name.utf8ByteSize)

/-- Why a path is not looked up at all. -/
def pathFault? (path : Path) : Option IoError :=
  if path.toList.contains '\x00' then some .nulInPath
  else if path.isEmpty then some .notFound
  else if maxPathBytes < path.utf8ByteSize then some .nameTooLong
  else none

/-- The names that a path takes from `here`, through directories only.  A
component `.` asks for a directory, as a separator at the end of a path does. -/
def walk (tree : FileTree) (here : List String) : List String → Except IoError (List String)
  | [] => .ok here
  | component :: rest =>
    match tree.node? here with
    | none => .error .notFound
    | some (.file _ _) => .error .notADirectory
    | some (.directory _) =>
      if component = "." then walk tree here rest
      else if component = ".." then walk tree here.dropLast rest
      else if isTooLong component then .error .nameTooLong
      else walk tree (here ++ [component]) rest

/-- The components of a path to walk. -/
def steps (path : Path) : List String := (Text.parts '/' path).filter (!·.isEmpty)

/-- Whether a path ends in a separator, and so asks for a directory. -/
def endsOpen (path : Path) : Bool := path.toList.getLast? == some '/'

/-- The names that a path leads to, whether or not a node is there. -/
def locate (tree : FileTree) (path : Path) : Except IoError (List String) :=
  match pathFault? path with
  | some e => .error e
  | none => tree.walk [] (steps path ++ if endsOpen path then ["."] else [])

/-- The node at a path. -/
def find (tree : FileTree) (path : Path) : Except IoError Node :=
  match tree.locate path with
  | .error e => .error e
  | .ok names =>
    match tree.node? names with
    | none => .error .notFound
    | some node => .ok node

/-- Whether a directory is at the path. -/
def isDirectory (tree : FileTree) (path : Path) : Bool :=
  match tree.find path with
  | .ok (.directory _) => true
  | _ => false

/-- Where an entry stands. -/
structure Place where
  /-- The names that lead to its directory. -/
  directory : List String
  /-- Its name there; none for a path whose last component is not a name. -/
  name : Option String

/-- Where the entry at a path stands, in a directory that is there. -/
def place (tree : FileTree) (path : Path) : Except IoError Place :=
  match pathFault? path with
  | some e => .error e
  | none =>
    match tree.walk [] (steps path).dropLast with
    | .error e => .error e
    | .ok names =>
      match tree.node? names with
      | none => .error .notFound
      | some (.file _ _) => .error .notADirectory
      | some (.directory _) =>
        .ok ⟨names, (steps path).getLast?.filter fun c => c != "." && c != ".."⟩

/-! ## Reading and writing -/

def modified (tree : FileTree) (path : Path) : Except IoError Time :=
  (tree.find path).map Node.modified

def read (tree : FileTree) (path : Path) : Except IoError Contents :=
  match tree.find path with
  | .error e => .error e
  | .ok (.directory _) => .error .isADirectory
  | .ok (.file contents _) => .ok contents

/-- Puts a file with the time of the clock where the names lead. -/
def putContents (tree : FileTree) (names : List String) (contents : Contents) : FileTree :=
  let tree :=
    match tree.node? names with
    | some _ => tree
    | none => tree.touchDirectory names.dropLast
  tree.put names (.file contents tree.clock)

/-- Gives a file new contents, or makes one where none is. -/
def write (path : Path) (contents : Contents) (tree : FileTree) : Except IoError Unit × FileTree :=
  match tree.place path with
  | .error e => (.error e, tree)
  | .ok ⟨_, none⟩ => (.error .isADirectory, tree)
  | .ok ⟨directory, some name⟩ =>
    if isTooLong name then (.error .nameTooLong, tree)
    else
      match tree.node? (directory ++ [name]), endsOpen path with
      | some (.directory _), _ => (.error .isADirectory, tree)
      | some (.file _ _), true => (.error .notADirectory, tree)
      | none, true => (.error .isADirectory, tree)
      | _, false => (.ok (), tree.putContents (directory ++ [name]) contents)

/-! ## Drafts -/

/-- Where a walk along components from `here` goes on to. -/
def onward (here : List String) (component : String) : List String :=
  if component = "." then here
  else if component = ".." then here.dropLast
  else here ++ [component]

/-- The names that a walk along components goes through, to the last ones. -/
def wayFrom (here : List String) : List String → List (List String)
  | [] => [here]
  | component :: rest => here :: wayFrom (onward here component) rest

/-- The names that a path goes through, whatever is there. -/
def way (path : Path) : List (List String) :=
  wayFrom [] (steps path ++ if endsOpen path then ["."] else [])

/-- The names that a path leads to, whatever is there. -/
def destination (path : Path) : List String := (steps path).foldl onward []

/-- A name for a draft. -/
def draftName (n : Nat) : String := ".tmp" ++ toString (100000 + n)

/-- Whether a draft can be made at a path for the file at another: nothing is there, and the
path of the file does not go through it. -/
def isFree (tree : FileTree) (path draft : Path) : Bool :=
  !(tree.find draft).toBool && !(way path).contains (destination draft)

/-- Paths of drafts for the file at a path, one more than there are nodes and names on the way
to the file. -/
def draftPaths (tree : FileTree) (path : Path) : List Path :=
  (List.range (tree.nodes.length + (way path).length + 1)).map fun n =>
    Path.join (Path.parent path) (draftName n)

/-- Makes an empty draft, at the first path that is free. -/
def createDraft (path : Path) (tree : FileTree) : Except IoError Path × FileTree :=
  match (tree.draftPaths path).find? (tree.isFree path) with
  | none => (.error .alreadyExists, tree)
  | some draft =>
    match tree.write draft (.text "") with
    | (.error e, tree) => (.error e, tree)
    | (.ok (), tree) => (.ok draft, tree)

def append (text : String) (path : Path) (tree : FileTree) : Except IoError Unit × FileTree :=
  match tree.read path with
  | .error e => (.error e, tree)
  | .ok contents => tree.write path (contents.append text)

/-- Removes the file at a path. -/
def discard (path : Path) (tree : FileTree) : FileTree :=
  match tree.locate path, tree.find path with
  | .ok names, .ok (.file _ _) => (tree.erase names).touchDirectory names.dropLast
  | _, _ => tree

/-- Puts a draft in the place of the file at a path, or where none is. -/
def rename (draft path : Path) (tree : FileTree) : Except IoError Unit × FileTree :=
  if path.toList.contains '\x00' then (.error .invalidArgument, tree)
  else
    match tree.place path with
    | .error e => (.error e, tree)
    | .ok ⟨_, none⟩ => (.error .busy, tree)
    | .ok ⟨directory, some name⟩ =>
      if isTooLong name then (.error .nameTooLong, tree)
      else if endsOpen path then (.error .notADirectory, tree)
      else
        match tree.node? (directory ++ [name]), tree.read draft with
        | some (.directory _), _ => (.error .isADirectory, tree)
        | _, .error e => (.error e, tree)
        | _, .ok contents =>
          (.ok (), ((tree.discard draft).touchDirectory directory).putContents
            (directory ++ [name]) contents)

/-! ## Directories -/

/-- Makes a directory in one that is there. -/
def makeDirectory (path : Path) (tree : FileTree) : Except IoError Unit × FileTree :=
  match tree.place path with
  | .error e => (.error e, tree)
  | .ok ⟨_, none⟩ => (.error .alreadyExists, tree)
  | .ok ⟨directory, some name⟩ =>
    if isTooLong name then (.error .nameTooLong, tree)
    else
      match tree.node? (directory ++ [name]) with
      | some _ => (.error .alreadyExists, tree)
      | none =>
        (.ok (), (tree.touchDirectory directory).put (directory ++ [name]) (.directory tree.clock))

/-- Makes a directory unless it is there. -/
def ensureDirectory (path : Path) (tree : FileTree) : Except IoError Unit × FileTree :=
  match tree.makeDirectory path with
  | (.error .alreadyExists, _) =>
    (if tree.isDirectory path then .ok () else .error .alreadyExists, tree)
  | made => made

/-- Makes the first of the directories, each of which is inside the next one, and
of the others those that are missing. -/
def makeFirst (tree : FileTree) : List Path → Except IoError Unit × FileTree
  | [] => (.ok (), tree)
  | path :: above =>
    match tree.ensureDirectory path with
    | (.error .notFound, _) =>
      match tree.makeFirst above with
      | (.error e, tree) => (.error e, tree)
      | (.ok (), tree) => tree.ensureDirectory path
    | made => made

def makeDirectories (path : Path) (tree : FileTree) : Except IoError Unit × FileTree :=
  tree.makeFirst (Path.ancestors path)

instance : Files FileTree where
  modified := modified
  read := read
  createDraft := createDraft
  append := append
  flush _ tree := (.ok (), tree)
  rename := rename
  discard := discard
  write := write
  makeDirectories := makeDirectories

/-! ## Changes from outside -/

/-- Removes what is at a path, and all that is inside it.  A directory named by
`.` or `..` is emptied and stays. -/
def remove (path : Path) (tree : FileTree) : FileTree :=
  match tree.find path, tree.locate path, tree.place path with
  | .ok _, .ok names, .ok place =>
    let stays := place.name.isNone
    let inside (n : List String) : Bool := names.isPrefixOf n && !(stays && n == names)
    { tree with nodes := tree.nodes.filter fun (n, _) => !inside n }
  | _, _, _ => tree

/-- Puts a file of the given time at a path, with the directories above it. -/
def putFile (path : Path) (contents : Contents) (time : Time) (tree : FileTree) : FileTree :=
  let tree := (tree.makeDirectories (Path.parent path)).2
  match tree.place path with
  | .ok ⟨directory, some name⟩ =>
    match tree.node? (directory ++ [name]) with
    | some (.directory _) => tree
    | _ => tree.put (directory ++ [name]) (.file contents time)
  | _ => tree

/-- The names of the entries of a directory, ascending. -/
def entries (tree : FileTree) (path : Path) : NameSet :=
  match tree.locate path with
  | .error _ => []
  | .ok names =>
    NameSet.ofList (tree.nodes.filterMap fun (n, _) =>
      if n.dropLast = names then n.getLast? else none)

end FileTree

end MusicCollections
