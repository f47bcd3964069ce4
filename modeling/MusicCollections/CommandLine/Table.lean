/-
# The table of commands

| command | operands |
| --- | --- |
| `playlist add`, `addp`, `insert`, `replace`, `remove`, `keep`, `play` | words of an expression |
| `playlist clear`, `crop` | |
| `collections list`, `check` | |
| `collections show` | expressions |
| `collections define` | a name and words of an expression |
| `collections delete` | a name |
| `database update` | |
| `database check` | words of an expression, `all` if there are none |
| `completion` | a shell |
| `complete-collections` | |
-/

import MusicCollections.CommandLine.Basic

namespace MusicCollections
namespace CommandLine

/-- A command that takes operands. -/
structure Leaf where
  name : String
  aliases : List String := []
  /-- The most operands it takes, if there is a limit. -/
  most : Option Nat := some 0
  /-- Whether a word can be an operand. -/
  admits : String → Bool := fun _ => true
  /-- What it asks for with the operands; `none` if one is missing. -/
  request : List String → Option Request

/-- A command, or a group of commands. -/
inductive Entry where
  | single (leaf : Leaf)
  | group (name : String) (aliases : List String) (members : List Leaf)

/-- The names that a command answers to. -/
def Leaf.names (leaf : Leaf) : List String := leaf.name :: leaf.aliases

def Entry.name : Entry → String
  | .single leaf => leaf.name
  | .group name _ _ => name

/-- The names that a command or group answers to. -/
def Entry.names : Entry → List String
  | .single leaf => leaf.names
  | .group name aliases _ => name :: aliases

/-- A command without operands. -/
def plainLeaf (name : String) (request : Request) : Leaf :=
  { name, request := fun _ => some request }

/-- A command that takes at least one operand. -/
def wordsLeaf (name : String) (request : Words → Request) : Leaf :=
  { name
    most := none
    request := fun
      | [] => none
      | words => some (request words) }

/-- A command that edits the queue. -/
def editLeaf (name : String) (how : QueueEdit) : Leaf :=
  wordsLeaf name fun words => .command (.queue (.edit how words))

/-- The commands on the queue. -/
def queueLeaves : List Leaf :=
  [editLeaf "add" .add, editLeaf "addp" .addAndPlay, editLeaf "insert" .insert,
    editLeaf "replace" .replace, { editLeaf "remove" .remove with aliases := ["rm"] },
    editLeaf "keep" .keep, editLeaf "play" .play,
    plainLeaf "clear" (.command (.queue .clear)), plainLeaf "crop" (.command (.queue .crop))]

def defineLeaf : Leaf :=
  { name := "define"
    most := none
    request := fun
      | name :: word :: words => some (.command (.collections (.define name (word :: words))))
      | _ => none }

def deleteLeaf : Leaf :=
  { name := "delete"
    most := some 1
    request := fun
      | name :: _ => some (.command (.collections (.delete name)))
      | [] => none }

/-- The commands on collections. -/
def collectionsLeaves : List Leaf :=
  [plainLeaf "list" (.command (.collections .list)),
    wordsLeaf "show" fun texts => .command (.collections (.showTracks texts)),
    defineLeaf, deleteLeaf, plainLeaf "check" (.command (.collections .check))]

def checkLeaf : Leaf :=
  { name := "check"
    most := none
    request := fun words =>
      let words := if words.isEmpty then [Expression.allName] else words
      some (.command (.database (.check words))) }

/-- The commands on the database. -/
def databaseLeaves : List Leaf :=
  [plainLeaf "update" (.command (.database .update)), checkLeaf]

def completionLeaf : Leaf :=
  { name := "completion"
    most := some 1
    admits := fun word => (Shell.ofName? word).isSome
    request := fun operands => (operands.head?.bind Shell.ofName?).map .completion }

/-- What stands first on a command line. -/
def entries : List Entry :=
  [.group "playlist" [] queueLeaves, .group "collections" [] collectionsLeaves,
    .group "database" ["db"] databaseLeaves, .single completionLeaf,
    .single (plainLeaf "complete-collections" .collectionNames)]

/-- The command that asks for help. -/
def helpName : String := "help"

/-- The command of a name. -/
def leaf? (leaves : List Leaf) (name : String) : Option Leaf :=
  leaves.find? (·.names.contains name)

/-- The command or group of a name. -/
def entryNamed (name : String) : Option Entry := entries.find? (·.names.contains name)

end CommandLine
end MusicCollections
