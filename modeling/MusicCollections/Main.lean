/-
# The program `mpdc`

Reads the files that a run looks at, repeats the run until the daemon's client
has answered everything, writes the files that changed, and prints.

The client is run by a relay: the directory named by `MPDC_RELAY` holds two
pipes, `request`, which is given the arguments and the input of a run as a JSON
array, and `reply`, which gives the exit code and the two outputs as another.
Without a relay there is no client.

Definitions files count as newer than any cache entry, so that they are always
read.
-/

import MusicCollections.Files.Tree
import MusicCollections.Program.Progress

namespace MusicCollections
namespace Main

/-- Puts what is at a path into the tree. -/
def look (tree : FileTree) (path : Path) : IO FileTree := do
  try
    let bytes ← IO.FS.readBinFile path
    pure (tree.putFile path (.ofBytes bytes.toList) 1)
  catch
    | .inappropriateType .. => pure (Files.makeDirectories path tree).2
    | _ => pure tree

/-- The files that a run looks at.  The configuration tells of further files, so
they are looked for twice. -/
def lookAround (start : Start) : IO FileTree := do
  let first ← (Program.paths start ({} : FileTree)).foldlM look {}
  (Program.paths start first).foldlM look {}

/-- What a relay replied. -/
def printedOf? (reply : String) : Option Printed :=
  match Json.parse reply with
  | .ok (.array [.int code, .string out, .string err]) =>
    some { code := .ofInt code, out := out.toUTF8.toList, err := err.toUTF8.toList }
  | _ => none

/-- Runs the client by the relay. -/
def askRelay (relay : Option String) (run : ClientRun) : IO (Except IoError Printed) := do
  match relay with
  | none => pure (.error .notFound)
  | some directory => do
    let request := Json.array [Json.ofStrings run.args, .string run.input]
    IO.FS.writeFile (directory ++ "/request") (request.render ++ "\n")
    let reply ← IO.FS.readFile (directory ++ "/reply")
    pure ((printedOf? reply).elim (.error Transcript.unanswered) .ok)

/-- Repeats a run until the client has answered everything. -/
partial def converse (relay : Option String) (start : Start) (files : FileTree)
    (answers : List (Except IoError Printed)) : IO (Exit × FileTree) := do
  match Program.advance start files answers with
  | .ended exit files => pure (exit, files)
  | .waits run => do
    let answer ← askRelay relay run
    converse relay start files (answers ++ [answer])

/-- Writes a file that changed, in whole or not at all. -/
def store (before after : FileTree) (path : Path) : IO Unit := do
  let contents := (Files.read after path).toOption
  match contents with
  | none => pure ()
  | some c =>
    if (Files.read before path).toOption ≠ contents then
      IO.FS.createDirAll (Path.parent path)
      IO.FS.writeBinFile (path ++ ".new") (ByteArray.mk c.toBytes.toArray)
      IO.FS.rename (path ++ ".new") path

/-- What the program is started with. -/
def startWith (words : List String) : IO Start := do
  let environment : Environment :=
    { home := ← IO.getEnv "HOME"
      xdgConfig := ← IO.getEnv "XDG_CONFIG_HOME"
      xdgData := ← IO.getEnv "XDG_DATA_HOME"
      cwd := (← IO.currentDir).toString }
  pure { words, environment, config := ← IO.getEnv "MPDC_CONFIG" }

/-- Runs the program. -/
def run (words : List String) : IO UInt32 := do
  let start ← startWith words
  let before ← lookAround start
  let (exit, after) ← converse (← IO.getEnv "MPDC_RELAY") start before []
  (Program.paths start after).forM (store before after)
  IO.print exit.out
  IO.eprint exit.err
  pure (UInt32.ofNat exit.code)

end Main
end MusicCollections

def main (words : List String) : IO UInt32 := MusicCollections.Main.run words
