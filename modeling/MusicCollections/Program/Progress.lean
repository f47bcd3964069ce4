/-
# Runs that wait for the client

A run is a function of what it finds, so it can be repeated from the start each
time that one more answer of the client is known, until none is missing.
-/

import MusicCollections.Daemon.Transcript
import MusicCollections.Program.Run

namespace MusicCollections

/-- What a run comes to with the answers known so far. -/
inductive Progress (φ : Type) where
  | ended (exit : Exit) (files : φ)
  /-- The run waits for the client to be run. -/
  | waits (run : ClientRun)

namespace Program

variable {φ : Type} [Files φ]

/-- Runs the program with the answers known so far. -/
def advance (start : Start) (files : φ) (answers : List (Except IoError Printed)) : Progress φ :=
  let (exit, machine) := run start { files, runner := ({ answers } : Transcript) }
  match machine.runner.missing with
  | some clientRun => .waits clientRun
  | none => .ended exit machine.files

/-- The configuration file that a run looks at. -/
def configPath (e : Environment) (options : Options) : Option Path :=
  match options.config with
  | some path => some path
  | none => (e.directory e.xdgConfig ".config").map (Path.join · "mpdc/config.json")

/-- The files that a run looks at or writes, as far as the files known tell. -/
def paths (start : Start) (files : φ) : List Path :=
  match CommandLine.read start.config start.words with
  | .error _ => []
  | .ok ⟨options, _⟩ =>
    let e := start.environment
    let found := match ((Configuration.load e options.config).runOn files).1 with
      | .error _ => []
      | .ok c =>
        let collections := ((c.collectionsPath e).runOn files).1
        let cache := ((e.cachePath (options.profile.getD c.defaultProfile)).runOn files).1
        collections.toOption.toList ++ cache.toOption.toList
    (configPath e options).toList ++ found

end Program

end MusicCollections
