/-
# Editing the queue

The tracks that the expression selects are known before the daemon is asked to
change anything, so an expression that fails changes nothing.  Positions are
taken from one listing of the queue, and removed in one call.
-/

import MusicCollections.Command.Basic
import Std.Data.HashSet

namespace MusicCollections

/-- The positions, counted from 1, of the queued files that `chosen` picks. -/
def queuePositions (queue : List String) (chosen : String → Bool) : List Nat :=
  (queue.zipIdx.filter fun (file, _) => chosen file).map fun (_, i) => i + 1

/-- Whether a file is among those of a list, for many look-ups. -/
def memberOf (files : List String) : String → Bool :=
  let set := Std.HashSet.ofList files
  fun file => set.contains file

/-- The hashed set answers as the list does. -/
theorem memberOf_eq_contains (files : List String) (file : String) :
    memberOf files file = files.contains file := by
  simp [memberOf]

namespace Session

variable {φ κ δ : Type} [Files φ] [Cache κ] [Daemon δ]

/-- Removes the queued files that `chosen` picks. -/
def removeQueued (chosen : String → Bool) : Effect (Session φ κ δ) Unit := do
  let queue ← ask Daemon.queueFiles
  ask (Daemon.removePositions (queuePositions queue chosen))

/-- Plays the first queued file that `chosen` picks, if there is one. -/
def playQueued (chosen : String → Bool) : Effect (Session φ κ δ) Unit := do
  let queue ← ask Daemon.queueFiles
  match queuePositions queue chosen with
  | [] => pure ()
  | position :: _ => ask (Daemon.playPosition position)

/-- Does with the files what the edit says. -/
def editQueue (files : List String) : QueueEdit → Effect (Session φ κ δ) Unit
  | .add => ask (Daemon.add files)
  | .addAndPlay =>
    if files.isEmpty then pure ()
    else do
      let queue ← ask Daemon.queueFiles
      ask (Daemon.add files)
      ask (Daemon.playPosition (queue.length + 1))
  | .insert => ask (Daemon.insert files)
  | .replace => do
    ask Daemon.clear
    ask (Daemon.add files)
  | .remove => removeQueued (memberOf files)
  | .keep => removeQueued fun file => !memberOf files file
  | .play => playQueued (memberOf files)

/-- Carries out an action on the queue. -/
def actOnQueue : QueueAction → Effect (Session φ κ δ) Unit
  | .clear => ask Daemon.clear
  | .crop => ask Daemon.crop
  | .edit how words => do
    let files ← .ofState (·.resolve words.text)
    editQueue files how

end Session
end MusicCollections
