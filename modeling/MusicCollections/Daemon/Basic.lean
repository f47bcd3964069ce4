/-
# The daemon

What the library asks of a music daemon.  Every call may fail.  Positions in the
queue count from 1, and name entries of the queue as it was before the call.
-/

import MusicCollections.Effect
import MusicCollections.Track

namespace MusicCollections

/-- A call of a daemon whose state is a `δ`. -/
abbrev Daemon.Call (δ α : Type) := δ → Except Failure α × δ

/-- The calls of a daemon whose state is a `δ`. -/
class Daemon (δ : Type) where
  /-- Fails when the daemon cannot be reached. -/
  connect : Daemon.Call δ Unit
  /-- A marker that changes with the daemon's track database. -/
  databaseStamp : Daemon.Call δ String
  /-- Every track, in the daemon's order. -/
  listTracks : Daemon.Call δ (List Track)
  storedPlaylists : Daemon.Call δ (List String)
  storedPlaylistTracks : String → Daemon.Call δ (List String)
  /-- The files in the queue. -/
  queueFiles : Daemon.Call δ (List String)
  /-- Appends to the queue. -/
  add : List String → Daemon.Call δ Unit
  /-- Inserts after the current track. -/
  insert : List String → Daemon.Call δ Unit
  removePositions : List Nat → Daemon.Call δ Unit
  playPosition : Nat → Daemon.Call δ Unit
  /-- Empties the queue. -/
  clear : Daemon.Call δ Unit
  /-- Removes all but the current track. -/
  crop : Daemon.Call δ Unit
  /-- Rescans the music directory, to the end. -/
  update : Daemon.Call δ Unit

/-- What becomes of a queue when the entries at `positions` are removed. -/
def Daemon.withoutPositions (positions : List Nat) (queue : List String) : List String :=
  (queue.zipIdx.filter fun (_, i) => !positions.contains (i + 1)).map Prod.fst

end MusicCollections
