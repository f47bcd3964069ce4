/-
# The cache

What is expensive to ask the daemon for is kept under a few keys, as JSON, with
the time it was written.  The cache only saves work: an entry that cannot be read
or does not have the shape expected is a miss, and a write that fails is not
noticed.  Reading may change the cache, since a cache may remember what it read.
-/

import MusicCollections.Files.Basic
import MusicCollections.Json.Shape

namespace MusicCollections

/-- The operations of a cache whose state is a `κ`. -/
class Cache (κ : Type) where
  contains : String → κ → Bool × κ
  read : String → κ → Option Json × κ
  /-- Writes an entry at a time. -/
  write : Time → String → Json → κ → κ
  lastModified : String → κ → Option Time × κ

/-- The entry under a key, if it has the shape `shape?`. -/
def Cache.readAs {κ α : Type} [Cache κ] (shape? : Json → Option α) (key : String) (cache : κ) :
    Option α × κ :=
  let (value, cache) := Cache.read key cache
  (value.bind shape?, cache)

namespace Cache.Key

/-- Definitions and results. -/
def collections : String := "collections"

/-- The daemon's marker of its track database. -/
def stamp : String := "db_stamp"

/-- The tracks of the daemon. -/
def tracks : String := "songs_tags"

/-- The stored playlists of the daemon. -/
def playlists : String := "playlists"

end Cache.Key

end MusicCollections
