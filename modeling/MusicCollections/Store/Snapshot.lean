/-
# Snapshots of the store in the cache

Definitions and results are kept in the cache, and taken from there when the
entry was written no earlier than the definitions file was changed.  Otherwise
the file is read, and a new snapshot is taken.
-/

import MusicCollections.Cache.Entries
import MusicCollections.Store.Persistence
import MusicCollections.Store.Results

namespace MusicCollections

/-- Where definitions were taken from. -/
inductive FeedOutcome where
  | cache
  | file
  deriving DecidableEq, Repr

namespace Store

variable {φ κ : Type} [Files φ] [Cache κ]

/-- The collections of the store as the cache keeps them. -/
def snapshot (store : Store) : Json :=
  .array (store.collections.map fun c => (CachedCollection.ofCollection c).toJson)

def writeSnapshot (now : Time) (store : Store) (cache : κ) : κ :=
  Cache.write now Cache.Key.collections store.snapshot cache

/-- The snapshot in the cache and when it was written, if that is not before the
definitions file was changed. -/
def freshSnapshot? (modified : Time) (cache : κ) :
    Option (Time × List CachedCollection) × κ :=
  match Cache.lastModified Cache.Key.collections cache with
  | (none, cache) => (none, cache)
  | (some written, cache) =>
    if written < modified then (none, cache)
    else
      let (snapshot, cache) :=
        Cache.readAs (Json.list? CachedCollection.ofJson?) Cache.Key.collections cache
      (snapshot.map (written, ·), cache)

/-- The store that a snapshot written at a time stands for. -/
def ofSnapshot (path : Path) (written : Time) (entries : List CachedCollection) : Store :=
  { collections := entries.map (·.toCollection), source := some ⟨path, written⟩, dirty := false }

/-- Loads the definitions file and takes a snapshot. -/
def feedFromFile (now : Time) (files : φ) (path : Path) (store : Store) (cache : κ) :
    Except StoreError FeedOutcome × Store × κ :=
  match store.load files path true with
  | (.error e, store) => (.error e, store, cache)
  | (.ok _, store) => (.ok .file, store, store.writeSnapshot now cache)

/-- Takes the definitions from the cache or from the file, always from the file
if `force`. -/
def feed (now : Time) (files : φ) (path : Path) (force : Bool) (store : Store) (cache : κ) :
    Except StoreError FeedOutcome × Store × κ :=
  match Files.modified files path with
  | .error e => (.error (.unreadable path e), store, cache)
  | .ok modified =>
    if force then feedFromFile now files path store cache
    else
      match freshSnapshot? modified cache with
      | (some (written, entries), cache) => (.ok .cache, ofSnapshot path written entries, cache)
      | (none, cache) => feedFromFile now files path store cache

/-- Refreshes all results and takes a snapshot. -/
def updateCache (now : Time) (catalog : Catalog) (store : Store) (cache : κ) : Store × κ :=
  let store := (store.refreshResults catalog).2
  (store, store.writeSnapshot now cache)

end Store

end MusicCollections
