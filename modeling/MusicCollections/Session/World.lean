/-
# What a session works on

A file system, a cache, a daemon and the time.  From them a session takes its
catalog:

* the tracks come from the cache if it has the stamp that the daemon's database
  has now, and else from the daemon, with their tags normalized;
* the playlists always come from the daemon.

What was fetched is cached, the tracks before their stamp.
-/

import MusicCollections.Cache.Entries
import MusicCollections.Daemon.Basic

namespace MusicCollections

/-- The surroundings of a session, all of which outlive it. -/
structure World (φ κ δ : Type) where
  files : φ
  cache : κ
  daemon : δ
  now : Time

namespace World

variable {φ κ δ α : Type}

/-- A call of the daemon. -/
def ask (call : Daemon.Call δ α) : Effect (World φ κ δ) α :=
  .onPart (·.daemon) (fun daemon w => { w with daemon }) (.ofFunction call)

/-- A call changes nothing but the daemon. -/
@[simp] theorem runOn_ask (call : Daemon.Call δ α) (w : World φ κ δ) :
    (ask call).runOn w = ((call w.daemon).1, { w with daemon := (call w.daemon).2 }) := rfl

variable [Cache κ]

/-- The cache entry under a key, if it has the shape `shape?`. -/
def cached (shape? : Json → Option α) (key : String) : Effect (World φ κ δ) (Option α) :=
  .ofFunction fun w =>
    let (found, cache) := Cache.readAs shape? key w.cache
    (.ok found, { w with cache })

/-- Writes a cache entry. -/
def keep (key : String) (value : Json) : Effect (World φ κ δ) Unit :=
  .change fun w => { w with cache := Cache.write w.now key value w.cache }

/-- A look at the cache changes nothing else, and cannot fail. -/
@[simp] theorem runOn_cached (shape? : Json → Option α) (key : String) (w : World φ κ δ) :
    (cached shape? key).runOn w =
      (.ok (Cache.readAs shape? key w.cache).1,
        { w with cache := (Cache.readAs shape? key w.cache).2 }) := rfl

/-- Neither does a write to it. -/
@[simp] theorem runOn_keep (key : String) (value : Json) (w : World φ κ δ) :
    (keep key value).runOn w =
      (.ok (), { w with cache := Cache.write w.now key value w.cache }) := rfl

variable [Daemon δ]

/-- The cached tracks, if they were cached under the stamp. -/
def cachedTracks (stamp : String) : Effect (World φ κ δ) (Option (List Track)) := do
  let known ← cached Json.string? Cache.Key.stamp
  if known = some stamp then cached (Json.list? Track.ofJson?) Cache.Key.tracks else pure none

/-- Fetches the tracks and caches them under the stamp. -/
def fetchTracks (stamp : String) : Effect (World φ κ δ) (List Track) := do
  let listed ← ask Daemon.listTracks
  let tracks := listed.map Track.normalize
  keep Cache.Key.tracks (.array (tracks.map Track.toJson))
  keep Cache.Key.stamp (.string stamp)
  pure tracks

/-- The tracks, and whether they were fetched, which they always are if `force`. -/
def loadTracks (force : Bool) : Effect (World φ κ δ) (List Track × Bool) := do
  let stamp ← ask Daemon.databaseStamp
  let known ← if force then pure none else cachedTracks stamp
  match known with
  | some tracks => pure (tracks, false)
  | none => do
    let tracks ← fetchTracks stamp
    pure (tracks, true)

/-- Adds the playlists of the names to those in `done`; of two with one name the
later counts. -/
def fetchPlaylists (done : Playlists) : List String → Effect (World φ κ δ) Playlists
  | [] => pure done
  | name :: names => do
    let files ← ask (Daemon.storedPlaylistTracks name)
    fetchPlaylists (done.insert name files) names

/-- The playlists, and whether they differ from the cached ones, which they then
replace. -/
def loadPlaylists : Effect (World φ κ δ) (Playlists × Bool) := do
  let names ← ask Daemon.storedPlaylists
  let playlists ← fetchPlaylists [] names
  let known ← cached Playlists.ofJson? Cache.Key.playlists
  if known = some playlists then pure (playlists, false)
  else do
    keep Cache.Key.playlists playlists.toJson
    pure (playlists, true)

/-- The catalog, and whether it changed since it was cached. -/
def loadCatalog (force : Bool) : Effect (World φ κ δ) (Catalog × Bool) := do
  let (tracks, fetched) ← loadTracks force
  let (playlists, changed) ← loadPlaylists
  pure (.ofTracks tracks playlists, fetched || changed)

end World

end MusicCollections
