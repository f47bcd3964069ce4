/-
# Sessions

A session is one use of the library: it starts by bringing catalog, playlists and
collections up to date, resolves and changes collections, and ends by saving the
definitions file if a collection was defined or deleted.

A start asks the daemon before it looks at the definitions.  These come from the
cache unless the catalog changed or the file is newer than its snapshot; when
they come from the file, all results are computed anew and cached.
-/

import MusicCollections.Session.World
import MusicCollections.Store.Snapshot

namespace MusicCollections

/-- A session in progress. -/
structure Session (φ κ δ : Type) extends World φ κ δ where
  catalog : Catalog
  store : Store
  /-- The definitions file. -/
  path : Path

namespace Session

variable {φ κ δ : Type} [Files φ] [Cache κ] [Daemon δ]

/-- Takes the definitions from the cache or the file. -/
def feed (force : Bool) (s : Session φ κ δ) : Except StoreError FeedOutcome × Session φ κ δ :=
  let (outcome, store, cache) := s.store.feed s.now s.files s.path force s.cache
  (outcome, { s with store, cache })

/-- Computes all results anew and caches them. -/
def updateCache (s : Session φ κ δ) : Session φ κ δ :=
  let (store, cache) := s.store.updateCache s.now s.catalog s.cache
  { s with store, cache }

/-- The collections of a session whose catalog is known, and whether it changed. -/
def startWith (path : Path) (catalog : Catalog) (changed : Bool) (w : World φ κ δ) :
    Except Failure (Session φ κ δ) × World φ κ δ :=
  match feed changed { w with catalog, store := .empty, path } with
  | (.error e, s) => (.error ((Failure.ofCause (.store e)).within .loadingCollections), s.toWorld)
  | (.ok .cache, s) => (.ok s, s.toWorld)
  | (.ok .file, s) => (.ok s.updateCache, s.updateCache.toWorld)

/-- Starts a session on a definitions file.  The world is given back changed also
when that fails. -/
def start (path : Path) (w : World φ κ δ) : Except Failure (Session φ κ δ) × World φ κ δ :=
  let loading : Effect (World φ κ δ) (Catalog × Bool) := do
    World.ask Daemon.connect
    World.loadCatalog false
  match loading.runOn w with
  | (.error f, w) => (.error f, w)
  | (.ok (catalog, changed), w) => startWith path catalog changed w

/-- The files that the expression spelled by a text selects. -/
def resolve (s : Session φ κ δ) (text : String) : Except Failure (List String) :=
  match parseExpression text with
  | .error e => .error (.ofCause (.expression e))
  | .ok e =>
    (evaluate s.catalog s.store e).mapError fun e =>
      (Failure.ofCause (.evaluation e)).within (.resolving text)

/-- Computes all results anew; gives the failures, in store order. -/
def refreshResults (s : Session φ κ δ) : List (String × EvalError) × Session φ κ δ :=
  let (failures, store) := s.store.refreshResults s.catalog
  (failures, { s with store })

/-- Saves the definitions file if a definition changed. -/
def flush (s : Session φ κ δ) : Except StoreError Unit × Session φ κ δ :=
  if s.store.dirty then
    let (outcome, store, files) := s.store.persist s.now s.path s.files
    (outcome, { s with store, files })
  else (.ok (), s)

/-- Ends the session: saves what changed and gives the world back. -/
def close (s : Session φ κ δ) : Except StoreError Unit × World φ κ δ :=
  let (outcome, s) := s.flush
  (outcome, s.toWorld)

/-- What a use of the library came to, from the outcome of what was done and the
outcome of closing the session. -/
def conclude (result : Except Failure Unit) (closed : Except StoreError Unit) :
    Except Failure Unit :=
  match result, closed with
  | result, .ok () => result
  | .ok (), .error e => .error (.ofCause (.store e))
  | .error f, .error e => .error (f.within (.savingFailed e))

/-- **Neither failure is lost.** -/
theorem conclude_eq_ok_iff {result : Except Failure Unit} {closed : Except StoreError Unit} :
    conclude result closed = .ok () ↔ result = .ok () ∧ closed = .ok () := by
  rcases result with _ | _ <;> rcases closed with _ | _ <;> simp [conclude]

end Session

end MusicCollections
