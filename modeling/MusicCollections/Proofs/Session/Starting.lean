/-
# What is known of cached results

A start takes the tracks, the playlists and the collections from the cache where it
can, each by a sign of its own, and writes what it fetched as it goes; a refresh
fetches and writes everything.  Either may fail in between.

`Past` is what is known of the results in the cache: the catalog that they were found
in, and whether a start or a refresh has since failed after it changed the cached tracks
or playlists.  `Past.Kept` says that it is so: the cached results are those of that
catalog, and it is the cached catalog as long as nothing failed.  A start and a refresh
keep it, whether they succeed or fail (`Started.kept`, `kept_refresh`); what they do is
said once (`start_cases`, `refresh_cases`).
-/

import MusicCollections.Proofs.Operations.Snapshots
import MusicCollections.Proofs.Session.Loading
import MusicCollections.Session.Refresh

namespace MusicCollections

/-- What is known of the results in the cache. -/
structure Past where
  /-- The catalog that they were found in; `none` if there are none. -/
  basis : Option Catalog
  /-- Whether a start or a refresh failed since then after it changed the cached tracks
  or playlists. -/
  cut : Prop

namespace Past

variable {κ : Type} [Cache κ]

/-- Nothing was cached yet. -/
def empty : Past := ⟨none, False⟩

/-- Results were found in the catalog and cached. -/
def found (catalog : Catalog) : Past := ⟨some catalog, False⟩

/-- A start or a refresh failed. -/
def failed (past : Past) (before after : κ) : Past where
  basis := past.basis
  cut := past.cut ∨ ¬(Cache.entry Cache.Key.tracks after = Cache.entry Cache.Key.tracks before ∧
    Cache.entry Cache.Key.playlists after = Cache.entry Cache.Key.playlists before)

/-- A start succeeded with a catalog. -/
def started (past : Past) (catalog : Catalog) : (taken : Option FeedOutcome) → Past
  | some .file => found catalog
  | _ => past

/-- The results in the cache are those of the basis, and the cached catalog is the
basis unless something failed. -/
structure Kept (past : Past) (cache : κ) : Prop where
  missing : past.basis = none →
    Cache.valueAs (Json.list? CachedCollection.ofJson?) Cache.Key.collections cache = none
  results : ∀ basis, past.basis = some basis → ∃ store : Store, store.AsRead ∧
    Cache.valueAs (Json.list? CachedCollection.ofJson?) Cache.Key.collections cache =
      some ((store.refreshResults basis).2.collections.map CachedCollection.ofCollection)
  catalog : ∀ basis, past.basis = some basis → ¬past.cut → CachesCatalog cache basis

namespace Kept

variable {past : Past} {cache cache' : κ}

/-- A cache with the same entries has the same past. -/
theorem congr (h : past.Kept cache)
    (hsame : ∀ key, Cache.entry key cache' = Cache.entry key cache) : past.Kept cache' where
  missing hbasis := by
    rw [Cache.valueAs, hsame]
    exact h.missing hbasis
  results basis hbasis := by
    rw [Cache.valueAs, hsame]
    exact h.results basis hbasis
  catalog basis hbasis hcut := (h.catalog basis hbasis hcut).congr (hsame _) (hsame _)

/-- What fails leaves the results alone. -/
theorem failed (h : past.Kept cache) (hsame : Cache.entry Cache.Key.collections cache' =
    Cache.entry Cache.Key.collections cache) : (past.failed cache cache').Kept cache' where
  missing hbasis := by
    rw [Cache.valueAs, hsame]
    exact h.missing hbasis
  results basis hbasis := by
    rw [Cache.valueAs, hsame]
    exact h.results basis hbasis
  catalog basis hbasis hcut := by
    obtain ⟨huncut, hcatalog⟩ := not_or.1 hcut
    obtain ⟨ht, hp⟩ := not_not.1 hcatalog
    exact (h.catalog basis hbasis huncut).congr ht hp

variable [LawfulCache κ]

/-- Results that are found in the cached catalog and cached are those of the basis. -/
theorem found {catalog : Catalog} {store : Store} (hread : store.AsRead)
    (hcatalog : CachesCatalog cache catalog) (now : Time) :
    (Past.found catalog).Kept (store.updateCache now catalog cache).2 where
  missing hbasis := nomatch hbasis
  results basis hbasis := by
    obtain rfl := Option.some.inj hbasis
    exact ⟨store, hread, (Store.Snapshotted.of_updateCache hread.derived now _ cache).valueAs_eq⟩
  catalog basis hbasis _ := by
    obtain rfl := Option.some.inj hbasis
    exact hcatalog.congr (Cache.entry_write_of_ne (by decide) _ _ _)
      (Cache.entry_write_of_ne (by decide) _ _ _)

end Kept
end Past

namespace Store

variable {φ κ : Type} [Files φ] [Cache κ]

/-- A store that was taken from the file is as read. -/
theorem FedFromFile.asRead {files : φ} {path : Path} {force : Bool} {store : Store} {cache : κ}
    {modified : Time} {text : String}
    (h : FedFromFile files path force store cache modified text) : store.AsRead := by
  rw [h.store_eq]
  exact asRead_collectionsOf _ _ _

end Store

namespace Session

section Parts

variable {φ κ δ α : Type}

/-- A flush has nothing to do with the cache. -/
theorem cache_flush [Files φ] (s : Session φ κ δ) : s.flush.2.cache = s.cache := by
  rw [flush]
  split <;> rfl

/-- Nor with the catalog. -/
theorem catalog_flush [Files φ] (s : Session φ κ δ) : s.flush.2.catalog = s.catalog := by
  rw [flush]
  split <;> rfl

/-- A flush leaves the collections, whether or not they are written. -/
theorem collections_flush [Files φ] (s : Session φ κ δ) :
    s.flush.2.store.collections = s.store.collections := by
  rw [flush]
  split
  · exact Store.collections_persist s.now s.path s.store s.files
  · rfl

/-- What happens in the world leaves the rest of a session. -/
theorem runOn_onWorld (act : Effect (World φ κ δ) α) (s : Session φ κ δ) :
    (onWorld act).runOn s =
      ((act.runOn s.toWorld).1, { s with toWorld := (act.runOn s.toWorld).2 }) := rfl

/-- An operation of the store fails with its own error as the cause. -/
theorem runOn_storing (f : Session φ κ δ → Except StoreError α × Session φ κ δ)
    (s : Session φ κ δ) :
    (storing f).runOn s = ((f s).1.mapError fun e => .ofCause (.store e), (f s).2) := rfl

end Parts

section Starting

variable {φ κ δ : Type} [Files φ] [Cache κ] [Daemon δ]

/-- The session without the results of its collections. -/
def unaided (s : Session φ κ δ) : Session φ κ δ := { s with store := s.store.clearResults }

/-! ## Starting -/

/-- What a start does before it looks at the definitions. -/
def loading : Effect (World φ κ δ) (Catalog × Bool) := do
  World.ask Daemon.connect
  World.loadCatalog false

/-- A session about to take its collections. -/
def prepared (path : Path) (catalog : Catalog) (w : World φ κ δ) : Session φ κ δ :=
  { w with catalog, store := .empty, path }

/-- What is left to do with collections from the cache or the file. -/
def completed : FeedOutcome → Session φ κ δ → Session φ κ δ
  | .cache, fed => fed
  | .file, fed => fed.updateCache

/-- How a start that succeeds went: what it loaded, where it took the collections from,
and the session. -/
structure Started (path : Path) (w : World φ κ δ) (taken : FeedOutcome) (s : Session φ κ δ)
    (catalog : Catalog) (changed : Bool) (loaded : World φ κ δ) (fed : Session φ κ δ) : Prop where
  loaded_eq : loading.runOn w = (.ok (catalog, changed), loaded)
  fed_eq : feed changed (prepared path catalog loaded) = (.ok taken, fed)
  session_eq : s = completed taken fed

/-- Where a start takes the collections from, if it comes to that. -/
def takenFrom (path : Path) (w : World φ κ δ) : Option FeedOutcome :=
  match loading.runOn w with
  | (.error _, _) => none
  | (.ok (catalog, changed), loaded) => (feed changed (prepared path catalog loaded)).1.toOption

/-- A start loads the catalog, takes the collections, and finds results for those that come
from the file. -/
theorem start_eq (path : Path) (w : World φ κ δ) :
    start path w =
      match loading.runOn w with
      | (.error f, loaded) => (.error f, loaded)
      | (.ok (catalog, changed), loaded) =>
        match feed changed (prepared path catalog loaded) with
        | (.error e, fed) =>
          (.error ((Failure.ofCause (.store e)).within .loadingCollections), fed.toWorld)
        | (.ok .cache, fed) => (.ok fed, fed.toWorld)
        | (.ok .file, fed) => (.ok fed.updateCache, fed.updateCache.toWorld) := rfl

/-- **How a start goes.**  Loading the catalog fails, or taking the collections does, or
neither. -/
theorem start_cases (path : Path) (w : World φ κ δ) :
    (∃ f loaded, loading.runOn w = (.error f, loaded) ∧ start path w = (.error f, loaded)) ∨
    (∃ catalog changed loaded e fed, loading.runOn w = (.ok (catalog, changed), loaded) ∧
      feed changed (prepared path catalog loaded) = (.error e, fed) ∧
      start path w =
        (.error ((Failure.ofCause (.store e)).within .loadingCollections), fed.toWorld)) ∨
    ∃ taken s catalog changed loaded fed, Started path w taken s catalog changed loaded fed ∧
      start path w = (.ok s, s.toWorld) := by
  rw [start_eq]
  rcases hload : loading.runOn w with ⟨f | ⟨catalog, changed⟩, loaded⟩
  · exact .inl ⟨f, loaded, rfl, rfl⟩
  · dsimp only
    rcases hfed : feed changed (prepared path catalog loaded) with ⟨e | taken, fed⟩
    · exact .inr (.inl ⟨catalog, changed, loaded, e, fed, rfl, hfed, rfl⟩)
    · refine .inr (.inr ⟨taken, _, catalog, changed, loaded, fed, ⟨hload, hfed, rfl⟩, ?_⟩)
      cases taken <;> rfl

/-- A start that succeeds leaves the world of its session. -/
theorem start_ok {path : Path} {w w' : World φ κ δ} {s : Session φ κ δ}
    (h : start path w = (.ok s, w')) : w' = s.toWorld ∧
      ∃ taken catalog changed loaded fed, Started path w taken s catalog changed loaded fed := by
  rcases start_cases path w with ⟨f, loaded, -, hrun⟩ | ⟨_, _, _, e, fed, -, -, hrun⟩ |
    ⟨taken, t, catalog, changed, loaded, fed, hstarted, hrun⟩
  · cases h.symm.trans hrun
  · cases h.symm.trans hrun
  · obtain ⟨hs, rfl⟩ := Prod.mk.inj (h.symm.trans hrun)
    obtain rfl := Except.ok.inj hs
    exact ⟨rfl, taken, catalog, changed, loaded, fed, hstarted⟩

omit [Daemon δ] in
/-- A feed of a session is one of its store. -/
theorem feed_eq {force : Bool} {s fed : Session φ κ δ}
    {outcome : Except StoreError FeedOutcome} (h : feed force s = (outcome, fed)) :
    s.store.feed s.now s.files s.path force s.cache = (outcome, fed.store, fed.cache) ∧
      fed.catalog = s.catalog := by
  rw [feed] at h
  rcases hfed : s.store.feed s.now s.files s.path force s.cache with ⟨outcome', store, cache⟩
  rw [hfed] at h
  obtain ⟨rfl, rfl⟩ := Prod.mk.inj h
  exact ⟨rfl, rfl⟩

/-- The collections were taken from where the start takes them. -/
theorem Started.takenFrom_eq {path : Path} {w loaded : World φ κ δ} {taken : FeedOutcome}
    {s fed : Session φ κ δ} {catalog : Catalog} {changed : Bool}
    (h : Started path w taken s catalog changed loaded fed) : takenFrom path w = some taken := by
  rw [takenFrom, h.loaded_eq]
  simp only [h.fed_eq, Except.toOption]

/-- The session has the catalog that was loaded. -/
theorem Started.catalog_eq {path : Path} {w loaded : World φ κ δ}
    {taken : FeedOutcome} {s fed : Session φ κ δ} {catalog : Catalog} {changed : Bool}
    (h : Started path w taken s catalog changed loaded fed) : s.catalog = catalog := by
  rw [h.session_eq]
  cases taken <;> exact (feed_eq h.fed_eq).2

/-- A refresh after the catalog was loaded. -/
def reload (catalog : Catalog) : Effect (Session φ κ δ) Unit := do
  .change fun s => { s with catalog }
  storing flush
  let _ ← (storing (feed true)).attempting .reloadingCollections
  .change updateCache

/-- A refresh asks for a rescan, fetches the catalog and goes on with that. -/
theorem refresh_eq : (refresh : Effect (Session φ κ δ) Unit) =
    ask Daemon.update >>= fun _ => onWorld (World.loadCatalog true) >>= fun loaded =>
      reload loaded.1 := rfl

end Starting

section Cached

variable {φ κ δ : Type} [Cache κ] [Daemon δ] [LawfulCache κ]

/-- What comes before the definitions leaves the cached collections. -/
theorem spares_loading :
    World.Spares World.catalogKeys (loading : Effect (World φ κ δ) (Catalog × Bool)) :=
  World.spares_bind (World.spares_ask _ _) fun _ => World.spares_loadCatalog false

/-- The catalog of a start is the cached one, as it was if nothing changed. -/
theorem loading_ok {w loaded : World φ κ δ} {catalog : Catalog} {changed : Bool}
    (h : loading.runOn w = (.ok (catalog, changed), loaded)) :
    CachesCatalog loaded.cache catalog ∧
      (changed = false → ∀ key, Cache.entry key loaded.cache = Cache.entry key w.cache) := by
  obtain ⟨_, connected, hconnected, h⟩ := Effect.of_runOn_bind_ok h
  have hcache : connected.cache = w.cache := by rw [← (Prod.mk.inj hconnected).2]
  rw [← hcache]
  exact World.loadCatalog_ok h

variable [Files φ]

/-- A start that fails leaves the cached collections alone. -/
theorem entry_start_error {path : Path} {w w' : World φ κ δ} {f : Failure}
    (h : start path w = (.error f, w')) :
    Cache.entry Cache.Key.collections w'.cache = Cache.entry Cache.Key.collections w.cache := by
  have hspared := spares_loading w Cache.Key.collections (by decide)
  rcases start_cases path w with ⟨e, loaded, hload, hrun⟩ |
    ⟨catalog, changed, loaded, e, fed, hload, hfed, hrun⟩ | ⟨_, s, _, _, _, _, -, hrun⟩
  · obtain ⟨-, rfl⟩ := Prod.mk.inj (h.symm.trans hrun)
    rwa [hload] at hspared
  · obtain ⟨-, rfl⟩ := Prod.mk.inj (h.symm.trans hrun)
    rw [hload] at hspared
    exact ((Store.entry_feed (feed_eq hfed).1 _).2 nofun).trans hspared
  · cases h.symm.trans hrun

namespace Started

variable {path : Path} {w loaded : World φ κ δ} {taken : FeedOutcome} {s fed : Session φ κ δ}
  {catalog : Catalog} {changed : Bool}

/-- Collections from the cache mean that the cached catalog did not change. -/
theorem entry_of_cache (h : Started path w .cache s catalog changed loaded fed) (key : String) :
    Cache.entry key loaded.cache = Cache.entry key w.cache ∧
      Cache.entry key s.cache = Cache.entry key w.cache := by
  have hfeed := (feed_eq h.fed_eq).1
  have hforce : changed = false := by
    rcases Store.feed_ok hfeed with ⟨-, modified, written, entries, hcache⟩ | ⟨htaken, -⟩
    · exact hcache.unforced
    · cases htaken
  have hloaded := (loading_ok h.loaded_eq).2 hforce key
  refine ⟨hloaded, ?_⟩
  rw [h.session_eq]
  exact ((Store.entry_feed hfeed key).2 nofun).trans hloaded

/-- **A start keeps what is known of the cached results.** -/
theorem kept (h : Started path w taken s catalog changed loaded fed) {past : Past}
    (hpast : past.Kept w.cache) : (past.started catalog (some taken)).Kept s.cache := by
  cases taken with
  | cache => exact hpast.congr fun key => (h.entry_of_cache key).2
  | file =>
    obtain ⟨hfeed, hfed⟩ := feed_eq h.fed_eq
    have hcatalog : CachesCatalog fed.cache catalog :=
      (loading_ok h.loaded_eq).1.congr (Store.entry_feed_of_ne hfeed (by decide))
        (Store.entry_feed_of_ne hfeed (by decide))
    have hread : fed.store.AsRead := by
      rcases Store.feed_ok hfeed with ⟨htaken, -⟩ | ⟨-, modified, text, hfile⟩
      · cases htaken
      · exact hfile.asRead
    have hfound := Past.Kept.found hread hcatalog fed.now
    rw [h.session_eq]
    change (Past.found catalog).Kept (fed.store.updateCache fed.now fed.catalog fed.cache).2
    rwa [show fed.catalog = catalog from hfed]

/-- **The results of a session after its start** were found in the basis. -/
theorem collections_eq (h : Started path w taken s catalog changed loaded fed) {past : Past}
    (hpast : past.Kept w.cache) : ∃ basis, ∃ store : Store,
      (past.started catalog (some taken)).basis = some basis ∧ store.AsRead ∧
        s.store.collections = (store.refreshResults basis).2.collections := by
  obtain ⟨hfeed, hfed⟩ := feed_eq h.fed_eq
  rcases Store.feed_ok hfeed with ⟨rfl, modified, written, entries, hcache⟩ |
    ⟨rfl, modified, text, hfile⟩
  · -- A start that takes the snapshot found nothing changed, so it is the one cached before.
    have hloaded := (h.entry_of_cache Cache.Key.collections).1
    have hvalue := hcache.value
    change Cache.valueAs _ _ loaded.cache = _ at hvalue
    rw [Cache.valueAs, hloaded] at hvalue
    cases hbasis : past.basis with
    | none => cases (hpast.missing hbasis).symm.trans hvalue
    | some basis =>
      obtain ⟨store, hread, hentries⟩ := hpast.results basis hbasis
      obtain rfl := Option.some.inj (hentries.symm.trans hvalue)
      refine ⟨basis, store, hbasis, hread, ?_⟩
      rw [h.session_eq]
      change fed.store.collections = _
      rw [hcache.store_eq]
      exact Store.collections_ofSnapshot (Store.derived_refreshResults hread.derived basis) _ _
  · refine ⟨catalog, fed.store, rfl, hfile.asRead, ?_⟩
    rw [h.session_eq]
    change (fed.store.refreshResults fed.catalog).2.collections = _
    rw [show fed.catalog = catalog from hfed]

/-- Unless something failed, the basis is the catalog of the session. -/
theorem basis_eq (h : Started path w taken s catalog changed loaded fed) {past : Past}
    (hpast : past.Kept w.cache) {basis : Catalog}
    (hbasis : (past.started catalog (some taken)).basis = some basis)
    (huncut : ¬(past.started catalog (some taken)).cut) : basis = catalog := by
  cases taken with
  | cache =>
    have hcatalog := (loading_ok h.loaded_eq).1.congr (h.entry_of_cache Cache.Key.tracks).1.symm
      (h.entry_of_cache Cache.Key.playlists).1.symm
    exact (hpast.catalog basis hbasis huncut).unique hcatalog
  | file => exact (Option.some.inj hbasis).symm

end Started

/-! ## Refreshing -/

omit [Daemon δ] in
/-- **How the rest of a refresh goes.**  Either it fails and leaves the collections and the
cache, but not the catalog, or the collections are those of the file, with results found in the
catalog. -/
theorem reload_cases (catalog : Catalog) (s : Session φ κ δ) :
    (∃ f s', (reload catalog).runOn s = (.error f, s') ∧ s'.catalog = catalog ∧
      s'.store.collections = s.store.collections ∧
      ∀ key, Cache.entry key s'.cache = Cache.entry key s.cache) ∨
    ∃ fed : Session φ κ δ, (reload catalog).runOn s = (.ok (), fed.updateCache) ∧ fed.store.AsRead ∧
      fed.catalog = catalog ∧
      ∀ key, key ≠ Cache.Key.collections → Cache.entry key fed.cache = Cache.entry key s.cache := by
  have hflushed : (flush { s with catalog }).2.cache = s.cache := cache_flush _
  have hsame : (flush { s with catalog }).2.catalog = catalog := catalog_flush _
  have hkept : (flush { s with catalog }).2.store.collections = s.store.collections :=
    collections_flush _
  rw [reload, Effect.runOn_bind, Effect.runOn_change]
  dsimp only
  rw [Effect.runOn_bind, runOn_storing]
  -- The catalog is taken before the flush, so it stays whatever fails after that.
  rcases hflush : flush { s with catalog } with ⟨e | _, flushed⟩
  · rw [hflush] at hflushed hsame hkept
    refine .inl ⟨_, _, rfl, hsame, hkept, fun key => ?_⟩
    rw [show flushed.cache = s.cache from hflushed]
  · rw [hflush] at hflushed hsame hkept
    dsimp only [Except.mapError] at hflushed hsame hkept ⊢
    rw [Effect.runOn_bind, Effect.runOn_attempting, runOn_storing]
    rcases hfed : feed true flushed with ⟨e | taken, fed⟩
    · obtain ⟨hfeed, hcatalog⟩ := feed_eq hfed
      cases Store.feed_cases hfeed with
      | unreadable e hstore hentry =>
        refine .inl ⟨_, _, rfl, hcatalog.trans hsame, ?_, fun key => ?_⟩
        · dsimp only
          rw [hstore, hkept]
        · rw [← hflushed]
          exact hentry key
    · obtain ⟨hfeed, hcatalog⟩ := feed_eq hfed
      rcases Store.feed_ok hfeed with ⟨-, modified, written, entries, hcache⟩ |
        ⟨rfl, modified, text, hfile⟩
      -- A forced feed takes no snapshot.
      · cases hcache.unforced
      · refine .inr ⟨fed, rfl, hfile.asRead, hcatalog.trans hsame, fun key hkey => ?_⟩
        rw [← hflushed]
        exact Store.entry_feed_of_ne hfeed hkey

/-- **How a refresh goes.**  Either it fails and leaves the cached collections, or the
collections are those of the file, and results are found in the cached catalog. -/
theorem refresh_cases (s : Session φ κ δ) :
    (∃ f s', refresh.runOn s = (.error f, s') ∧
      Cache.entry Cache.Key.collections s'.cache = Cache.entry Cache.Key.collections s.cache) ∨
    ∃ fed : Session φ κ δ, refresh.runOn s = (.ok (), fed.updateCache) ∧ fed.store.AsRead ∧
      CachesCatalog fed.cache fed.catalog := by
  have hasked := World.spares_ask World.catalogKeys Daemon.update s.toWorld
    Cache.Key.collections (by decide)
  rw [refresh_eq, Effect.runOn_bind, ask, runOn_onWorld]
  rcases hask : (World.ask Daemon.update).runOn s.toWorld with ⟨e | _, asked⟩
  · rw [hask] at hasked
    exact .inl ⟨_, _, rfl, hasked⟩
  · rw [hask] at hasked
    dsimp only
    have hspared := World.spares_loadCatalog true asked Cache.Key.collections (by decide)
    rw [Effect.runOn_bind, runOn_onWorld]
    rcases hload : (World.loadCatalog true).runOn asked with ⟨e | ⟨catalog, changed⟩, loaded⟩
    · rw [hload] at hspared
      exact .inl ⟨_, _, rfl, hspared.trans hasked⟩
    · rw [hload] at hspared
      rcases reload_cases catalog { s with toWorld := loaded } with ⟨f, s', hrun, -, -, hentry⟩ |
        ⟨fed, hrun, hread, hcatalog, hentry⟩
      · exact .inl ⟨f, s', hrun, (hentry _).trans (hspared.trans hasked)⟩
      · refine .inr ⟨fed, hrun, hread, ?_⟩
        rw [hcatalog]
        exact (World.loadCatalog_ok hload).1.congr (hentry _ (by decide)) (hentry _ (by decide))

/-- **A refresh keeps what is known of the cached results**, whether it succeeds or
fails. -/
theorem kept_refresh {s s' : Session φ κ δ} {outcome : Except Failure Unit}
    (h : refresh.runOn s = (outcome, s')) {past : Past} (hpast : past.Kept s.cache) :
    (outcome = .ok () → (Past.found s'.catalog).Kept s'.cache) ∧
      (outcome ≠ .ok () → (past.failed s.cache s'.cache).Kept s'.cache) := by
  rcases refresh_cases s with ⟨f, t, hrun, hentry⟩ | ⟨fed, hrun, hread, hcatalog⟩
  · obtain ⟨rfl, rfl⟩ := Prod.mk.inj (hrun.symm.trans h)
    exact ⟨nofun, fun _ => hpast.failed hentry⟩
  · obtain ⟨rfl, rfl⟩ := Prod.mk.inj (hrun.symm.trans h)
    exact ⟨fun _ => .found hread hcatalog fed.now, fun hne => absurd rfl hne⟩

end Cached
end Session
end MusicCollections
