/-
# The tracks after a start

A start takes the cached tracks if the cached stamp is the one that the daemon has, so it
relies on the two entries being of one library.  A write that fails is not noticed, and
the next process may find tracks with a stamp that is not theirs.

`TrackHistory` follows the two entries on disk through starts and refreshes of which any
call and any write may fail.  After a start the tracks of the catalog are those of the
daemon in exactly one case, that the cached tracks, if the cached stamp matches, are the
ones the daemon had with it (`tracks_eq_iff`); they are unless one of the two writes was
lost and the other was not.  If the tracks are lost and the stamp is not, a later start
serves the tracks of before (`start_serves_old_tracks`).
-/

import MusicCollections.Files.Tree
import MusicCollections.Proofs.Session.Starting
import MusicCollections.Proofs.Session.TrackEntries

namespace MusicCollections
namespace Session

variable {φ κ δ : Type} [Files φ] [Cache κ] [Daemon δ] [LibraryDaemon δ]

open LibraryDaemon (library)
open World (Fetches)

/-! ## Starting and refreshing -/

/-- A flush is about the files alone. -/
theorem fetches_flush (s : Session φ κ δ) : Fetches s.toWorld s.flush.2.toWorld := by
  rw [flush]
  split <;> exact .of_same rfl rfl

variable [LawfulCache κ]

/-- A feed writes the collections to the cache, and no tracks. -/
theorem fetches_feed (force : Bool) (s : Session φ κ δ) :
    Fetches s.toWorld (feed force s).2.toWorld := by
  rcases hfed : feed force s with ⟨outcome, fed⟩
  have hfeed := (feed_eq hfed).1
  have hdaemon : fed.daemon = s.daemon := (congrArg (fun run => run.2.daemon) hfed).symm
  refine .of_same (by rw [hdaemon]) (TrackEntries.of_congr ?_ ?_)
  · exact Store.entry_feed_of_ne hfeed (by decide)
  · exact Store.entry_feed_of_ne hfeed (by decide)

omit [Files φ] in
/-- So does finding results. -/
theorem fetches_updateCache (s : Session φ κ δ) : Fetches s.toWorld s.updateCache.toWorld := by
  refine .of_same rfl (TrackEntries.of_congr ?_ ?_)
  · exact Cache.entry_write_of_ne (by decide) _ _ _
  · exact Cache.entry_write_of_ne (by decide) _ _ _

omit [Files φ] in
/-- What comes before the definitions fetches at most. -/
theorem fetches_loading :
    World.Along Fetches (loading : Effect (World φ κ δ) (Catalog × Bool)) := by
  refine Fetches.bind (fun w => ?_) fun _ => World.fetches_loadCatalog false
  exact .of_same (LibraryDaemon.connect w.daemon) rfl

/-- **A start fetches at most**, whether it succeeds or fails. -/
theorem fetches_start (path : Path) (w : World φ κ δ) : Fetches w (start path w).2 := by
  have hloading := fetches_loading w
  rcases start_cases path w with ⟨f, loaded, hload, hrun⟩ |
    ⟨catalog, changed, loaded, e, fed, hload, hfed, hrun⟩ |
    ⟨taken, s, catalog, changed, loaded, fed, hstarted, hrun⟩
  · rw [hrun]
    rwa [hload] at hloading
  · rw [hload] at hloading
    rw [hrun]
    have hfetches := fetches_feed changed (prepared path catalog loaded)
    rw [hfed] at hfetches
    exact hloading.trans hfetches
  · rw [hstarted.loaded_eq] at hloading
    rw [hrun, hstarted.session_eq]
    have hfetches := fetches_feed changed (prepared path catalog loaded)
    rw [hstarted.fed_eq] at hfetches
    cases taken with
    | cache => exact hloading.trans hfetches
    | file => exact (hloading.trans hfetches).trans (fetches_updateCache fed)

/-- **The tracks after a start** are the cached ones, if their stamp is the one that the
daemon has, or those of the daemon. -/
theorem tracks_start {path : Path} {w w' : World φ κ δ} {s : Session φ κ δ}
    (h : start path w = (.ok s, w')) :
    s.catalog.tracks.toList = Catalog.firsts
      (((TrackEntries.of w.cache).taken false (library w.daemon).stamp).getD
        ((library w.daemon).tracks.map Track.normalize)) := by
  obtain ⟨-, taken, catalog, changed, loaded, fed, hstarted⟩ := start_ok h
  obtain ⟨_, connected, hconnect, hload⟩ := Effect.of_runOn_bind_ok hstarted.loaded_eq
  rw [World.runOn_ask] at hconnect
  obtain ⟨-, rfl⟩ := Prod.mk.inj hconnect
  have htracks := World.tracks_loadCatalog hload
  dsimp only at htracks
  rw [hstarted.catalog_eq, htracks, LibraryDaemon.connect]

/-- The daemon of the session has the library that it had. -/
theorem library_start {path : Path} {w w' : World φ κ δ} {s : Session φ κ δ}
    (h : start path w = (.ok s, w')) : library s.daemon = library w.daemon := by
  have hfetches := fetches_start path w
  rw [h, (start_ok h).1] at hfetches
  exact hfetches.1

/-- The tracks after a start are those of the daemon unless the cache has others with its
stamp. -/
theorem tracks_start_iff {path : Path} {w w' : World φ κ δ} {s : Session φ κ δ}
    (h : start path w = (.ok s, w')) :
    s.catalog.tracks.toList = (library s.daemon).listed ↔
      ∀ tracks, TrackEntries.of w.cache = ⟨some tracks, some (library s.daemon).stamp⟩ →
        Catalog.firsts tracks = (library s.daemon).listed := by
  rw [tracks_start h, library_start h]
  cases htaken : (TrackEntries.of w.cache).taken false (library w.daemon).stamp with
  | none =>
    refine iff_of_true rfl fun tracks hentries => ?_
    cases htaken.symm.trans (TrackEntries.taken_eq_some_iff.2 ⟨rfl, hentries⟩)
  | some cached =>
    have hcached := (TrackEntries.taken_eq_some_iff.1 htaken).2
    refine ⟨fun hsame tracks hentries => ?_, fun hall => hall cached hcached⟩
    obtain rfl := Option.some.inj (congrArg TrackEntries.tracks (hcached.symm.trans hentries))
    exact hsame

omit [Files φ] [LawfulCache κ] in
/-- An operation of the store fetches at most if it does in every session. -/
theorem ensures_storing_fetches {w : World φ κ δ} {α : Type}
    {f : Session φ κ δ → Except StoreError α × Session φ κ δ}
    (hf : ∀ s, Fetches s.toWorld (f s).2.toWorld) :
    Effect.Ensures (fun s => Fetches w s.toWorld) (storing f) (fun _ s => Fetches w s.toWorld)
      (fun s => Fetches w s.toWorld) :=
  Effect.ensures_keeps_iff.2 fun s hs => hs.trans (hf s)

/-- A refresh fetches nothing more after the catalog. -/
theorem ensures_reload_fetches {w : World φ κ δ} (catalog : Catalog) :
    Effect.Ensures (fun s => Fetches w s.toWorld)
      (reload catalog : Effect (Session φ κ δ) Unit) (fun _ s => Fetches w s.toWorld)
      (fun s => Fetches w s.toWorld) := by
  have hcatalog : Effect.Ensures (fun s : Session φ κ δ => Fetches w s.toWorld)
      (Effect.change fun s : Session φ κ δ => { s with catalog })
      (fun _ s => Fetches w s.toWorld) (fun s => Fetches w s.toWorld) :=
    Effect.ensures_change fun s hs => hs
  rw [reload]
  refine hcatalog.bind fun _ => ?_
  refine (ensures_storing_fetches fetches_flush).bind fun _ => ?_
  refine ((ensures_storing_fetches (fetches_feed true)).attempting _).bind fun _ => ?_
  exact Effect.ensures_change fun s hs => hs.trans (fetches_updateCache s)

/-- **A refresh fetches at most**, once the daemon has scanned. -/
theorem fetches_refresh (s : Session φ κ δ) :
    Fetches { s.toWorld with daemon := (Daemon.update s.daemon).2 }
      (refresh.runOn s).2.toWorld := by
  rw [refresh_eq, Effect.runOn_bind, ask, runOn_onWorld, World.runOn_ask]
  rcases Daemon.update s.daemon with ⟨f | _, daemon⟩
  · exact .of_same rfl rfl
  · have hload := World.fetches_loadCatalog true { s.toWorld with daemon }
    dsimp only
    rw [Effect.runOn_bind, runOn_onWorld]
    rcases hrun : (World.loadCatalog true).runOn { s.toWorld with daemon } with
      ⟨f | ⟨catalog, changed⟩, loaded⟩
    · rw [hrun] at hload
      exact hload
    · rw [hrun] at hload
      exact Effect.ensures_keeps_iff.1 (ensures_reload_fetches catalog) _ hload

/-! ## Histories of the two entries -/

/-- The daemon has the tracks that its stamp stands for. -/
def Lists (listing : String → List Track) (w : World φ κ δ) : Prop :=
  (library w.daemon).tracks = listing (library w.daemon).stamp

/-- What can come about with one cache, of which a process has what is on disk when it
begins, and that has no tracks at first.  A stamp always stands for the same tracks.  Of the
entries that a start or a refresh writes, any may be lost on disk. -/
inductive TrackHistory (listing : String → List Track) :
    World φ κ δ → TrackEntries → Prop → Prop
  | first (w : World φ κ δ) : TrackEntries.of w.cache = ⟨none, none⟩ → Lists listing w →
      TrackHistory listing w ⟨none, none⟩ False
  /-- Another process begins. -/
  | reopen {w disk torn} (w' : World φ κ δ) : TrackHistory listing w disk torn →
      TrackEntries.of w'.cache = disk → Lists listing w' → TrackHistory listing w' disk torn
  /-- All else may change at any time. -/
  | meanwhile {w disk torn} (w' : World φ κ δ) : TrackHistory listing w disk torn →
      TrackEntries.of w'.cache = TrackEntries.of w.cache → Lists listing w' →
      TrackHistory listing w' disk torn
  | start {w disk torn} (path : Path) (left : TrackEntries) : TrackHistory listing w disk torn →
      TrackEntries.LeftBy disk (.of (start path w).2.cache) left →
      TrackHistory listing (start path w).2 left
        (TrackEntries.Torn torn disk (.of (start path w).2.cache) left)
  | refresh {s disk torn} (left : TrackEntries) : TrackHistory listing s.toWorld disk torn →
      Lists listing (refresh.runOn s).2.toWorld →
      TrackEntries.LeftBy disk (.of (refresh.runOn s).2.cache) left →
      TrackHistory listing (refresh.runOn s).2.toWorld left
        (TrackEntries.Torn torn disk (.of (refresh.runOn s).2.cache) left)

/-- What is on disk agrees unless it is torn, and so does what the process has, unless it is
what is on disk. -/
structure TracksKept (listing : String → List Track) (w : World φ κ δ) (disk : TrackEntries)
    (torn : Prop) : Prop where
  lists : Lists listing w
  onDisk : ¬torn → disk.Agree listing
  held : TrackEntries.of w.cache = disk ∨ (TrackEntries.of w.cache).Agree listing

omit [Files φ] [LawfulCache κ] in
/-- **To fetch at most keeps it so**, whichever writes are lost. -/
theorem TracksKept.fetches {listing : String → List Track} {w v w' : World φ κ δ}
    {disk left : TrackEntries} {torn : Prop} (h : TracksKept listing w disk torn)
    (hfetches : Fetches v w') (hv : TrackEntries.of v.cache = TrackEntries.of w.cache)
    (hlists : Lists listing v) (hleft : TrackEntries.LeftBy disk (.of w'.cache) left) :
    TracksKept listing w' left (TrackEntries.Torn torn disk (.of w'.cache) left) := by
  have hwritten : TrackEntries.of w'.cache = TrackEntries.of w.cache ∨
      (TrackEntries.of w'.cache).Agree listing := by
    rcases hfetches.2 with hkept | hfetched
    · exact .inl (hkept.trans hv)
    · rw [hfetched]
      exact .inr (TrackEntries.agree_fetched hlists)
  refine ⟨?_, TrackEntries.agree_of_leftBy h.onDisk h.held hwritten,
    TrackEntries.held_of_leftBy h.held hwritten hleft⟩
  rw [Lists, hfetches.1]
  exact hlists

/-- **Whatever happens, the entries agree unless they are torn.** -/
theorem TrackHistory.kept {listing : String → List Track} {w : World φ κ δ}
    {disk : TrackEntries} {torn : Prop} (h : TrackHistory listing w disk torn) :
    TracksKept listing w disk torn := by
  induction h with
  | first w hcache hlists => exact ⟨hlists, fun _ => nofun, .inl hcache⟩
  | reopen w' _ hcache hlists ih => exact ⟨hlists, ih.onDisk, .inl hcache⟩
  | meanwhile w' _ hcache hlists ih => exact ⟨hlists, ih.onDisk, hcache ▸ ih.held⟩
  | @start w _ _ path left _ hleft ih =>
    exact ih.fetches (fetches_start path w) rfl ih.lists hleft
  | @refresh s _ _ left _ hlists hleft ih =>
    have hfetches := fetches_refresh s
    refine ih.fetches hfetches rfl ?_ hleft
    -- The daemon has scanned, and what it lists now it lists until the end.
    rw [Lists, hfetches.1] at hlists
    exact hlists

/-- **When the tracks after a start are those of the daemon.**  They are if the cached
tracks, in case the cached stamp is that of the daemon, are the ones of the daemon, and not
otherwise; and they are unless one of the entries was lost and the other was not. -/
theorem tracks_eq_iff {listing : String → List Track} {path : Path} {w w' : World φ κ δ}
    {disk : TrackEntries} {torn : Prop} (h : TrackHistory listing w disk torn)
    {s : Session φ κ δ} (hstart : start path w = (.ok s, w')) :
    (s.catalog.tracks.toList = (library s.daemon).listed ↔
      ∀ tracks, TrackEntries.of w.cache = ⟨some tracks, some (library s.daemon).stamp⟩ →
        Catalog.firsts tracks = (library s.daemon).listed) ∧
    (¬torn → s.catalog.tracks.toList = (library s.daemon).listed) := by
  have hiff := tracks_start_iff hstart
  refine ⟨hiff, fun hwhole => hiff.2 fun tracks hentries => ?_⟩
  have hkept := h.kept
  have hagree : (TrackEntries.of w.cache).Agree listing :=
    hkept.held.elim (fun hdisk => hdisk ▸ hkept.onDisk hwhole) id
  have hlists := hkept.lists
  rw [Lists, ← library_start hstart] at hlists
  rw [Library.listed, hlists]
  exact congrArg Catalog.firsts (hagree _ _ (congrArg TrackEntries.stamp hentries)
    (congrArg TrackEntries.tracks hentries))

/-! ## Old tracks -/

/-- A library, and the same with one more track. -/
def smallLibrary : Library := ⟨"1", [{ file := "a.mp3" }]⟩

def largeLibrary : Library := ⟨"2", [{ file := "a.mp3" }, { file := "b.mp3" }]⟩

/-- What the stamps of the two stand for. -/
def listings (stamp : String) : List Track :=
  if stamp = smallLibrary.stamp then smallLibrary.tracks else largeLibrary.tracks

/-- A cache with both entries. -/
def cacheWith (tracks : List Track) (stamp : String) : MemoryCache :=
  Cache.write 1 Cache.Key.stamp (.string stamp)
    (Cache.write 1 Cache.Key.tracks (.array (tracks.map Track.toJson)) ({} : MemoryCache))

/-- Both entries are read back. -/
theorem of_cacheWith (tracks : List Track) (stamp : String) :
    TrackEntries.of (cacheWith tracks stamp) = ⟨some tracks, some stamp⟩ :=
  TrackEntries.of_write 1 tracks stamp ({} : MemoryCache)

/-- A process begins with a cache, no definitions and a daemon that has scanned a library. -/
def beginning (cache : MemoryCache) (library : Library) :
    World FileTree MemoryCache InMemoryDaemon where
  files := { nodes := [(["f"], .file (.text "") 1)], clock := 1 }
  cache
  daemon := { tracks := library.tracks, stamp := library.stamp }
  now := 2

/-- What the first process caches. -/
def smallCache : MemoryCache := cacheWith smallLibrary.tracks smallLibrary.stamp

/-- The first process caches its tracks, and the next one finds them. -/
theorem history_smallCache (library : Library) (hlists : library.tracks = listings library.stamp) :
    ∃ torn, ¬torn ∧
      TrackHistory listings (beginning smallCache library) (.of smallCache) torn := by
  have hwritten : TrackEntries.of (start "f" (beginning {} smallLibrary)).2.cache =
      .of smallCache := rfl
  have hfirst : TrackHistory listings (beginning {} smallLibrary) ⟨none, none⟩ False :=
    .first _ rfl rfl
  have hstarted := hfirst.start "f" (.of smallCache) (hwritten ▸ ⟨.inr rfl, .inr rfl⟩)
  refine ⟨_, ?_, hstarted.reopen (beginning smallCache library) rfl hlists⟩
  rintro (⟨-, hleft⟩ | ⟨hfalse, -⟩)
  · exact hleft hwritten.symm
  · exact hfalse

/-- A start that takes the tracks from the cache. -/
theorem tracks_smallCache : ∃ torn s w', ¬torn ∧
    TrackHistory listings (beginning smallCache smallLibrary) (.of smallCache) torn ∧
    start "f" (beginning smallCache smallLibrary) = (.ok s, w') ∧
    s.catalog.tracks.toList = (library s.daemon).listed := by
  obtain ⟨torn, hwhole, hhistory⟩ := history_smallCache smallLibrary rfl
  have hsecond : (start "f" (beginning smallCache smallLibrary)).1.toOption.isSome = true := rfl
  rcases hstart : start "f" (beginning smallCache smallLibrary) with ⟨f | s, w'⟩
  · rw [hstart] at hsecond
    cases hsecond
  · exact ⟨torn, s, w', hwhole, hhistory, rfl, (tracks_eq_iff hhistory hstart).2 hwhole⟩

/-- The cache if, of what the second process writes, only the stamp is kept. -/
def tornCache : MemoryCache := cacheWith smallLibrary.tracks largeLibrary.stamp

/-- A write that is lost on the way to disk is part of the history. -/
theorem history_tornCache : ∃ torn,
    TrackHistory listings (beginning tornCache largeLibrary) (.of tornCache) torn := by
  obtain ⟨torn, -, hhistory⟩ := history_smallCache largeLibrary rfl
  have hwritten : TrackEntries.of (start "f" (beginning smallCache largeLibrary)).2.cache =
      .fetched largeLibrary := rfl
  have hleft : TrackEntries.LeftBy (.of smallCache) (.fetched largeLibrary) (.of tornCache) := by
    rw [smallCache, tornCache, of_cacheWith, of_cacheWith]
    exact ⟨.inl rfl, .inr rfl⟩
  have hstarted := hhistory.start "f" (.of tornCache) (hwritten ▸ hleft)
  exact ⟨_, hstarted.reopen (beginning tornCache largeLibrary) rfl rfl⟩

/-- **A start may serve the tracks of before.**  The second process fetches the tracks of the
daemon, and on disk the tracks stay the old ones while the stamp becomes the new one.  The
third finds the stamp of the daemon, and takes them. -/
theorem start_serves_old_tracks : ∃ (w w' : World FileTree MemoryCache InMemoryDaemon)
    (disk : TrackEntries) (torn : Prop) (s : Session FileTree MemoryCache InMemoryDaemon),
    TrackHistory listings w disk torn ∧ start "f" w = (.ok s, w') ∧
      s.catalog.tracks.toList = [{ file := "a.mp3" }] ∧
      (library s.daemon).listed = [{ file := "a.mp3" }, { file := "b.mp3" }] := by
  obtain ⟨torn, hhistory⟩ := history_tornCache
  have hthird : (start "f" (beginning tornCache largeLibrary)).1.toOption.isSome = true := rfl
  rcases hstart : start "f" (beginning tornCache largeLibrary) with ⟨f | s, w'⟩
  · rw [hstart] at hthird
    cases hthird
  · refine ⟨_, w', _, torn, s, hhistory, hstart, ?_, ?_⟩
    · rw [tracks_start hstart, show TrackEntries.of (beginning tornCache largeLibrary).cache = _
        from of_cacheWith _ _]
      rfl
    · rw [library_start hstart]
      rfl

end Session
end MusicCollections
