/-
# The cached tracks

A daemon has a library, its tracks with a stamp that changes when they do
(`LibraryDaemon`).  The tracks are cached with the stamp, as two entries that are written
one after the other (`TrackEntries`).  Loading takes the cached tracks if the cached stamp
is the one that the daemon has now, and fetches the library and writes both entries
otherwise (`loadTracks_cases`), which says what the tracks of a catalog are
(`tracks_loadCatalog`).  A write that fails is not noticed, and the entry on disk stays
what it was (`TrackEntries.LeftBy`).
-/

import MusicCollections.Daemon.InMemory
import MusicCollections.Proofs.Catalog
import MusicCollections.Proofs.Session.Steps

namespace MusicCollections

/-! ## Daemons with a library -/

/-- What a daemon has scanned. -/
structure Library where
  stamp : String
  tracks : List Track

/-- The tracks of a catalog that is up to date: normalized, and of each file the first. -/
def Library.listed (library : Library) : List Track :=
  Catalog.firsts (library.tracks.map Track.normalize)

/-- A daemon whose calls tell of one library and, rescans apart, leave it as it is. -/
class LibraryDaemon (δ : Type) [Daemon δ] where
  library : δ → Library
  stamp_ok {d d' : δ} {stamp : String} :
    Daemon.databaseStamp d = (.ok stamp, d') → stamp = (library d).stamp
  tracks_ok {d d' : δ} {tracks : List Track} :
    Daemon.listTracks d = (.ok tracks, d') → tracks = (library d).tracks
  connect (d : δ) : library (Daemon.connect d).2 = library d
  databaseStamp (d : δ) : library (Daemon.databaseStamp d).2 = library d
  listTracks (d : δ) : library (Daemon.listTracks d).2 = library d
  storedPlaylists (d : δ) : library (Daemon.storedPlaylists d).2 = library d
  storedPlaylistTracks (name : String) (d : δ) :
    library (Daemon.storedPlaylistTracks name d).2 = library d

namespace InMemoryDaemon

/-- What a daemon tells, it tells without a change. -/
theorem tell_eq {α : Type} (call : DaemonCall) (value : InMemoryDaemon → α) (d : InMemoryDaemon) :
    tell call value d = (.error (.ofCause (.daemon (.refused call.method))),
        { d with journal := d.journal ++ [call] }) ∨
      tell call value d = (.ok (value { d with journal := d.journal ++ [call] }),
        { d with journal := d.journal ++ [call] }) := by
  rw [tell, answer]
  dsimp only
  split
  · exact .inl rfl
  · exact .inr rfl

instance : LibraryDaemon InMemoryDaemon where
  library d := ⟨d.stamp, d.tracks⟩
  stamp_ok {d d' stamp} h := by
    rcases tell_eq .databaseStamp InMemoryDaemon.stamp d with hrun | hrun
    · cases hrun.symm.trans h
    · exact (Except.ok.inj (congrArg Prod.fst (hrun.symm.trans h))).symm
  tracks_ok {d d' tracks} h := by
    rcases tell_eq .listTracks InMemoryDaemon.tracks d with hrun | hrun
    · cases hrun.symm.trans h
    · exact (Except.ok.inj (congrArg Prod.fst (hrun.symm.trans h))).symm
  connect d := by
    change Library.mk (perform .connect id d).2.stamp (perform .connect id d).2.tracks = _
    rw [perform, answer]
    dsimp only
    split <;> rfl
  databaseStamp d := by
    rcases tell_eq .databaseStamp InMemoryDaemon.stamp d with hrun | hrun <;>
    exact congrArg (fun run => Library.mk run.2.stamp run.2.tracks) hrun
  listTracks d := by
    rcases tell_eq .listTracks InMemoryDaemon.tracks d with hrun | hrun <;>
    exact congrArg (fun run => Library.mk run.2.stamp run.2.tracks) hrun
  storedPlaylists d := by
    rcases tell_eq .storedPlaylists (·.playlists.map Prod.fst) d with hrun | hrun <;>
    exact congrArg (fun run => Library.mk run.2.stamp run.2.tracks) hrun
  storedPlaylistTracks name d := by
    rcases tell_eq (.storedPlaylistTracks name) (fun d => (d.playlists.lookup name).getD []) d
      with hrun | hrun <;>
    exact congrArg (fun run => Library.mk run.2.stamp run.2.tracks) hrun

end InMemoryDaemon

/-! ## The two entries -/

/-- The cached tracks and the cached stamp. -/
structure TrackEntries where
  tracks : Option (List Track)
  stamp : Option String
  deriving DecidableEq

namespace TrackEntries

variable {κ : Type} [Cache κ]

/-- What a cache has. -/
def of (cache : κ) : TrackEntries where
  tracks := Cache.valueAs (Json.list? Track.ofJson?) Cache.Key.tracks cache
  stamp := Cache.valueAs Json.string? Cache.Key.stamp cache

/-- What is written when a library is fetched. -/
def fetched (library : Library) : TrackEntries where
  tracks := some (library.tracks.map Track.normalize)
  stamp := some library.stamp

/-- The cached tracks are those that the daemon had with the cached stamp. -/
def Agree (listing : String → List Track) (e : TrackEntries) : Prop :=
  ∀ stamp tracks, e.stamp = some stamp → e.tracks = some tracks →
    tracks = (listing stamp).map Track.normalize

/-- What may be left on disk after writes, of which any may be lost. -/
def LeftBy (disk written left : TrackEntries) : Prop :=
  (left.tracks = disk.tracks ∨ left.tracks = written.tracks) ∧
    (left.stamp = disk.stamp ∨ left.stamp = written.stamp)

/-- Whether one entry was written to disk without the other, and not both since. -/
def Torn (torn : Prop) (disk written left : TrackEntries) : Prop :=
  (left ≠ disk ∧ left ≠ written) ∨ (torn ∧ left = disk)

/-- The cached tracks that a start takes when the daemon has the stamp. -/
def taken (force : Bool) (stamp : String) (e : TrackEntries) : Option (List Track) :=
  if force = false ∧ e.stamp = some stamp then e.tracks else none

/-- Cached tracks are taken exactly if both entries are there and the stamp is the daemon's. -/
theorem taken_eq_some_iff {force : Bool} {stamp : String} {e : TrackEntries}
    {tracks : List Track} :
    e.taken force stamp = some tracks ↔ force = false ∧ e = ⟨some tracks, some stamp⟩ := by
  obtain ⟨known, known'⟩ := e
  rw [taken]
  split
  · rename_i h
    obtain rfl : known' = some stamp := h.2
    simp [h.1]
  · rename_i h
    constructor
    · exact nofun
    · rintro ⟨hforce, heq⟩
      exact absurd ⟨hforce, congrArg TrackEntries.stamp heq⟩ h

/-- The entries are those under the two keys. -/
theorem of_congr {cache cache' : κ}
    (ht : Cache.entry Cache.Key.tracks cache' = Cache.entry Cache.Key.tracks cache)
    (hs : Cache.entry Cache.Key.stamp cache' = Cache.entry Cache.Key.stamp cache) :
    of cache' = of cache := by
  simp only [of, Cache.valueAs, ht, hs]

/-- **What is written is read back.** -/
theorem of_write [LawfulCache κ] (now : Time) (tracks : List Track) (stamp : String) (cache : κ) :
    of (Cache.write now Cache.Key.stamp (.string stamp)
        (Cache.write now Cache.Key.tracks (.array (tracks.map Track.toJson)) cache)) =
      ⟨some tracks, some stamp⟩ := by
  have hne : Cache.Key.tracks ≠ Cache.Key.stamp := by decide
  have hread : Json.list? Track.ofJson? (.array (tracks.map Track.toJson)) = some tracks :=
    Json.list?_map fun track _ => Track.ofJson?_toJson track
  simp only [of, Cache.valueAs, Cache.entry_write_self, Cache.entry_write_of_ne hne,
    Option.bind_some, hread, Json.string?]

/-- What is written together agrees. -/
theorem agree_fetched {listing : String → List Track} {library : Library}
    (h : library.tracks = listing library.stamp) : (fetched library).Agree listing := by
  rintro stamp tracks ⟨⟩ ⟨⟩
  rw [h]

/-- Of the entries that a process had and those on disk, one pair agrees or both are the
same. -/
theorem held_of_leftBy {listing : String → List Track} {disk held written left : TrackEntries}
    (hheld : held = disk ∨ held.Agree listing)
    (hwritten : written = held ∨ written.Agree listing) (hleft : LeftBy disk written left) :
    written = left ∨ written.Agree listing := by
  rcases hwritten with rfl | hagree
  · rcases hheld with rfl | hagree
    · obtain ⟨htracks, hstamp⟩ := hleft
      obtain ⟨tracks, stamp⟩ := left
      obtain rfl := or_self_iff.1 htracks
      obtain rfl := or_self_iff.1 hstamp
      exact .inl rfl
    · exact .inr hagree
  · exact .inr hagree

/-- **What is left on disk agrees unless it is torn**, if it agreed before and what was
written does. -/
theorem agree_of_leftBy {listing : String → List Track} {torn : Prop}
    {disk held written left : TrackEntries} (hdisk : ¬torn → disk.Agree listing)
    (hheld : held = disk ∨ held.Agree listing) (hwritten : written = held ∨ written.Agree listing)
    (huntorn : ¬Torn torn disk written left) : left.Agree listing := by
  obtain ⟨hwhole, htorn⟩ := not_or.1 huntorn
  by_cases hkept : left = disk
  · exact hkept ▸ hdisk fun h => htorn ⟨h, hkept⟩
  · -- Both entries were written, and not as they were.
    have hleft : left = written := not_not.1 fun h => hwhole ⟨hkept, h⟩
    rw [hleft] at hkept ⊢
    rcases hwritten with rfl | hagree
    · exact hheld.resolve_left hkept
    · exact hagree

end TrackEntries

namespace World

variable {φ κ δ : Type} [Cache κ] [Daemon δ] [LibraryDaemon δ]

open LibraryDaemon (library)

/-- Every step leaves the library. -/
theorem steps_library : Steps fun w w' : World φ κ δ => library w'.daemon = library w.daemon where
  refl _ := rfl
  trans h h' := h'.trans h
  databaseStamp w := LibraryDaemon.databaseStamp w.daemon
  listTracks w := LibraryDaemon.listTracks w.daemon
  storedPlaylists w := LibraryDaemon.storedPlaylists w.daemon
  storedPlaylistTracks name w := LibraryDaemon.storedPlaylistTracks name w.daemon
  cached _ _ _ := rfl
  keep _ _ _ := rfl

/-- The library stays, and the two entries stay or are written. -/
def Fetches (w w' : World φ κ δ) : Prop :=
  library w'.daemon = library w.daemon ∧
    (TrackEntries.of w'.cache = TrackEntries.of w.cache ∨
      TrackEntries.of w'.cache = .fetched (library w.daemon))

theorem Fetches.of_same {w w' : World φ κ δ} (hd : library w'.daemon = library w.daemon)
    (hc : TrackEntries.of w'.cache = TrackEntries.of w.cache) : Fetches w w' := ⟨hd, .inl hc⟩

/-- Two steps that fetch at most are one that does. -/
theorem Fetches.trans {u v w : World φ κ δ} (h : Fetches u v) (h' : Fetches v w) :
    Fetches u w := by
  refine ⟨h'.1.trans h.1, ?_⟩
  rcases h'.2 with hkept | hwritten
  · rw [hkept]
    exact h.2
  · exact .inr (h.1 ▸ hwritten)

/-- So are two computations, one after the other. -/
theorem Fetches.bind {α β : Type} {act : Effect (World φ κ δ) α}
    {next : α → Effect (World φ κ δ) β} (hact : Along Fetches act)
    (hnext : ∀ a, Along Fetches (next a)) : Along Fetches (act >>= next) :=
  Along.bind (R := Fetches) (fun _ _ _ => Fetches.trans) hact hnext

variable [LawfulCache κ]

/-! ## Loading the tracks -/

/-- How loading the tracks goes: it fails before anything is written, the cached tracks are
taken since their stamp matches, or the tracks are fetched and both entries are written. -/
inductive TracksLoaded (force : Bool) (w w' : World φ κ δ) :
    Except Failure (List Track × Bool) → Prop
  | fails (f : Failure) : TrackEntries.of w'.cache = TrackEntries.of w.cache →
      TracksLoaded force w w' (.error f)
  | cached {tracks} :
      (TrackEntries.of w.cache).taken force (library w.daemon).stamp = some tracks →
      TrackEntries.of w'.cache = TrackEntries.of w.cache →
      TracksLoaded force w w' (.ok (tracks, false))
  | fetched : (TrackEntries.of w.cache).taken force (library w.daemon).stamp = none →
      TrackEntries.of w'.cache = .fetched (library w.daemon) →
      TracksLoaded force w w' (.ok ((library w.daemon).tracks.map Track.normalize, true))

omit [Daemon δ] [LibraryDaemon δ] in
/-- The tracks that are known are the cached ones, if their stamp matches. -/
theorem knownTracks_eq (force : Bool) (stamp : String) (w : World φ κ δ) :
    ∃ cache, (knownTracks force stamp).runOn w =
        (.ok ((TrackEntries.of w.cache).taken force stamp), { w with cache }) ∧
      TrackEntries.of cache = TrackEntries.of w.cache := by
  cases force with
  | true => exact ⟨w.cache, rfl, rfl⟩
  | false =>
    have hread : ∀ key, Cache.entry key (Cache.readAs Json.string? Cache.Key.stamp w.cache).2 =
        Cache.entry key w.cache := fun key => Cache.entry_readAs _ _ key w.cache
    rw [knownTracks, if_neg (by decide), cachedTracks, Effect.runOn_bind, runOn_cached,
      Cache.readAs_fst, TrackEntries.taken]
    dsimp only
    have hentry : (TrackEntries.of w.cache).stamp =
        Cache.valueAs Json.string? Cache.Key.stamp w.cache := rfl
    rw [hentry]
    by_cases hstamp : Cache.valueAs Json.string? Cache.Key.stamp w.cache = some stamp
    · refine ⟨(Cache.readAs (Json.list? Track.ofJson?) Cache.Key.tracks
        (Cache.readAs Json.string? Cache.Key.stamp w.cache).2).2, ?_, ?_⟩
      · rw [if_pos hstamp, if_pos ⟨rfl, hstamp⟩, runOn_cached, Cache.readAs_fst, Cache.valueAs,
          hread]
        rfl
      · exact TrackEntries.of_congr ((Cache.entry_readAs _ _ _ _).trans (hread _))
          ((Cache.entry_readAs _ _ _ _).trans (hread _))
    · refine ⟨_, ?_, TrackEntries.of_congr (hread _) (hread _)⟩
      rw [if_neg hstamp, if_neg fun h => hstamp h.2]
      rfl

/-- Fetching fails before anything is written, or it writes both entries. -/
theorem fetchTracks_cases {w w' : World φ κ δ} {stamp : String}
    {outcome : Except Failure (List Track)} (hstamp : stamp = (library w.daemon).stamp)
    (h : (fetchTracks stamp).runOn w = (outcome, w')) :
    (∃ f, outcome = .error f ∧ TrackEntries.of w'.cache = TrackEntries.of w.cache) ∨
      (outcome = .ok ((library w.daemon).tracks.map Track.normalize) ∧
        TrackEntries.of w'.cache = .fetched (library w.daemon)) := by
  subst hstamp
  rw [fetchTracks, Effect.runOn_bind, runOn_ask] at h
  rcases hlist : Daemon.listTracks w.daemon with ⟨f | listed, d⟩
  · rw [hlist] at h
    obtain ⟨rfl, rfl⟩ := Prod.mk.inj h
    exact .inl ⟨f, rfl, rfl⟩
  · rw [hlist] at h
    simp only [Effect.runOn_bind, runOn_keep, Effect.runOn_pure] at h
    obtain ⟨rfl, rfl⟩ := Prod.mk.inj h
    obtain rfl := LibraryDaemon.tracks_ok hlist
    exact .inr ⟨rfl, TrackEntries.of_write _ _ _ _⟩

/-- **How loading the tracks goes.** -/
theorem loadTracks_cases {force : Bool} {w w' : World φ κ δ}
    {outcome : Except Failure (List Track × Bool)}
    (h : (loadTracks force).runOn w = (outcome, w')) : TracksLoaded force w w' outcome := by
  rw [loadTracks_eq, Effect.runOn_bind, runOn_ask] at h
  have hlibrary := LibraryDaemon.databaseStamp w.daemon
  rcases hstamp : Daemon.databaseStamp w.daemon with ⟨f | stamp, d⟩
  · rw [hstamp] at h
    obtain ⟨rfl, rfl⟩ := Prod.mk.inj h
    exact .fails f rfl
  · rw [hstamp] at h hlibrary
    obtain rfl := LibraryDaemon.stamp_ok hstamp
    obtain ⟨cache, hknown, hsame⟩ :=
      knownTracks_eq force (library w.daemon).stamp { w with daemon := d }
    dsimp only at h
    rw [Effect.runOn_bind, hknown] at h
    dsimp only at h
    cases htaken : (TrackEntries.of w.cache).taken force (library w.daemon).stamp with
    | some tracks =>
      rw [htaken] at h
      obtain ⟨rfl, rfl⟩ := Prod.mk.inj h
      exact .cached htaken hsame
    | none =>
      rw [htaken, orFetch, Effect.runOn_bind] at h
      rcases hfetch : (fetchTracks (library w.daemon).stamp).runOn { w with daemon := d, cache }
        with ⟨outcome', middle⟩
      have hcases := fetchTracks_cases (congrArg Library.stamp hlibrary.symm) hfetch
      rw [hfetch] at h
      rcases hcases with ⟨f, rfl, hkept⟩ | ⟨rfl, hwritten⟩
      · obtain ⟨rfl, rfl⟩ := Prod.mk.inj h
        exact .fails f (hkept.trans hsame)
      · obtain ⟨rfl, rfl⟩ := Prod.mk.inj h
        dsimp only at hwritten ⊢
        rw [show library d = library w.daemon from hlibrary] at hwritten ⊢
        exact .fetched htaken hwritten

/-! ## Loading the catalog -/

/-- Loading tracks fetches at most, however it ends. -/
theorem fetches_loadTracks (force : Bool) :
    Along Fetches (loadTracks force : Effect (World φ κ δ) (List Track × Bool)) := by
  intro w
  have hlibrary := steps_library.loadTracks force w
  rcases hrun : (loadTracks force).runOn w with ⟨outcome, w'⟩
  rw [hrun] at hlibrary
  cases loadTracks_cases hrun with
  | fails f hkept => exact ⟨hlibrary, .inl hkept⟩
  | cached _ hkept => exact ⟨hlibrary, .inl hkept⟩
  | fetched _ hwritten => exact ⟨hlibrary, .inr hwritten⟩

/-- Loading playlists leaves the entries of the tracks. -/
theorem fetches_loadPlaylists :
    Along Fetches (loadPlaylists : Effect (World φ κ δ) (Playlists × Bool)) := by
  intro w
  refine ⟨steps_library.loadPlaylists w, .inl (TrackEntries.of_congr ?_ ?_)⟩
  · exact spares_loadPlaylists w _ (by decide)
  · exact spares_loadPlaylists w _ (by decide)

/-- Loading the catalog fetches at most. -/
theorem fetches_loadCatalog (force : Bool) :
    Along Fetches (loadCatalog force : Effect (World φ κ δ) (Catalog × Bool)) := by
  refine Fetches.bind (fetches_loadTracks force) fun _ => ?_
  exact Fetches.bind fetches_loadPlaylists fun _ _ => .of_same rfl rfl

/-- **The tracks of a catalog are the cached ones, if they are taken, or those of the
library.** -/
theorem tracks_loadCatalog {force : Bool} {w w' : World φ κ δ} {catalog : Catalog}
    {changed : Bool} (h : (loadCatalog force).runOn w = (.ok (catalog, changed), w')) :
    catalog.tracks.toList = Catalog.firsts
      (((TrackEntries.of w.cache).taken force (library w.daemon).stamp).getD
        ((library w.daemon).tracks.map Track.normalize)) := by
  obtain ⟨⟨tracks, fetched⟩, middle, htracks, h⟩ := Effect.of_runOn_bind_ok h
  obtain ⟨⟨playlists, changed'⟩, last, -, h⟩ := Effect.of_runOn_bind_ok h
  obtain ⟨hpair, rfl⟩ := Prod.mk.inj h
  obtain ⟨rfl, -⟩ := Prod.mk.inj (Except.ok.inj hpair)
  rw [Catalog.toList_ofTracks]
  cases loadTracks_cases htracks with
  | cached htaken _ => rw [htaken, Option.getD_some]
  | fetched htaken _ => rw [htaken, Option.getD_none]

end World

end MusicCollections
