/-
# What loading the catalog leaves in the cache

Loading a catalog changes the cache under three keys at most (`spares_loadCatalog`),
and it may fail after it changed some of them.  If it succeeds, the cached tracks and
playlists are those of the catalog, and if it says that nothing changed, the cache has
what it had (`loadCatalog_ok`).
-/

import MusicCollections.Proofs.Cache
import MusicCollections.Session.World

namespace MusicCollections

/-- What it takes for a sequence of computations to succeed. -/
theorem Effect.of_runOn_bind_ok {σ α τ : Type} {act : Effect σ α} {next : α → Effect σ τ}
    {s s' : σ} {b : τ} (h : (act >>= next).runOn s = (.ok b, s')) :
    ∃ a middle, act.runOn s = (.ok a, middle) ∧ (next a).runOn middle = (.ok b, s') := by
  rw [runOn_bind] at h
  rcases hact : act.runOn s with ⟨_ | a, middle⟩
  · rw [hact] at h
    cases h
  · rw [hact] at h
    exact ⟨a, middle, rfl, h⟩

/-- The cached tracks and playlists are those of the catalog. -/
def CachesCatalog {κ : Type} [Cache κ] (cache : κ) (catalog : Catalog) : Prop :=
  ∃ tracks playlists,
    Cache.valueAs (Json.list? Track.ofJson?) Cache.Key.tracks cache = some tracks ∧
    Cache.valueAs Playlists.ofJson? Cache.Key.playlists cache = some playlists ∧
    catalog = .ofTracks tracks playlists

/-- A cache has one catalog at most. -/
theorem CachesCatalog.unique {κ : Type} [Cache κ] {cache : κ} {a b : Catalog}
    (ha : CachesCatalog cache a) (hb : CachesCatalog cache b) : a = b := by
  obtain ⟨tracks, playlists, ht, hp, rfl⟩ := ha
  obtain ⟨tracks', playlists', ht', hp', rfl⟩ := hb
  obtain rfl := Option.some.inj (ht.symm.trans ht')
  obtain rfl := Option.some.inj (hp.symm.trans hp')
  rfl

/-- A cache that has the same tracks and playlists caches the same catalog. -/
theorem CachesCatalog.congr {κ : Type} [Cache κ] {cache cache' : κ} {catalog : Catalog}
    (h : CachesCatalog cache catalog)
    (ht : Cache.entry Cache.Key.tracks cache' = Cache.entry Cache.Key.tracks cache)
    (hp : Cache.entry Cache.Key.playlists cache' = Cache.entry Cache.Key.playlists cache) :
    CachesCatalog cache' catalog := by
  obtain ⟨tracks, playlists, htracks, hplaylists, rfl⟩ := h
  refine ⟨tracks, playlists, ?_, ?_, rfl⟩
  · rw [Cache.valueAs, ht]
    exact htracks
  · rw [Cache.valueAs, hp]
    exact hplaylists

/-- Playlists read back. -/
theorem Playlists.ofJson?_toJson (playlists : Playlists) :
    Playlists.ofJson? playlists.toJson = some playlists := by
  rw [ofJson?, toJson, Json.dictionary?]
  induction playlists with
  | nil => rfl
  | cons playlist rest ih =>
    obtain ⟨name, files⟩ := playlist
    rw [List.map_cons, List.mapM_cons, ih]
    simp [Json.strings?_ofStrings]

namespace World

variable {φ κ δ α β : Type} [Cache κ]

/-- However it ends, a computation changes the cache under these keys at most. -/
def Spares (keys : List String) (act : Effect (World φ κ δ) α) : Prop :=
  ∀ w, ∀ key ∉ keys, Cache.entry key (act.runOn w).2.cache = Cache.entry key w.cache

section Spares

variable (keys : List String)

variable {keys} in
/-- Of two computations, one after the other, each spares what both do. -/
theorem spares_bind {act : Effect (World φ κ δ) α} {next : α → Effect (World φ κ δ) β}
    (h : Spares keys act) (hnext : ∀ a, Spares keys (next a)) : Spares keys (act >>= next) := by
  intro w key hkey
  have hact := h w key hkey
  rw [Effect.runOn_bind]
  rcases hrun : act.runOn w with ⟨_ | a, middle⟩
  · rw [hrun] at hact
    exact hact
  · rw [hrun] at hact
    exact (hnext a middle key hkey).trans hact

/-- What changes under few keys changes under more at most. -/
theorem Spares.mono {act : Effect (World φ κ δ) α} {few : List String} (h : Spares few act)
    (hsub : few ⊆ keys) : Spares keys act :=
  fun w key hkey => h w key fun hmem => hkey (hsub hmem)

theorem spares_pure (a : α) : Spares keys (pure a : Effect (World φ κ δ) α) := fun _ _ _ => rfl

theorem spares_ask (call : Daemon.Call δ α) : Spares keys (ask call : Effect (World φ κ δ) α) :=
  fun _ _ _ => rfl

variable [LawfulCache κ]

/-- Reading the cache changes no entry. -/
theorem spares_cached (shape? : Json → Option α) (key : String) :
    Spares keys (cached shape? key : Effect (World φ κ δ) (Option α)) :=
  fun w other _ => Cache.entry_readAs shape? key other w.cache

variable {keys} in
/-- Keeping a value changes what is under its key. -/
theorem spares_keep {key : String} (hkey : key ∈ keys) (value : Json) :
    Spares keys (keep key value : Effect (World φ κ δ) Unit) := by
  intro w other hother
  have hne : other ≠ key := fun h => hother (h ▸ hkey)
  exact Cache.entry_write_of_ne hne w.now value w.cache

/-- Looking for cached tracks only reads. -/
theorem spares_cachedTracks (stamp : String) :
    Spares keys (cachedTracks stamp : Effect (World φ κ δ) (Option (List Track))) := by
  refine spares_bind (spares_cached keys _ _) fun known => ?_
  split
  · exact spares_cached keys _ _
  · exact spares_pure keys _

end Spares

/-! ## Tracks -/

section Tracks

variable [LawfulCache κ]

/-- Cached tracks are the ones in the cache. -/
theorem cachedTracks_some {stamp : String} {w w' : World φ κ δ} {tracks : List Track}
    (h : (cachedTracks stamp).runOn w = (.ok (some tracks), w')) :
    Cache.valueAs (Json.list? Track.ofJson?) Cache.Key.tracks w.cache = some tracks := by
  obtain ⟨known, middle, hknown, htracks⟩ := Effect.of_runOn_bind_ok h
  have hsame := spares_cached [] Json.string? Cache.Key.stamp w Cache.Key.tracks List.not_mem_nil
  rw [hknown] at hsame
  split at htracks
  · rw [runOn_cached, Cache.readAs_fst, Cache.valueAs, hsame] at htracks
    exact Except.ok.inj (Prod.mk.inj htracks).1
  · cases htracks

variable [Daemon δ]

/-- Fetched tracks are kept with their stamp, and nothing else changes. -/
theorem spares_fetchTracks (stamp : String) :
    Spares [Cache.Key.tracks, Cache.Key.stamp]
      (fetchTracks stamp : Effect (World φ κ δ) (List Track)) := by
  refine spares_bind (spares_ask _ _) fun listed => ?_
  refine spares_bind (spares_keep List.mem_cons_self _) fun _ => ?_
  refine spares_bind (spares_keep (List.mem_cons_of_mem _ List.mem_cons_self) _) fun _ => ?_
  exact spares_pure _ _

/-- Fetched tracks are cached. -/
theorem fetchTracks_ok {stamp : String} {w w' : World φ κ δ} {tracks : List Track}
    (h : (fetchTracks stamp).runOn w = (.ok tracks, w')) :
    Cache.valueAs (Json.list? Track.ofJson?) Cache.Key.tracks w'.cache = some tracks := by
  obtain ⟨listed, asked, -, h⟩ := Effect.of_runOn_bind_ok h
  obtain ⟨_, kept, hkept, h⟩ := Effect.of_runOn_bind_ok h
  obtain ⟨_, stamped, hstamped, h⟩ := Effect.of_runOn_bind_ok h
  obtain ⟨htracks, rfl⟩ := Prod.mk.inj h
  obtain rfl := Except.ok.inj htracks
  obtain rfl := (Prod.mk.inj hkept).2
  obtain rfl := (Prod.mk.inj hstamped).2
  have hne : Cache.Key.tracks ≠ Cache.Key.stamp := by decide
  have hread : Json.list? Track.ofJson? (.array ((listed.map Track.normalize).map Track.toJson)) =
      some (listed.map Track.normalize) := Json.list?_map fun track _ => Track.ofJson?_toJson track
  rw [Cache.valueAs, Cache.entry_write_of_ne hne, Cache.entry_write_self]
  exact hread

/-- The cached tracks, unless they are to be fetched. -/
def knownTracks (force : Bool) (stamp : String) : Effect (World φ κ δ) (Option (List Track)) :=
  if force then pure none else cachedTracks stamp

/-- The tracks that are known, or else those fetched. -/
def orFetch (stamp : String) : Option (List Track) → Effect (World φ κ δ) (List Track × Bool)
  | some tracks => pure (tracks, false)
  | none => do
    let tracks ← fetchTracks stamp
    pure (tracks, true)

omit [LawfulCache κ] in
/-- Tracks are loaded in three steps: the stamp is asked for, what is known is looked up,
and only without that are they fetched. -/
theorem loadTracks_eq (force : Bool) :
    (loadTracks force : Effect (World φ κ δ) (List Track × Bool)) =
      ask Daemon.databaseStamp >>= fun stamp => knownTracks force stamp >>= orFetch stamp := by
  cases force <;> rfl

/-- Loading tracks changes these two entries at most. -/
theorem spares_loadTracks (force : Bool) :
    Spares [Cache.Key.tracks, Cache.Key.stamp]
      (loadTracks force : Effect (World φ κ δ) (List Track × Bool)) := by
  rw [loadTracks_eq]
  refine spares_bind (spares_ask _ _) fun stamp => spares_bind ?_ fun known => ?_
  · cases force with
    | true => exact spares_pure _ _
    | false => exact spares_cachedTracks _ stamp
  · cases known with
    | none => exact spares_bind (spares_fetchTracks stamp) fun _ => spares_pure _ _
    | some tracks => exact spares_pure _ _

/-- **The tracks loaded are the cached ones afterwards**, and before if they were not
fetched. -/
theorem loadTracks_ok {force : Bool} {w w' : World φ κ δ} {tracks : List Track} {fetched : Bool}
    (h : (loadTracks force).runOn w = (.ok (tracks, fetched), w')) :
    Cache.valueAs (Json.list? Track.ofJson?) Cache.Key.tracks w'.cache = some tracks ∧
      (fetched = false → ∀ key, Cache.entry key w'.cache = Cache.entry key w.cache) := by
  rw [loadTracks_eq] at h
  obtain ⟨stamp, asked, hasked, h⟩ := Effect.of_runOn_bind_ok h
  obtain ⟨known, looked, hlooked, h⟩ := Effect.of_runOn_bind_ok h
  have hcache : asked.cache = w.cache := by rw [← (Prod.mk.inj hasked).2]
  cases known with
  | none =>
    obtain ⟨found, middle, hfound, h⟩ := Effect.of_runOn_bind_ok h
    obtain ⟨hpair, rfl⟩ := Prod.mk.inj h
    obtain ⟨rfl, rfl⟩ := Prod.mk.inj (Except.ok.inj hpair)
    exact ⟨fetchTracks_ok hfound, nofun⟩
  | some found =>
    obtain ⟨hpair, rfl⟩ := Prod.mk.inj h
    obtain ⟨rfl, rfl⟩ := Prod.mk.inj (Except.ok.inj hpair)
    cases force with
    | true => cases hlooked
    | false =>
      have hsame : ∀ key, Cache.entry key looked.cache = Cache.entry key w.cache := by
        intro key
        have hspared := spares_cachedTracks [] stamp asked key List.not_mem_nil
        rw [← hcache, ← hspared]
        exact congrArg (fun run => Cache.entry key run.2.cache) hlooked.symm
      refine ⟨?_, fun _ => hsame⟩
      rw [Cache.valueAs, hsame, ← hcache]
      exact cachedTracks_some hlooked

end Tracks

/-! ## Playlists -/

section Playlists

variable [Daemon δ]

/-- Fetching playlists only asks the daemon. -/
theorem spares_fetchPlaylists (keys : List String) (done : Playlists) (names : List String) :
    Spares keys (fetchPlaylists done names : Effect (World φ κ δ) Playlists) := by
  induction names generalizing done with
  | nil => exact spares_pure _ _
  | cons name names ih => exact spares_bind (spares_ask _ _) fun files => ih _

variable [LawfulCache κ]

/-- Loading playlists changes their entry at most. -/
theorem spares_loadPlaylists :
    Spares [Cache.Key.playlists] (loadPlaylists : Effect (World φ κ δ) (Playlists × Bool)) := by
  refine spares_bind (spares_ask _ _) fun names => ?_
  refine spares_bind (spares_fetchPlaylists _ [] names) fun playlists => ?_
  refine spares_bind (spares_cached _ _ _) fun known => ?_
  split
  · exact spares_pure _ _
  · exact spares_bind (spares_keep List.mem_cons_self _) fun _ => spares_pure _ _

/-- **The playlists loaded are the cached ones afterwards**, and before if they did
not change. -/
theorem loadPlaylists_ok {w w' : World φ κ δ} {playlists : Playlists} {changed : Bool}
    (h : loadPlaylists.runOn w = (.ok (playlists, changed), w')) :
    Cache.valueAs Playlists.ofJson? Cache.Key.playlists w'.cache = some playlists ∧
      (changed = false → ∀ key, Cache.entry key w'.cache = Cache.entry key w.cache) := by
  obtain ⟨names, asked, hasked, h⟩ := Effect.of_runOn_bind_ok h
  obtain ⟨found, fetched, hfetched, h⟩ := Effect.of_runOn_bind_ok h
  obtain ⟨known, looked, hlooked, h⟩ := Effect.of_runOn_bind_ok h
  have hbefore : ∀ key, Cache.entry key fetched.cache = Cache.entry key w.cache := by
    intro key
    have hasked' := spares_ask [] Daemon.storedPlaylists w key List.not_mem_nil
    have hfetched' := spares_fetchPlaylists [] [] names asked key List.not_mem_nil
    rw [hasked] at hasked'
    rw [hfetched] at hfetched'
    exact hfetched'.trans hasked'
  rw [runOn_cached, Cache.readAs_fst] at hlooked
  obtain ⟨hknown, rfl⟩ := Prod.mk.inj hlooked
  have hsame : ∀ key, Cache.entry key
      (Cache.readAs Playlists.ofJson? Cache.Key.playlists fetched.cache).2 =
        Cache.entry key w.cache :=
    fun key => (Cache.entry_readAs _ _ key fetched.cache).trans (hbefore key)
  split at h
  · rename_i heq
    obtain ⟨hpair, rfl⟩ := Prod.mk.inj h
    obtain ⟨rfl, rfl⟩ := Prod.mk.inj (Except.ok.inj hpair)
    refine ⟨?_, fun _ => hsame⟩
    rw [Cache.valueAs, Cache.entry_readAs]
    exact (Except.ok.inj hknown).trans heq
  · obtain ⟨_, kept, hkept, h⟩ := Effect.of_runOn_bind_ok h
    obtain ⟨hpair, rfl⟩ := Prod.mk.inj h
    obtain ⟨rfl, rfl⟩ := Prod.mk.inj (Except.ok.inj hpair)
    obtain rfl := (Prod.mk.inj hkept).2
    refine ⟨?_, nofun⟩
    rw [Cache.valueAs, Cache.entry_write_self]
    exact Playlists.ofJson?_toJson found

end Playlists

/-! ## The catalog -/

/-- Where a catalog is cached. -/
def catalogKeys : List String := [Cache.Key.tracks, Cache.Key.stamp, Cache.Key.playlists]

variable [LawfulCache κ] [Daemon δ]

/-- Loading the catalog leaves every other entry. -/
theorem spares_loadCatalog (force : Bool) :
    Spares catalogKeys (loadCatalog force : Effect (World φ κ δ) (Catalog × Bool)) := by
  refine spares_bind ((spares_loadTracks force).mono catalogKeys (by simp [catalogKeys]))
    fun loaded => ?_
  refine spares_bind (spares_loadPlaylists.mono catalogKeys (by simp [catalogKeys])) fun _ => ?_
  exact spares_pure _ _

/-- **The catalog loaded is the cached one.** -/
theorem loadCatalog_ok {force : Bool} {w w' : World φ κ δ} {catalog : Catalog} {changed : Bool}
    (h : (loadCatalog force).runOn w = (.ok (catalog, changed), w')) :
    CachesCatalog w'.cache catalog ∧
      (changed = false → ∀ key, Cache.entry key w'.cache = Cache.entry key w.cache) := by
  obtain ⟨⟨tracks, fetched⟩, middle, htracks, h⟩ := Effect.of_runOn_bind_ok h
  obtain ⟨⟨playlists, changed'⟩, last, hplaylists, h⟩ := Effect.of_runOn_bind_ok h
  obtain ⟨hpair, rfl⟩ := Prod.mk.inj h
  obtain ⟨rfl, rfl⟩ := Prod.mk.inj (Except.ok.inj hpair)
  obtain ⟨hcached, hsame⟩ := loadTracks_ok htracks
  obtain ⟨hcached', hsame'⟩ := loadPlaylists_ok hplaylists
  have hspared := spares_loadPlaylists middle Cache.Key.tracks (by decide)
  rw [hplaylists] at hspared
  refine ⟨⟨tracks, playlists, ?_, hcached', rfl⟩, fun hchanged key => ?_⟩
  · rw [Cache.valueAs, hspared]
    exact hcached
  · rw [Bool.or_eq_false_iff] at hchanged
    exact (hsame' hchanged.2 key).trans (hsame hchanged.1 key)

end World
end MusicCollections
