/-
# Where a feed takes its definitions from

A feed that succeeds takes them from the snapshot in the cache (`FedFromCache`) or
from the file (`FedFromFile`).  The snapshot is judged by the time it was written
alone.  What the cache has changes under one key, and only when the file was read.
`feed_cases` says all that a feed does (`Fed`).
-/

import MusicCollections.Proofs.Cache
import MusicCollections.Store.Snapshot

namespace MusicCollections
namespace Store

variable {φ κ : Type} [Files φ] [Cache κ]

/-- The definitions that a forced load of a file into an empty store gives. -/
def definitionsAt (files : φ) (path : Path) : Except StoreError (List Definition) :=
  match Store.empty.load files path true with
  | (.ok _, store) => .ok store.definitions
  | (.error e, _) => .error e

/-! ## Snapshots -/

/-- A snapshot reads back. -/
theorem list?_snapshot (store : Store) :
    Json.list? CachedCollection.ofJson? store.snapshot =
      some (store.collections.map CachedCollection.ofCollection) := by
  have hread : Json.list? CachedCollection.ofJson? (.array ((store.collections.map
      CachedCollection.ofCollection).map CachedCollection.toJson)) =
      some (store.collections.map CachedCollection.ofCollection) :=
    Json.list?_map fun c _ => CachedCollection.ofJson?_toJson c
  rwa [List.map_map] at hread

/-- A store and what its snapshot stands for have the same definitions. -/
theorem definitions_ofSnapshot (path : Path) (written : Time) (store : Store) :
    (ofSnapshot path written (store.collections.map CachedCollection.ofCollection)).definitions =
      store.definitions := by
  rw [definitions, definitions, ofSnapshot, List.map_map, List.map_map]
  rfl

/-! ## Loading by force -/

/-- What a forced load does, in a store of any kind. -/
theorem load_force (files : φ) (path : Path) (store : Store) :
    store.load files path true =
      match Files.modified files path with
      | .error e => (.error (.unreadable path e), store)
      | .ok modified =>
        match Files.readText files path with
        | .error e => (.error (.unreadable path e), store)
        | .ok text =>
          (.ok (.loaded (collectionsOf (Definitions.parse text)).length),
            { collections := collectionsOf (Definitions.parse text),
              source := some ⟨path, modified⟩, dirty := false }) := by
  rw [load]
  cases Files.modified files path <;> rfl

/-- A store that came from a file loads it again, if it can be read. -/
theorem reload_of_readText {files : φ} {store : Store} {source : Source} {modified : Time}
    {text : String} (hsource : store.source = some source)
    (hm : Files.modified files source.path = .ok modified)
    (ht : Files.readText files source.path = .ok text) :
    store.reload files =
      (.ok (.loaded (collectionsOf (Definitions.parse text)).length),
        { collections := collectionsOf (Definitions.parse text),
          source := some ⟨source.path, modified⟩, dirty := false }) := by
  have hcleared : store.clearResults.source = some source := hsource
  rw [reload]
  simp only [hcleared]
  rw [load_force, hm]
  simp only [ht]

/-- The definitions at a path that can be read are those of the text it holds. -/
theorem definitionsAt_eq {files : φ} {path : Path} {modified : Time} {text : String}
    (hm : Files.modified files path = .ok modified) (ht : Files.readText files path = .ok text) :
    definitionsAt files path =
      .ok ((collectionsOf (Definitions.parse text)).map Collection.definition) := by
  rw [definitionsAt, load_force, hm, ht]
  rfl

/-- What a file gives depends on its time and contents alone. -/
theorem definitionsAt_congr {files files' : φ} {path : Path}
    (hm : Files.modified files path = Files.modified files' path)
    (hr : Files.read files path = Files.read files' path) :
    definitionsAt files path = definitionsAt files' path := by
  have ht : Files.readText files path = Files.readText files' path := by
    rw [Files.readText, Files.readText, hr]
  rw [definitionsAt, definitionsAt, load_force, load_force, hm, ht]

/-! ## Feeding -/

section Fed

variable (now : Time) (files : φ) (path : Path) (force : Bool) (store store' : Store)
  (cache cache' : κ)

/-- The store was taken from a snapshot that is as new as the file. -/
structure FedFromCache (modified written : Time) (entries : List CachedCollection) : Prop where
  unforced : force = false
  modified_eq : Files.modified files path = .ok modified
  asNew : modified ≤ written
  value : Cache.valueAs (Json.list? CachedCollection.ofJson?) Cache.Key.collections cache =
    some entries
  written_eq : (Cache.entry Cache.Key.collections cache).2 = some written
  store_eq : store' = ofSnapshot path written entries

/-- The store was taken from the file, and nothing in the cache would have done. -/
structure FedFromFile (modified : Time) (text : String) : Prop where
  modified_eq : Files.modified files path = .ok modified
  text_eq : Files.readText files path = .ok text
  store_eq : store' = { collections := collectionsOf (Definitions.parse text),
                        source := some ⟨path, modified⟩, dirty := false }
  missed : force = false → ∀ written, (Cache.entry Cache.Key.collections cache).2 = some written →
    modified ≤ written →
    Cache.valueAs (Json.list? CachedCollection.ofJson?) Cache.Key.collections cache = none

/-- How a feed went.  The file cannot be read and nothing changes, or the store is taken
from the snapshot in the cache, or it is taken from the file and a snapshot of it is
written. -/
inductive Fed : Except StoreError FeedOutcome → Prop
  | unreadable (e : IoError) : store' = store →
      (∀ key, Cache.entry key cache' = Cache.entry key cache) → Fed (.error (.unreadable path e))
  | cache {modified written entries} :
      FedFromCache files path force store' cache modified written entries →
      (∀ key, Cache.entry key cache' = Cache.entry key cache) → Fed (.ok .cache)
  | file {modified text} : FedFromFile files path force store' cache modified text →
      (∀ key, Cache.entry key cache' =
        if key = Cache.Key.collections then (some store'.snapshot, some now)
        else Cache.entry key cache) → Fed (.ok .file)

end Fed

variable {now : Time} {files : φ} {path : Path} {force : Bool} {store store' : Store}
  {cache cache' : κ}

/-- How a feed from the file ends. -/
theorem feedFromFile_eq (now : Time) (files : φ) (path : Path) (store : Store) (cache : κ) :
    feedFromFile now files path store cache =
      match Files.modified files path with
      | .error e => (.error (.unreadable path e), store, cache)
      | .ok modified =>
        match Files.readText files path with
        | .error e => (.error (.unreadable path e), store, cache)
        | .ok text =>
          let fed : Store :=
            { collections := collectionsOf (Definitions.parse text),
              source := some ⟨path, modified⟩, dirty := false }
          (.ok .file, fed, fed.writeSnapshot now cache) := by
  rw [feedFromFile, load_force]
  cases Files.modified files path with
  | error e => rfl
  | ok modified => cases Files.readText files path <;> rfl

section Lawful

variable [LawfulCache κ]

/-- Looking for a snapshot leaves every entry of the cache. -/
theorem entry_freshSnapshot? (modified : Time) (key : String) (cache : κ) :
    Cache.entry key (freshSnapshot? modified cache).2 = Cache.entry key cache := by
  have hlooked := LawfulCache.entry_lastModified Cache.Key.collections key cache
  rw [freshSnapshot?]
  rcases hlast : Cache.lastModified Cache.Key.collections cache with ⟨_ | written, looked⟩
  · rw [hlast] at hlooked
    exact hlooked
  · rw [hlast] at hlooked
    dsimp only
    split
    · exact hlooked
    · rw [← hlooked]
      exact Cache.entry_readAs (Json.list? CachedCollection.ofJson?) _ key looked

/-- The snapshot found is the one in the cache, if that is as new as the file. -/
theorem freshSnapshot?_eq (modified : Time) (cache : κ) :
    (freshSnapshot? modified cache).1 =
      match (Cache.entry Cache.Key.collections cache).2 with
      | none => none
      | some written =>
        if written < modified then none
        else (Cache.valueAs (Json.list? CachedCollection.ofJson?) Cache.Key.collections cache).map
          (written, ·) := by
  have hlooked := LawfulCache.entry_lastModified Cache.Key.collections Cache.Key.collections cache
  rw [freshSnapshot?]
  change _ = match (Cache.lastModified Cache.Key.collections cache).1 with
    | none => none
    | some written => _
  rcases hlast : Cache.lastModified Cache.Key.collections cache with ⟨_ | written, looked⟩
  · rfl
  · rw [hlast] at hlooked
    dsimp only
    split
    · rfl
    · rw [Cache.readAs_fst, Cache.valueAs, Cache.valueAs, hlooked]

/-- **How a feed goes.** -/
theorem feed_cases {outcome : Except StoreError FeedOutcome}
    (h : store.feed now files path force cache = (outcome, store', cache')) :
    Fed now files path force store store' cache cache' outcome := by
  rw [feed] at h
  cases hm : Files.modified files path with
  | error e =>
    rw [hm] at h
    obtain ⟨rfl, rfl, rfl⟩ := h
    exact .unreadable e rfl fun _ => rfl
  | ok modified =>
    rw [hm] at h
    dsimp only at h
    -- The file is read after a look at the cache, or without one.
    have hfile : ∀ looked : κ, (∀ key, Cache.entry key looked = Cache.entry key cache) →
        (force = false → ∀ written, (Cache.entry Cache.Key.collections cache).2 = some written →
          modified ≤ written → Cache.valueAs (Json.list? CachedCollection.ofJson?)
            Cache.Key.collections cache = none) →
        feedFromFile now files path store looked = (outcome, store', cache') →
        Fed now files path force store store' cache cache' outcome := by
      intro looked hlooked hmissed hfed
      rw [feedFromFile_eq, hm] at hfed
      cases ht : Files.readText files path with
      | error e =>
        rw [ht] at hfed
        obtain ⟨rfl, rfl, rfl⟩ := hfed
        exact .unreadable e rfl hlooked
      | ok text =>
        rw [ht] at hfed
        obtain ⟨rfl, rfl, rfl⟩ := hfed
        refine .file ⟨hm, ht, rfl, hmissed⟩ fun key => ?_
        rw [← hlooked]
        exact LawfulCache.entry_write now Cache.Key.collections key _ looked
    split at h
    · rename_i hforce
      exact hfile cache (fun _ => rfl)
        (fun hunforced => absurd (hforce.symm.trans hunforced) (by decide)) h
    · rename_i hforce
      have hlooked := fun key => entry_freshSnapshot? modified key cache
      have hfound := freshSnapshot?_eq modified cache
      rcases hfresh : freshSnapshot? modified cache with ⟨_ | ⟨written, entries⟩, looked⟩
      · rw [hfresh] at h hlooked hfound
        refine hfile looked hlooked (fun _ written hwritten hle => ?_) h
        rw [hwritten] at hfound
        simpa [Nat.not_lt.2 hle] using hfound.symm
      · rw [hfresh] at h hlooked hfound
        obtain ⟨rfl, rfl, rfl⟩ := h
        suffices hcache : FedFromCache files path force _ cache modified written entries from
          .cache hcache hlooked
        cases hwritten : (Cache.entry Cache.Key.collections cache).2 with
        | none =>
          rw [hwritten] at hfound
          cases hfound
        | some written' =>
          rw [hwritten] at hfound
          dsimp only at hfound
          split at hfound
          · cases hfound
          · rename_i hle
            obtain ⟨found, hvalue, hpair⟩ := Option.map_eq_some_iff.1 hfound.symm
            obtain ⟨rfl, rfl⟩ := Prod.mk.inj hpair
            exact ⟨by simpa using hforce, hm, Nat.not_lt.1 hle, hvalue, hwritten, rfl⟩

/-- **What a feed does to the cache.**  A snapshot is written when the file was read,
and nothing else changes. -/
theorem entry_feed {outcome : Except StoreError FeedOutcome}
    (h : store.feed now files path force cache = (outcome, store', cache')) (key : String) :
    (outcome = .ok .file → Cache.entry key cache' =
      if key = Cache.Key.collections then (some store'.snapshot, some now)
      else Cache.entry key cache) ∧
    (outcome ≠ .ok .file → Cache.entry key cache' = Cache.entry key cache) := by
  cases feed_cases h with
  | unreadable e _ hsame => exact ⟨nofun, fun _ => hsame key⟩
  | cache _ hsame => exact ⟨nofun, fun _ => hsame key⟩
  | file _ hwritten => exact ⟨fun _ => hwritten key, fun hne => absurd rfl hne⟩

/-- A feed leaves what else there is in the cache. -/
theorem entry_feed_of_ne {outcome : Except StoreError FeedOutcome}
    (h : store.feed now files path force cache = (outcome, store', cache')) {key : String}
    (hkey : key ≠ Cache.Key.collections) : Cache.entry key cache' = Cache.entry key cache := by
  cases feed_cases h with
  | unreadable e _ hsame => exact hsame key
  | cache _ hsame => exact hsame key
  | file _ hwritten => rw [hwritten, if_neg hkey]

/-- **Where a feed that succeeds took the store from.** -/
theorem feed_ok {outcome : FeedOutcome}
    (h : store.feed now files path force cache = (.ok outcome, store', cache')) :
    (outcome = .cache ∧ ∃ modified written entries,
      FedFromCache files path force store' cache modified written entries) ∨
    (outcome = .file ∧ ∃ modified text,
      FedFromFile files path force store' cache modified text) := by
  cases feed_cases h with
  | cache hcache _ => exact .inl ⟨rfl, _, _, _, hcache⟩
  | file hfile _ => exact .inr ⟨rfl, _, _, hfile⟩

end Lawful

end Store
end MusicCollections
