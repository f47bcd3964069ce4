/-
# Snapshots that are restored

A snapshot has the names, the texts and the results of the collections.  What the texts
spell and refer to is read from them again, which gives the collections back because they
are derived from their texts: `Reached.derived` says so of every store that operations and
feeds lead to, whatever the files and the caches held.  A collection with a broken text,
or without a result because it could not be resolved, is no exception.

`Snapshotted` is what is known of a cache after a snapshot was written to it, by
`updateCache` or by a feed from the file.  A feed restores it exactly if the file is not
later than the snapshot, and then the collections are those that were written
(`feed_restores`).
-/

import MusicCollections.Cache.Memory
import MusicCollections.Files.Tree
import MusicCollections.Proofs.Operations.Changes
import MusicCollections.Proofs.Operations.Failing
import MusicCollections.Proofs.Results

namespace MusicCollections
namespace Store

/-! ## Derived stores -/

/-- The collections of definitions are as read. -/
theorem asRead_collectionsOf (definitions : List Definition) (source : Option Source)
    (dirty : Bool) : AsRead { collections := collectionsOf definitions, source, dirty } := by
  intro c hc
  obtain ⟨d, -, rfl⟩ := mem_collectionsOf hc
  rfl

/-- A store is derived if all of its collections are what their texts make them, results
apart. -/
theorem derived_iff {store : Store} : store.Derived ↔
    ∀ c ∈ store.collections, c.forget = Collection.ofText c.name c.expression := by
  rw [Derived, AsRead, clearResults]
  exact List.forall_mem_map

/-- What a snapshot stands for is derived. -/
theorem derived_ofSnapshot (path : Path) (written : Time) (entries : List CachedCollection) :
    (ofSnapshot path written entries).Derived := by
  rw [derived_iff]
  intro c hc
  obtain ⟨entry, -, rfl⟩ := List.mem_map.1 hc
  rfl

/-- A definition that is put is derived, like what was there. -/
theorem Derived.forget_of_mem_put {store : Store} (h : store.Derived) (d : Definition) :
    ∀ c ∈ (Collection.ofText d.1 d.2).put store.collections,
      c.forget = Collection.ofText c.name c.expression := by
  intro c hc
  rcases Collection.mem_put hc with rfl | hc
  · rfl
  · exact derived_iff.1 h c hc

/-- Collections that are derived are so without their results. -/
theorem forget_of_mem_map_forget {collections : List Collection}
    (h : ∀ c ∈ collections, c.forget = Collection.ofText c.name c.expression) :
    ∀ c ∈ collections.map Collection.forget,
      c.forget = Collection.ofText c.name c.expression := by
  intro c hc
  obtain ⟨d, hd, rfl⟩ := List.mem_map.1 hc
  exact h d hd

/-- **A change keeps collections derived.** -/
theorem Change.derived_applied {store other : Store} (h : store.Derived) (change : Change)
    (hother : other.collections = change.applied store.collections) : other.Derived := by
  have hderived := derived_iff.1 h
  rw [derived_iff, hother]
  cases change with
  | nothing => exact hderived
  | inserted d => exact h.forget_of_mem_put d
  | defined d => exact forget_of_mem_map_forget (h.forget_of_mem_put d)
  | deleted name =>
    exact forget_of_mem_map_forget fun c hc => hderived c (List.mem_of_mem_eraseP hc)
  | read definitions =>
    intro c hc
    obtain ⟨d, -, rfl⟩ := mem_collectionsOf hc
    rfl
  | forgotten => exact forget_of_mem_map_forget hderived
  | refreshed catalog =>
    have hbare : Derived { collections := store.collections } := derived_iff.2 hderived
    exact derived_iff.1 (derived_refreshResults hbare catalog)

section Feeding

variable {φ κ : Type} [Files φ] [Cache κ] {now : Time} {files : φ} {path : Path} {force : Bool}
  {store store' : Store} {cache cache' : κ}

/-- A store that was fed from its file is not dirty, and its collections are derived. -/
theorem derived_of_feedFromFile {outcome : FeedOutcome}
    (h : feedFromFile now files path store cache = (.ok outcome, store', cache')) :
    store'.Derived ∧ store'.dirty = false := by
  rw [feedFromFile_eq] at h
  split at h
  · cases h
  split at h
  · cases h
  · obtain ⟨-, rfl, -⟩ := h
    exact ⟨(asRead_collectionsOf _ _ _).derived, rfl⟩

/-- A store that was fed is not dirty, and its collections are what their texts make them,
whatever the cache had. -/
theorem derived_of_feed {outcome : FeedOutcome}
    (h : store.feed now files path force cache = (.ok outcome, store', cache')) :
    store'.Derived ∧ store'.dirty = false := by
  rw [feed] at h
  split at h
  · cases h
  split at h
  · exact derived_of_feedFromFile h
  · split at h
    · obtain ⟨-, rfl, -⟩ := h
      exact ⟨derived_ofSnapshot _ _ _, rfl⟩
    · exact derived_of_feedFromFile h

end Feeding

/-- The stores that operations and feeds lead to from the empty one, whether or not they
succeed, with any files and any caches. -/
inductive Reached (φ κ : Type) [Files φ] [Cache κ] : Store → Prop
  | empty : Reached φ κ .empty
  | perform {store} (op : Op φ) : Reached φ κ store → Reached φ κ (store.perform op)
  | feed {store} (now : Time) (files : φ) (path : Path) (force : Bool) (cache : κ) :
      Reached φ κ store → Reached φ κ (store.feed now files path force cache).2.1

variable {φ κ : Type} [Files φ] [Cache κ]

/-- **In every store that is reached, what a text spells and refers to is kept with it.** -/
theorem Reached.derived {store : Store} (h : Reached φ κ store) : store.Derived := by
  induction h with
  | empty => exact asRead_empty.derived
  | @perform store op _ ih =>
    exact (op.change store).derived_applied ih (collections_perform store op)
  | @feed store now files path force cache _ ih =>
    rcases hfeed : store.feed now files path force cache with ⟨e | outcome, store', cache'⟩
    · exact (feed_error hfeed).1 ▸ ih
    · exact (derived_of_feed hfeed).1

/-! ## Restoring -/

/-- A snapshot of derived collections stands for them. -/
theorem collections_ofSnapshot {store : Store} (h : store.Derived) (path : Path) (written : Time) :
    (ofSnapshot path written (store.collections.map CachedCollection.ofCollection)).collections =
      store.collections := by
  rw [ofSnapshot, List.map_map]
  conv_rhs => rw [← List.map_id store.collections]
  refine List.map_congr_left fun c hc => ?_
  have hderived : c.forget = Collection.ofText c.name c.expression := derived_iff.1 h c hc
  change { Collection.ofText c.name c.expression with result := c.result } = c
  rw [← hderived]
  rfl

/-- The cache has the snapshot of a derived store, written at a time. -/
structure Snapshotted (store : Store) (written : Time) (cache : κ) : Prop where
  derived : store.Derived
  entry_eq : Cache.entry Cache.Key.collections cache = (some store.snapshot, some written)

namespace Snapshotted

variable {store other fed : Store} {written now : Time} {files : φ} {path : Path}
  {force : Bool} {cache cache' : κ}

/-- A cache with the same entry has the same snapshot. -/
theorem congr (h : store.Snapshotted written cache)
    (hsame : Cache.entry Cache.Key.collections cache' = Cache.entry Cache.Key.collections cache) :
    store.Snapshotted written cache' :=
  ⟨h.derived, hsame.trans h.entry_eq⟩

/-- The snapshot reads back as the entries of the collections. -/
theorem valueAs_eq (h : store.Snapshotted written cache) :
    Cache.valueAs (Json.list? CachedCollection.ofJson?) Cache.Key.collections cache =
      some (store.collections.map CachedCollection.ofCollection) := by
  rw [Cache.valueAs, h.entry_eq]
  exact list?_snapshot store

variable [LawfulCache κ]

/-- Updating the cache writes the snapshot of what was refreshed. -/
theorem of_updateCache (h : store.Derived) (now : Time) (catalog : Catalog) (cache : κ) :
    (store.refreshResults catalog).2.Snapshotted now (store.updateCache now catalog cache).2 :=
  ⟨derived_refreshResults h catalog, Cache.entry_write_self now _ _ cache⟩

/-- A feed from the file writes the snapshot of what it read. -/
theorem of_feed {before : Store}
    (hfed : before.feed now files path force cache = (.ok .file, store, cache')) :
    store.Snapshotted now cache' := by
  refine ⟨(derived_of_feed hfed).1, ?_⟩
  rw [(entry_feed hfed Cache.Key.collections).1 rfl, if_pos rfl]

/-- **A snapshot is restored as it was written.** -/
theorem restored (h : store.Snapshotted written cache)
    (hfed : other.feed now files path force cache = (.ok .cache, fed, cache')) :
    fed.collections = store.collections ∧ fed.dirty = false := by
  cases feed_cases hfed with
  | cache hcache _ =>
    obtain rfl := Option.some.inj (hcache.value.symm.trans h.valueAs_eq)
    rw [hcache.store_eq]
    exact ⟨collections_ofSnapshot h.derived _ _, rfl⟩

/-- It is restored if and only if the file is not later. -/
theorem feed_eq_cache_iff (h : store.Snapshotted written cache) (now : Time) (files : φ)
    (path : Path) (other : Store) :
    (other.feed now files path false cache).1 = .ok .cache ↔
      ∃ modified, Files.modified files path = .ok modified ∧ modified ≤ written := by
  constructor
  · intro hfed
    cases feed_cases (Prod.fst_eq_iff.1 hfed) with
    | cache hcache _ =>
      have hwritten := congrArg Prod.snd h.entry_eq
      obtain rfl := Option.some.inj (hcache.written_eq.symm.trans hwritten)
      exact ⟨_, hcache.modified_eq, hcache.asNew⟩
  · rintro ⟨modified, hm, hle⟩
    have hfresh := freshSnapshot?_eq modified cache
    rw [h.entry_eq, h.valueAs_eq] at hfresh
    dsimp only at hfresh
    rw [if_neg (Nat.not_lt.2 hle)] at hfresh
    rcases hlooked : freshSnapshot? modified cache with ⟨found, looked⟩
    rw [hlooked] at hfresh
    obtain rfl := hfresh
    simp only [feed, hm, hlooked, Bool.false_eq_true, if_false, Option.map_some]

end Snapshotted

/-- **Snapshots round-trip.**  A store that was reached writes its snapshot when its results
are refreshed against a catalog, or a feed reads the file and writes one.  While the cache
has that snapshot, an unforced feed of any other store takes it exactly if the file is not
later, and gives the same collections in the same order: names, texts, expressions,
dependencies and results.  The store is not dirty then. -/
theorem feed_restores [LawfulCache κ] {before store : Store} {written : Time} {cache saved : κ}
    (h : Reached φ κ before)
    (hsaved : (∃ catalog, before.updateCache written catalog cache = (store, saved)) ∨
      ∃ (files : φ) (path : Path) (force : Bool),
        before.feed written files path force cache = (.ok .file, store, saved))
    {later : κ}
    (hkept : Cache.entry Cache.Key.collections later = Cache.entry Cache.Key.collections saved)
    (other : Store) (now : Time) (files : φ) (path : Path) :
    ((other.feed now files path false later).1 = .ok .cache ↔
      ∃ modified, Files.modified files path = .ok modified ∧ modified ≤ written) ∧
    ∀ restored later', other.feed now files path false later = (.ok .cache, restored, later') →
      restored.collections = store.collections ∧ restored.dirty = false := by
  have hsnapshot : store.Snapshotted written later := by
    rcases hsaved with ⟨catalog, hsaved⟩ | ⟨files, path, force, hfed⟩
    · obtain ⟨rfl, rfl⟩ := Prod.mk.inj hsaved
      exact (Snapshotted.of_updateCache h.derived written catalog cache).congr hkept
    · exact (Snapshotted.of_feed hfed).congr hkept
  exact ⟨hsnapshot.feed_eq_cache_iff now files path other,
    fun restored later' hfed => hsnapshot.restored hfed⟩

/-- A file with a text that spells no expression. -/
def tornFile : FileTree where
  nodes := [(["f"], .file (.text "a = all\ntorn = ((\n") 5)]
  clock := 9

/-- Its definitions, with one that refers to nothing. -/
def tornStore : Store := ((empty.load tornFile "f" false).2.define "lost" "NOT nobody").2

/-- The cache that its results were written to. -/
def tornCache : MemoryCache := (tornStore.updateCache 7 (.ofPlaylists []) ({} : MemoryCache)).2

/-- A store with a change that was not saved takes the snapshot, with the collections that
have no result. -/
theorem feed_restores_torn :
    Reached FileTree MemoryCache tornStore ∧
      ∃ restored later, (empty.define "x" "all").2.feed 8 tornFile "f" false tornCache =
          (.ok .cache, restored, later) ∧
        restored.collections = (tornStore.refreshResults (.ofPlaylists [])).2.collections ∧
        restored.collections.map Collection.result = [some [], none, none] ∧
        restored.dirty = false := by
  have hreached : Reached FileTree MemoryCache tornStore :=
    .perform (.define "lost" "NOT nobody") (.perform (.load tornFile "f" false) .empty)
  have hsaved : tornStore.updateCache 7 (.ofPlaylists []) ({} : MemoryCache) =
      ((tornStore.refreshResults (.ofPlaylists [])).2, tornCache) := Prod.ext rfl rfl
  have hm : Files.modified tornFile "f" = .ok 5 := rfl
  obtain ⟨htaken, hrestored⟩ := feed_restores hreached (.inl ⟨.ofPlaylists [], hsaved⟩)
    (Eq.refl (Cache.entry Cache.Key.collections tornCache)) (empty.define "x" "all").2 8 tornFile
    "f"
  have hfed := htaken.2 ⟨5, hm, by decide⟩
  rcases hfeed : (empty.define "x" "all").2.feed 8 tornFile "f" false tornCache with
    ⟨outcome, restored, later⟩
  rw [hfeed] at hfed
  obtain rfl : outcome = .ok .cache := hfed
  obtain ⟨hsame, hclean⟩ := hrestored restored later hfeed
  refine ⟨hreached, restored, later, rfl, hsame, ?_, hclean⟩
  rw [hsame]
  decide +kernel

end Store
end MusicCollections
