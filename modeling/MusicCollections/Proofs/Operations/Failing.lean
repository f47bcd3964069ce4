/-
# Operations that fail

An operation on a store that fails leaves the store as it was, whatever it fails at: each of
them looks at everything that it may fail for before it changes anything.  A feed that fails
has looked at the cache and written nothing to it, and a save that fails has left its file.
Reading the file again drops the results first, so they are gone if that fails.
-/

import Mathlib.Data.Prod.Basic
import MusicCollections.Cache.Memory
import MusicCollections.Proofs.Collections
import MusicCollections.Proofs.Drafts
import MusicCollections.Proofs.Feed

namespace MusicCollections
namespace Store

variable {φ κ : Type} [Files φ] [Cache κ] {store store' : Store} {name expression : String}
  {files files' : φ} {cache cache' : κ} {path : Path} {force : Bool} {now : Time}
  {e : StoreError}

/-! ## The store -/

/-- A definition that is refused leaves the store. -/
theorem define_error (h : store.define name expression = (.error e, store')) : store' = store := by
  rcases define_cases store name expression with ⟨_, hfailed⟩ | ⟨_, _, hdone⟩
  · rw [hfailed] at h
    exact (Prod.mk.inj h).2.symm
  · rw [hdone] at h
    cases h

/-- So does a deletion of what is not there. -/
theorem delete_error (h : store.delete name = (.error e, store')) : store' = store := by
  rcases delete_cases store name with ⟨_, hfailed⟩ | ⟨_, hdone⟩
  · rw [hfailed] at h
    exact (Prod.mk.inj h).2.symm
  · rw [hdone] at h
    cases h

/-- And so does a load of what cannot be read. -/
theorem load_error (h : store.load files path force = (.error e, store')) : store' = store := by
  rcases load_cases files path force store with
    ⟨_, hfailed⟩ | ⟨_, -, -, -, hskipped⟩ | ⟨_, _, -, -, hdone⟩
  · rw [hfailed] at h
    exact (Prod.mk.inj h).2.symm
  · rw [hskipped] at h
    cases h
  · rw [hdone] at h
    cases h

/-- Reading the file again fails after the results were dropped. -/
theorem reload_error (h : store.reload files = (.error e, store')) :
    store' = store.clearResults := by
  rw [reload] at h
  split at h
  · cases h
  · exact load_error h

/-! ## Files and the cache -/

/-- A save that fails leaves the store, and its file was not replaced. -/
theorem persist_error (h : store.persist now path files = (.error e, store', files')) :
    store' = store ∧ ∃ fault, Files.replace path (store.definitions.map Definitions.line) files =
      (.error fault, files') := by
  rw [persist] at h
  rcases hreplace : Files.replace path (store.definitions.map Definitions.line) files with
    ⟨fault | _, left⟩
  · rw [hreplace] at h
    obtain ⟨-, rfl, rfl⟩ := h
    exact ⟨rfl, fault, rfl⟩
  · rw [hreplace] at h
    cases h

/-- Looking for a snapshot writes nothing to the cache. -/
theorem lookedAt_freshSnapshot? (modified : Time) (cache : κ) :
    Cache.LookedAt cache (freshSnapshot? modified cache).2 := by
  have hlooked : Cache.LookedAt cache (Cache.lastModified Cache.Key.collections cache).2 :=
    .lastModified _ .refl
  rw [freshSnapshot?]
  rcases hlast : Cache.lastModified Cache.Key.collections cache with ⟨_ | written, looked⟩
  · rw [hlast] at hlooked
    exact hlooked
  · rw [hlast] at hlooked
    dsimp only
    split
    · exact hlooked
    · exact .read _ hlooked

/-- A feed from a file that cannot be read leaves the store and the cache. -/
theorem feedFromFile_error
    (h : feedFromFile now files path store cache = (.error e, store', cache')) :
    store' = store ∧ cache' = cache := by
  rw [feedFromFile] at h
  split at h
  · rename_i _ left hload
    obtain ⟨-, rfl, rfl⟩ := h
    exact ⟨load_error hload, rfl⟩
  · cases h

/-- A feed that fails leaves the store and writes nothing to the cache. -/
theorem feed_error (h : store.feed now files path force cache = (.error e, store', cache')) :
    store' = store ∧ Cache.LookedAt cache cache' := by
  rw [feed] at h
  split at h
  · obtain ⟨-, rfl, rfl⟩ := h
    exact ⟨rfl, .refl⟩
  · rename_i modified _
    split at h
    · obtain ⟨rfl, rfl⟩ := feedFromFile_error h
      exact ⟨rfl, .refl⟩
    · have hlooked := lookedAt_freshSnapshot? modified cache
      split at h
      · cases h
      · rename_i looked hfresh
        rw [hfresh] at hlooked
        obtain ⟨rfl, rfl⟩ := feedFromFile_error h
        exact ⟨rfl, hlooked⟩

/-- **An operation that fails leaves the store as it was.**  A feed that fails has written
nothing to the cache besides, and a save that fails has left the contents of its file.  If
the file cannot be read again, the results of the store are gone, and nothing else. -/
theorem failed_operations_leave_store {Beside : Path → Path → Prop}
    (hdrafts : DraftsApart φ Beside) (store : Store) :
    (∀ name expression e store',
      store.define name expression = (.error e, store') → store' = store) ∧
    (∀ name e store', store.delete name = (.error e, store') → store' = store) ∧
    (∀ (files : φ) path force e store',
      store.load files path force = (.error e, store') → store' = store) ∧
    (∀ now (files : φ) path force (cache : κ) e store' cache',
      store.feed now files path force cache = (.error e, store', cache') →
        store' = store ∧ Cache.LookedAt cache cache') ∧
    (∀ now path (files : φ) e store' files',
      store.persist now path files = (.error e, store', files') →
        store' = store ∧ Files.read files' path = Files.read files path) ∧
    (∀ (files : φ) e store',
      store.reload files = (.error e, store') → store' = store.clearResults) := by
  refine ⟨fun _ _ _ _ => define_error, fun _ _ _ => delete_error, fun _ _ _ _ _ => load_error,
    fun _ _ _ _ _ _ _ _ => feed_error, ?_, fun _ _ _ => reload_error⟩
  intro now path files e store' files' h
  obtain ⟨hstore, fault, hreplace⟩ := persist_error h
  exact ⟨hstore, hdrafts.read_of_replace_error hreplace⟩

/-- A store that was changed after it was loaded from a file that is gone. -/
def editedStore : Store where
  collections := [{ Collection.ofText "a" "b" with result := some ["x"] }]
  source := some ⟨"gone", 1⟩
  dirty := true

/-- A file that is no text, and a directory. -/
def unreadableFiles : FileTree where
  nodes := [(["notes"], .file (.bytes [255]) 5), (["music"], .directory 2)]
  clock := 9

/-- A cache with a snapshot from before the file was changed. -/
def agedCache : MemoryCache := ⟨[(Cache.Key.collections, ⟨.array [], 3⟩)]⟩

/-- A device that has the files and takes so many bytes more. -/
def device (left : Nat) : Metered FileTree := ⟨unreadableFiles, left⟩

/-- Each operation fails on these, and the snapshot is kept.  A save fails for want of space when
its draft is written, and otherwise when the draft should take the place of a directory. -/
theorem editedStore_fails :
    editedStore.define "b" "NOT a" = (.error (.cycle ["b", "a", "b"]), editedStore) ∧
    editedStore.delete "b" = (.error (.notFound "b"), editedStore) ∧
    editedStore.load (device 0) "notes" false =
      (.error (.unreadable "notes" .notText), editedStore) ∧
    (∃ cache', editedStore.feed 9 (device 0) "notes" false agedCache =
        (.error (.unreadable "notes" .notText), editedStore, cache') ∧
      Cache.entry Cache.Key.collections cache' = (some (.array []), some 3)) ∧
    (∃ files', editedStore.persist 9 "notes" (device 5) =
        (.error (.unwritable "notes" Metered.full), editedStore, files') ∧
      Files.read files' "notes" = .ok (.bytes [255])) ∧
    (∃ files', editedStore.persist 9 "music" (device 6) =
        (.error (.unwritable "music" .isADirectory), editedStore, files') ∧
      Files.read files' "music" = .error .isADirectory) ∧
    editedStore.reload (device 0) =
      (.error (.unreadable "gone" .notFound), editedStore.clearResults) := by
  obtain ⟨hdefine, hdelete, hload, hfeed, hpersist, hreload⟩ :=
    @failed_operations_leave_store (Metered FileTree) MemoryCache _ _ _
      FileTree.draftsApart.metered editedStore
  have hdefined : (editedStore.define "b" "NOT a").1 = .error (.cycle ["b", "a", "b"]) := by
    decide +kernel
  have hdeleted : (editedStore.delete "b").1 = .error (.notFound "b") := rfl
  have hloaded : (editedStore.load (device 0) "notes" false).1 =
      .error (.unreadable "notes" .notText) := rfl
  have hfed : (editedStore.feed 9 (device 0) "notes" false agedCache).1 =
      .error (.unreadable "notes" .notText) := rfl
  have hcrowded : (editedStore.persist 9 "notes" (device 5)).1 =
      .error (.unwritable "notes" Metered.full) := rfl
  have hmisplaced : (editedStore.persist 9 "music" (device 6)).1 =
      .error (.unwritable "music" .isADirectory) := rfl
  have hreloaded : (editedStore.reload (device 0)).1 =
      .error (.unreadable "gone" .notFound) := rfl
  obtain ⟨hstoreFed, hlooked⟩ := hfeed _ _ _ _ _ _ _ _ (Prod.fst_eq_iff.1 hfed)
  have hcrowdedSave := persist_eq_of_fst hcrowded
  obtain ⟨hstoreCrowded, hkept⟩ := hpersist _ _ _ _ _ _ hcrowdedSave
  have hmisplacedSave := persist_eq_of_fst hmisplaced
  obtain ⟨hstoreMisplaced, hread⟩ := hpersist _ _ _ _ _ _ hmisplacedSave
  rw [hstoreCrowded] at hcrowdedSave
  rw [hstoreMisplaced] at hmisplacedSave
  exact ⟨Prod.ext hdefined (hdefine _ _ _ _ (Prod.fst_eq_iff.1 hdefined)),
    Prod.ext hdeleted (hdelete _ _ _ (Prod.fst_eq_iff.1 hdeleted)),
    Prod.ext hloaded (hload _ _ _ _ _ (Prod.fst_eq_iff.1 hloaded)),
    ⟨_, Prod.ext hfed (Prod.ext hstoreFed rfl), hlooked.entry_eq _⟩,
    ⟨_, hcrowdedSave, hkept.trans rfl⟩,
    ⟨_, hmisplacedSave, hread.trans rfl⟩,
    Prod.ext hreloaded (hreload _ _ _ (Prod.fst_eq_iff.1 hreloaded))⟩

end Store
end MusicCollections
