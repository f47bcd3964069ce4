/-
# Stores that share a cache

Any number of stores feed from one cache and write their snapshots to it, while the
definitions files change.  There is one snapshot, the last one written, and nothing
in it says which file it is of.  `Share` carries, next to what the stores see, what
that snapshot was taken of (`Shot`), and `Share.Kept` ties it to the cache and to
the files: a file that is not newer than the snapshot is as it was when the snapshot
was written.

So a feed gives the definitions of the file asked for in exactly these cases
(`feed_serves_file_iff`): it is forced, the file is newer than the snapshot, or the
snapshot holds what that file held when it was written.  A snapshot of another file
does not, and is served all the same (`feed_serves_other_file`).
-/

import Mathlib.Data.List.Basic
import Mathlib.Data.Prod.Basic
import MusicCollections.Cache.Memory
import MusicCollections.Files.Tree
import MusicCollections.Proofs.Feed

namespace MusicCollections

/-- What the last snapshot was taken of. -/
structure Shot (φ : Type) where
  time : Time
  /-- The files when it was taken. -/
  files : φ
  /-- The definitions of the store that it was taken of. -/
  definitions : List Definition

/-- Files, a cache, and stores that share them. -/
structure Share (φ κ : Type) where
  files : φ
  cache : κ
  stores : Nat → Store
  now : Time
  /-- Nothing reads it. -/
  shot : Option (Shot φ) := none

namespace Share

variable {φ κ : Type} [Files φ] [Cache κ]

/-- What is done next, by one of the stores or from outside. -/
inductive Op (φ : Type) where
  | feed (i : Nat) (path : Path) (force : Bool)
  | updateCache (i : Nat) (catalog : Catalog)
  | define (i : Nat) (name expression : String)
  | delete (i : Nat) (name : String)
  | persist (i : Nat) (path : Path)
  /-- Others change the files. -/
  | edit (files : φ)

/-- Gives a store its next state. -/
def put (s : Share φ κ) (i : Nat) (store : Store) : Share φ κ :=
  { s with stores := fun j => if j = i then store else s.stores j }

/-- Notes what a snapshot is taken of. -/
def note (s : Share φ κ) (store : Store) : Share φ κ :=
  { s with shot := some ⟨s.now, s.files, store.definitions⟩ }

/-- What an operation does at the time that it is now. -/
def perform (s : Share φ κ) : Op φ → Share φ κ
  | .feed i path force =>
    match (s.stores i).feed s.now s.files path force s.cache with
    | (.ok .file, store, cache) => ({ s with cache }.put i store).note store
    | (_, store, cache) => { s with cache }.put i store
  | .updateCache i catalog =>
    let (store, cache) := (s.stores i).updateCache s.now catalog s.cache
    ({ s with cache }.put i store).note store
  | .define i name expression => s.put i ((s.stores i).define name expression).2
  | .delete i name => s.put i ((s.stores i).delete name).2
  | .persist i path =>
    let (_, store, files) := (s.stores i).persist s.now path s.files
    { s with files }.put i store
  | .edit files => { s with files }

/-- Every file that changed has the time of the change. -/
def ChangedAt (now : Time) (files files' : φ) : Prop :=
  ∀ path, (Files.modified files' path = Files.modified files path ∧
      Files.read files' path = Files.read files path) ∨
    Files.modified files' path = .ok now ∨ ∃ e, Files.modified files' path = .error e

/-- A feed leaves the files as they are. -/
theorem files_perform_feed (s : Share φ κ) (i : Nat) (path : Path) (force : Bool) :
    (s.perform (.feed i path force)).files = s.files := by
  rw [perform]
  split <;> rfl

/-- What can come about, beginning without a snapshot: time advances with every
operation, and what changes a file gives it the time. -/
inductive History : Share φ κ → Prop
  | start (files : φ) (cache : κ) (stores : Nat → Store) (now : Time) :
      Cache.entry Cache.Key.collections cache = (none, none) →
      History { files, cache, stores, now }
  | step {s : Share φ κ} (now : Time) (op : Op φ) :
      History s → s.now < now → ChangedAt now s.files ({ s with now }.perform op).files →
      History ({ s with now }.perform op)

/-- The snapshot in the cache is the one noted, and a file that is not newer than it
is as it was then. -/
structure Kept (s : Share φ κ) : Prop where
  missing : s.shot = none → (Cache.entry Cache.Key.collections s.cache).2 = none
  written : ∀ shot, s.shot = some shot →
    (Cache.entry Cache.Key.collections s.cache).2 = some shot.time ∧ shot.time ≤ s.now
  value : ∀ shot, s.shot = some shot → ∃ entries,
    Cache.valueAs (Json.list? CachedCollection.ofJson?) Cache.Key.collections s.cache =
      some entries ∧
    ∀ path written, (Store.ofSnapshot path written entries).definitions = shot.definitions
  unchanged : ∀ shot, s.shot = some shot → ∀ path modified,
    Files.modified s.files path = .ok modified → modified ≤ shot.time →
    Files.modified shot.files path = .ok modified ∧
      Files.read shot.files path = Files.read s.files path

namespace Kept

variable {s : Share φ κ}

/-- The time goes on, and other stores take the place of the stores. -/
theorem later (h : s.Kept) {now : Time} (hnow : s.now ≤ now) (stores : Nat → Store) :
    Kept { s with now, stores } where
  missing := h.missing
  written shot hshot := ⟨(h.written shot hshot).1, Nat.le_trans (h.written shot hshot).2 hnow⟩
  value := h.value
  unchanged := h.unchanged

/-- The state of the cache changes, but not what it has. -/
theorem recached (h : s.Kept) {cache : κ}
    (hcache : Cache.entry Cache.Key.collections cache = Cache.entry Cache.Key.collections s.cache) :
    Kept { s with cache } where
  missing hshot := by
    rw [hcache]
    exact h.missing hshot
  written shot hshot := by
    rw [hcache]
    exact h.written shot hshot
  value shot hshot := by
    rw [Cache.valueAs, hcache]
    exact h.value shot hshot
  unchanged := h.unchanged

/-- Files change after the snapshot was written. -/
theorem edited (h : s.Kept) {now : Time} {files : φ} (hnow : s.now < now)
    (hfiles : ChangedAt now s.files files) : Kept { s with files, now } where
  missing := h.missing
  written shot hshot :=
    ⟨(h.written shot hshot).1, Nat.le_trans (h.written shot hshot).2 (Nat.le_of_lt hnow)⟩
  value := h.value
  unchanged shot hshot path modified hm hle := by
    have htime := (h.written shot hshot).2
    rcases hfiles path with ⟨hsame, hread⟩ | hchanged | ⟨e, hgone⟩
    · rw [hsame] at hm
      obtain ⟨hm', hr'⟩ := h.unchanged shot hshot path modified hm hle
      exact ⟨hm', hr'.trans hread.symm⟩
    · obtain rfl := Except.ok.inj (hchanged.symm.trans hm)
      exact absurd (Nat.le_trans hle htime) (Nat.not_le.2 hnow)
    · cases hgone.symm.trans hm

/-- A snapshot is written and noted. -/
theorem noted {store : Store} (hcache : Cache.entry Cache.Key.collections s.cache =
    (some store.snapshot, some s.now)) : (s.note store).Kept where
  missing hshot := by cases hshot
  written shot hshot := by
    obtain rfl := Option.some.inj hshot
    exact ⟨congrArg Prod.snd hcache, Nat.le_refl s.now⟩
  value shot hshot := by
    obtain rfl := Option.some.inj hshot
    refine ⟨_, ?_, fun path written => Store.definitions_ofSnapshot path written store⟩
    rw [Cache.valueAs]
    simp only [note, hcache]
    exact Store.list?_snapshot store
  unchanged shot hshot path modified hm _ := by
    obtain rfl := Option.some.inj hshot
    exact ⟨hm, rfl⟩

end Kept

variable [LawfulCache κ]

/-- **Whatever is done, the snapshot is the one noted.** -/
theorem History.kept {s : Share φ κ} (h : History s) : s.Kept := by
  induction h with
  | start files cache stores now hcache =>
    refine ⟨fun _ => by rw [hcache], ?_, ?_, ?_⟩ <;> exact fun _ hshot => by cases hshot
  | @step s now op _ hnow hfiles ih =>
    cases op with
    | feed i path force =>
      have hlater := ih.later (Nat.le_of_lt hnow) s.stores
      rcases hfed : (s.stores i).feed now s.files path force s.cache with ⟨outcome, store, cache⟩
      -- Only a feed that reads the file writes a snapshot.
      obtain ⟨hwritten, hsame⟩ := Store.entry_feed hfed Cache.Key.collections
      rw [perform, hfed]
      match outcome with
      | .ok .file => exact .noted (hwritten rfl)
      | .ok .cache => exact (hlater.recached (hsame nofun)).later (Nat.le_refl _) _
      | .error e => exact (hlater.recached (hsame nofun)).later (Nat.le_refl _) _
    | updateCache i catalog =>
      exact .noted (Cache.entry_write_self now Cache.Key.collections _ s.cache)
    | define i name expression => exact ih.later (Nat.le_of_lt hnow) _
    | delete i name => exact ih.later (Nat.le_of_lt hnow) _
    | persist i path => exact (ih.edited hnow hfiles).later (Nat.le_refl _) _
    | edit files => exact ih.edited hnow hfiles

end Share

open Share in
/-- **When a feed gives the definitions of the file asked for.**  It does if it is
forced or the file is newer than the last snapshot, and otherwise if that snapshot
was taken of what the file held then. -/
theorem feed_serves_file_iff {φ κ : Type} [Files φ] [Cache κ] [LawfulCache κ] {s : Share φ κ}
    (h : History s) {now : Time} {path : Path} {force : Bool} {store store' : Store} {cache' : κ}
    {outcome : FeedOutcome}
    (hfed : store.feed now s.files path force s.cache = (.ok outcome, store', cache')) :
    Store.definitionsAt s.files path = .ok store'.definitions ↔
      force = true ∨ ∀ shot, s.shot = some shot →
        (∃ modified, Files.modified s.files path = .ok modified ∧ shot.time < modified) ∨
          Store.definitionsAt shot.files path = .ok shot.definitions := by
  have hkept := h.kept
  rcases Store.feed_ok hfed with ⟨-, modified, written, entries, hcache⟩ |
    ⟨-, modified, text, hfile⟩
  · -- The snapshot is no older than the file, so the file is as it was.
    cases hshot : s.shot with
    | none => cases (hkept.missing hshot).symm.trans hcache.written_eq
    | some shot =>
      obtain ⟨entries', hvalue, hdefinitions⟩ := hkept.value shot hshot
      obtain rfl := Option.some.inj (hcache.value.symm.trans hvalue)
      obtain rfl := Option.some.inj (hcache.written_eq.symm.trans (hkept.written shot hshot).1)
      obtain ⟨hm, hr⟩ := hkept.unchanged shot hshot path modified hcache.modified_eq hcache.asNew
      have hthen : Store.definitionsAt s.files path = Store.definitionsAt shot.files path :=
        Store.definitionsAt_congr (hcache.modified_eq.trans hm.symm) hr.symm
      rw [hcache.store_eq, hdefinitions, hthen]
      constructor
      · rintro hserved
        refine .inr fun shot' hshot' => .inr ?_
        obtain rfl := Option.some.inj hshot'
        exact hserved
      · rintro (hforce | hserved)
        · cases hcache.unforced.symm.trans hforce
        · rcases hserved shot rfl with ⟨modified', hm', hlt⟩ | hserved
          · obtain rfl := Except.ok.inj (hcache.modified_eq.symm.trans hm')
            exact absurd hcache.asNew (Nat.not_le.2 hlt)
          · exact hserved
  · have hserved : Store.definitionsAt s.files path = .ok store'.definitions := by
      rw [Store.definitionsAt_eq hfile.modified_eq hfile.text_eq, hfile.store_eq]
      rfl
    refine iff_of_true hserved ?_
    cases hforce : force with
    | true => exact .inl rfl
    | false =>
      refine .inr fun shot hshot => .inl ⟨modified, hfile.modified_eq, ?_⟩
      obtain ⟨entries, hvalue, -⟩ := hkept.value shot hshot
      rw [← Nat.not_le]
      intro hle
      cases (hfile.missed hforce shot.time (hkept.written shot hshot).1 hle).symm.trans hvalue

/-! ## A snapshot of another file -/

/-- Two files with one definition each. -/
def twoFiles : FileTree where
  nodes := [(["a"], .file (.text "x = all") 1), (["b"], .file (.text "y = all") 2)]
  clock := 2

/-- Nothing is cached, and no store has collections. -/
def untouched (now : Time) : Share FileTree MemoryCache where
  files := twoFiles
  cache := {}
  stores _ := .empty
  now := now

/-- A store was fed from the first of the files. -/
def fedFromFirst : Share FileTree MemoryCache := (untouched 4).perform (.feed 0 "a" false)

/-- The feed from the first file is a history of one step. -/
theorem history_fedFromFirst : Share.History fedFromFirst := by
  have hstart : Share.History (untouched 3) := .start _ _ _ _ rfl
  refine .step 4 (.feed 0 "a" false) hstart (by decide) fun path => .inl ?_
  rw [Share.files_perform_feed]
  exact ⟨rfl, rfl⟩

/-- Fed again from the same file, the store takes the snapshot, and it holds what the file
says. -/
theorem feed_serves_first_again :
    ∃ store' cache', Store.empty.feed 5 fedFromFirst.files "a" false fedFromFirst.cache =
      (.ok .cache, store', cache') ∧
      Store.definitionsAt fedFromFirst.files "a" = .ok store'.definitions := by
  have hfed : (Store.empty.feed 5 fedFromFirst.files "a" false fedFromFirst.cache).1 =
      .ok .cache := rfl
  have hfeed := Prod.fst_eq_iff.1 hfed
  refine ⟨_, _, hfeed, (feed_serves_file_iff history_fedFromFirst hfeed).2
    (.inr fun shot hshot => .inr ?_)⟩
  obtain rfl := Option.some.inj hshot
  rfl

/-- **A feed may serve another file.**  The second file is older than the snapshot of
the first one, and the definition of the first is served for it. -/
theorem feed_serves_other_file :
    ∃ s : Share FileTree MemoryCache, Share.History s ∧ ∃ store' cache',
      Store.empty.feed 5 s.files "b" false s.cache = (.ok .cache, store', cache') ∧
      store'.definitions = [("x", "all")] ∧
      Store.definitionsAt s.files "b" = .ok [("y", "all")] := by
  have hfed : (Store.empty.feed 5 fedFromFirst.files "b" false fedFromFirst.cache).1 =
      .ok .cache := rfl
  exact ⟨fedFromFirst, history_fedFromFirst, _, _, Prod.fst_eq_iff.1 hfed, rfl,
    rfl⟩

end MusicCollections
