/-
# Loads that are skipped

A load that is not forced does nothing where the store came from the same file and has
seen its time.  That is right as long as whatever changes a file gives it a later time:
`Traced` follows a store and the files through loads, definitions, deletions and saves,
with changes by others in between, and asks this of every step that changes the files.

The time that the store has seen is one at which the file held its collections
(`UpToDate.clean`).  A definition or a deletion takes that away until the next save or
load, so a load that is skipped then keeps what was not saved
(`load_unforced_agrees`).
-/

import Mathlib.Data.Prod.Basic
import MusicCollections.Proofs.Definitions.Saving
import MusicCollections.Proofs.Feed
import MusicCollections.Proofs.Timestamps

namespace MusicCollections
namespace Store

variable {φ : Type} [Files φ]

/-- A store and the files that it worked on, from the empty store on.  Others may change the
files at any time.  `past` are the states of the files so far, `files` among them; a change
leaves no file with a time that it had when it was another. -/
inductive Traced : List φ → φ → Store → Prop
  | start (files : φ) : Traced [files] files .empty
  | load {past files store} (path : Path) (force : Bool) : Traced past files store →
      Traced past files (store.load files path force).2
  | define {past files store} (name expression : String) : Traced past files store →
      Traced past files (store.define name expression).2
  | delete {past files store} (name : String) : Traced past files store →
      Traced past files (store.delete name).2
  | persist {past files store} (now : Time) (path : Path) : Traced past files store →
      (∀ before ∈ past, Files.ChangesLater before (store.persist now path files).2.2) →
      Traced ((store.persist now path files).2.2 :: past) (store.persist now path files).2.2
        (store.persist now path files).2.1
  | meanwhile {past files store} (files' : φ) : Traced past files store →
      (∀ before ∈ past, Files.ChangesLater before files') → Traced (files' :: past) files' store

variable {past : List φ} {files : φ} {store : Store}

/-- What is known of a store and the files that it worked on. -/
structure UpToDate (past : List φ) (files : φ) (store : Store) : Prop where
  savable : Collection.Savable store.collections
  present : files ∈ past
  later : ∀ before ∈ past, Files.ChangesLater before files
  /-- Unless the store is dirty, its file held its collections at the time it has seen. -/
  clean : store.dirty = false → ∀ source, store.source = some source →
    ∃ before ∈ past, ∃ text, Files.modified before source.path = .ok source.seen ∧
      Files.readText before source.path = .ok text ∧
      store.collections = collectionsOf (Definitions.parse text)

/-- A store that has seen a time came from the file, under one spelling of its path or
another. -/
theorem of_hasSeen {path : Path} {modified : Time} (h : store.hasSeen path modified = true) :
    ∃ source, store.source = some source ∧ Path.same source.path path = true ∧
      modified ≤ source.seen := by
  unfold hasSeen at h
  split at h
  · cases h
  · rename_i source hsource
    obtain ⟨hsame, hle⟩ : Path.same source.path path = true ∧ modified ≤ source.seen := by
      simpa using h
    exact ⟨source, hsource, hsame, hle⟩

namespace UpToDate

/-- A load keeps what is known of the store. -/
theorem load (h : UpToDate past files store) (path : Path) (force : Bool) :
    UpToDate past files (store.load files path force).2 := by
  refine ⟨savable_load h.savable files path force, h.present, h.later, ?_⟩
  rcases load_cases files path force store with
    ⟨e, hload⟩ | ⟨modified, -, -, -, hload⟩ | ⟨modified, text, hm, ht, hload⟩
  · rw [hload]
    exact h.clean
  · rw [hload]
    exact h.clean
  · rw [hload]
    rintro - source hsource
    obtain rfl := Option.some.inj hsource
    exact ⟨files, h.present, text, hm, ht, rfl⟩

/-- A definition that is rejected changes nothing, and one that is not makes the store dirty. -/
theorem define (h : UpToDate past files store) (name expression : String) :
    UpToDate past files (store.define name expression).2 := by
  refine ⟨savable_define h.savable, h.present, h.later, ?_⟩
  rcases define_cases store name expression with ⟨e, hdefine⟩ | ⟨c, -, hdefine⟩
  · rw [hdefine]
    exact h.clean
  · rw [hdefine]
    exact nofun

/-- A deletion keeps what is known of the store. -/
theorem delete (h : UpToDate past files store) (name : String) :
    UpToDate past files (store.delete name).2 := by
  refine ⟨savable_delete h.savable, h.present, h.later, ?_⟩
  rcases delete_cases store name with ⟨e, hdelete⟩ | ⟨c, hdelete⟩
  · rw [hdelete]
    exact h.clean
  · rw [hdelete]
    exact nofun

variable [LawfulPaths φ]

/-- Files that others change are among the states that the store has seen. -/
theorem meanwhile (h : UpToDate past files store) {files' : φ}
    (hlater : ∀ before ∈ past, Files.ChangesLater before files') :
    UpToDate (files' :: past) files' store where
  savable := h.savable
  present := List.mem_cons_self
  later before hbefore := by
    rcases List.mem_cons.1 hbefore with rfl | hbefore
    · exact Files.changesLater_refl before
    · exact hlater before hbefore
  clean hdirty source hsource := by
    obtain ⟨before, hbefore, hheld⟩ := h.clean hdirty source hsource
    exact ⟨before, List.mem_cons_of_mem files' hbefore, hheld⟩

/-- A save that succeeds leaves a file that holds the collections, with a time that the store
has seen. -/
theorem persist [LawfulFiles φ] (h : UpToDate past files store) (now : Time) (path : Path)
    (hlater : ∀ before ∈ past, Files.ChangesLater before (store.persist now path files).2.2) :
    UpToDate ((store.persist now path files).2.2 :: past) (store.persist now path files).2.2
      (store.persist now path files).2.1 := by
  unfold Store.persist at hlater ⊢
  rcases hreplace : Files.replace path (store.definitions.map Definitions.line) files with
    ⟨e | _, files'⟩
  · rw [hreplace] at hlater
    exact h.meanwhile hlater
  · rw [hreplace] at hlater
    have hkept := h.meanwhile hlater
    refine ⟨hkept.savable, hkept.present, hkept.later, ?_⟩
    rintro - source hsource
    obtain rfl := Option.some.inj hsource
    obtain ⟨time, htime⟩ := (Files.of_replace_eq_ok hreplace).1
    refine ⟨files', hkept.present, Definitions.render store.definitions, ?_,
      Definitions.readText_of_replace hreplace, ?_⟩
    · dsimp only
      rw [htime]
      rfl
    · rw [parse_render_definitions h.savable, collectionsOf_definitions h.savable]

end UpToDate

/-- **Every trace keeps its store up to date.** -/
theorem Traced.upToDate [LawfulFiles φ] [LawfulPaths φ] (h : Traced past files store) :
    UpToDate past files store := by
  induction h with
  | start files =>
    refine ⟨.nil, List.mem_cons_self, fun before hbefore => ?_, fun _ _ => nofun⟩
    obtain rfl := List.mem_singleton.1 hbefore
    exact Files.changesLater_refl before
  | load path force _ ih => exact ih.load path force
  | define name expression _ ih => exact ih.define name expression
  | delete name _ ih => exact ih.delete name
  | persist now path _ hlater ih => exact ih.persist now path hlater
  | meanwhile files' _ hlater ih => exact ih.meanwhile hlater

/-- **A file that the store has seen holds its collections**, under any spelling of its path,
unless the store is dirty. -/
theorem UpToDate.readText_of_hasSeen (h : UpToDate past files store) (hdirty : store.dirty = false)
    {path : Path} {modified : Time} (hm : Files.modified files path = .ok modified)
    (hseen : store.hasSeen path modified = true) :
    ∃ text, Files.readText files path = .ok text ∧
      store.collections = collectionsOf (Definitions.parse text) := by
  obtain ⟨source, hsource, hsame, hle⟩ := of_hasSeen hseen
  obtain ⟨before, hbefore, text, htime, htext, hheld⟩ := h.clean hdirty source hsource
  -- A change since then would have given the file a later time than the store has seen.
  have hread : Files.read files path = Files.read before source.path := by
    rcases h.later before hbefore hsame htime hm with hlater | ⟨-, hread⟩
    · exact absurd hle (Nat.not_le.2 hlater)
    · exact hread
  refine ⟨text, ?_, hheld⟩
  rw [← htext, Files.readText, Files.readText, hread]

/-- **A load that is not forced agrees with one that is.**  If it succeeds on a store that is
not dirty, a forced load succeeds too and leaves the same collections in the same order, and
so the same definitions.  If it is skipped, the store stays as it is, with all that was not
saved. -/
theorem load_unforced_agrees [LawfulFiles φ] [LawfulPaths φ] {path : Path}
    {outcome : LoadOutcome} {loaded : Store} (h : Traced past files store)
    (hload : store.load files path false = (.ok outcome, loaded)) :
    (store.dirty = false → ∃ count forced,
      store.load files path true = (.ok (.loaded count), forced) ∧
        loaded.collections = forced.collections ∧ loaded.definitions = forced.definitions) ∧
    (outcome = .fresh → loaded = store) := by
  rcases load_cases files path false store with
    ⟨e, hcase⟩ | ⟨modified, -, hm, hseen, hcase⟩ | ⟨modified, text, hm, ht, hcase⟩
  · rw [hcase] at hload
    cases hload
  · rw [hcase] at hload
    obtain ⟨-, rfl⟩ := Prod.mk.inj hload
    refine ⟨fun hdirty => ?_, fun _ => rfl⟩
    obtain ⟨text, ht, hheld⟩ := h.upToDate.readText_of_hasSeen hdirty hm hseen
    refine ⟨_, _, by rw [load_force, hm, ht], hheld, ?_⟩
    rw [definitions, hheld]
    rfl
  · rw [hcase] at hload
    obtain ⟨houtcome, rfl⟩ := Prod.mk.inj hload
    refine ⟨fun _ => ⟨_, _, by rw [load_force, hm, ht], rfl, rfl⟩, fun hfresh => ?_⟩
    rw [hfresh] at houtcome
    cases houtcome

/-! ## A store that is saved beside its file -/

/-- A file, and a directory without one. -/
def shelf : FileTree where
  nodes := [(["notes"], .file (.text "a = all\n") 5), (["d"], .directory 6)]
  clock := 9

/-- The definitions of the file, with one more. -/
def extended : Store := ((empty.load shelf "notes" false).2.define "b" "NOT a").2

/-- What they were saved to, and the store that saved them. -/
def copied : FileTree := (extended.persist 9 "d/copy" shelf).2.2

def copying : Store := (extended.persist 9 "d/copy" shelf).2.1

/-- The first file was changed by others. -/
def annotated : FileTree :=
  { copied.put ["notes"] (.file (.text "a = b\n") 12) with clock := 12 }

/-- The store is loaded from one file, saved to another, and the first one is changed. -/
theorem traced_copying : Traced [annotated, copied, shelf] annotated copying := by
  have hextended : Traced [shelf] shelf extended :=
    .define "b" "NOT a" (.load "notes" false (.start shelf))
  have hcopied : shelf.NodesLater copied := by
    rw [copied, files_persist]
    exact (FileTree.nodesLater_refl shelf).replace (by decide) _ _
  have hannotated : ∀ before : FileTree, before.NodesLater copied → before.Before 12 →
      Files.ChangesLater before annotated := by
    intro before hlater htime
    have hput : before.NodesLater (copied.put ["notes"] (.file (.text "a = b\n") 12)) :=
      hlater.put htime
    exact (hput.atClock 12).changesLater
  refine .meanwhile annotated (.persist 9 "d/copy" hextended ?_) ?_
  · rw [List.forall_mem_singleton]
    exact hcopied.changesLater
  · rw [List.forall_mem_cons, List.forall_mem_singleton]
    exact ⟨hannotated copied (FileTree.nodesLater_refl copied) (by decide +kernel),
      hannotated shelf hcopied (by decide)⟩

/-- The file that was saved to is not read again under another spelling of its path, and what
is defined then is kept. -/
theorem load_unforced_agrees_copying :
    Traced [annotated, copied, shelf] annotated copying ∧
      (∃ count forced, copying.load annotated "d/./copy" false = (.ok .fresh, copying) ∧
        copying.load annotated "d/./copy" true = (.ok (.loaded count), forced) ∧
        copying.definitions = [("a", "all"), ("b", "NOT a")] ∧
        forced.definitions = copying.definitions) ∧
      ∃ later, (copying.define "c" "b").2.load annotated "d/copy" false = (.ok .fresh, later) ∧
        later.dirty = true ∧ later.definitions = [("a", "all"), ("b", "NOT a"), ("c", "b")] := by
  have hclean : copying.dirty = false := by decide +kernel
  have hskipped : copying.load annotated "d/./copy" false = (.ok .fresh, copying) := by
    decide +kernel
  obtain ⟨count, forced, hforced, -, hsame⟩ :=
    (load_unforced_agrees traced_copying hskipped).1 hclean
  have hdefinitions : copying.definitions = [("a", "all"), ("b", "NOT a")] := by decide +kernel
  -- One more definition makes the store dirty.
  have hoffered : ((copying.define "c" "b").2.load annotated "d/copy" false).1 = .ok .fresh := by
    decide +kernel
  have hload := Prod.fst_eq_iff.1 hoffered
  have hkept := (load_unforced_agrees (traced_copying.define "c" "b") hload).2 rfl
  refine ⟨traced_copying, ⟨count, forced, hskipped, hforced, hdefinitions, hsame.symm⟩,
    _, hload, ?_, ?_⟩
  · rw [hkept]
    decide +kernel
  · rw [hkept]
    decide +kernel

end Store
end MusicCollections
