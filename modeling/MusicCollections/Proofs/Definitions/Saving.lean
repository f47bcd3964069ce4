/-
# Saving and loading again

The definitions file keeps a store whose collections are what their texts make them,
under distinct names, and are definitions that read back: `Savable` says so.  Every store
that loads, definitions and deletions lead to is savable (`Edited.savable`), whatever the
files held.  What is saved and loaded again is therefore what was there
(`load_persist`).
-/

import Mathlib.Data.Prod.Basic
import MusicCollections.Proofs.Collections
import MusicCollections.Proofs.Definitions.Lines
import MusicCollections.Proofs.Files

namespace MusicCollections

/-- The lines that were written are the file that holds the definitions. -/
theorem Definitions.readText_of_replace {φ : Type} [Files φ] [LawfulFiles φ] {path : Path}
    {definitions : List Definition} {files files' : φ}
    (h : Files.replace path (definitions.map line) files = (.ok (), files')) :
    Files.readText files' path = .ok (render definitions) :=
  Files.readText_of_replace h

namespace Collection

/-- The definitions file keeps the collections. -/
structure Savable (collections : List Collection) : Prop where
  as_read : ∀ c ∈ collections, c = ofText c.name c.expression
  nodup : (collections.map Collection.name).Nodup
  writable : ∀ c ∈ collections, Definitions.Writable c.definition

namespace Savable

variable {collections : List Collection} {c : Collection} {d : Definition}

/-- No collections are kept by the empty file. -/
theorem nil : Savable [] := ⟨nofun, List.nodup_nil, nofun⟩

/-- A definition that can be written may be put. -/
theorem put (h : Savable collections) (hd : Definitions.Writable d) :
    Savable ((ofText d.1 d.2).put collections) where
  as_read c hc := by
    rcases mem_put hc with rfl | hc
    · rfl
    · exact h.as_read c hc
  nodup := names_put_nodup h.nodup
  writable c hc := by
    rcases mem_put hc with rfl | hc
    · exact hd
    · exact h.writable c hc

/-- Collections may be taken out. -/
theorem sublist {left : List Collection} (h : Savable collections)
    (hleft : left.Sublist collections) : Savable left where
  as_read c hc := h.as_read c (hleft.subset hc)
  nodup := h.nodup.sublist (hleft.map _)
  writable c hc := h.writable c (hleft.subset hc)

/-- Forgetting results changes nothing that has none. -/
theorem map_forget (h : Savable collections) : Savable (collections.map forget) := by
  rwa [map_forget_eq_self h.as_read]

end Savable
end Collection

namespace Store

/-- The file keeps the collections of definitions that can be written. -/
theorem savable_collectionsOf {definitions : List Definition}
    (h : ∀ d ∈ definitions, Definitions.Writable d) :
    Collection.Savable (collectionsOf definitions) where
  as_read c hc := by
    obtain ⟨d, -, rfl⟩ := mem_collectionsOf hc
    rfl
  nodup := names_collectionsOf_nodup definitions
  writable c hc := by
    obtain ⟨d, hd, rfl⟩ := mem_collectionsOf hc
    exact h d hd

/-- The file keeps what was read from one. -/
theorem savable_parse (text : String) :
    Collection.Savable (collectionsOf (Definitions.parse text)) :=
  savable_collectionsOf fun _ => Definitions.writable_of_mem_parse

/-- **Collections that the file keeps are those of their definitions.** -/
theorem collectionsOf_definitions {store : Store} (h : Collection.Savable store.collections) :
    collectionsOf store.definitions = store.collections := by
  have hnames : store.definitions.map Prod.fst = store.collections.map Collection.name :=
    List.map_map
  have hread : ∀ c ∈ store.collections,
      ((fun d : Definition => Collection.ofText d.1 d.2) ∘ Collection.definition) c = id c :=
    fun c hc => (h.as_read c hc).symm
  rw [collectionsOf_eq_map (hnames ▸ h.nodup), definitions, List.map_map,
    List.map_congr_left hread, List.map_id]

section Saving

variable {store : Store} {name expression : String}

/-- A definition keeps the collections savable. -/
theorem savable_define (h : Collection.Savable store.collections) :
    Collection.Savable (store.define name expression).2.collections := by
  rcases collections_define_cases store name expression with hkept | ⟨c, hc, hdefined⟩
  · rwa [hkept]
  · obtain ⟨tree, hparse⟩ := hc.parsed
    have hd : Definitions.Writable (name, Text.trim expression) :=
      Definitions.writable_of_nameFault? hc.name_ok hc.one_line hparse
    rw [hdefined, hc.eq_ofText]
    exact (h.put hd).map_forget

/-- A deletion keeps the collections savable. -/
theorem savable_delete (h : Collection.Savable store.collections) :
    Collection.Savable (store.delete name).2.collections := by
  rcases collections_delete_cases store name with hkept | hdeleted
  · rwa [hkept]
  · rw [hdeleted]
    exact (h.sublist List.eraseP_sublist).map_forget

variable {φ : Type} [Files φ]

/-- A load keeps the collections savable, whatever stands in the file. -/
theorem savable_load (h : Collection.Savable store.collections) (files : φ) (path : Path)
    (force : Bool) : Collection.Savable (store.load files path force).2.collections := by
  rcases collections_load_cases files path force store with ⟨-, hkept⟩ | ⟨_, text, -, -, hloaded⟩
  · rwa [hkept]
  · rw [hloaded]
    exact savable_parse text

/-! ## What is saved is loaded -/

variable {saved : Store} {now : Time} {path : Path} {files files' : φ}

/-- **A save succeeds where the file system takes the text of the definitions.** -/
theorem persist_of_replace (now : Time)
    (h : Files.replace path (store.definitions.map Definitions.line) files = (.ok (), files')) :
    ∃ saved, store.persist now path files = (.ok (), saved, files') := by
  rw [persist, h]
  exact ⟨_, rfl⟩

/-- It succeeds nowhere else. -/
theorem replace_of_persist (h : store.persist now path files = (.ok (), saved, files')) :
    Files.replace path (store.definitions.map Definitions.line) files = (.ok (), files') := by
  unfold persist at h
  split at h
  · cases h
  · rename_i written hreplace
    obtain ⟨-, hrest⟩ := Prod.mk.inj h
    obtain ⟨-, rfl⟩ := Prod.mk.inj hrest
    exact hreplace

variable [LawfulFiles φ]

/-- The file of a store reads back as its definitions. -/
theorem parse_render_definitions (h : Collection.Savable store.collections) :
    Definitions.parse (Definitions.render store.definitions) = store.definitions := by
  refine Definitions.parse_render fun d hd => ?_
  obtain ⟨c, hc, rfl⟩ := List.mem_map.1 hd
  exact h.writable c hc

/-- **Definitions that were written are loaded as they were.** -/
theorem load_empty_of_replace (hsavable : Collection.Savable store.collections)
    (h : Files.replace path (store.definitions.map Definitions.line) files = (.ok (), files'))
    (force : Bool) : ∃ modified,
      Store.empty.load files' path force = (.ok (.loaded store.size),
        { collections := store.collections, source := some ⟨path, modified⟩, dirty := false }) := by
  obtain ⟨modified, hmodified⟩ := (Files.of_replace_eq_ok h).1
  have hunseen : (!force && Store.empty.hasSeen path modified) = false := by
    rw [show Store.empty.hasSeen path modified = false from rfl, Bool.and_false]
  refine ⟨modified, ?_⟩
  rw [load, hmodified]
  simp only [hunseen, Bool.false_eq_true, if_false, Definitions.readText_of_replace h,
    parse_render_definitions hsavable, collectionsOf_definitions hsavable]
  rfl

/-- A load that reads a file that a store was saved to gives the collections that were
saved, whatever was there before. -/
theorem collections_load_of_persist {before loaded : Store} {force : Bool} {count : Nat}
    (hsavable : Collection.Savable store.collections)
    (h : store.persist now path files = (.ok (), saved, files'))
    (hload : before.load files' path force = (.ok (.loaded count), loaded)) :
    loaded.collections = store.collections := by
  rcases collections_load_cases files' path force before with
    ⟨hread, -⟩ | ⟨_, text, htext, -, hloaded⟩
  · exact absurd (congrArg Prod.fst hload) (hread count)
  · have hwritten := Definitions.readText_of_replace (replace_of_persist h)
    obtain rfl := Except.ok.inj (hwritten.symm.trans htext)
    rw [hload, parse_render_definitions hsavable, collectionsOf_definitions hsavable] at hloaded
    exact hloaded

end Saving

/-! ## Edited stores -/

/-- The stores that loads of any files, definitions and deletions lead to from the empty
one, whether or not they succeed. -/
inductive Edited (φ : Type) [Files φ] : Store → Prop
  | empty : Edited φ .empty
  | load {store} (files : φ) (path : Path) (force : Bool) :
      Edited φ store → Edited φ (store.load files path force).2
  | define {store} (name expression : String) :
      Edited φ store → Edited φ (store.define name expression).2
  | delete {store} (name : String) : Edited φ store → Edited φ (store.delete name).2

/-- **The file keeps what loads and edits make.** -/
theorem Edited.savable {φ : Type} [Files φ] {store : Store} (h : Edited φ store) :
    Collection.Savable store.collections := by
  induction h with
  | empty => exact .nil
  | load files path force _ ih => exact savable_load ih files path force
  | define name expression _ ih => exact savable_define ih
  | delete name _ ih => exact savable_delete ih

/-- **Saving and loading lose nothing.**  A store that edits lead to is saved where the file
system takes its text, and is then loaded into an empty store with the same collections in
the same order: names, texts, expressions and dependencies.  Saving that store again,
wherever it may be, writes the identical file. -/
theorem load_persist {φ : Type} [Files φ] [LawfulFiles φ] {store : Store} {path : Path}
    {files files' : φ} (h : Edited φ store)
    (hwrite : Files.replace path (store.definitions.map Definitions.line) files = (.ok (), files'))
    (now : Time) (force : Bool) :
    ∃ saved loaded, store.persist now path files = (.ok (), saved, files') ∧
      Store.empty.load files' path force = (.ok (.loaded store.size), loaded) ∧
      loaded.collections = store.collections ∧
      ∀ {later path' saved' again again'},
        loaded.persist later path' (again : φ) = (.ok (), saved', again') →
          Files.readText again' path' = Files.readText files' path := by
  obtain ⟨saved, hsave⟩ := persist_of_replace now hwrite
  obtain ⟨modified, hload⟩ := load_empty_of_replace h.savable hwrite force
  refine ⟨saved, _, hsave, hload, rfl, fun hagain => ?_⟩
  rw [Definitions.readText_of_replace (replace_of_persist hagain),
    Definitions.readText_of_replace hwrite]
  rfl

/-- A file with a comment, a line that is none, a carriage return in a name and a name
defined twice. -/
def scribbledFile : FileTree where
  nodes := [(["notes"], .file (.text "#\r\na = b = c\r\nno\n b\rc=((\n a\t= NOT b \n") 5)]
  clock := 9

/-- What was read from the file, with one more collection. -/
def scribbledStore : Store :=
  ((Store.empty.load scribbledFile "notes" false).2.define "d" " all AND a ").2

/-- The files after it was saved. -/
def scribbledCopy : FileTree :=
  (Files.replace "notes" (scribbledStore.definitions.map Definitions.line) scribbledFile).2

/-- What was read of the file is saved, and loaded again as it was. -/
theorem load_persist_scribbled :
    Edited FileTree scribbledStore ∧
      scribbledStore.definitions = [("a", "NOT b"), ("b\rc", "(("), ("d", "all AND a")] ∧
      Files.replace "notes" (scribbledStore.definitions.map Definitions.line) scribbledFile =
        (.ok (), scribbledCopy) ∧
      ∃ loaded, Store.empty.load scribbledCopy "notes" false = (.ok (.loaded 3), loaded) ∧
        loaded.collections = scribbledStore.collections := by
  have hedited : Edited FileTree scribbledStore :=
    .define "d" " all AND a " (.load scribbledFile "notes" false .empty)
  have hdefinitions : scribbledStore.definitions =
      [("a", "NOT b"), ("b\rc", "(("), ("d", "all AND a")] := by
    decide +kernel
  have hreplaced : (Files.replace "notes" (([("a", "NOT b"), ("b\rc", "(("),
      ("d", "all AND a")] : List Definition).map Definitions.line) scribbledFile).1 = .ok () := rfl
  have hwrite : Files.replace "notes" (scribbledStore.definitions.map Definitions.line)
      scribbledFile = (.ok (), scribbledCopy) := by
    rw [scribbledCopy, hdefinitions]
    exact Prod.fst_eq_iff.1 hreplaced
  have hsize : scribbledStore.size = 3 := by
    rw [size, ← List.length_map Collection.definition]
    exact congrArg List.length hdefinitions
  obtain ⟨saved, loaded, -, hload, hsame, -⟩ := load_persist hedited hwrite 9 false
  rw [hsize] at hload
  exact ⟨hedited, hdefinitions, hwrite, loaded, hload, hsame⟩

end Store
end MusicCollections
