/-
# The collections of a store

What is in a list of collections after one is put, and what is found by name there.
The collections of definitions are each what one of the texts makes it
(`mem_collectionsOf`), under distinct names.

Each operation on definitions does one of few things to the collections of a store; the
`_cases` lemmas list them.
-/

import MusicCollections.Store.Persistence

namespace MusicCollections

namespace Collection

variable {c d : Collection} {collections : List Collection} {name : String}

/-! ## Putting -/

/-- A collection of a new name comes last. -/
theorem put_of_not_mem (h : c.name ∉ collections.map Collection.name) :
    put c collections = collections ++ [c] := by
  induction collections with
  | nil => rfl
  | cons b rest ih =>
    rw [List.map_cons, List.mem_cons, not_or] at h
    rw [put, if_neg fun hb => h.1 hb.symm, ih h.2, List.cons_append]

/-- Putting a collection leaves those of other names. -/
theorem find?_put_of_ne (h : name ≠ c.name) :
    find? (put c collections) name = find? collections name := by
  unfold find?
  induction collections with
  | nil => simp [put, h.symm]
  | cons b rest ih =>
    rw [put]
    split
    · rename_i hb
      simp [hb, h.symm]
    · simp only [List.find?_cons, ih]

/-- What is as its texts make it has no results to forget. -/
theorem map_forget_eq_self (h : ∀ c ∈ collections, c = ofText c.name c.expression) :
    collections.map forget = collections := by
  have hforget : ∀ c ∈ collections, c.forget = id c := by
    intro c hc
    rw [h c hc]
    rfl
  rw [List.map_congr_left hforget, List.map_id]

/-- Of distinct names, each collection is found by its own. -/
theorem find?_of_mem (hnames : (collections.map Collection.name).Nodup) (hc : c ∈ collections) :
    find? collections c.name = some c := by
  induction collections with
  | nil => cases hc
  | cons b rest ih =>
    obtain ⟨hb, hrest⟩ := List.nodup_cons.1 hnames
    rcases List.mem_cons.1 hc with rfl | hc
    · simp [find?]
    · have hne : b.name ≠ c.name := fun h => hb (h ▸ List.mem_map_of_mem hc)
      simpa [find?, hne] using ih hrest hc

/-- Forgetting results does not change what a name finds, results apart. -/
theorem find?_map_forget (collections : List Collection) (name : String) :
    find? (collections.map forget) name = (find? collections name).map forget := by
  rw [find?, find?, List.find?_map]
  rfl

end Collection

namespace Store

/-! ## The collections of definitions -/

/-- **Every collection of definitions is what one of the texts makes it.** -/
theorem mem_collectionsOf {definitions : List Definition} {c : Collection}
    (h : c ∈ collectionsOf definitions) : ∃ d ∈ definitions, c = Collection.ofText d.1 d.2 := by
  have hfold : ∀ before : List Collection,
      c ∈ definitions.foldl (fun cs d => (Collection.ofText d.1 d.2).put cs) before →
      c ∈ before ∨ ∃ d ∈ definitions, c = Collection.ofText d.1 d.2 := by
    clear h
    induction definitions with
    | nil => exact fun before h => .inl h
    | cons d rest ih =>
      intro before h
      rcases ih _ h with h | ⟨d', hd', hc⟩
      · rcases Collection.mem_put h with hc | h
        · exact .inr ⟨d, List.mem_cons_self, hc⟩
        · exact .inl h
      · exact .inr ⟨d', List.mem_cons_of_mem d hd', hc⟩
  exact (hfold [] h).resolve_left List.not_mem_nil

/-- Collections of definitions have distinct names, however often a name is defined. -/
theorem names_collectionsOf_nodup (definitions : List Definition) :
    ((collectionsOf definitions).map Collection.name).Nodup := by
  have hfold : ∀ before : List Collection, (before.map Collection.name).Nodup →
      ((definitions.foldl (fun cs d => (Collection.ofText d.1 d.2).put cs) before).map
        Collection.name).Nodup := by
    induction definitions with
    | nil => exact fun before h => h
    | cons d rest ih => exact fun before h => ih _ (Collection.names_put_nodup h)
  exact hfold [] List.nodup_nil

/-- Definitions of distinct names are the collections, in the same order. -/
theorem collectionsOf_eq_map {definitions : List Definition}
    (h : (definitions.map Prod.fst).Nodup) :
    collectionsOf definitions = definitions.map fun d => Collection.ofText d.1 d.2 := by
  have hfold : ∀ before : List Collection,
      (before.map Collection.name ++ definitions.map Prod.fst).Nodup →
      definitions.foldl (fun cs d => (Collection.ofText d.1 d.2).put cs) before =
        before ++ definitions.map fun d => Collection.ofText d.1 d.2 := by
    clear h
    induction definitions with
    | nil => simp
    | cons d rest ih =>
      intro before h
      have hnew : (Collection.ofText d.1 d.2).name ∉ before.map Collection.name := by
        intro hmem
        exact (List.nodup_append.1 h).2.2 _ hmem _ List.mem_cons_self rfl
      have hrest : ((before ++ [Collection.ofText d.1 d.2]).map Collection.name ++
          rest.map Prod.fst).Nodup := by
        rw [List.map_append, List.append_assoc]
        exact h
      rw [List.foldl_cons, Collection.put_of_not_mem hnew, ih _ hrest, List.append_assoc]
      rfl
  exact hfold [] h

/-! ## What operations do -/

variable {store : Store} {name expression : String}

/-- What a definition passes before it is added. -/
structure Admitted (store : Store) (name expression : String) (c : Collection) : Prop where
  name_ok : Definitions.nameFault? name = none
  one_line : Definitions.hasLineBreak (Text.trim expression) = false
  parsed : ∃ tree, parseExpression (Text.trim expression) = .ok tree
  eq_ofText : c = Collection.ofText name (Text.trim expression)
  closes_no_cycle : Collection.cycleThrough store.collections name c.dependencies = none

/-- A definition that passes the checks is admitted. -/
theorem Admitted.of_admitted_eq_ok {c : Collection} (h : store.admitted name expression = .ok c) :
    Admitted store name expression c := by
  simp only [admitted] at h
  split at h
  · cases h
  rename_i hname
  split at h
  · cases h
  rename_i hline
  split at h
  · cases h
  rename_i tree hparse
  split at h
  · cases h
  rename_i hcycle
  obtain rfl := Except.ok.inj h
  have heq : Collection.ofTree name (Text.trim expression) (some tree) =
      Collection.ofText name (Text.trim expression) := by
    rw [Collection.ofText, hparse]
    rfl
  exact ⟨hname, by simpa using hline, ⟨tree, hparse⟩, heq, hcycle⟩

/-- A definition is rejected, or it is put, all results are forgotten and the store is
dirty. -/
theorem define_cases (store : Store) (name expression : String) :
    (∃ e, store.define name expression = (.error e, store)) ∨
    ∃ c, Admitted store name expression c ∧ store.define name expression = (.ok (), { store with
      collections := (c.put store.collections).map Collection.forget, dirty := true }) := by
  rw [define]
  cases h : store.admitted name expression with
  | error e => exact .inl ⟨e, rfl⟩
  | ok c => exact .inr ⟨c, .of_admitted_eq_ok h, rfl⟩

/-- A definition leaves the store, or puts its collection and forgets all results. -/
theorem collections_define_cases (store : Store) (name expression : String) :
    (store.define name expression).2 = store ∨ ∃ c, Admitted store name expression c ∧
      (store.define name expression).2.collections =
        (c.put store.collections).map Collection.forget := by
  rcases define_cases store name expression with ⟨e, h⟩ | ⟨c, hc, h⟩
  · exact .inl (by rw [h])
  · exact .inr ⟨c, hc, by rw [h]⟩

/-- Nothing is deleted, or the collection of the name is, all results are forgotten and the
store is dirty. -/
theorem delete_cases (store : Store) (name : String) :
    (∃ e, store.delete name = (.error e, store)) ∨
    ∃ c, store.delete name = (.ok c, { store with
      collections := (store.collections.eraseP (·.name == name)).map Collection.forget,
      dirty := true }) := by
  rw [delete]
  cases store.get? name with
  | none => exact .inl ⟨_, rfl⟩
  | some c => exact .inr ⟨c, rfl⟩

/-- A deletion leaves the store, or takes the collection out and forgets all results. -/
theorem collections_delete_cases (store : Store) (name : String) :
    (store.delete name).2 = store ∨ (store.delete name).2.collections =
      (store.collections.eraseP (·.name == name)).map Collection.forget := by
  rcases delete_cases store name with ⟨e, h⟩ | ⟨c, h⟩
  · exact .inl (by rw [h])
  · exact .inr (by rw [h])

/-- A save fails and leaves the store, or the text of the definitions takes the place of the
file and the store is not dirty any more. -/
theorem persist_cases {φ : Type} [Files φ] (now : Time) (path : Path) (store : Store)
    (files : φ) :
    (∃ e files', store.persist now path files = (.error e, store, files')) ∨
    ∃ seen files', Files.replace path (store.definitions.map Definitions.line) files =
        (.ok (), files') ∧
      store.persist now path files =
        (.ok (), { store with source := some ⟨path, seen⟩, dirty := false }, files') := by
  rw [persist]
  rcases Files.replace path (store.definitions.map Definitions.line) files with ⟨e | _, files'⟩
  · exact .inl ⟨_, files', rfl⟩
  · exact .inr ⟨_, files', rfl, rfl⟩

/-- How a save ends, with what it leaves. -/
theorem persist_eq_of_fst {φ : Type} [Files φ] {now : Time} {path : Path} {store : Store}
    {files : φ} {outcome : Except StoreError Unit}
    (h : (store.persist now path files).1 = outcome) :
    store.persist now path files =
      (outcome, (store.persist now path files).2.1, (store.persist now path files).2.2) := by
  rw [← h]

/-- A save changes no collection, whether it succeeds or fails. -/
theorem collections_persist {φ : Type} [Files φ] (now : Time) (path : Path) (store : Store)
    (files : φ) : (store.persist now path files).2.1.collections = store.collections := by
  unfold persist
  split <;> rfl

/-- The files that a save leaves are those that replacing the file leaves. -/
theorem files_persist {φ : Type} [Files φ] (now : Time) (path : Path) (store : Store)
    (files : φ) :
    (store.persist now path files).2.2 =
      (Files.replace path (store.definitions.map Definitions.line) files).2 := by
  unfold persist
  split
  · rename_i hreplace
    rw [hreplace]
  · rename_i hreplace
    rw [hreplace]

/-- The three ends of a load: it fails, it is skipped, or the file is read. -/
theorem load_cases {φ : Type} [Files φ] (files : φ) (path : Path) (force : Bool) (store : Store) :
    (∃ e, store.load files path force = (.error e, store)) ∨
    (∃ modified, force = false ∧ Files.modified files path = .ok modified ∧
      store.hasSeen path modified = true ∧
      store.load files path force = (.ok .fresh, store)) ∨
    ∃ modified text, Files.modified files path = .ok modified ∧
      Files.readText files path = .ok text ∧
      store.load files path force =
        (.ok (.loaded (collectionsOf (Definitions.parse text)).length),
          { collections := collectionsOf (Definitions.parse text),
            source := some ⟨path, modified⟩, dirty := false }) := by
  rw [load]
  cases hm : Files.modified files path with
  | error e => exact .inl ⟨_, rfl⟩
  | ok modified =>
    dsimp only
    split
    · rename_i hskipped
      obtain ⟨hforce, hseen⟩ : force = false ∧ store.hasSeen path modified = true := by
        simpa using hskipped
      exact .inr (.inl ⟨modified, hforce, rfl, hseen, rfl⟩)
    · cases ht : Files.readText files path with
      | error e => exact .inl ⟨_, rfl⟩
      | ok text => exact .inr (.inr ⟨modified, text, rfl, rfl, rfl⟩)

/-- A load reads no file and leaves the store as it is, or makes it the collections of the
file. -/
theorem collections_load_cases {φ : Type} [Files φ] (files : φ) (path : Path) (force : Bool)
    (store : Store) :
    ((∀ count, (store.load files path force).1 ≠ .ok (.loaded count)) ∧
      (store.load files path force).2 = store) ∨
    ∃ count text, Files.readText files path = .ok text ∧
      (store.load files path force).1 = .ok (.loaded count) ∧
      (store.load files path force).2.collections = collectionsOf (Definitions.parse text) := by
  rcases load_cases files path force store with
    ⟨e, hload⟩ | ⟨modified, -, -, -, hload⟩ | ⟨modified, text, -, htext, hload⟩
  · rw [hload]
    exact .inl ⟨nofun, rfl⟩
  · rw [hload]
    exact .inl ⟨nofun, rfl⟩
  · rw [hload]
    exact .inr ⟨_, text, htext, rfl, rfl⟩

end Store
end MusicCollections
