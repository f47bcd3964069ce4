/-
# What operations do to the collections

Eight operations of a store change its collections without a look at the cache (`Op`).
What one of them does is decided by how it ends, and is one of few things (`Change`): a
definition is put, taken out or left as it is, a file takes the place of everything, or
only results come and go.  `collections_perform` says so of every operation at once, and
what a change preserves is what operations preserve.
-/

import MusicCollections.Proofs.Definitions.Order
import MusicCollections.Store.Results

namespace MusicCollections
namespace Store

/-- An operation, with the files as they are when it is performed. -/
inductive Op (φ : Type) where
  | define (name expression : String)
  | insertUnchecked (d : Definition)
  | delete (name : String)
  | load (files : φ) (path : Path) (force : Bool)
  | persist (now : Time) (path : Path) (files : φ)
  | refreshResults (catalog : Catalog)
  | clearResults
  | reload (files : φ)

variable {φ : Type} [Files φ]

/-- The store after an operation, whether or not it succeeds. -/
def perform (store : Store) : Op φ → Store
  | .define name expression => (store.define name expression).2
  | .insertUnchecked d => store.insertUnchecked d
  | .delete name => (store.delete name).2
  | .load files path force => (store.load files path force).2
  | .persist now path files => (store.persist now path files).2.1
  | .refreshResults catalog => (store.refreshResults catalog).2
  | .clearResults => store.clearResults
  | .reload files => (store.reload files).2

/-- What happens to the collections of a store. -/
inductive Change where
  | nothing
  /-- A definition is put, and results stay. -/
  | inserted (d : Definition)
  /-- A definition is put, and results are forgotten. -/
  | defined (d : Definition)
  | deleted (name : String)
  /-- The definitions of a file take the place of all. -/
  | read (definitions : List Definition)
  | forgotten
  | refreshed (catalog : Catalog)

/-- The collections after a change. -/
def Change.applied : Change → List Collection → List Collection
  | .nothing, collections => collections
  | .inserted d, collections => (Collection.ofText d.1 d.2).put collections
  | .defined d, collections => ((Collection.ofText d.1 d.2).put collections).map Collection.forget
  | .deleted name, collections =>
    (collections.eraseP (·.name == name)).map Collection.forget
  | .read definitions, _ => collectionsOf definitions
  | .forgotten, collections => collections.map Collection.forget
  | .refreshed catalog, collections =>
    (refreshResults catalog { collections := collections }).2.collections

/-- The definitions on the lines of a file, if it can be read. -/
def linesAt (files : φ) (path : Path) : List Definition :=
  match Files.readText files path with
  | .ok text => Definitions.parse text
  | .error _ => []

/-- What an operation does to the collections, given how it ends. -/
def Op.change (store : Store) : Op φ → Change
  | .define name expression =>
    match (store.define name expression).1 with
    | .ok () => .defined (name, Text.trim expression)
    | .error _ => .nothing
  | .insertUnchecked d => .inserted d
  | .delete name =>
    match (store.delete name).1 with
    | .ok _ => .deleted name
    | .error _ => .nothing
  | .load files path force =>
    match (store.load files path force).1 with
    | .ok (.loaded _) => .read (linesAt files path)
    | .ok .fresh | .error _ => .nothing
  | .persist .. => .nothing
  | .refreshResults catalog => .refreshed catalog
  | .clearResults => .forgotten
  | .reload files =>
    match store.source, (store.reload files).1 with
    | some source, .ok (.loaded _) => .read (linesAt files source.path)
    | _, _ => .forgotten

variable {store : Store}

/-- A definition that is taken is put, and one that is refused changes nothing. -/
theorem collections_define (store : Store) (name expression : String) :
    (store.define name expression).2.collections =
      (Op.change store (.define name expression : Op φ)).applied store.collections := by
  rcases define_cases store name expression with ⟨e, h⟩ | ⟨c, hc, h⟩
  · simp only [Op.change, h, Change.applied]
  · simp only [Op.change, h, Change.applied, hc.eq_ofText]

/-- A deletion takes the collection out, if there is one. -/
theorem collections_delete (store : Store) (name : String) :
    (store.delete name).2.collections =
      (Op.change store (.delete name : Op φ)).applied store.collections := by
  rcases delete_cases store name with ⟨e, h⟩ | ⟨c, h⟩ <;> simp only [Op.change, h, Change.applied]

/-- A load reads what the file holds, or changes nothing. -/
theorem collections_load (store : Store) (files : φ) (path : Path) (force : Bool) :
    (store.load files path force).2.collections =
      (Op.change store (.load files path force)).applied store.collections := by
  rw [Op.change]
  rcases collections_load_cases files path force store with
    ⟨hskipped, hkept⟩ | ⟨count, text, htext, hread, hloaded⟩
  · rw [hkept]
    split
    · exact absurd ‹_› (hskipped _)
    · rfl
    · rfl
  · rw [hread, hloaded, Change.applied, linesAt, htext]

/-- A reload forgets results, and reads what the file holds if it can. -/
theorem collections_reload (store : Store) (files : φ) :
    (store.reload files).2.collections =
      (Op.change store (.reload files)).applied store.collections := by
  rw [Op.change, reload]
  cases hsource : store.source with
  | none => simp only [clearResults, hsource, Change.applied]
  | some source =>
    have hcleared : store.clearResults.source = some source := hsource
    simp only [hcleared]
    rcases collections_load_cases files source.path true store.clearResults with
      ⟨hskipped, hkept⟩ | ⟨count, text, htext, hread, hloaded⟩
    · rw [hkept]
      split
      · exact absurd ‹_› (hskipped _)
      · rfl
    · rw [hread, hloaded, Change.applied, linesAt, htext]

/-- **What an operation does to the collections.** -/
theorem collections_perform (store : Store) (op : Op φ) :
    (store.perform op).collections = (op.change store).applied store.collections := by
  cases op with
  | define name expression =>
    rw [perform]
    exact collections_define store name expression
  | insertUnchecked d => rfl
  | delete name =>
    rw [perform]
    exact collections_delete store name
  | load files path force =>
    rw [perform]
    exact collections_load store files path force
  | persist now path files =>
    rw [perform, persist]
    split <;> rfl
  | refreshResults catalog => rfl
  | clearResults => rfl
  | reload files =>
    rw [perform]
    exact collections_reload store files

end Store
end MusicCollections
