/-
# Loading and saving definitions

Loading is skipped when the store came from the same file and has seen a
modification time that is not before the file's.  A load replaces everything and
drops what was not saved; a save writes every definition and counts as having
seen the file it wrote.
-/

import MusicCollections.Store.Basic

namespace MusicCollections

/-- How a load went. -/
inductive LoadOutcome where
  /-- The store was at least as new as the file. -/
  | fresh
  /-- The file was read into this many collections. -/
  | loaded (count : Nat)
  deriving DecidableEq, Repr

namespace Store

variable {φ : Type} [Files φ]

/-- The collections of definitions, of which the last of each name counts and
the first gives the place. -/
def collectionsOf (definitions : List Definition) : List Collection :=
  definitions.foldl (fun cs d => (Collection.ofText d.1 d.2).put cs) []

/-- Whether the store came from the file and has seen its modification time. -/
def hasSeen (store : Store) (path : Path) (modified : Time) : Bool :=
  match store.source with
  | none => false
  | some source => Path.same source.path path && decide (modified ≤ source.seen)

/-- Loads the definitions file, always if `force`. -/
def load (files : φ) (path : Path) (force : Bool) (store : Store) :
    Except StoreError LoadOutcome × Store :=
  match Files.modified files path with
  | .error e => (.error (.unreadable path e), store)
  | .ok modified =>
    if !force && store.hasSeen path modified then (.ok .fresh, store)
    else
      match Files.readText files path with
      | .error e => (.error (.unreadable path e), store)
      | .ok text =>
        let collections := collectionsOf (Definitions.parse text)
        (.ok (.loaded collections.length),
          { collections, source := some ⟨path, modified⟩, dirty := false })

/-- Saves every definition, a line each.  `now` stands for the time of a file that cannot be
looked at after it was written. -/
def persist (now : Time) (path : Path) (store : Store) (files : φ) :
    Except StoreError Unit × Store × φ :=
  match Files.replace path (store.definitions.map Definitions.line) files with
  | (.error e, files) => (.error (.unwritable path e), store, files)
  | (.ok (), files) =>
    let seen := (Files.modified files path).toOption.getD now
    (.ok (), { store with source := some ⟨path, seen⟩, dirty := false }, files)

/-- Drops all results and loads the file again that the store came from. -/
def reload (files : φ) (store : Store) : Except StoreError LoadOutcome × Store :=
  let store := store.clearResults
  match store.source with
  | none => (.ok .fresh, store)
  | some source => store.load files source.path true

end Store

end MusicCollections
