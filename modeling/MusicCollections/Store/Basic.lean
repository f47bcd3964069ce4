/-
# The collection store

The collections in the order in which they were first defined, the file they
came from, and whether a definition changed since they were loaded or saved.
Every change of a definition drops all results, since any of them may depend on
it.  An operation that fails leaves the store as it was.
-/

import MusicCollections.Store.Cycle

namespace MusicCollections

/-- A definitions file and the modification time of it that the store shows. -/
structure Source where
  path : Path
  seen : Time
  deriving DecidableEq, Repr

structure Store where
  collections : List Collection := []
  source : Option Source := none
  /-- Whether a definition changed since the last load or save. -/
  dirty : Bool := false
  deriving DecidableEq, Repr

namespace Store

/-- The store without collections. -/
def empty : Store := {}

def size (store : Store) : Nat := store.collections.length

def get? (store : Store) (name : String) : Option Collection :=
  Collection.find? store.collections name

def names (store : Store) : List String := store.collections.map (·.name)

def definitions (store : Store) : List Definition := store.collections.map (·.definition)

/-- The collections that refer to a name. -/
def dependents (store : Store) (name : String) : List String :=
  (store.collections.filter (·.dependencies.contains name)).map (·.name)

/-- Forgets all results. -/
def clearResults (store : Store) : Store :=
  { store with collections := store.collections.map (·.forget) }

/-- Sets a definition as it stands in a file, whatever its name and text. -/
def insertUnchecked (store : Store) (d : Definition) : Store :=
  { store with collections := (Collection.ofText d.1 d.2).put store.collections }

/-- The collection of a definition that may be added, or why it may not. -/
def admitted (store : Store) (name expression : String) : Except StoreError Collection :=
  match Definitions.nameFault? name with
  | some fault => .error (.invalidName name fault)
  | none =>
    let expression := Text.trim expression
    if Definitions.hasLineBreak expression then .error (.multilineExpression name)
    else
      match parseExpression expression with
      | .error e => .error (.invalidExpression name e)
      | .ok tree =>
        let c := Collection.ofTree name expression (some tree)
        match Collection.cycleThrough store.collections name c.dependencies with
        | some path => .error (.cycle path)
        | none => .ok c

/-- Defines a collection, in the place of the one of its name. -/
def define (name expression : String) (store : Store) : Except StoreError Unit × Store :=
  match store.admitted name expression with
  | .error e => (.error e, store)
  | .ok c =>
    (.ok (), { store with
      collections := (c.put store.collections).map (·.forget), dirty := true })

/-- Deletes a collection and gives it back. -/
def delete (name : String) (store : Store) : Except StoreError Collection × Store :=
  match store.get? name with
  | none => (.error (.notFound name), store)
  | some c =>
    let rest := store.collections.eraseP (·.name == name)
    (.ok c, { store with collections := rest.map (·.forget), dirty := true })

end Store

end MusicCollections
