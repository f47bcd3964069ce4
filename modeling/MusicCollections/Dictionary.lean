/-
# Dictionaries and name sets

Stored playlists and the members of a JSON object are looked up by name and
listed by name, and the names that an expression refers to are a set.  Both are
kept as lists in ascending order of the names, code point by code point, so that
two of them are equal when they hold the same.
-/

namespace MusicCollections

/-- Values under distinct names, in ascending order of the names. -/
abbrev Dictionary (α : Type) := List (String × α)

namespace Dictionary

variable {α : Type}

/-- Puts `value` under `name`, in the place of what was there. -/
def insert (name : String) (value : α) : Dictionary α → Dictionary α
  | [] => [(name, value)]
  | (n, v) :: rest =>
    if name < n then (name, value) :: (n, v) :: rest
    else if name = n then (name, value) :: rest
    else (n, v) :: insert name value rest

/-- The dictionary of the pairs, of which the last wins for each name. -/
def ofList (pairs : List (String × α)) : Dictionary α :=
  pairs.foldl (fun d p => d.insert p.1 p.2) []

/-- The value under `name`. -/
def get? (d : Dictionary α) (name : String) : Option α := d.lookup name

end Dictionary

/-- Distinct names in ascending order. -/
abbrev NameSet := List String

namespace NameSet

def insert (name : String) : NameSet → NameSet
  | [] => [name]
  | n :: rest =>
    if name < n then name :: n :: rest
    else if name = n then n :: rest
    else n :: insert name rest

/-- A set has the names it had and the one inserted. -/
@[simp] theorem mem_insert {name x : String} {names : NameSet} :
    x ∈ NameSet.insert name names ↔ x = name ∨ x ∈ names := by
  induction names with
  | nil => simp [insert]
  | cons n rest ih =>
    simp only [insert]
    split
    · simp
    · split
      · rename_i h
        simp [h]
      · simp [ih, or_left_comm]

/-- The set of the names in a list. -/
def ofList (names : List String) : NameSet := names.foldr NameSet.insert []

/-- A set has the names of its list. -/
theorem mem_ofList {x : String} {names : List String} : x ∈ ofList names ↔ x ∈ names := by
  induction names with
  | nil => simp [ofList]
  | cons n rest ih =>
    have : ofList (n :: rest) = NameSet.insert n (ofList rest) := rfl
    simp [this, ih]

end NameSet

end MusicCollections
