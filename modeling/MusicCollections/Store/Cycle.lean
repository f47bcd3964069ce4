/-
# Cycles among collections

A definition must not make a collection depend on itself.  The search follows
references depth first, in ascending order of the names, enters each name once,
and stops at the first way back to the name it started from.

It keeps the path to where it is, the names that are left to look at of each
collection on the path, and the names that it entered.  Each step takes a name
off what is left, and each collection adds its names once (`Search.weight`), so
the search ends also where collections refer to each other in a ring.
-/

import MusicCollections.Store.Collection

namespace MusicCollections
namespace Collection

/-- Where a search for a cycle stands. -/
structure Search where
  /-- The collections that led here, the last one first. -/
  path : List String
  /-- The names left to look at, of each collection on the path. -/
  pending : List (List String)
  /-- The names that the search came to. -/
  visited : NameSet

namespace Search

/-- What a search comes to in a step. -/
inductive Next where
  /-- A way back to the start, which is first and last on it. -/
  | found (cycle : List String)
  /-- Nothing is left to look at. -/
  | exhausted
  | ongoing (s : Search)

/-- Looks at the next name, on the way to `target`. -/
def next (collections : List Collection) (target : String) (s : Search) : Next :=
  match s.pending with
  | [] => .exhausted
  | [] :: pending => .ongoing { s with path := s.path.tail, pending }
  | (name :: names) :: pending =>
    if name = target then .found (target :: s.path).reverse
    else if s.visited.contains name then .ongoing { s with pending := names :: pending }
    else
      match find? collections name with
      | none => .ongoing { s with pending := names :: pending, visited := name :: s.visited }
      | some c =>
        .ongoing {
          path := name :: s.path
          pending := c.dependencies :: names :: pending
          visited := name :: s.visited }

/-! ## The end of a search -/

/-- The steps that the collections not yet visited may take. -/
def unvisited (visited : NameSet) : List Collection → Nat
  | [] => 0
  | c :: rest =>
    (if visited.contains c.name then 0 else c.dependencies.length + 1) + unvisited visited rest

/-- The steps that a search may take. -/
def weight (collections : List Collection) (s : Search) : Nat :=
  s.pending.flatten.length + s.pending.length + unvisited s.visited collections

/-- After a name is visited there is no more to visit than before. -/
theorem unvisited_cons_le (collections : List Collection) (name : String) (visited : NameSet) :
    unvisited (name :: visited) collections ≤ unvisited visited collections := by
  induction collections with
  | nil => exact Nat.le_refl 0
  | cons c rest ih =>
    simp only [unvisited, List.contains_cons]
    cases visited.contains c.name <;> cases c.name == name <;> simp <;> omega

/-- A collection that is visited takes its steps away from those left. -/
theorem unvisited_cons_of_find? {collections : List Collection} {name : String}
    {visited : NameSet} {c : Collection} (hfind : find? collections name = some c)
    (hname : ¬visited.contains name = true) :
    unvisited (name :: visited) collections + (c.dependencies.length + 1) ≤
      unvisited visited collections := by
  induction collections with
  | nil => cases hfind
  | cons d rest ih =>
    rw [find?, List.find?_cons] at hfind
    simp only [unvisited, List.contains_cons]
    split at hfind
    · rename_i hd
      obtain rfl := Option.some.inj hfind
      have hle := unvisited_cons_le rest name visited
      have hnew : visited.contains d.name = false := by simpa [eq_of_beq hd] using hname
      simp only [hd, hnew, Bool.true_or, if_true, Bool.false_eq_true, if_false]
      omega
    · rename_i hd
      have hrest := ih hfind
      rw [hd, Bool.false_or]
      omega

/-- **A step leaves fewer steps.** -/
theorem weight_next {collections : List Collection} {target : String} {s s' : Search}
    (h : s.next collections target = .ongoing s') :
    s'.weight collections < s.weight collections := by
  obtain ⟨path, pending, visited⟩ := s
  simp only [next] at h
  split at h
  · cases h
  · obtain rfl := Next.ongoing.inj h
    simp [weight]
  · split at h
    · cases h
    split at h
    · obtain rfl := Next.ongoing.inj h
      simp [weight]
    rename_i name names _ _ hname
    split at h
    · obtain rfl := Next.ongoing.inj h
      have hle := unvisited_cons_le collections name visited
      simp [weight]
      omega
    · rename_i c hfind
      obtain rfl := Next.ongoing.inj h
      have hle := unvisited_cons_of_find? hfind hname
      simp [weight]
      omega

/-- The way back to `target` that the search finds, if there is one. -/
def run (collections : List Collection) (target : String) (s : Search) : Option (List String) :=
  match _h : s.next collections target with
  | .found cycle => some cycle
  | .exhausted => none
  | .ongoing s => s.run collections target
termination_by s.weight collections
decreasing_by exact weight_next _h

end Search

/-- The cycle that `name` would close if it referred to `dependencies`: from
`name` over collections back to `name`. -/
def cycleThrough (collections : List Collection) (name : String) (dependencies : NameSet) :
    Option (List String) :=
  Search.run collections name { path := [name], pending := [dependencies], visited := [] }

end Collection
end MusicCollections
