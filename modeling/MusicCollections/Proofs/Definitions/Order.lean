/-
# Definitions in the order in which they were made

The definitions of a store are an ordered map from names to texts.  `set` writes one:
the definition of a name that is there keeps its place, and a new name comes last.
`without` deletes one and closes the gap, and `settled` writes all of a list, one after
the other.

With distinct names, putting a collection sets its definition (`definitions_put`), erasing
it leaves the others (`definitions_eraseP`), and the collections of a list of definitions
are those of the settled list (`definitions_collectionsOf`).
-/

import Mathlib.Data.List.Basic
import MusicCollections.Proofs.Collections

namespace MusicCollections

namespace Definitions

/-- The definitions with one more, in the place of the one of its name or at the end. -/
def set (definitions : List Definition) (d : Definition) : List Definition :=
  if d.1 ∈ definitions.map Prod.fst then definitions.map fun e => if e.1 = d.1 then d else e
  else definitions ++ [d]

/-- The definitions of other names. -/
def without (definitions : List Definition) (name : String) : List Definition :=
  definitions.filter fun d => d.1 ≠ name

/-- The definitions set one after the other. -/
def settled (definitions : List Definition) : List Definition := definitions.foldl set []

variable {definitions : List Definition} {d e : Definition} {name : String}

/-- What is there after a definition was set is the definition, or was there before. -/
theorem mem_set (h : e ∈ set definitions d) : e = d ∨ e ∈ definitions := by
  rw [set] at h
  split at h
  · obtain ⟨b, hb, rfl⟩ := List.mem_map.1 h
    split
    · exact .inl rfl
    · exact .inr hb
  · exact (List.mem_append.1 h).symm.imp List.mem_singleton.1 id

/-- Setting passes over the definition of another name. -/
theorem set_cons_of_ne (h : e.1 ≠ d.1) : set (e :: definitions) d = e :: set definitions d := by
  unfold set
  by_cases hd : d.1 ∈ definitions.map Prod.fst
  · simp [hd, h]
  · simp [hd, h.symm]

/-- Setting a definition of the first name leaves the rest. -/
theorem set_cons_of_eq (h : e.1 = d.1) (hnew : d.1 ∉ definitions.map Prod.fst) :
    set (e :: definitions) d = d :: definitions := by
  have hrest : definitions.map (fun e => if e.1 = d.1 then d else e) = definitions := by
    conv_rhs => rw [← List.map_id definitions]
    refine List.map_congr_left fun b hb => if_neg fun hname => hnew ?_
    exact hname ▸ List.mem_map_of_mem hb
  rw [set, List.map_cons, List.map_cons, if_pos (h ▸ List.mem_cons_self), if_pos h, hrest]

/-- Nothing of a name that is not there is left out. -/
theorem without_of_not_mem (h : name ∉ definitions.map Prod.fst) :
    without definitions name = definitions := by
  refine List.filter_eq_self.2 fun d hd => decide_eq_true fun hname => h ?_
  exact hname ▸ List.mem_map_of_mem hd

end Definitions

namespace Collection

open Definitions

variable {c : Collection} {collections : List Collection} {name : String}

/-- Definitions have the names of their collections. -/
theorem fst_map_definition (collections : List Collection) :
    (collections.map definition).map Prod.fst = collections.map Collection.name := List.map_map

/-- Results make no difference to definitions. -/
theorem definitions_map_forget (collections : List Collection) :
    (collections.map forget).map definition = collections.map definition := List.map_map

/-- **Putting a collection sets its definition.** -/
theorem definitions_put (h : (collections.map Collection.name).Nodup) :
    (put c collections).map definition = set (collections.map definition) c.definition := by
  induction collections with
  | nil => rfl
  | cons b rest ih =>
    obtain ⟨hb, hrest⟩ := List.nodup_cons.1 h
    rw [put, List.map_cons]
    split
    · rename_i hname
      have hnew : c.name ∉ rest.map Collection.name := hname ▸ hb
      rw [List.map_cons, set_cons_of_eq hname (by rwa [fst_map_definition])]
    · rename_i hname
      rw [List.map_cons, ih hrest]
      exact (set_cons_of_ne hname).symm

/-- **Erasing the collection of a name leaves the definitions of the others.** -/
theorem definitions_eraseP (h : (collections.map Collection.name).Nodup) :
    (collections.eraseP (·.name == name)).map definition =
      without (collections.map definition) name := by
  induction collections with
  | nil => rfl
  | cons b rest ih =>
    obtain ⟨hb, hrest⟩ := List.nodup_cons.1 h
    by_cases hname : b.name = name
    · -- Names are distinct, so no other definition goes.
      have hnot : name ∉ (rest.map definition).map Prod.fst := by
        rw [fst_map_definition]
        exact hname ▸ hb
      rw [List.eraseP_cons_of_pos (by simpa using hname), List.map_cons, without,
        List.filter_cons_of_neg (by simp [definition, hname])]
      exact (without_of_not_mem hnot).symm
    · rw [List.eraseP_cons_of_neg (by simpa using hname), List.map_cons, List.map_cons, without,
        List.filter_cons_of_pos (by simp [definition, hname]), ih hrest]
      rfl

/-- **The collections of definitions are those of the definitions settled.** -/
theorem definitions_collectionsOf (definitions : List Definition) :
    (Store.collectionsOf definitions).map definition = settled definitions := by
  have hfold : ∀ before : List Collection, (before.map Collection.name).Nodup →
      (definitions.foldl (fun cs d => (ofText d.1 d.2).put cs) before).map definition =
        definitions.foldl set (before.map definition) := by
    induction definitions with
    | nil => exact fun before _ => rfl
    | cons d rest ih =>
      intro before h
      rw [List.foldl_cons, List.foldl_cons, ih _ (names_put_nodup h), definitions_put h]
      rfl
  exact hfold [] List.nodup_nil

end Collection
end MusicCollections
