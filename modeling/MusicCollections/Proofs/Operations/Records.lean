/-
# What collections record

Collections record definitions (`Collection.Records`) if they have them in order, under
distinct names, and each is what its text makes it, whatever results it has.  A change of
the collections changes what they record as it would change an ordered map
(`Store.Change.records_applied`), and what a snapshot stands for records the same
(`Records.restored`).
-/

import MusicCollections.Cache.Entries
import MusicCollections.Proofs.Operations.Changes
import MusicCollections.Proofs.Results

namespace MusicCollections

namespace Collection

/-- The collections are an ordered map of definitions, and each is what its text makes it,
results apart. -/
structure Records (collections : List Collection) (definitions : List Definition) : Prop where
  definitions_eq : collections.map definition = definitions
  nodup : (collections.map Collection.name).Nodup
  derived : ∀ c ∈ collections, c.forget = ofText c.name c.expression

namespace Records

variable {collections other : List Collection} {definitions : List Definition}

theorem nil : Records [] [] := ⟨rfl, List.nodup_nil, nofun⟩

/-- Results do not matter. -/
theorem of_forget (h : Records collections definitions)
    (hforget : other.map forget = collections.map forget) : Records other definitions where
  definitions_eq := by
    rw [← definitions_map_forget, hforget, definitions_map_forget, h.definitions_eq]
  nodup := by
    have hnames : other.map Collection.name = collections.map Collection.name := by
      have hname := congrArg (List.map Collection.name) hforget
      rwa [List.map_map, List.map_map] at hname
    exact hnames ▸ h.nodup
  derived c hc := by
    obtain ⟨d, hd, hsame⟩ := List.mem_map.1 (hforget ▸ List.mem_map_of_mem hc)
    have hname : d.forget.name = c.forget.name := by rw [hsame]
    have hexpression : d.forget.expression = c.forget.expression := by rw [hsame]
    rw [← hsame, h.derived d hd]
    exact congrArg₂ ofText hname hexpression

/-- Forgetting results leaves what is recorded. -/
theorem map_forget (h : Records collections definitions) :
    Records (collections.map forget) definitions :=
  h.of_forget List.map_map

/-- Putting a collection sets its definition, in its place or at the end. -/
theorem put (h : Records collections definitions) (d : Definition) :
    Records ((ofText d.1 d.2).put collections) (Definitions.set definitions d) where
  definitions_eq := by
    rw [definitions_put h.nodup, h.definitions_eq]
    rfl
  nodup := names_put_nodup h.nodup
  derived c hc := by
    rcases mem_put hc with rfl | hc
    · rfl
    · exact h.derived c hc

/-- Taking a collection out takes its definition out. -/
theorem eraseP (h : Records collections definitions) (name : String) :
    Records (collections.eraseP (·.name == name)) (Definitions.without definitions name) where
  definitions_eq := by rw [definitions_eraseP h.nodup, h.definitions_eq]
  nodup := h.nodup.sublist (List.eraseP_sublist.map _)
  derived c hc := h.derived c (List.eraseP_sublist.subset hc)

/-- The collections of a file record its definitions, the last of each name. -/
theorem collectionsOf (definitions : List Definition) :
    Records (Store.collectionsOf definitions) (Definitions.settled definitions) where
  definitions_eq := definitions_collectionsOf definitions
  nodup := Store.names_collectionsOf_nodup definitions
  derived c hc := by
    obtain ⟨d, -, rfl⟩ := Store.mem_collectionsOf hc
    rfl

/-- **What a snapshot stands for records what was recorded.** -/
theorem restored (h : Records collections definitions) :
    Records ((collections.map CachedCollection.ofCollection).map CachedCollection.toCollection)
      definitions := by
  refine h.of_forget ?_
  rw [List.map_map, List.map_map]
  exact List.map_congr_left fun c hc => (h.derived c hc).symm

end Records
end Collection

namespace Store

/-- The definitions after a change, as an ordered map has them. -/
def Change.recorded : Change → List Definition → List Definition
  | .nothing, definitions => definitions
  | .inserted d, definitions => Definitions.set definitions d
  | .defined d, definitions => Definitions.set definitions d
  | .deleted name, definitions => Definitions.without definitions name
  | .read lines, _ => Definitions.settled lines
  | .forgotten, definitions => definitions
  | .refreshed _, definitions => definitions

/-- **A change of collections changes the ordered map.** -/
theorem Change.records_applied {collections : List Collection} {definitions : List Definition}
    (h : Collection.Records collections definitions) (change : Change) :
    Collection.Records (change.applied collections) (change.recorded definitions) := by
  cases change with
  | nothing => exact h
  | inserted d => exact h.put d
  | defined d => exact (h.put d).map_forget
  | deleted name => exact (h.eraseP name).map_forget
  | read lines => exact .collectionsOf lines
  | forgotten => exact h.map_forget
  | refreshed catalog =>
    exact h.of_forget (congrArg Store.collections (clearResults_refreshResults catalog _))

end Store
end MusicCollections
