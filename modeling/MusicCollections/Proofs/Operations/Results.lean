/-
# When results show

Against one catalog, the results that a store keeps do not show as long as every one is
what its collection resolves to without results (`Store.ResultsTrue`).  Refreshing gives
such results, and every change of a definition forgets all of them, with one exception:
`insertUnchecked` puts a definition and leaves the results of the collections that
depend on it.

`Aided` follows the operations from the empty store and notes whether a definition was
inserted since (`loose`).  Results show exactly when one is not true, and if none was
inserted they do not (`Aided.unseen_iff`); where one was inserted they may
(`insertUnchecked_leaves_results`).
-/

import MusicCollections.Files.Tree
import MusicCollections.Proofs.Operations.Records

namespace MusicCollections
namespace Store

/-- Every result is what its collection resolves to without results. -/
def ResultsTrue (store : Store) (catalog : Catalog) : Prop :=
  ∀ name c files, store.get? name = some c → c.result = some files →
    store.clearResults.resolve catalog name = .ok files

/-- Every result is listed in catalog order. -/
def ResultsListed (store : Store) (catalog : Catalog) : Prop :=
  ∀ name c files, store.get? name = some c → c.result = some files →
    catalog.filesAt (catalog.positionsOf files) = files

/-- Nothing that the store answers depends on its results. -/
def ResultsUnseen (store : Store) (catalog : Catalog) : Prop :=
  (∀ e, evaluate catalog store e = evaluate catalog store.clearResults e) ∧
    ∀ name, store.resolve catalog name = store.clearResults.resolve catalog name

section Results

variable {store : Store} {catalog : Catalog}

/-- True results do not show. -/
theorem ResultsTrue.unseen (h : store.Derived) (htrue : store.ResultsTrue catalog) :
    store.ResultsUnseen catalog := by
  have hright : ∀ name c, store.get? name = some c →
      Evaluation.Right catalog store.texts c := by
    intro name c hc
    refine h.right_of_resolve hc fun files hresult => ?_
    have hfiles := htrue name c files hc hresult
    rw [h.filesAt_of_resolve hfiles, hfiles]
  have hresults : Evaluation.ResultsRight catalog store.collections :=
    fun name c _ _ hc => hright name c hc
  refine ⟨fun e => ?_, fun name => ?_⟩
  · exact (Evaluation.answers_evaluate hresults e).unique (.expression catalog store.texts e)
      (h.answers_evaluate catalog e)
  · cases hc : store.get? name with
    | none =>
      have htext : store.texts name = none := texts_of_get?_eq_none hc
      rw [Evaluation.resolve_of_texts_eq_none htext,
        Evaluation.resolve_of_texts_eq_none (store.texts_clearResults ▸ htext)]
    | some c =>
      exact (Evaluation.answers_resolve hresults hc (hright name c hc)).unique
        (.collection (Evaluation.texts_of_find? hc)) (h.answers_resolve catalog hc)

/-- **Results do not show if and only if they are true.** -/
theorem resultsUnseen_iff (h : store.Derived) (hlisted : store.ResultsListed catalog) :
    store.ResultsUnseen catalog ↔ store.ResultsTrue catalog := by
  refine ⟨fun hsame name c files hc hresult => ?_, fun htrue => htrue.unseen h⟩
  rw [← hsame.2 name, resolve_of_result hc hresult, hlisted name c files hc hresult]

/-- Results that were just found are true. -/
theorem resultsTrue_refreshResults (h : store.Derived) (catalog : Catalog) :
    (store.refreshResults catalog).2.ResultsTrue catalog := by
  intro name c files hc hresult
  rw [clearResults_refreshResults]
  exact (result_refreshResults h hc files).1 hresult

/-- They are listed in catalog order as well. -/
theorem resultsListed_refreshResults (h : store.Derived) (catalog : Catalog) :
    (store.refreshResults catalog).2.ResultsListed catalog :=
  fun _ _ _ hc hresult => h.filesAt_of_resolve ((result_refreshResults h hc _).1 hresult)

/-! ## Without results -/

/-- No collection has a result. -/
def Resultless (collections : List Collection) : Prop := ∀ c ∈ collections, c.result = none

/-- After forgetting there are no results. -/
theorem resultless_map_forget (collections : List Collection) :
    Resultless (collections.map Collection.forget) := by
  intro c hc
  obtain ⟨d, -, rfl⟩ := List.mem_map.1 hc
  rfl

/-- Collections read from a file have none. -/
theorem resultless_collectionsOf (definitions : List Definition) :
    Resultless (collectionsOf definitions) := by
  intro c hc
  obtain ⟨d, -, rfl⟩ := mem_collectionsOf hc
  rfl

theorem Resultless.ne_some (h : Resultless store.collections) {name : String} {c : Collection}
    (hc : store.get? name = some c) (files : List String) : c.result ≠ some files := by
  rw [h c (List.mem_of_find?_eq_some hc)]
  nofun

/-- No result is a wrong one. -/
theorem Resultless.resultsTrue (h : Resultless store.collections) (catalog : Catalog) :
    store.ResultsTrue catalog :=
  fun _ _ _ hc hresult => absurd hresult (h.ne_some hc _)

/-- No result is in a wrong order. -/
theorem Resultless.resultsListed (h : Resultless store.collections) (catalog : Catalog) :
    store.ResultsListed catalog :=
  fun _ _ _ hc hresult => absurd hresult (h.ne_some hc _)

/-! ## Along operations -/

variable {φ : Type} [Files φ] {other : Store}

/-- What there is to say of results is a matter of the collections. -/
theorem ResultsTrue.congr (h : store.ResultsTrue catalog)
    (hsame : other.collections = store.collections) : other.ResultsTrue catalog := by
  intro name c files hc hresult
  rw [get?, hsame] at hc
  have hfiles := h name c files hc hresult
  simp only [resolve, clearResults, hsame] at hfiles ⊢
  exact hfiles

/-- Neither the source of a store nor whether it is dirty matters to how results are listed. -/
theorem ResultsListed.congr (h : store.ResultsListed catalog)
    (hsame : other.collections = store.collections) : other.ResultsListed catalog := by
  intro name c files hc
  rw [get?, hsame] at hc
  exact h name c files hc

/-- A definition that is inserted has no result, and the other results stay in order. -/
theorem ResultsListed.insertUnchecked (h : store.ResultsListed catalog) (d : Definition) :
    (store.insertUnchecked d).ResultsListed catalog := by
  intro name c files hc hresult
  by_cases hname : name = (Collection.ofText d.1 d.2).name
  · subst hname
    obtain rfl := Option.some.inj ((Collection.find?_put_self _ _).symm.trans hc)
    cases hresult
  · rw [get?, Store.insertUnchecked, Collection.find?_put_of_ne hname] at hc
    exact h name c files hc hresult

/-- Whether a definition was inserted since results were last found or forgotten. -/
def Change.loosened : Change → Bool → Bool
  | .nothing, loose => loose
  | .inserted _, _ => true
  | .defined _, _ | .deleted _, _ | .read _, _ | .forgotten, _ | .refreshed _, _ => false

/-- An operation that looks at no other catalog. -/
def Op.Against (catalog : Catalog) : Op φ → Prop
  | .refreshResults other => other = catalog
  | _ => True

/-- Results are only found in the one catalog. -/
theorem Op.Against.eq_of_refreshed {op : Op φ} (h : op.Against catalog) {other : Catalog}
    (hchange : op.change store = .refreshed other) : other = catalog := by
  cases op with
  | refreshResults other' =>
    cases hchange
    exact h
  | define | delete | load | reload =>
    simp only [Op.change] at hchange
    split at hchange <;> cases hchange
  | insertUnchecked | persist | clearResults => cases hchange

/-- What operations lead to from the empty store, whether or not they succeed, against one
catalog. -/
inductive Aided (φ : Type) [Files φ] (catalog : Catalog) : Store → Bool → Prop
  | empty : Aided φ catalog .empty false
  | step {store : Store} {loose : Bool} (op : Op φ) : Aided φ catalog store loose →
      op.Against catalog → Aided φ catalog (store.perform op) ((op.change store).loosened loose)

namespace Aided

variable {loose : Bool}

/-- The collections are an ordered map of some definitions all along. -/
theorem records (h : Aided φ catalog store loose) :
    ∃ definitions, Collection.Records store.collections definitions := by
  induction h with
  | empty => exact ⟨[], .nil⟩
  | @step store _ op _ _ ih =>
    obtain ⟨definitions, hrecords⟩ := ih
    rw [collections_perform]
    exact ⟨_, Change.records_applied hrecords (op.change store)⟩

/-- Every collection is what its text makes it all along. -/
theorem derived (h : Aided φ catalog store loose) : store.Derived := by
  obtain ⟨definitions, hrecords⟩ := h.records
  intro c hc
  obtain ⟨d, hd, rfl⟩ := List.mem_map.1 hc
  exact hrecords.derived d hd

/-- **Results are listed, and they are true if no definition was inserted since they were
found.** -/
theorem results (h : Aided φ catalog store loose) :
    store.ResultsListed catalog ∧ (loose = false → store.ResultsTrue catalog) := by
  induction h with
  | empty =>
    have hnone : Resultless Store.empty.collections := nofun
    exact ⟨hnone.resultsListed catalog, fun _ => hnone.resultsTrue catalog⟩
  | @step store loose op hstore hagainst ih =>
    have hperformed := collections_perform store op
    cases hchange : op.change store with
    | nothing =>
      rw [hchange] at hperformed
      exact ⟨ih.1.congr hperformed, fun hloose => (ih.2 hloose).congr hperformed⟩
    | inserted d =>
      rw [hchange] at hperformed
      exact ⟨(ih.1.insertUnchecked d).congr hperformed, nofun⟩
    | refreshed other =>
      obtain rfl := hagainst.eq_of_refreshed hchange
      rw [hchange] at hperformed
      exact ⟨(resultsListed_refreshResults hstore.derived other).congr hperformed,
        fun _ => (resultsTrue_refreshResults hstore.derived other).congr hperformed⟩
    | defined _ | deleted _ | forgotten =>
      have hnone : Resultless (store.perform op).collections := by
        rw [hperformed, hchange]
        exact resultless_map_forget _
      exact ⟨hnone.resultsListed catalog, fun _ => hnone.resultsTrue catalog⟩
    | read lines =>
      have hnone : Resultless (store.perform op).collections := by
        rw [hperformed, hchange]
        exact resultless_collectionsOf lines
      exact ⟨hnone.resultsListed catalog, fun _ => hnone.resultsTrue catalog⟩

/-- **When results show.**  Every expression and every name gives what it gives without
results exactly if every result is what its collection resolves to without results, and this
is so if no definition was inserted since results were last found or forgotten. -/
theorem unseen_iff (h : Aided φ catalog store loose) :
    (store.ResultsUnseen catalog ↔ store.ResultsTrue catalog) ∧
      (loose = false → store.ResultsUnseen catalog) :=
  ⟨resultsUnseen_iff h.derived h.results.1,
    fun hloose => (h.results.2 hloose).unseen h.derived⟩

end Aided
end Results

/-! ## A result that stays -/

/-- No tracks and no playlists. -/
def bareCatalog : Catalog := .ofPlaylists []

/-- One collection refers to another one, and both have results. -/
def refreshedStore : Store :=
  (((Store.empty.define "a" "all").2.define "b" "a").2.refreshResults bareCatalog).2

/-- Nothing was inserted before results were found. -/
theorem aided_refreshedStore : Aided FileTree bareCatalog refreshedStore false :=
  .step (.refreshResults bareCatalog)
    (.step (.define "b" "a") (.step (.define "a" "all") .empty trivial) trivial) rfl

/-- Both results are true, so that neither shows. -/
theorem refreshedStore_unseen :
    Aided FileTree bareCatalog refreshedStore false ∧
      refreshedStore.collections.map Collection.result = [some [], some []] ∧
      refreshedStore.ResultsUnseen bareCatalog ∧ refreshedStore.ResultsTrue bareCatalog := by
  have hunseen := aided_refreshedStore.unseen_iff.2 rfl
  exact ⟨aided_refreshedStore, by decide +kernel, hunseen,
    aided_refreshedStore.unseen_iff.1.1 hunseen⟩

/-- **An inserted definition leaves the results of what depends on it.**  The collection that
was redefined refers to a name that is missing, and the one that depends on it still has its
result. -/
theorem insertUnchecked_leaves_results :
    ∃ store, Aided FileTree bareCatalog store true ∧
      evaluate bareCatalog store (.ref "b") = .ok [] ∧
      evaluate bareCatalog store.clearResults (.ref "b") = .error (.unknownReference "x") ∧
      store.resolve bareCatalog "b" = .ok [] ∧
      store.clearResults.resolve bareCatalog "b" = .error (.unknownReference "x") := by
  have haided : Aided FileTree bareCatalog (refreshedStore.insertUnchecked ("a", "x")) true :=
    .step (.insertUnchecked ("a", "x")) aided_refreshedStore trivial
  exact ⟨_, haided, by decide +kernel, by decide +kernel, by decide +kernel, by decide +kernel⟩

end Store
end MusicCollections
