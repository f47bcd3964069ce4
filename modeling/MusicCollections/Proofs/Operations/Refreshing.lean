/-
# What refreshing gives and reports

Refreshing evaluates all collections with one evaluator.  It comes to what resolving each of
them alone comes to (`Store.refreshResults_eq`), so a collection has the files that it resolves
to as its result, or it has none and is among the failures, once and with the error that it
resolves to (`Store.refreshResults_agrees`).  The results do not show afterwards.
-/

import Mathlib.Data.List.Nodup
import MusicCollections.Proofs.Results

namespace MusicCollections
namespace Store

/-! ## Failures -/

section Failures

variable {outcome : String → Except EvalError (List String)} {names : List String} {n : String}

/-- The failures of a list are those of its parts. -/
theorem failures_append (outcomes others : Outcomes) :
    failures (outcomes ++ others) = failures outcomes ++ failures others :=
  List.filterMap_append

/-- Failures are reported in order. -/
theorem failures_sublist (outcomes : Outcomes) :
    ((failures outcomes).map Prod.fst).Sublist (outcomes.map Prod.fst) := by
  induction outcomes with
  | nil => exact .refl []
  | cons head rest ih =>
    obtain ⟨name, outcome⟩ := head
    cases outcome with
    | ok files => exact ih.cons name
    | error e => exact ih.cons_cons name

/-- A name without an outcome has no failure. -/
theorem filter_failures_of_not_mem (h : n ∉ names) :
    (failures (names.map fun n => (n, outcome n))).filter (·.1 == n) = [] := by
  rw [List.filter_eq_nil_iff]
  intro p hp hn
  have hname : p.1 ∈ names := by
    have hmem := (failures_sublist _).subset (List.mem_map_of_mem hp)
    rwa [List.map_map, List.map_id''] at hmem
    exact fun _ => rfl
  exact h (eq_of_beq hn ▸ hname)

/-- **A name fails once if its outcome is a failure**, and otherwise it does not. -/
theorem filter_failures (hnames : names.Nodup) (hn : n ∈ names) :
    (failures (names.map fun n => (n, outcome n))).filter (·.1 == n) =
      match outcome n with
      | .ok _ => []
      | .error e => [(n, e)] := by
  obtain ⟨before, after, rfl⟩ := List.append_of_mem hn
  obtain ⟨-, hcons, hapart⟩ := List.nodup_append.1 hnames
  have hbefore : n ∉ before := fun h => hapart n h n List.mem_cons_self rfl
  have hafter : n ∉ after := (List.nodup_cons.1 hcons).1
  rw [List.map_append, failures_append, List.filter_append, filter_failures_of_not_mem hbefore,
    List.nil_append, List.map_cons]
  cases houtcome : outcome n with
  | ok files => exact filter_failures_of_not_mem hafter
  | error e =>
    have hhead : failures ((n, .error e) :: after.map fun n => (n, outcome n)) =
        (n, e) :: failures (after.map fun n => (n, outcome n)) := rfl
    have hself : ((n, e).1 == n) = true := beq_self_eq_true n
    rw [hhead, List.filter_cons, if_pos hself, filter_failures_of_not_mem hafter]

end Failures

/-! ## Refreshing -/

variable {store : Store}

/-- Forgetting results leaves the names. -/
theorem names_clearResults (store : Store) : store.clearResults.names = store.names := by
  rw [names, names, clearResults, List.map_map]
  rfl

/-- Finding results leaves the names. -/
theorem names_refreshResults (catalog : Catalog) (store : Store) :
    (store.refreshResults catalog).2.names = store.names := by
  rw [← names_clearResults, clearResults_refreshResults, names_clearResults]

/-- **Refreshing agrees with resolving each collection alone.**  A collection has the files as
its result that it resolves to without results, and no failure; or it resolves to an error,
and then it has no result, and one failure with this error.  Failures are reported in store
order, nothing but results changes, and these do not show in what is evaluated. -/
theorem refreshResults_agrees (h : store.Derived) (hnames : store.names.Nodup)
    (catalog : Catalog) :
    (∀ c ∈ (store.refreshResults catalog).2.collections,
      (∃ files, store.clearResults.resolve catalog c.name = .ok files ∧ c.result = some files ∧
        (store.refreshResults catalog).1.filter (·.1 == c.name) = []) ∨
      (∃ e, store.clearResults.resolve catalog c.name = .error e ∧ c.result = none ∧
        (store.refreshResults catalog).1.filter (·.1 == c.name) = [(c.name, e)])) ∧
    ((store.refreshResults catalog).1.map Prod.fst).Sublist store.names ∧
    (store.refreshResults catalog).2.clearResults = store.clearResults ∧
    ∀ e, evaluate catalog (store.refreshResults catalog).2 e =
      evaluate catalog store.clearResults e := by
  have hfailures : (store.refreshResults catalog).1 =
      failures (store.names.map fun n => (n, store.clearResults.resolve catalog n)) := by
    rw [refreshResults_eq h, names_clearResults]
  refine ⟨fun c hc => ?_, ?_, clearResults_refreshResults catalog store,
    (ResultsHold.refl h catalog).evaluate_eq h⟩
  · have hnodup : ((store.refreshResults catalog).2.collections.map Collection.name).Nodup := by
      rwa [← names_refreshResults catalog store] at hnames
    have hfind : (store.refreshResults catalog).2.get? c.name = some c :=
      Collection.find?_of_mem hnodup hc
    have hname : c.name ∈ store.names := by
      rw [← names_refreshResults catalog store]
      exact List.mem_map_of_mem hc
    have hresult := result_refreshResults h hfind
    have hreported := @filter_failures (store.clearResults.resolve catalog) _ _ hnames hname
    rw [← hfailures] at hreported
    cases houtcome : store.clearResults.resolve catalog c.name with
    | ok files =>
      rw [houtcome] at hreported
      exact .inl ⟨files, rfl, (hresult files).2 houtcome, hreported⟩
    | error e =>
      rw [houtcome] at hreported
      refine .inr ⟨e, rfl, ?_, hreported⟩
      rw [Option.eq_none_iff_forall_ne_some]
      intro files hfiles
      cases houtcome.symm.trans ((hresult files).1 hfiles)
  · have hsublist := failures_sublist
      (store.names.map fun n => (n, store.clearResults.resolve catalog n))
    rw [hfailures]
    rwa [List.map_map, List.map_id''] at hsublist
    exact fun _ => rfl

/-- A collection of everything among some that refer to each other, to nothing that is there,
or are not spelled right. -/
def mixedStore : Store :=
  ((((Store.empty.insertUnchecked ("b", "c")).insertUnchecked ("good", "all")).insertUnchecked
    ("c", "NOT b")).insertUnchecked ("torn", "good AND")).insertUnchecked ("after", "good OR gone")

/-- The one collection of everything gets its result, the others fail, and what fails inside
of a cycle is reported as resolved alone. -/
theorem mixedStore_refreshes :
    mixedStore.Derived ∧ mixedStore.names.Nodup ∧
      (mixedStore.refreshResults (.ofPlaylists [])).1.map Prod.fst = ["b", "c", "torn", "after"] ∧
      (mixedStore.refreshResults (.ofPlaylists [])).2.collections.map Collection.result =
        [none, some [], none, none, none] ∧
      mixedStore.clearResults.resolve (.ofPlaylists []) "c" =
        .error (.store (.cycle ["c", "b", "c"])) ∧
      (mixedStore.refreshResults (.ofPlaylists [])).1.filter (·.1 == "c") =
        [("c", .store (.cycle ["c", "b", "c"]))] ∧
      ∀ e, evaluate (.ofPlaylists []) (mixedStore.refreshResults (.ofPlaylists [])).2 e =
        evaluate (.ofPlaylists []) mixedStore.clearResults e := by
  have hread : mixedStore.AsRead :=
    ((((asRead_empty.insertUnchecked ("b", "c")).insertUnchecked ("good", "all")).insertUnchecked
      ("c", "NOT b")).insertUnchecked ("torn", "good AND")).insertUnchecked
      ("after", "good OR gone")
  have hnames : mixedStore.names.Nodup := by decide +kernel
  have hresolve : mixedStore.clearResults.resolve (.ofPlaylists []) "c" =
      .error (.store (.cycle ["c", "b", "c"])) := by decide +kernel
  obtain ⟨hcollections, -, -, hunseen⟩ :=
    refreshResults_agrees hread.derived hnames (.ofPlaylists [])
  obtain ⟨c, hc, hname⟩ : ∃ c ∈ (mixedStore.refreshResults (.ofPlaylists [])).2.collections,
      c.name = "c" := by
    rw [← List.mem_map]
    decide +kernel
  have hreported : (mixedStore.refreshResults (.ofPlaylists [])).1.filter (·.1 == "c") =
      [("c", .store (.cycle ["c", "b", "c"]))] := by
    rcases hcollections c hc with ⟨files, hfiles, -⟩ | ⟨e, he, -, hfiltered⟩
    · rw [hname, hresolve] at hfiles
      cases hfiles
    · rw [hname, hresolve] at he
      obtain rfl := Except.error.inj he
      rwa [hname] at hfiltered
  exact ⟨hread.derived, hnames, by decide +kernel, by decide +kernel, hresolve, hreported, hunseen⟩

end Store
end MusicCollections
