/-
# What results stand for

Refreshing gives a collection a result if it resolves, and then the files that it
resolves to (`result_refreshResults`): the collections are evaluated one after the
other by one evaluator, and what it keeps of each does not show in the next
(`outcomes_eq_map`).  Nothing else of a collection changes.

Later the results are used against another catalog, from which tracks are gone or to
which tracks have come.  They do not show in evaluation if and only if they stand for
their collections there (`Store.ResultsServe`, `resultsServe_iff`).  Refreshed results
do if they hold (`Store.ResultsHold`): whatever resolved to some files then, and is
looked up by its name now, resolves now to those of the files that are in the catalog.
-/

import MusicCollections.Proofs.Evaluation.Answers
import MusicCollections.Store.Results

namespace MusicCollections

/-! ## Without results -/

namespace Collection

/-- Forgetting results leaves the texts. -/
theorem texts_map_forget (collections : List Collection) :
    texts (collections.map forget) = texts collections := by
  funext name
  rw [texts, texts, find?_map_forget, Option.map_map]
  rfl

end Collection

namespace Store

/-- So does clearing them in a store. -/
theorem texts_clearResults (store : Store) : store.clearResults.texts = store.texts :=
  Collection.texts_map_forget store.collections

/-- A store as read has no results to forget. -/
theorem AsRead.clearResults_eq {store : Store} (h : store.AsRead) : store.clearResults = store := by
  rw [clearResults, Collection.map_forget_eq_self h]

/-! ## Giving results -/

/-- A result is set in the collection of its name, and the others are found as before. -/
theorem find?_setResult (name : String) (files : List String) (collections : List Collection)
    (n : String) :
    Collection.find? (setResult name files collections) n =
      (Collection.find? collections n).map fun c =>
        if n = name then { c with result := some files } else c := by
  induction collections with
  | nil => rfl
  | cons c rest ih =>
    simp only [Collection.find?] at ih ⊢
    by_cases hc : c.name = name
    · rw [setResult, if_pos hc]
      by_cases hn : c.name = n
      · simp [hn, ← hn.symm.trans hc]
      · have hne : n ≠ name := fun h => hn (hc.trans h.symm)
        simp [hn, hne]
    · rw [setResult, if_neg hc]
      by_cases hn : c.name = n
      · have hne : n ≠ name := fun h => hc (hn.trans h)
        simp [hn, hne]
      · simpa [hn] using ih

/-- Setting a result changes nothing but a result. -/
theorem forget_setResult (name : String) (files : List String) (collections : List Collection) :
    (setResult name files collections).map Collection.forget =
      collections.map Collection.forget := by
  induction collections with
  | nil => rfl
  | cons c rest ih =>
    rw [setResult]
    split
    · rfl
    · rw [List.map_cons, ih, List.map_cons]

/-- What names came to, one after the other. -/
abbrev Outcomes := List (String × Except EvalError (List String))

/-- Keeping results changes nothing but results. -/
theorem forget_keepResults (outcomes : Outcomes) (collections : List Collection) :
    (keepResults outcomes collections).map Collection.forget =
      collections.map Collection.forget := by
  induction outcomes generalizing collections with
  | nil => rfl
  | cons head rest ih =>
    obtain ⟨name, outcome⟩ := head
    cases outcome with
    | error e => exact ih collections
    | ok files =>
      exact (ih (setResult name files collections)).trans (forget_setResult name files collections)

/-- A result that outcomes give is among them. -/
theorem mem_of_keepResults {outcomes : Outcomes} {collections : List Collection} {n : String}
    {c : Collection} {files : List String}
    (hc : Collection.find? (keepResults outcomes collections) n = some c)
    (hresult : c.result = some files) :
    (n, .ok files) ∈ outcomes ∨
      ∃ d, Collection.find? collections n = some d ∧ d.result = some files := by
  induction outcomes generalizing collections with
  | nil => exact .inr ⟨c, hc, hresult⟩
  | cons head rest ih =>
    obtain ⟨name, outcome⟩ := head
    cases outcome with
    | error e => exact (ih hc).imp (List.mem_cons_of_mem _) id
    | ok found =>
      rcases ih hc with hmem | ⟨d, hd, hfiles⟩
      · exact .inl (List.mem_cons_of_mem _ hmem)
      · rw [find?_setResult] at hd
        obtain ⟨b, hb, rfl⟩ := Option.map_eq_some_iff.1 hd
        by_cases hn : n = name
        · rw [if_pos hn] at hfiles
          obtain rfl := Option.some.inj hfiles
          exact .inl (hn ▸ List.mem_cons_self)
        · rw [if_neg hn] at hfiles
          exact .inr ⟨b, hb, hfiles⟩

/-- Files that are the one success of a name among outcomes, or its result without
any, are its result afterwards. -/
theorem result_keepResults {outcomes : Outcomes} {collections : List Collection} {n : String}
    {c : Collection} {files : List String}
    (hc : Collection.find? (keepResults outcomes collections) n = some c)
    (honly : ∀ found, (n, .ok found) ∈ outcomes → found = files)
    (h : (n, .ok files) ∈ outcomes ∨
      ∃ d, Collection.find? collections n = some d ∧ d.result = some files) :
    c.result = some files := by
  induction outcomes generalizing collections with
  | nil =>
    rcases h with h | ⟨d, hd, hfiles⟩
    · cases h
    · obtain rfl := Option.some.inj (hd.symm.trans hc)
      exact hfiles
  | cons head rest ih =>
    obtain ⟨name, outcome⟩ := head
    have hrest : ∀ found, (n, .ok found) ∈ rest → found = files :=
      fun found hfound => honly found (List.mem_cons_of_mem _ hfound)
    cases outcome with
    | error e =>
      refine ih hc hrest (h.imp_left fun hmem => ?_)
      rcases List.mem_cons.1 hmem with heq | hmem
      · cases heq
      · exact hmem
    | ok found =>
      refine ih hc hrest ?_
      rw [find?_setResult]
      by_cases hn : n = name
      · subst hn
        obtain rfl := honly found List.mem_cons_self
        -- Keeping results adds no collection, so the one that is found now was there before.
        have hsome : (Collection.find? collections n).isSome := by
          have hforget := congrArg (Collection.find? · n)
            (forget_keepResults ((n, .ok found) :: rest) collections)
          simp only [Collection.find?_map_forget, hc] at hforget
          rw [← Option.isSome_map, ← hforget]
          rfl
        obtain ⟨d, hd⟩ := Option.isSome_iff_exists.1 hsome
        exact .inr ⟨{ d with result := some found }, by simp [hd], rfl⟩
      · rcases h with hmem | ⟨d, hd, hfiles⟩
        · rcases List.mem_cons.1 hmem with heq | hmem
          · exact absurd (Prod.mk.inj heq).1 hn
          · exact .inl hmem
        · exact .inr ⟨d, by simp [hd, hn], hfiles⟩

/-! ## Refreshing -/

section Outcomes

open Evaluation

variable {catalog : Catalog} {collections : List Collection}

/-- The first name is evaluated, and the evaluator that this leaves goes on with the others. -/
theorem outcomes_cons (name : String) (names : List String) (evaluator : Evaluator) :
    ((outcomes catalog collections (name :: names)).run evaluator).1 =
      (name, (runFrom (collectionFiles catalog collections name) evaluator).1) ::
        ((outcomes catalog collections names).run
          (runFrom (collectionFiles catalog collections name) evaluator).2).1 := rfl

/-- There is one outcome for each name, in order. -/
theorem names_outcomes (names : List String) (evaluator : Evaluator) :
    ((outcomes catalog collections names).run evaluator).1.map Prod.fst = names := by
  induction names generalizing evaluator with
  | nil => rfl
  | cons name names ih => rw [outcomes_cons, List.map_cons, ih]

/-- **The outcomes are answers**, one after the other. -/
theorem answers_outcomes (hright : ∀ c ∈ collections,
      Right catalog (Collection.texts collections) c) {names : List String}
    {evaluator : Evaluator}
    (hstands : evaluator.Stands catalog (Collection.texts collections) [])
    (hnames : ∀ n ∈ names, ∃ c, Collection.find? collections n = some c) {n : String}
    {outcome : Except EvalError (List String)}
    (h : (n, outcome) ∈ ((outcomes catalog collections names).run evaluator).1) :
    ∃ text, Collection.texts collections n = some text ∧
      Answers catalog (Collection.texts collections) (.collection n text) outcome := by
  induction names generalizing evaluator with
  | nil => cases h
  | cons name names ih =>
    obtain ⟨c, hc⟩ := hnames name List.mem_cons_self
    have hresults : ResultsRight catalog collections :=
      fun _ _ _ _ hfind => hright _ (List.mem_of_find?_eq_some hfind)
    obtain ⟨hanswers, hleft⟩ := answers_collectionFiles hresults hc
      (hright c (List.mem_of_find?_eq_some hc)) hstands
      (rfl : runFrom (collectionFiles catalog collections name) evaluator = (_, _))
    rw [outcomes_cons] at h
    rcases List.mem_cons.1 h with heq | hmem
    · obtain ⟨rfl, rfl⟩ := Prod.mk.inj heq
      exact ⟨c.expression, texts_of_find? hc, hanswers⟩
    · exact ih hleft (fun n hn => hnames n (List.mem_cons_of_mem _ hn)) hmem

end Outcomes

/-- The store is as read, results apart. -/
def Derived (store : Store) : Prop := store.clearResults.AsRead

/-- A store as read is so results apart. -/
theorem AsRead.derived {store : Store} (h : store.AsRead) : store.Derived := by
  rw [Derived, h.clearResults_eq]
  exact h

theorem clearResults_clearResults (store : Store) :
    store.clearResults.clearResults = store.clearResults := by
  rw [clearResults, clearResults, List.map_map]
  rfl

/-- Refreshing changes nothing but results. -/
theorem clearResults_refreshResults (catalog : Catalog) (store : Store) :
    (store.refreshResults catalog).2.clearResults = store.clearResults := by
  have hforget := forget_keepResults
    ((outcomes catalog store.clearResults.collections store.clearResults.names).run {}).1
    store.clearResults.collections
  have hcleared := congrArg Store.collections (clearResults_clearResults store)
  rw [refreshResults, clearResults]
  dsimp only
  rw [hforget]
  exact clearResults_clearResults store

/-- **Collections that are evaluated one after the other each come to what they resolve to
alone**, in whatever order, and whatever the evaluator resolved before. -/
theorem outcomes_eq_map {store : Store} (h : store.Derived) {catalog : Catalog}
    {names : List String} (hnames : ∀ n ∈ names, n ∈ store.clearResults.names)
    {evaluator : Evaluation.Evaluator}
    (hstands : evaluator.Stands catalog store.clearResults.texts []) :
    ((outcomes catalog store.clearResults.collections names).run evaluator).1 =
      names.map fun n => (n, store.clearResults.resolve catalog n) := by
  have hright : ∀ d ∈ store.clearResults.collections,
      Evaluation.Right catalog store.clearResults.texts d := fun _ hd => h.right hd
  have hfound : ∀ n ∈ names,
      ∃ d, Collection.find? store.clearResults.collections n = some d := by
    intro n hn
    obtain ⟨d, hd, rfl⟩ := List.mem_map.1 (hnames n hn)
    exact Option.isSome_iff_exists.1 (List.find?_isSome.2 ⟨d, hd, beq_self_eq_true d.name⟩)
  generalize hout : ((outcomes catalog store.clearResults.collections names).run evaluator).1 = out
  -- The outcome of a name is an answer, as is what it resolves to.
  have hresolve : ∀ p ∈ out, id p = (p.1, store.clearResults.resolve catalog p.1) := by
    rintro ⟨n, outcome⟩ hmem
    obtain ⟨text, htext, hanswers⟩ := answers_outcomes hright hstands hfound (hout ▸ hmem)
    obtain ⟨d, hd, rfl⟩ := Option.map_eq_some_iff.1 htext
    have hsame := (Evaluation.answers_resolve (h.resultsRight catalog) hd
      (hright d (List.mem_of_find?_eq_some hd))).unique (.collection htext) hanswers
    exact congrArg (Prod.mk n) hsame.symm
  calc out
    _ = out.map fun p => (p.1, store.clearResults.resolve catalog p.1) := by
      rw [← List.map_congr_left hresolve, List.map_id]
    _ = (out.map Prod.fst).map fun n => (n, store.clearResults.resolve catalog n) := by
      rw [List.map_map]
      rfl
    _ = names.map fun n => (n, store.clearResults.resolve catalog n) := by
      rw [← hout, names_outcomes]

/-- What refreshing gives to the collections and reports. -/
theorem refreshResults_eq {store : Store} (h : store.Derived) (catalog : Catalog) :
    store.refreshResults catalog =
      (failures (store.clearResults.names.map fun n => (n, store.clearResults.resolve catalog n)),
        { store.clearResults with
          collections := keepResults
            (store.clearResults.names.map fun n => (n, store.clearResults.resolve catalog n))
            store.clearResults.collections }) := by
  rw [refreshResults, outcomes_eq_map h (fun _ hn => hn) (.new catalog _)]

/-- **The result of a collection is what it resolves to**, if it resolves. -/
theorem result_refreshResults {store : Store} (h : store.Derived) {catalog : Catalog}
    {name : String} {c : Collection} (hc : (store.refreshResults catalog).2.get? name = some c)
    (files : List String) :
    c.result = some files ↔ store.clearResults.resolve catalog name = .ok files := by
  have hsome : (Collection.find? store.clearResults.collections name).isSome := by
    have hforget := congrArg (fun s => Collection.find? s.collections name)
      (clearResults_refreshResults catalog store)
    rw [← hforget, clearResults, Collection.find?_map_forget, Option.isSome_map]
    exact Option.isSome_iff_exists.2 ⟨c, hc⟩
  obtain ⟨d, hd⟩ := Option.isSome_iff_exists.1 hsome
  have hname : name ∈ store.clearResults.names :=
    List.mem_map.2 ⟨d, List.mem_of_find?_eq_some hd, Evaluation.name_of_find? hd⟩
  have hnone : d.result ≠ some files := by
    rw [h d (List.mem_of_find?_eq_some hd)]
    nofun
  rw [refreshResults_eq h] at hc
  have hmem : ∀ outcome, (name, outcome) ∈ store.clearResults.names.map (fun n =>
      (n, store.clearResults.resolve catalog n)) ↔
      store.clearResults.resolve catalog name = outcome := by
    intro outcome
    simp [hname]
  constructor
  · intro hresult
    rcases mem_of_keepResults hc hresult with hfound | ⟨d', hd', hfiles⟩
    · exact (hmem _).1 hfound
    · obtain rfl := Option.some.inj (hd.symm.trans hd')
      exact absurd hfiles hnone
  · intro hfiles
    refine result_keepResults hc (fun found hfound => ?_) (.inl ((hmem _).2 hfiles))
    exact Except.ok.inj (((hmem _).1 hfound).symm.trans hfiles)

/-! ## Against another catalog -/

open Evaluation

variable {store : Store} {catalog : Catalog}

/-- Finding results leaves every collection what its text makes it. -/
theorem derived_refreshResults (h : store.Derived) (catalog : Catalog) :
    (store.refreshResults catalog).2.Derived := by
  rw [Derived, clearResults_refreshResults]
  exact h

/-- A collection is found without its result where results were cleared. -/
theorem get?_clearResults (store : Store) (name : String) :
    store.clearResults.get? name = (store.get? name).map Collection.forget :=
  Collection.find?_map_forget store.collections name

/-- Without results, evaluation and resolving give answers about the texts. -/
theorem Derived.answers_evaluate (h : store.Derived) (catalog : Catalog) (e : Expression) :
    Answers catalog store.texts (.expression e) (evaluate catalog store.clearResults e) :=
  store.texts_clearResults ▸ Evaluation.answers_evaluate (h.resultsRight catalog) e

/-- Without results, a collection resolves to the answer to its text. -/
theorem Derived.answers_resolve (h : store.Derived) (catalog : Catalog) {name : String}
    {c : Collection} (hc : store.get? name = some c) :
    Answers catalog store.texts (.collection name c.expression)
      (store.clearResults.resolve catalog name) := by
  have hfind : store.clearResults.get? name = some c.forget := by
    rw [get?_clearResults, hc]
    rfl
  have hanswers := Evaluation.answers_resolve (h.resultsRight catalog) hfind
    (h.right (List.mem_of_find?_eq_some hfind))
  rwa [texts_clearResults] at hanswers

/-- A name that is looked up evaluates to what its collection resolves to. -/
theorem Derived.evaluate_ref_eq_resolve (h : store.Derived) {name : String} {c : Collection}
    (hall : name ≠ Expression.allName) (hp : catalog.playlist? name = none)
    (hc : store.get? name = some c) :
    evaluate catalog store.clearResults (.ref name) = store.clearResults.resolve catalog name := by
  have htext : store.texts name = some c.expression := texts_of_find? hc
  refine (h.answers_evaluate catalog (.ref name)).unique (.expression catalog store.texts _) ?_
  have hanswers := h.answers_resolve catalog hc
  revert hanswers
  generalize store.clearResults.resolve catalog name = outcome
  rintro (⟨e, he, hs⟩ | hwalk)
  · exact .ok (.collection hall hp htext he hs)
  · exact .error (.named hall hp htext hwalk)

/-- A collection that has a result selects its files. -/
theorem selectCollection_of_result {c : Collection} {files : List String}
    (hresult : c.result = some files) :
    runFrom (selectCollection catalog store.collections (depthFor store.collections) c) {} =
      (.ok (catalog.positionsOf files),
        { resolved := [(c.name, catalog.positionsOf files)] }) := by
  rw [depthFor, runFrom_selectCollection]
  simp only [List.lookup_nil, List.contains_nil, Bool.false_eq_true, if_false, selectFresh,
    hresult, runFrom_pure]

/-- A name whose collection has a result evaluates to the files of the result. -/
theorem evaluate_ref_of_result {name : String} {c : Collection} {files : List String}
    (hall : name ≠ Expression.allName) (hp : catalog.playlist? name = none)
    (hc : store.get? name = some c) (hresult : c.result = some files) :
    evaluate catalog store (.ref name) = .ok (catalog.filesAt (catalog.positionsOf files)) := by
  have hfind : Collection.find? store.collections name = some c := hc
  have hselect : selectName catalog store.collections
      (selectCollection catalog store.collections (depthFor store.collections)) name =
      selectCollection catalog store.collections (depthFor store.collections) c := by
    simp only [selectName, hall, if_false, hp, hfind]
  rw [evaluate, Evaluation.files, select, hselect]
  change (runFrom _ {}).1 = _
  rw [runFrom_bind, selectCollection_of_result hresult]
  rfl

/-- It resolves to them as well, whatever else its name stands for. -/
theorem resolve_of_result {name : String} {c : Collection} {files : List String}
    (hc : store.get? name = some c) (hresult : c.result = some files) :
    store.resolve catalog name = .ok (catalog.filesAt (catalog.positionsOf files)) := by
  have hfind : Collection.find? store.collections name = some c := hc
  rw [resolve, collectionFiles, hfind]
  change (runFrom _ {}).1 = _
  rw [runFrom_bind, selectCollection_of_result hresult]
  rfl

/-- A result that has the files of what its collection resolves to is right. -/
theorem Derived.right_of_resolve (h : store.Derived) {name : String} {c : Collection}
    (hc : store.get? name = some c)
    (hresolve : ∀ files, c.result = some files → store.clearResults.resolve catalog name =
      .ok (catalog.filesAt (catalog.positionsOf files))) : Right catalog store.texts c := by
  have hmem : c.forget ∈ store.clearResults.collections :=
    List.mem_map_of_mem (List.mem_of_find?_eq_some hc)
  refine ⟨h c.forget hmem, fun files hresult => ?_⟩
  have hanswers := h.answers_resolve catalog hc
  have hfiles := catalog.represents_positionsOf files
  rw [hresolve files hresult] at hanswers
  obtain ⟨s, hs, hlisting⟩ := (hanswers.ok_iff (.collection (texts_of_find? hc))).1 rfl
  rw [hfiles.filesAt_eq] at hlisting
  obtain rfl := Catalog.listing_injective hfiles.subset hs.subset hlisting
  obtain rfl := name_of_find? hc
  exact ⟨_, hs, hfiles⟩

/-- What a collection resolves to is listed in catalog order. -/
theorem Derived.filesAt_of_resolve (h : store.Derived) {name : String} {files : List String}
    (hfiles : store.clearResults.resolve catalog name = .ok files) :
    catalog.filesAt (catalog.positionsOf files) = files := by
  cases hfind : store.get? name with
  | none =>
    have htext : store.clearResults.texts name = none := by
      rw [texts_clearResults]
      exact congrArg (Option.map Collection.expression) hfind
    cases (resolve_of_texts_eq_none htext).symm.trans hfiles
  | some c =>
    have hanswers := h.answers_resolve catalog hfind
    rw [hfiles] at hanswers
    obtain ⟨s, hs, rfl⟩ := (hanswers.ok_iff (.collection (texts_of_find? hfind))).1 rfl
    exact Catalog.filesAt_positionsOf_listing hs.subset

/-- The results of a store stand for its collections in a catalog: each collection that is
looked up and has a result resolves without results to those of its files that are there. -/
def ResultsServe (store : Store) (catalog : Catalog) : Prop :=
  ∀ name c files, name ≠ Expression.allName → catalog.playlist? name = none →
    store.get? name = some c → c.result = some files →
    store.clearResults.resolve catalog name = .ok (catalog.filesAt (catalog.positionsOf files))

/-- **Results do not show in what is evaluated if and only if they stand for their
collections.** -/
theorem resultsServe_iff (h : store.Derived) : store.ResultsServe catalog ↔
    ∀ e, evaluate catalog store e = evaluate catalog store.clearResults e := by
  constructor
  · intro hserve e
    have hright : ResultsRight catalog store.collections :=
      fun name c hall hp hc => h.right_of_resolve hc fun files hresult =>
        hserve name c files hall hp hc hresult
    exact (Evaluation.answers_evaluate hright e).unique (.expression catalog store.texts e)
      (h.answers_evaluate catalog e)
  · intro hsame name c files hall hp hc hresult
    rw [← h.evaluate_ref_eq_resolve hall hp hc, ← hsame (.ref name)]
    exact evaluate_ref_of_result hall hp hc hresult

/-- The results of a store stand for its collections in another catalog: each
collection that is looked up and resolved in `basis` resolves in `catalog` to those of
its files that are there. -/
def ResultsHold (store : Store) (basis catalog : Catalog) : Prop :=
  ∀ name files, name ≠ Expression.allName → catalog.playlist? name = none →
    store.clearResults.resolve basis name = .ok files →
    store.clearResults.resolve catalog name = .ok (catalog.filesAt (catalog.positionsOf files))

/-- Finding results leaves the texts. -/
theorem texts_refreshResults (store : Store) (catalog : Catalog) :
    (store.refreshResults catalog).2.texts = store.texts := by
  rw [← texts_clearResults, clearResults_refreshResults, texts_clearResults]

/-- A name without a collection has no text. -/
theorem texts_of_get?_eq_none {name : String} (h : store.get? name = none) :
    store.texts name = none :=
  congrArg (Option.map Collection.expression) h

/-- Refreshed results stand for their collections if what was resolved does. -/
theorem resultsServe_refreshResults_iff (h : store.Derived) {basis catalog : Catalog} :
    (store.refreshResults basis).2.ResultsServe catalog ↔ store.ResultsHold basis catalog := by
  constructor
  · intro hserve name files hall hp hfiles
    cases hfind : (store.refreshResults basis).2.get? name with
    | none =>
      have htext : store.clearResults.texts name = none := by
        rw [texts_clearResults, ← texts_refreshResults store basis]
        exact texts_of_get?_eq_none hfind
      cases (resolve_of_texts_eq_none htext).symm.trans hfiles
    | some c =>
      have hresult := (result_refreshResults h hfind files).2 hfiles
      have hserved := hserve name c files hall hp hfind hresult
      rwa [clearResults_refreshResults] at hserved
  · intro hhold name c files hall hp hc hresult
    rw [clearResults_refreshResults]
    exact hhold name files hall hp ((result_refreshResults h hc files).1 hresult)

/-- What stands for a collection by its name alone stands for it in expressions. -/
theorem resultsHold_of_evaluate_ref (h : store.Derived) {basis catalog : Catalog}
    (hsame : ∀ name, evaluate catalog (store.refreshResults basis).2 (.ref name) =
      evaluate catalog store.clearResults (.ref name)) : store.ResultsHold basis catalog := by
  rw [← resultsServe_refreshResults_iff h]
  intro name c files hall hp hc hresult
  rw [← (derived_refreshResults h basis).evaluate_ref_eq_resolve hall hp hc,
    clearResults_refreshResults, ← hsame name]
  exact evaluate_ref_of_result hall hp hc hresult

/-- **Results that hold do not show.** -/
theorem ResultsHold.evaluate_eq (h : store.Derived) {basis catalog : Catalog}
    (hhold : store.ResultsHold basis catalog) (e : Expression) :
    evaluate catalog (store.refreshResults basis).2 e = evaluate catalog store.clearResults e := by
  have hserve := (resultsServe_refreshResults_iff h).2 hhold
  rw [(resultsServe_iff (derived_refreshResults h basis)).1 hserve e, clearResults_refreshResults]

/-- Results stand for their collections in the catalog that they were found in. -/
theorem ResultsHold.refl (h : store.Derived) (catalog : Catalog) :
    store.ResultsHold catalog catalog := by
  intro name files _ _ hfiles
  rw [h.filesAt_of_resolve hfiles, hfiles]

/-! ## Another store with the same collections -/

section Refreshed

variable {other : Store} {basis : Catalog}

/-- It evaluates as the refreshed store does. -/
theorem evaluate_of_refreshed (h : other.collections = (store.refreshResults basis).2.collections)
    (catalog : Catalog) (e : Expression) :
    evaluate catalog other e = evaluate catalog (store.refreshResults basis).2 e := by
  rw [evaluate, evaluate, h]

/-- Without results its collections are those of the store before. -/
theorem clearResults_of_refreshed
    (h : other.collections = (store.refreshResults basis).2.collections) :
    other.clearResults.collections = store.clearResults.collections := by
  rw [← clearResults_refreshResults basis store, clearResults, clearResults, h]

/-- Without results it evaluates as the store before. -/
theorem evaluate_clearResults_of_refreshed
    (h : other.collections = (store.refreshResults basis).2.collections) (catalog : Catalog)
    (e : Expression) :
    evaluate catalog other.clearResults e = evaluate catalog store.clearResults e := by
  rw [evaluate, evaluate, clearResults_of_refreshed h]

/-- Results hold in it exactly if they hold in the store before. -/
theorem resultsHold_of_refreshed
    (h : other.collections = (store.refreshResults basis).2.collections) (catalog : Catalog) :
    other.ResultsHold basis catalog ↔ store.ResultsHold basis catalog := by
  simp only [ResultsHold, resolve, clearResults_of_refreshed h]

end Refreshed

end Store
end MusicCollections
