/-
# Sessions after a refresh that failed

A refresh fetches the catalog, saves what changed and reads the definitions file.  If it
fails before the catalog is complete, the session has the catalog and the collections that
it had.  If it fails after that, it has the new catalog, and still the collections that it
had, with the results that were found in the old one (`refresh_error_cases`).

So after a refresh that failed, resolving is as it is without results in exactly one case, that
the results stand for their collections in the catalog that the session has now
(`resolve_after_failed_refresh`), and it may be otherwise
(`failed_refresh_serves_stale_result`).
-/

import MusicCollections.Proofs.Operations.Results
import MusicCollections.Proofs.Session.Histories

namespace MusicCollections

namespace Store

/-- Results that do not show by name stand for their collections. -/
theorem resultsServe_of_resolve {store : Store} {catalog : Catalog}
    (h : ∀ name, store.resolve catalog name = store.clearResults.resolve catalog name) :
    store.ResultsServe catalog := by
  intro name c files _ _ hc hresult
  rw [← h name]
  exact resolve_of_result hc hresult

/-- Whether collections are what their texts make them is a matter of the collections alone. -/
theorem Derived.congr {store other : Store} (h : store.Derived)
    (hsame : other.collections = store.collections) : other.Derived := by
  intro c hc
  refine h c ?_
  rw [clearResults, hsame] at hc
  exact hc

/-- So is whether results stand for their collections. -/
theorem ResultsServe.congr {store other : Store} {catalog : Catalog}
    (h : store.ResultsServe catalog) (hsame : other.collections = store.collections) :
    other.ResultsServe catalog := by
  intro name c files hall hp hc hresult
  rw [get?, hsame] at hc
  have hserve := h name c files hall hp hc hresult
  simp only [resolve, clearResults, hsame] at hserve ⊢
  exact hserve

end Store

namespace Session

section Refreshing

variable {φ κ δ : Type}

/-- Resolving is as it is without results if and only if these stand for their collections. -/
theorem resolve_eq_unaided_iff_serve {s : Session φ κ δ} (h : s.store.Derived) :
    (∀ text, s.resolve text = s.unaided.resolve text) ↔ s.store.ResultsServe s.catalog := by
  constructor
  · intro hsame name c files hall hp hc hresult
    have hname := evaluate_ref_of_resolve (hsame (Expression.quoteWord name))
    rw [← h.evaluate_ref_eq_resolve hall hp hc]
    exact hname.symm.trans (Store.evaluate_ref_of_result hall hp hc hresult)
  · intro hserve
    exact resolve_congr ((Store.resultsServe_iff h).1 hserve)

variable [Files φ] [Cache κ] [Daemon δ]

/-- What a refresh does before it takes the catalog. -/
def fetching : Effect (World φ κ δ) (Catalog × Bool) := do
  World.ask Daemon.update
  World.loadCatalog true

/-- A refresh fetches the catalog and goes on from what it got, or fails as the fetching
did. -/
theorem runOn_refresh (s : Session φ κ δ) :
    refresh.runOn s =
      match fetching.runOn s.toWorld with
      | (.error f, w) => (.error f, { s with toWorld := w })
      | (.ok (catalog, _), w) => (reload catalog).runOn { s with toWorld := w } := by
  rw [refresh_eq, Effect.runOn_bind, ask, runOn_onWorld, fetching, Effect.runOn_bind]
  rcases (World.ask Daemon.update).runOn s.toWorld with ⟨f | _, asked⟩
  · rfl
  · dsimp only
    rw [Effect.runOn_bind, runOn_onWorld]
    dsimp only
    rcases (World.loadCatalog true).runOn asked with ⟨f | ⟨catalog, changed⟩, w⟩
    · rfl
    · rfl

variable [LawfulCache κ]

/-- **How a refresh fails.**  Fetching the catalog fails, and the session has what it had; or
the catalog is fetched and taken, and the collections are those that the session had. -/
theorem refresh_error_cases {s s' : Session φ κ δ} {f : Failure}
    (h : refresh.runOn s = (.error f, s')) :
    (∃ w, fetching.runOn s.toWorld = (.error f, w) ∧ s' = { s with toWorld := w }) ∨
    ∃ changed w, fetching.runOn s.toWorld = (.ok (s'.catalog, changed), w) ∧
      s'.store.collections = s.store.collections := by
  rw [runOn_refresh] at h
  rcases hfetch : fetching.runOn s.toWorld with ⟨f' | ⟨catalog, changed⟩, w⟩
  · rw [hfetch] at h
    obtain ⟨hf, rfl⟩ := Prod.mk.inj h
    obtain rfl := Except.error.inj hf
    exact .inl ⟨w, rfl, rfl⟩
  · rw [hfetch] at h
    dsimp only at h
    rcases reload_cases catalog { s with toWorld := w } with
      ⟨f', t, hrun, hcatalog, hcollections, -⟩ | ⟨fed, hrun, -⟩
    · obtain ⟨-, rfl⟩ := Prod.mk.inj (hrun.symm.trans h)
      exact .inr ⟨changed, w, by rw [hcatalog], hcollections⟩
    · cases hrun.symm.trans h

/-- **What a session resolves after a refresh that failed.**  Its collections and their results
are the ones that it had.  Resolving is as it is without results if and only if the results
stand for their collections in the catalog that the session has now, which they do if that is
the one it had.  It is if the catalog was not fetched, and else the catalog is what was
fetched. -/
theorem resolve_after_failed_refresh {s s' : Session φ κ δ} {f : Failure}
    (hderived : s.store.Derived)
    (hfresh : ∀ name, s.store.resolve s.catalog name =
      s.store.clearResults.resolve s.catalog name)
    (h : refresh.runOn s = (.error f, s')) :
    s'.store.collections = s.store.collections ∧
    ((∀ text, s'.resolve text = s'.unaided.resolve text) ↔ s.store.ResultsServe s'.catalog) ∧
    (s'.catalog = s.catalog → ∀ text, s'.resolve text = s'.unaided.resolve text) ∧
    (∀ f' w, fetching.runOn s.toWorld = (.error f', w) → s'.catalog = s.catalog) ∧
    (∀ catalog changed w, fetching.runOn s.toWorld = (.ok (catalog, changed), w) →
      s'.catalog = catalog) := by
  have hcollections : s'.store.collections = s.store.collections := by
    rcases refresh_error_cases h with ⟨w, -, rfl⟩ | ⟨_, _, -, hkept⟩
    · rfl
    · exact hkept
  have hserve : (∀ text, s'.resolve text = s'.unaided.resolve text) ↔
      s.store.ResultsServe s'.catalog := by
    rw [resolve_eq_unaided_iff_serve (hderived.congr hcollections)]
    exact ⟨fun hs => hs.congr hcollections.symm, fun hs => hs.congr hcollections⟩
  refine ⟨hcollections, hserve, fun hcatalog => hserve.2 ?_, fun f' w hfetch => ?_,
    fun catalog changed w hfetch => ?_⟩
  · rw [hcatalog]
    exact Store.resultsServe_of_resolve hfresh
  · rcases refresh_error_cases h with ⟨_, -, rfl⟩ | ⟨_, _, hfetched, -⟩
    · rfl
    · cases hfetched.symm.trans hfetch
  · rcases refresh_error_cases h with ⟨_, hfailed, -⟩ | ⟨_, _, hfetched, -⟩
    · cases hfailed.symm.trans hfetch
    · obtain ⟨hloaded, -⟩ := Prod.mk.inj (hfetched.symm.trans hfetch)
      exact (Prod.mk.inj (Except.ok.inj hloaded)).1

end Refreshing

/-! ## A result from before -/

/-- The first session goes on: there is a track now, the playlists may be refused, and the
definitions file was removed. -/
def goesOn (refusing : Bool) (s : Session FileTree MemoryCache InMemoryDaemon) :
    Session FileTree MemoryCache InMemoryDaemon :=
  { s with files := {}, daemon := grownDaemon refusing, now := 3 }

/-- What is known of the first session. -/
theorem exists_firstSession :
    ∃ s w, start "f" beforeFirst = (.ok s, w) ∧ s.toWorld = w ∧
      s.store.collections = [staleCollection] ∧ s.store.Derived ∧
      s.store.ResultsUnseen s.catalog := by
  have hcollections : (start "f" beforeFirst).1.toOption.map (·.store.collections) =
      some [staleCollection] := by decide +kernel
  have htaken : takenFrom "f" beforeFirst = some .file := rfl
  rcases hstart : start "f" beforeFirst with ⟨f | s, w⟩
  · rw [hstart] at hcollections
    cases hcollections
  · rw [hstart] at hcollections
    obtain ⟨hworld, taken, catalog, changed, loaded, fed, hstarted⟩ := start_ok hstart
    obtain rfl := Option.some.inj (hstarted.takenFrom_eq.symm.trans htaken)
    have hkept := history_beforeFirst.kept
    obtain ⟨basis, store, hbasis, hread, hsame⟩ := hstarted.collections_eq hkept
    obtain rfl := hstarted.basis_eq hkept hbasis id
    have hderived := (Store.derived_refreshResults hread.derived basis).congr hsame
    have htrue := (Store.resultsTrue_refreshResults hread.derived basis).congr hsame
    refine ⟨s, w, rfl, hworld.symm, Option.some.inj hcollections, hderived, ?_⟩
    rw [hstarted.catalog_eq]
    exact htrue.unseen hderived

/-- The world that the session goes on in. -/
def beforeRefresh (refusing : Bool) : World FileTree MemoryCache InMemoryDaemon :=
  { (start "f" beforeFirst).2 with files := {}, daemon := grownDaemon refusing, now := 3 }

/-- A refresh fails, whether or not the playlists are refused. -/
theorem refresh_goesOn {s : Session FileTree MemoryCache InMemoryDaemon}
    {w : World FileTree MemoryCache InMemoryDaemon} (hstart : start "f" beforeFirst = (.ok s, w))
    (refusing : Bool) : ∃ f s', refresh.runOn (goesOn refusing s) = (.error f, s') := by
  have hfails : ((start "f" beforeFirst).1.toOption.map fun s =>
      (refresh.runOn (goesOn refusing s)).1.toOption.isSome) = some false := by
    cases refusing <;> decide +kernel
  rw [hstart] at hfails
  have hrefresh : (refresh.runOn (goesOn refusing s)).1.toOption.isSome = false :=
    Option.some.inj hfails
  rcases hrun : refresh.runOn (goesOn refusing s) with ⟨f | _, s'⟩
  · exact ⟨f, s', rfl⟩
  · rw [hrun] at hrefresh
    cases hrefresh

/-- The playlists are refused, and the session has its catalog. -/
theorem resolve_after_refused_refresh :
    ∃ s s' f, refresh.runOn (goesOn true s) = (.error f, s') ∧
      (goesOn true s).store.Derived ∧ (goesOn true s).store.ResultsUnseen s.catalog ∧
      s'.store.collections = [staleCollection] ∧
      ∀ text, s'.resolve text = s'.unaided.resolve text := by
  obtain ⟨s, w, hstart, hworld, hcollections, hderived, hunseen⟩ := exists_firstSession
  obtain ⟨f, s', hrefresh⟩ := refresh_goesOn hstart true
  obtain ⟨hkept, -, hfresh, hfailed, -⟩ :=
    resolve_after_failed_refresh (s := goesOn true s) hderived hunseen.2 hrefresh
  have hrefused : (fetching.runOn (beforeRefresh true)).1.toOption.isSome = false := by
    decide +kernel
  have hbefore : (goesOn true s).toWorld = beforeRefresh true := by
    rw [beforeRefresh, hstart, ← hworld]
    rfl
  refine ⟨s, s', f, hrefresh, hderived, hunseen, hkept.trans hcollections, hfresh ?_⟩
  rcases hfetch : fetching.runOn (goesOn true s).toWorld with ⟨f' | _, v⟩
  · exact hfailed f' v hfetch
  · rw [← hbefore, hfetch] at hrefused
    cases hrefused

/-- **A refresh that fails may serve a stale result.**  The catalog is fetched with the new
track and taken, and then there is no file to read.  The collection has no tracks still, as it
had none in the catalog from before. -/
theorem failed_refresh_serves_stale_result :
    ∃ (past : Past) (s s' : Session FileTree MemoryCache InMemoryDaemon) (f : Failure),
      History "f" (.busy s) past ∧ s.store.Derived ∧
      (∀ name, s.store.resolve s.catalog name = s.store.clearResults.resolve s.catalog name) ∧
      refresh.runOn s = (.error f, s') ∧ s'.resolve "c" = .ok [] ∧
      s'.unaided.resolve "c" = .ok ["a.mp3"] := by
  obtain ⟨s, w, hstart, hworld, hcollections, hderived, hunseen⟩ := exists_firstSession
  obtain ⟨f, s', hrefresh⟩ := refresh_goesOn hstart false
  have hbefore : (goesOn false s).toWorld = beforeRefresh false := by
    rw [beforeRefresh, hstart, ← hworld]
    rfl
  have hanswered : (fetching.runOn (beforeRefresh false)).1.toOption.isSome = true := rfl
  have htracks : Cache.valueAs (Json.list? Track.ofJson?) Cache.Key.tracks
      (fetching.runOn (beforeRefresh false)).2.cache = some [{ file := "a.mp3" }] := rfl
  have hplaylists : Cache.valueAs Playlists.ofJson? Cache.Key.playlists
      (fetching.runOn (beforeRefresh false)).2.cache = some [] := rfl
  rw [← hbefore] at hanswered htracks hplaylists
  rcases refresh_error_cases hrefresh with ⟨v, hfetch, -⟩ | ⟨changed, v, hfetch, hkept⟩
  · rw [hfetch] at hanswered
    cases hanswered
  · rw [hfetch] at htracks hplaylists
    obtain ⟨_, asked, -, hload⟩ := Effect.of_runOn_bind_ok hfetch
    obtain ⟨tracks, playlists, ht, hp, hcatalog⟩ := (World.loadCatalog_ok hload).1
    obtain rfl := Option.some.inj (ht.symm.trans htracks)
    obtain rfl := Option.some.inj (hp.symm.trans hplaylists)
    have hstale : s'.store.collections = [staleCollection] := hkept.trans hcollections
    exact ⟨_, goesOn false s, s', f, (history_beforeFirst.starts hstart).meanwhile _ _ _, hderived,
      hunseen.2, hrefresh, resolve_stale hcatalog hstale, resolve_unaided_stale hcatalog hstale⟩

end Session
end MusicCollections
