/-
# Results after a start

A history of sessions on one cache and one definitions file (`Session.History`) carries
what is known of the cached results.  A start or a refresh that fails may leave results
in the cache that no sign gives away: the next start finds nothing changed and uses
them.  So resolving after a start is what it is without results in exactly one case,
that the results hold in the catalog of the session (`resolve_eq_unaided_iff`), which
they do if nothing failed; and there is a history after which they do not
(`start_serves_stale_result`).
-/

import MusicCollections.Daemon.InMemory
import MusicCollections.Files.Tree
import MusicCollections.Proofs.Quoting
import MusicCollections.Proofs.Session.Starting

namespace MusicCollections
namespace Session

section Histories

variable {φ κ δ : Type} [Files φ] [Cache κ] [Daemon δ]

/-- Between two sessions, or in one. -/
inductive Stage (φ κ δ : Type) where
  | idle (w : World φ κ δ)
  | busy (s : Session φ κ δ)

/-- What can come about on one definitions file and one cache, which begins without
collections.  From outside, the files and the daemon may change at any time. -/
inductive History (path : Path) : Stage φ κ δ → Past → Prop
  | first (w : World φ κ δ) :
      Cache.entry Cache.Key.collections w.cache = (none, none) → History path (.idle w) .empty
  /-- A cache may be opened anew between sessions, if it has the same entries. -/
  | outside {w past} (w' : World φ κ δ) :
      History path (.idle w) past → (∀ key, Cache.entry key w'.cache = Cache.entry key w.cache) →
      History path (.idle w') past
  | meanwhile {s past} (files : φ) (daemon : δ) (now : Time) :
      History path (.busy s) past → History path (.busy { s with files, daemon, now }) past
  | startFails {w w' past f} :
      History path (.idle w) past → start path w = (.error f, w') →
      History path (.idle w') (past.failed w.cache w'.cache)
  | starts {w w' past s} :
      History path (.idle w) past → start path w = (.ok s, w') →
      History path (.busy s) (past.started s.catalog (takenFrom path w))
  | define {s past} (name expression : String) :
      History path (.busy s) past →
      History path (.busy { s with store := (s.store.define name expression).2 }) past
  | delete {s past} (name : String) :
      History path (.busy s) past →
      History path (.busy { s with store := (s.store.delete name).2 }) past
  | refreshFails {s s' past f} :
      History path (.busy s) past → refresh.runOn s = (.error f, s') →
      History path (.busy s') (past.failed s.cache s'.cache)
  | refreshes {s s' past} :
      History path (.busy s) past → refresh.runOn s = (.ok (), s') →
      History path (.busy s') (.found s'.catalog)
  | close {s past} :
      History path (.busy s) past → History path (.idle s.close.2) past
  /-- The program ends without closing the session. -/
  | abandon {s past} :
      History path (.busy s) past → History path (.idle s.toWorld) past

/-- The cache at a stage. -/
def Stage.cache : Stage φ κ δ → κ
  | .idle w => w.cache
  | .busy s => s.cache

end Histories

section Resolving

variable {φ κ δ : Type}

/-- Sessions that evaluate alike resolve alike. -/
theorem resolve_congr {s t : Session φ κ δ}
    (h : ∀ e, evaluate s.catalog s.store e = evaluate t.catalog t.store e) (text : String) :
    s.resolve text = t.resolve text := by
  rw [resolve, resolve]
  cases parseExpression text with
  | error e => rfl
  | ok e => simp only [h]

/-- A name between quotes resolves alike only if it evaluates alike. -/
theorem evaluate_ref_of_resolve {s t : Session φ κ δ} {name : String}
    (h : s.resolve (Expression.quoteWord name) = t.resolve (Expression.quoteWord name)) :
    evaluate s.catalog s.store (.ref name) = evaluate t.catalog t.store (.ref name) := by
  simp only [resolve, parseExpression_quoteWord] at h
  generalize evaluate s.catalog s.store (.ref name) = x at h ⊢
  generalize evaluate t.catalog t.store (.ref name) = y at h ⊢
  cases x with
  | error e =>
    cases y with
    | error e' =>
      have hcause := congrArg Failure.cause (Except.error.inj h)
      rw [Cause.evaluation.inj hcause]
    | ok files => cases h
  | ok files =>
    cases y with
    | error e' => cases h
    | ok files' => rw [Except.ok.inj h]

end Resolving

variable {φ κ δ : Type} [Files φ] [Cache κ] [Daemon δ] [LawfulCache κ]

/-- **Whatever happens, what is known of the cached results is so.** -/
theorem History.kept {path : Path} {stage : Stage φ κ δ} {past : Past}
    (h : History path stage past) : past.Kept stage.cache := by
  induction h with
  | first w hcache =>
    refine ⟨fun _ => ?_, fun _ hnone => ?_, fun _ hnone => ?_⟩
    · change Cache.valueAs _ _ w.cache = none
      rw [Cache.valueAs, hcache]
      rfl
    · cases hnone
    · cases hnone
  | outside w' _ hsame ih => exact ih.congr hsame
  | meanwhile _ _ _ _ ih => exact ih
  | startFails _ hstart ih => exact ih.failed (entry_start_error hstart)
  | starts _ hstart ih =>
    obtain ⟨-, taken, catalog, changed, loaded, fed, hstarted⟩ := start_ok hstart
    rw [hstarted.takenFrom_eq, hstarted.catalog_eq]
    exact hstarted.kept ih
  | @define s past _ _ _ ih =>
    change past.Kept s.cache
    exact ih
  | @delete s past _ _ ih =>
    change past.Kept s.cache
    exact ih
  | refreshFails _ hrefresh ih =>
    refine (kept_refresh hrefresh ih).2 fun hok => ?_
    cases hok
  | refreshes _ hrefresh ih => exact (kept_refresh hrefresh ih).1 rfl
  | @close s past _ ih =>
    have hcache := cache_flush s
    change past.Kept s.flush.2.cache
    rwa [hcache]
  | abandon _ ih => exact ih

/-- **When resolving after a start is as it is without results.**  It is if the cached
results hold in the catalog of the session, and not otherwise; they do unless a start or
a refresh failed after it changed the cached tracks or playlists and no results were
cached since. -/
theorem resolve_eq_unaided_iff {path : Path} {w w' : World φ κ δ} {past : Past}
    (h : History path (.idle w) past) {s : Session φ κ δ} (hstart : start path w = (.ok s, w')) :
    ((∀ text, s.resolve text = s.unaided.resolve text) ↔
      ∀ basis, (past.started s.catalog (takenFrom path w)).basis = some basis →
        s.store.ResultsHold basis s.catalog) ∧
    (¬(past.started s.catalog (takenFrom path w)).cut →
      ∀ text, s.resolve text = s.unaided.resolve text) := by
  obtain ⟨-, taken, catalog, changed, loaded, fed, hstarted⟩ := start_ok hstart
  rw [hstarted.takenFrom_eq, hstarted.catalog_eq]
  obtain ⟨basis, store, hbasis, hread, hcollections⟩ := hstarted.collections_eq h.kept
  have hcatalog := hstarted.catalog_eq
  have hfresh : store.ResultsHold basis catalog →
      ∀ text, s.resolve text = s.unaided.resolve text := by
    intro hresults
    refine resolve_congr fun e => ?_
    calc evaluate s.catalog s.store e
      _ = evaluate s.catalog (store.refreshResults basis).2 e :=
        Store.evaluate_of_refreshed hcollections s.catalog e
      _ = evaluate s.catalog store.clearResults e := by
        rw [hcatalog]
        exact hresults.evaluate_eq hread.derived e
      _ = evaluate s.catalog s.store.clearResults e :=
        (Store.evaluate_clearResults_of_refreshed hcollections s.catalog e).symm
  have hhold := Store.resultsHold_of_refreshed hcollections catalog
  refine ⟨⟨fun hsame b hb => ?_, fun hresults => ?_⟩, fun huncut => ?_⟩
  · obtain rfl := Option.some.inj (hbasis.symm.trans hb)
    refine hhold.2 (Store.resultsHold_of_evaluate_ref hread.derived fun name => ?_)
    -- A name is resolved by the text that quotes it.
    have hname := evaluate_ref_of_resolve (hsame (Expression.quoteWord name))
    rw [← hcatalog, ← Store.evaluate_of_refreshed hcollections, hname]
    exact Store.evaluate_clearResults_of_refreshed hcollections s.catalog (.ref name)
  · exact hfresh (hhold.1 (hresults basis hbasis))
  · obtain rfl := hstarted.basis_eq h.kept hbasis huncut
    exact hfresh (Store.ResultsHold.refl hread.derived basis)

/-! ## A stale result -/

/-- A daemon without tracks, and then with one and, while `refusing`, unwilling to list
its playlists. -/
def emptyDaemon : InMemoryDaemon := { stamp := "1" }

def grownDaemon (refusing : Bool) : InMemoryDaemon where
  tracks := [{ file := "a.mp3" }]
  stamp := "2"
  refuses _ call := refusing && call == .storedPlaylists

/-- One collection is defined, and nothing is cached. -/
def beforeFirst : World FileTree MemoryCache InMemoryDaemon where
  files := { nodes := [(["f"], .file (.text "c = all") 1)], clock := 1 }
  cache := {}
  daemon := emptyDaemon
  now := 2

/-- With nothing cached, nothing was found before. -/
theorem history_beforeFirst : History "f" (.idle beforeFirst) .empty := .first beforeFirst rfl

/-- The program is ended after its first session, which found results. -/
theorem history_afterFirst :
    ∃ catalog, History "f" (.idle (start "f" beforeFirst).2) (.found catalog) := by
  have htaken : takenFrom "f" beforeFirst = some .file := rfl
  have hfirst : (start "f" beforeFirst).1.toOption.isSome = true := rfl
  rcases hstart : start "f" beforeFirst with ⟨f | s, w⟩
  · rw [hstart] at hfirst
    cases hfirst
  · have hidle := (history_beforeFirst.starts hstart).abandon
    rw [htaken, ← (start_ok hstart).1] at hidle
    exact ⟨s.catalog, hidle⟩

/-- It begins anew, and nothing else changed. -/
def returned : World FileTree MemoryCache InMemoryDaemon :=
  { (start "f" beforeFirst).2 with now := 3 }

/-- The second session takes the results of the first from the cache, and they hold. -/
theorem resolve_second_session :
    ∃ past s w', History "f" (.idle returned) past ∧ takenFrom "f" returned = some .cache ∧
      start "f" returned = (.ok s, w') ∧ ∀ text, s.resolve text = s.unaided.resolve text := by
  have htaken : takenFrom "f" returned = some .cache := by decide +kernel
  have hsecond : (start "f" returned).1.toOption.isSome = true := by decide +kernel
  obtain ⟨catalog, hfirst⟩ := history_afterFirst
  have hhistory : History "f" (.idle returned) (.found catalog) :=
    hfirst.outside returned fun _ => rfl
  rcases hstart : start "f" returned with ⟨f | s, w'⟩
  · rw [hstart] at hsecond
    cases hsecond
  · refine ⟨_, s, w', hhistory, htaken, rfl, (resolve_eq_unaided_iff hhistory hstart).2 ?_⟩
    rw [htaken]
    exact id

/-- After a session, there is a track, but the playlists are refused. -/
def beforeSecond : World FileTree MemoryCache InMemoryDaemon :=
  { (start "f" beforeFirst).2 with daemon := grownDaemon true, now := 3 }

/-- After a start that failed, the daemon answers again. -/
def beforeThird : World FileTree MemoryCache InMemoryDaemon :=
  { (start "f" beforeSecond).2 with daemon := grownDaemon false, now := 4 }

/-- The start that failed is part of the history. -/
theorem history_beforeThird : ∃ past, History "f" (.idle beforeThird) past := by
  have hsecond : (start "f" beforeSecond).1.toOption.isSome = false := rfl
  obtain ⟨catalog, hfirst⟩ := history_afterFirst
  have hnext : History "f" (.idle beforeSecond) (.found catalog) :=
    hfirst.outside beforeSecond fun _ => rfl
  rcases hfails : start "f" beforeSecond with ⟨f | t, v⟩
  · have hworld : beforeThird = { v with daemon := grownDaemon false, now := 4 } := by
      rw [beforeThird, hfails]
    exact ⟨_, (hnext.startFails hfails).outside beforeThird fun key => by rw [hworld]⟩
  · rw [hfails] at hsecond
    cases hsecond

/-- The collection, with what the first session found. -/
def staleCollection : Collection := { Collection.ofText "c" "all" with result := some [] }

/-- The catalog with the track. -/
def grownCatalog : Catalog := .ofTracks [{ file := "a.mp3" }] []

/-- The third session has the track and the result of the first. -/
theorem start_beforeThird : ∃ s w', start "f" beforeThird = (.ok s, w') ∧
    s.catalog = grownCatalog ∧ s.store.collections = [staleCollection] := by
  have hcollections : (start "f" beforeThird).1.toOption.map (·.store.collections) =
      some [staleCollection] := by decide +kernel
  have htracks : Cache.valueAs (Json.list? Track.ofJson?) Cache.Key.tracks
      (loading.runOn beforeThird).2.cache = some [{ file := "a.mp3" }] := rfl
  have hplaylists : Cache.valueAs Playlists.ofJson? Cache.Key.playlists
      (loading.runOn beforeThird).2.cache = some [] := rfl
  rcases hstart : start "f" beforeThird with ⟨f | s, w'⟩
  · rw [hstart] at hcollections
    cases hcollections
  · rw [hstart] at hcollections
    refine ⟨s, w', rfl, ?_, Option.some.inj hcollections⟩
    obtain ⟨-, taken, catalog, changed, loaded, fed, hstarted⟩ := start_ok hstart
    obtain ⟨tracks, playlists, ht, hp, hcatalog⟩ := (loading_ok hstarted.loaded_eq).1
    rw [hstarted.loaded_eq] at htracks hplaylists
    obtain rfl := Option.some.inj (ht.symm.trans htracks)
    obtain rfl := Option.some.inj (hp.symm.trans hplaylists)
    exact hstarted.catalog_eq.trans hcatalog

section Stale

variable {s : Session FileTree MemoryCache InMemoryDaemon}

/-- No playlist hides the collection. -/
theorem playlist?_grownCatalog : grownCatalog.playlist? "c" = none := by
  simp [grownCatalog, Catalog.ofTracks, Catalog.push, Catalog.ofPlaylists, Catalog.playlist?,
    Dictionary.get?]

theorem get?_stale (hcollections : s.store.collections = [staleCollection]) :
    s.store.get? "c" = some staleCollection := by
  rw [Store.get?, hcollections]
  rfl

/-- With the result, there is nothing in the collection. -/
theorem resolve_stale (hcatalog : s.catalog = grownCatalog)
    (hcollections : s.store.collections = [staleCollection]) : s.resolve "c" = .ok [] := by
  have hall : "c" ≠ Expression.allName := by decide
  have hparse : parseExpression "c" = .ok (.ref "c") := rfl
  have hshadow : s.catalog.playlist? "c" = none := hcatalog ▸ playlist?_grownCatalog
  have hfiles : s.catalog.filesAt (s.catalog.positionsOf []) = [] := by
    rw [(s.catalog.represents_positionsOf []).filesAt_eq]
    simp [Catalog.listing]
  rw [resolve, hparse]
  simp only [Store.evaluate_ref_of_result hall hshadow (get?_stale hcollections) rfl, hfiles,
    Except.mapError]

/-- Without it, there is the track. -/
theorem resolve_unaided_stale (hcatalog : s.catalog = grownCatalog)
    (hcollections : s.store.collections = [staleCollection]) :
    s.unaided.resolve "c" = .ok ["a.mp3"] := by
  have hall : "c" ≠ Expression.allName := by decide
  have hparse : parseExpression "c" = .ok (.ref "c") := rfl
  have hparse' : parseExpression "all" = .ok (.ref "all") := rfl
  have hshadow : s.catalog.playlist? "c" = none := hcatalog ▸ playlist?_grownCatalog
  have htracks : s.catalog.tracks = #[{ file := "a.mp3" }] := by
    simp [hcatalog, grownCatalog, Catalog.ofTracks, Catalog.push, Catalog.ofPlaylists]
  have hderived : s.store.Derived := by
    intro c hc
    simp only [Store.clearResults, hcollections, List.map_cons, List.map_nil,
      List.mem_singleton] at hc
    rw [hc]
    rfl
  have hdenotes : Evaluation.Denotes s.catalog s.store.texts (.ref "c")
      {t | t ∈ s.catalog.tracks} :=
    .collection hall hshadow (Evaluation.texts_of_find? (get?_stale hcollections)) hparse' .all
  have hevaluate := ((hderived.answers_evaluate s.catalog (.ref "c")).ok_iff
    (.expression s.catalog s.store.texts _)).2 ⟨_, hdenotes, rfl⟩
  have hlisting : s.catalog.listing {t | t ∈ s.catalog.tracks} = ["a.mp3"] := by
    simp [Catalog.listing, htracks]
  rw [resolve, hparse]
  simp only [unaided, hevaluate, hlisting, Except.mapError]

end Stale

/-- **A start may serve a stale result.**  The first session finds no tracks in the
collection.  The next start caches a new track and its stamp and then fails, and the one
after it finds nothing changed and takes the result of the first. -/
theorem start_serves_stale_result :
    ∃ (w w' : World FileTree MemoryCache InMemoryDaemon) (past : Past)
      (s : Session FileTree MemoryCache InMemoryDaemon),
      History "f" (.idle w) past ∧ start "f" w = (.ok s, w') ∧ s.resolve "c" = .ok [] ∧
        s.unaided.resolve "c" = .ok ["a.mp3"] := by
  obtain ⟨past, hhistory⟩ := history_beforeThird
  obtain ⟨s, w', hstart, hcatalog, hcollections⟩ := start_beforeThird
  exact ⟨beforeThird, w', past, s, hhistory, hstart, resolve_stale hcatalog hcollections,
    resolve_unaided_stale hcatalog hcollections⟩

end Session
end MusicCollections
