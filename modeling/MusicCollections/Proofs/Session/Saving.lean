/-
# What a session saves

A session that started with the definitions of its file saves exactly what was defined
and deleted, as long as nobody else changes the file: `Use` follows it through any
operations, whatever fails, next to an account of what there is to be saved.

While the store is not dirty, the file has its definitions, and what is saved reads back
(`Faithful`).  A refresh reads the file again and loses nothing, since it saves first
(`ensures_refresh`).  The cache and the daemon have no part in this, so nothing is asked
of them.
-/

import Mathlib.Data.Prod.Basic
import MusicCollections.Daemon.InMemory
import MusicCollections.Proofs.Definitions.Saving
import MusicCollections.Proofs.Operations.Records
import MusicCollections.Proofs.Session.Starting
import MusicCollections.Proofs.Session.Steps

namespace MusicCollections

namespace Store

section Files

variable {φ : Type} [Files φ] {files files' : φ} {path : Path} {definitions : List Definition}

/-- The definitions of a file are those on its lines, settled. -/
theorem of_definitionsAt_ok (h : definitionsAt files path = .ok definitions) :
    ∃ modified text, Files.modified files path = .ok modified ∧
      Files.readText files path = .ok text ∧
      definitions = Definitions.settled (Definitions.parse text) := by
  rw [definitionsAt, load_force] at h
  cases hm : Files.modified files path with
  | error e =>
    rw [hm] at h
    cases h
  | ok modified =>
    cases ht : Files.readText files path with
    | error e =>
      rw [hm, ht] at h
      cases h
    | ok text =>
      rw [hm, ht] at h
      obtain rfl := Except.ok.inj h
      exact ⟨modified, text, rfl, rfl, Collection.definitions_collectionsOf _⟩

/-- **Definitions that read back are those of the file that they were written to.** -/
theorem definitionsAt_of_replace [LawfulFiles φ]
    (hwritable : ∀ d ∈ definitions, Definitions.Writable d)
    (hnames : (definitions.map Prod.fst).Nodup)
    (h : Files.replace path (definitions.map Definitions.line) files = (.ok (), files')) :
    definitionsAt files' path = .ok definitions := by
  obtain ⟨modified, hm⟩ := (Files.of_replace_eq_ok h).1
  rw [definitionsAt_eq hm (Definitions.readText_of_replace h), Definitions.parse_render hwritable,
    collectionsOf_eq_map hnames, List.map_map]
  exact congrArg Except.ok (List.map_id definitions)

end Files

/-- A forced feed reads the file, or it fails and leaves the store. -/
theorem feed_force {φ κ : Type} [Files φ] [Cache κ] (now : Time) (files : φ) (path : Path)
    (store : Store) (cache : κ) :
    store.feed now files path true cache = feedFromFile now files path store cache := by
  rw [feed]
  cases hm : Files.modified files path with
  | error e => rw [feedFromFile_eq, hm]
  | ok modified => exact if_pos rfl

end Store

namespace Session

variable {φ κ δ : Type} [Files φ]

/-- What there is to be saved. -/
structure Account (φ : Type) where
  /-- The definitions that the session started with, with every definition and deletion
  that succeeded. -/
  definitions : List Definition
  /-- Whether one succeeded. -/
  changed : Bool
  /-- The files without what the session did to them. -/
  files : φ

/-- A definition or a deletion was tried. -/
def Account.tried (a : Account φ) {α : Type} (outcome : Except StoreError α)
    (definitions : List Definition) : Account φ :=
  match outcome with
  | .ok _ => { a with definitions, changed := true }
  | .error _ => a

/-- The session has the definitions of the account, which read back, and the file has them
unless the store is dirty. -/
structure Faithful (path : Path) (a : Account φ) (s : Session φ κ δ) : Prop where
  path_eq : s.path = path
  records : Collection.Records s.store.collections a.definitions
  writable : ∀ d ∈ a.definitions, Definitions.Writable d
  clean : s.store.dirty = false → Store.definitionsAt s.files path = .ok a.definitions
  untouched : a.changed = false → s.store.dirty = false ∧ s.files = a.files

namespace Faithful

variable {path : Path} {a : Account φ} {s t : Session φ κ δ} {name expression : String}

/-- The store has the definitions of the account. -/
theorem definitions_eq (h : Faithful path a s) : s.store.definitions = a.definitions :=
  h.records.definitions_eq

/-- The account names nothing twice. -/
theorem nodup (h : Faithful path a s) : (a.definitions.map Prod.fst).Nodup := by
  rw [← h.records.definitions_eq, Collection.fst_map_definition]
  exact h.records.nodup

/-- The catalog, the cache, the daemon and the time have no part in it. -/
theorem congr (h : Faithful path a s) (hstore : t.store = s.store) (hfiles : t.files = s.files)
    (hpath : t.path = s.path) : Faithful path a t where
  path_eq := hpath.trans h.path_eq
  records := hstore ▸ h.records
  writable := h.writable
  clean := by
    rw [hstore, hfiles]
    exact h.clean
  untouched := by
    rw [hstore, hfiles]
    exact h.untouched

/-- Others leave the file as it is. -/
theorem meanwhile (h : Faithful path a s) {w : World φ κ δ}
    (hm : Files.modified w.files path = Files.modified s.files path)
    (hr : Files.read w.files path = Files.read s.files path) :
    Faithful path { a with files := w.files } { s with toWorld := w } where
  path_eq := h.path_eq
  records := h.records
  writable := h.writable
  clean hdirty := (Store.definitionsAt_congr hm hr).trans (h.clean hdirty)
  untouched hchanged := ⟨(h.untouched hchanged).1, rfl⟩

/-- A definition that is taken goes into the account and leaves the store dirty; another one
changes neither. -/
theorem define (h : Faithful path a s) (name expression : String) :
    Faithful path (a.tried (s.store.define name expression).1
      (Definitions.set a.definitions (name, Text.trim expression)))
      { s with store := (s.store.define name expression).2 } := by
  rcases Store.define_cases s.store name expression with ⟨e, hrun⟩ | ⟨c, hc, hrun⟩
  · rw [hrun]
    exact h
  · rw [hrun, hc.eq_ofText]
    refine ⟨h.path_eq, (h.records.put (name, Text.trim expression)).map_forget, ?_, nofun, nofun⟩
    obtain ⟨tree, hparse⟩ := hc.parsed
    intro d hd
    rcases Definitions.mem_set hd with rfl | hd
    · exact Definitions.writable_of_nameFault? hc.name_ok hc.one_line hparse
    · exact h.writable d hd

/-- A deletion does the same. -/
theorem delete (h : Faithful path a s) (name : String) :
    Faithful path
      (a.tried (s.store.delete name).1 (Definitions.without a.definitions name))
      { s with store := (s.store.delete name).2 } := by
  rcases Store.delete_cases s.store name with ⟨e, hrun⟩ | ⟨c, hrun⟩
  · rw [hrun]
    exact h
  · rw [hrun]
    refine ⟨h.path_eq, (h.records.eraseP name).map_forget, fun d hd => ?_, nofun, nofun⟩
    exact h.writable d (List.mem_of_mem_filter hd)

/-- Results have no part in it. -/
theorem refreshResults (h : Faithful path a s) : Faithful path a s.refreshResults.2 where
  path_eq := h.path_eq
  records := h.records.of_forget
    (congrArg Store.collections (Store.clearResults_refreshResults s.catalog s.store))
  writable := h.writable
  clean := h.clean
  untouched := h.untouched

/-- Nor has the cache. -/
theorem updateCache [Cache κ] (h : Faithful path a s) : Faithful path a s.updateCache :=
  h.refreshResults.congr rfl rfl rfl

variable [LawfulFiles φ]

/-- **A flush saves what there is to be saved**, or it fails and the store stays dirty. -/
theorem flush (h : Faithful path a s) :
    Faithful path a s.flush.2 ∧ (s.flush.1 = .ok () → s.flush.2.store.dirty = false) := by
  rw [Session.flush]
  split
  · rename_i hdirty
    have hchanged : a.changed ≠ false := fun hc => by simp [(h.untouched hc).1] at hdirty
    rcases Store.persist_cases s.now s.path s.store s.files with
      ⟨e, files, hrun⟩ | ⟨seen, files, hreplace, hrun⟩
    · rw [hrun]
      refine ⟨⟨h.path_eq, h.records, h.writable, fun hclean => ?_, fun hc => ?_⟩, fun hok => ?_⟩
      · cases hdirty.symm.trans hclean
      · exact absurd hc hchanged
      · cases hok
    · rw [hrun]
      rw [h.definitions_eq, h.path_eq] at hreplace
      refine ⟨⟨h.path_eq, h.records, h.writable, fun _ => ?_, ?_⟩, fun _ => rfl⟩
      · exact Store.definitionsAt_of_replace h.writable h.nodup hreplace
      · exact fun hc => absurd hc hchanged
  · rename_i hdirty
    exact ⟨h, fun _ => by simpa using hdirty⟩

end Faithful

/-! ## Refreshing -/

section Refreshing

variable {path : Path} {a : Account φ}

/-- What leaves the files keeps a session faithful, however it ends. -/
theorem ensures_onWorld {α : Type} {act : Effect (World φ κ δ) α}
    (h : World.Along (fun w w' => w'.files = w.files) act) :
    Effect.Ensures (Faithful path a) (onWorld act : Effect (Session φ κ δ) α)
      (fun _ => Faithful path a) (Faithful path a) :=
  Effect.ensures_keeps_iff.2 fun s hs => hs.congr rfl (h s.toWorld) rfl

/-- After a flush that succeeds the store is not dirty. -/
theorem ensures_flush [LawfulFiles φ] :
    Effect.Ensures (Faithful path a) (storing flush : Effect (Session φ κ δ) Unit)
      (fun _ s => Faithful path a s ∧ s.store.dirty = false) (Faithful path a) := by
  intro s hs
  obtain ⟨hflushed, hclean⟩ := hs.flush
  rw [runOn_storing]
  rcases hrun : s.flush with ⟨e | _, t⟩
  · rw [hrun] at hflushed
    exact hflushed
  · rw [hrun] at hflushed hclean
    exact ⟨hflushed, hclean rfl⟩

variable [Cache κ]

/-- **Reading the file again loses nothing** where the store is not dirty. -/
theorem ensures_feed :
    Effect.Ensures (fun s : Session φ κ δ => Faithful path a s ∧ s.store.dirty = false)
      (storing (feed true)) (fun _ => Faithful path a) (Faithful path a) := by
  rintro s ⟨hs, hdirty⟩
  obtain rfl := hs.path_eq
  have hclean := hs.clean hdirty
  rw [runOn_storing, feed, Store.feed_force, Store.feedFromFile_eq]
  cases hm : Files.modified s.files s.path with
  | error e => exact hs.congr rfl rfl rfl
  | ok modified =>
    cases ht : Files.readText s.files s.path with
    | error e => exact hs.congr rfl rfl rfl
    | ok text =>
      have hread : a.definitions = Definitions.settled (Definitions.parse text) := by
        rw [Store.definitionsAt_eq hm ht, Collection.definitions_collectionsOf] at hclean
        exact (Except.ok.inj hclean).symm
      refine ⟨rfl, ?_, hs.writable, fun _ => hclean, fun hc => ⟨rfl, (hs.untouched hc).2⟩⟩
      rw [hread]
      exact .collectionsOf _

variable [LawfulFiles φ] [Daemon δ]

/-- **A refresh keeps a session faithful**, wherever it fails. -/
theorem ensures_refresh :
    Effect.Ensures (Faithful path a) (refresh : Effect (Session φ κ δ) Unit)
      (fun _ => Faithful path a) (Faithful path a) := by
  rw [refresh_eq]
  refine (ensures_onWorld fun _ => rfl).bind fun _ => ?_
  refine (ensures_onWorld (World.steps_files.loadCatalog true)).bind fun loaded => ?_
  rw [reload]
  refine (Effect.ensures_change fun s hs => hs.congr rfl rfl rfl).bind
    fun _ => (ensures_flush.bind fun _ => ?_ : Effect.Ensures (Faithful path a) _ _ _)
  refine (ensures_feed.attempting _).bind fun _ => ?_
  exact Effect.ensures_change fun s hs => hs.updateCache

end Refreshing

/-! ## Any use of a session -/

section Use

variable [Cache κ] [Daemon δ] {path : Path} {a : Account φ} {s : Session φ κ δ}

/-- A session that started on a file with the definitions of the file, after any operations,
whether or not they succeed.  To resolve an expression leaves it as it is.  What is around the
session may change in any way, but for the file. -/
inductive Use (path : Path) : Account φ → Session φ κ δ → Prop
  | opened {w w' : World φ κ δ} {s : Session φ κ δ} : start path w = (.ok s, w') →
      Store.definitionsAt s.files path = .ok s.store.definitions →
      Use path ⟨s.store.definitions, false, w.files⟩ s
  | define {a : Account φ} {s : Session φ κ δ} (name expression : String) : Use path a s →
      Use path (a.tried (s.store.define name expression).1
          (Definitions.set a.definitions (name, Text.trim expression)))
        { s with store := (s.store.define name expression).2 }
  | delete {a : Account φ} {s : Session φ κ δ} (name : String) : Use path a s →
      Use path (a.tried (s.store.delete name).1 (Definitions.without a.definitions name))
        { s with store := (s.store.delete name).2 }
  | refreshResults {a : Account φ} {s : Session φ κ δ} : Use path a s →
      Use path a s.refreshResults.2
  | flush {a : Account φ} {s : Session φ κ δ} : Use path a s → Use path a s.flush.2
  | refresh {a : Account φ} {s : Session φ κ δ} : Use path a s → Use path a (refresh.runOn s).2
  | meanwhile {a : Account φ} {s : Session φ κ δ} (w : World φ κ δ) : Use path a s →
      Files.modified w.files path = Files.modified s.files path →
      Files.read w.files path = Files.read s.files path →
      Use path { a with files := w.files } { s with toWorld := w }

/-- A start leaves the files. -/
theorem Started.files_eq {w loaded : World φ κ δ} {taken : FeedOutcome} {fed : Session φ κ δ}
    {catalog : Catalog} {changed : Bool}
    (h : Started path w taken s catalog changed loaded fed) : s.files = w.files := by
  have hloading : World.Along (fun w w' : World φ κ δ => w'.files = w.files) loading :=
    World.steps_files.bind (fun _ => rfl) fun _ => World.steps_files.loadCatalog false
  have hloaded := hloading w
  have hfed := congrArg (fun run => run.2.files) h.fed_eq
  rw [h.loaded_eq] at hloaded
  rw [h.session_eq, ← hloaded]
  cases taken <;> exact hfed.symm

/-- A session is about the path that it was started with. -/
theorem Started.path_eq {w loaded : World φ κ δ} {taken : FeedOutcome} {fed : Session φ κ δ}
    {catalog : Catalog} {changed : Bool}
    (h : Started path w taken s catalog changed loaded fed) : s.path = path := by
  have hfed := congrArg (fun run => run.2.path) h.fed_eq
  rw [h.session_eq]
  cases taken <;> exact hfed.symm

/-- A session starts with a store that is not dirty, and with collections that are what
their texts make them. -/
theorem Started.derived {w loaded : World φ κ δ} {taken : FeedOutcome} {fed : Session φ κ δ}
    {catalog : Catalog} {changed : Bool}
    (h : Started path w taken s catalog changed loaded fed) :
    s.store.Derived ∧ s.store.dirty = false := by
  obtain ⟨hderived, hclean⟩ := Store.derived_of_feed (feed_eq h.fed_eq).1
  rw [h.session_eq]
  cases taken with
  | cache => exact ⟨hderived, hclean⟩
  | file => exact ⟨Store.derived_refreshResults hderived fed.catalog, hclean⟩

/-- A session starts faithful if it has the definitions of its file. -/
theorem faithful_start {w w' : World φ κ δ} (h : start path w = (.ok s, w'))
    (hfile : Store.definitionsAt s.files path = .ok s.store.definitions) :
    Faithful path ⟨s.store.definitions, false, w.files⟩ s := by
  obtain ⟨-, taken, catalog, changed, loaded, fed, hstarted⟩ := start_ok h
  obtain ⟨hderived, hclean⟩ := hstarted.derived
  obtain ⟨modified, text, -, -, hlines⟩ := Store.of_definitionsAt_ok hfile
  have hread : s.store.definitions =
      (Store.collectionsOf (Definitions.parse text)).map Collection.definition := by
    rw [hlines, Collection.definitions_collectionsOf]
  refine ⟨hstarted.path_eq, ⟨rfl, ?_, ?_⟩, fun d hd => ?_, fun _ => hfile,
    fun _ => ⟨hclean, hstarted.files_eq⟩⟩
  · rw [← Collection.fst_map_definition]
    change (s.store.definitions.map Prod.fst).Nodup
    rw [hread, Collection.fst_map_definition]
    exact Store.names_collectionsOf_nodup _
  · exact fun c hc => hderived c.forget (List.mem_map_of_mem hc)
  · rw [hread] at hd
    obtain ⟨c, hc, rfl⟩ := List.mem_map.1 hd
    exact (Store.savable_parse text).writable c hc

variable [LawfulFiles φ]

/-- **Every use keeps a session faithful.** -/
theorem Use.faithful (h : Use path a s) : Faithful path a s := by
  induction h with
  | opened hstart hfile => exact faithful_start hstart hfile
  | define name expression _ ih => exact ih.define name expression
  | delete name _ ih => exact ih.delete name
  | refreshResults _ ih => exact ih.refreshResults
  | flush _ ih => exact ih.flush.1
  | refresh _ ih => exact Effect.ensures_keeps_iff.1 ensures_refresh _ ih
  | meanwhile w _ hm hr ih =>
    obtain rfl := ih.path_eq
    exact ih.meanwhile hm hr

/-- **A session saves exactly what was defined.**  Its definitions are those that it started
with, with every definition and deletion that succeeded, under distinct names.  Whenever it is
not dirty, and after it was closed successfully, the file has them; and if no definition and no
deletion succeeded, nothing is written to the files, not at its end either. -/
theorem Use.saves (h : Use path a s) :
    s.store.definitions = a.definitions ∧ s.store.names.Nodup ∧
      (s.store.dirty = false → Store.definitionsAt s.files path = .ok s.store.definitions) ∧
      (∀ w', s.close = (.ok (), w') →
        Store.definitionsAt w'.files path = .ok s.store.definitions) ∧
      (a.changed = false → s.files = a.files ∧ s.close.2.files = a.files) := by
  have hs := h.faithful
  obtain ⟨hflushed, hsaved⟩ := hs.flush
  refine ⟨hs.definitions_eq, hs.records.nodup, fun hdirty => ?_, fun w' hclose => ?_,
    fun hchanged => ⟨(hs.untouched hchanged).2, (hflushed.untouched hchanged).2⟩⟩
  · rw [hs.definitions_eq]
    exact hs.clean hdirty
  · obtain ⟨hok, rfl⟩ := Prod.mk.inj hclose
    rw [hs.definitions_eq]
    exact hflushed.clean (hsaved hok)

end Use

/-! ## A session that saves in spite of a failure -/

/-- One collection is defined, and the daemon does not rescan. -/
def unscanned : World FileTree MemoryCache InMemoryDaemon where
  files := { nodes := [(["f"], .file (.text "c = all") 1)], clock := 1 }
  cache := {}
  daemon := { refuses := fun _ call => call == .update }
  now := 2

/-- The session that starts there. -/
def firstUse : Session FileTree MemoryCache InMemoryDaemon :=
  (start "f" unscanned).1.toOption.getD (prepared "f" (.ofPlaylists []) unscanned)

/-- It does start: the rescan is asked for by a refresh only. -/
theorem start_unscanned : start "f" unscanned = (.ok firstUse, firstUse.toWorld) := by
  have hstarted : (start "f" unscanned).1.toOption.isSome = true := rfl
  rcases hstart : start "f" unscanned with ⟨f | s, w'⟩
  · rw [hstart] at hstarted
    cases hstarted
  · have hs : firstUse = s := by
      rw [firstUse, hstart]
      rfl
    rw [hs, (start_ok hstart).1]

/-- The store that it starts with. -/
def firstStore : Store where
  collections := [{ Collection.ofText "c" "all" with result := some [] }]
  source := some ⟨"f", 1⟩

theorem store_firstUse : firstUse.store = firstStore := by decide +kernel

theorem path_firstUse : firstUse.path = "f" := rfl

/-- A collection is defined, another definition is rejected, and the first collection is
deleted. -/
def edited : Session FileTree MemoryCache InMemoryDaemon :=
  { unscanned with
    catalog := firstUse.catalog
    store := (((firstStore.define "d" "NOT c").2.define "d" "(").2.delete "c").2
    path := "f" }

/-- These edits are a use of the session that was started. -/
theorem use_edited : ∃ a, Use "f" a edited := by
  have hfile : Store.definitionsAt firstUse.files "f" = .ok firstUse.store.definitions := by
    decide +kernel
  have hm : Files.modified unscanned.files "f" = Files.modified firstUse.files "f" := rfl
  have hr : Files.read unscanned.files "f" = Files.read firstUse.files "f" := rfl
  have hstarted : Use "f" _ { firstUse with toWorld := unscanned } :=
    .meanwhile unscanned (.opened start_unscanned hfile) hm hr
  have hdefined := Use.define "d" "NOT c" hstarted
  have hrejected := Use.define "d" "(" hdefined
  have hdeleted := Use.delete "c" hrejected
  dsimp only at hdeleted
  rw [store_firstUse, path_firstUse] at hdeleted
  exact ⟨_, hdeleted⟩

/-- The daemon refuses a refresh, and the session is closed. -/
theorem edited_saves :
    ∃ a, Use "f" a (refresh.runOn edited).2 ∧ a.definitions = [("d", "NOT c")] ∧
      (refresh.runOn edited).1.toOption = none ∧ (refresh.runOn edited).2.store.dirty = true ∧
      (refresh.runOn edited).2.close.1 = .ok () ∧
      Store.definitionsAt (refresh.runOn edited).2.close.2.files "f" = .ok [("d", "NOT c")] := by
  obtain ⟨a, huse⟩ := use_edited
  have hclosed : (refresh.runOn edited).2.close.1 = .ok () := by decide +kernel
  have hdefinitions : (refresh.runOn edited).2.store.definitions = [("d", "NOT c")] := by
    decide +kernel
  obtain ⟨hsame, -, -, hsaved, -⟩ := huse.refresh.saves
  refine ⟨a, huse.refresh, hsame.symm.trans hdefinitions, rfl, by decide +kernel,
    hclosed, ?_⟩
  rw [← hdefinitions]
  exact hsaved _ (Prod.fst_eq_iff.1 hclosed)

end Session
end MusicCollections
