/-
# Stores as ordered maps

A store is an ordered map from names to texts, with what is derived from the texts in
step (`Store.InStep`).  Any number of stores work on files and share a cache, and `Pool`
carries, next to each of them, the ordered map that it is to be: operations on definitions
change one entry, a load that reads takes the lines of the file, and a feed from the cache
takes the map of the store whose snapshot it reads.  A store that is loaded again takes the
lines of its file whenever the file can be read (`Pool.maps_reload`).

What collections record (`Collection.Records`) is what makes a store be in step
(`Store.inStep_of_records`), and every step of a pool keeps it (`Pool.History.kept`): a
change of the collections changes the map, and a snapshot stands for what its store
recorded.
-/

import MusicCollections.Files.Tree
import MusicCollections.Proofs.Feed
import MusicCollections.Proofs.Operations.Records

namespace MusicCollections

/-! ## References -/

/-- A name stands in an expression. -/
inductive Expression.Mentions (name : String) : Expression → Prop
  | ref : Mentions name (.ref name)
  | complement {e} : Mentions name e → Mentions name (.complement e)
  | bothLeft {l r} : Mentions name l → Mentions name (.both l r)
  | bothRight {l r} : Mentions name r → Mentions name (.both l r)
  | eitherLeft {l r} : Mentions name l → Mentions name (.either l r)
  | eitherRight {l r} : Mentions name r → Mentions name (.either l r)
  | group {e} : Mentions name e → Mentions name (.group e)

namespace Expression

variable {name n : String} {l r e : Expression}

theorem mentions_ref : (ref n).Mentions name ↔ name = n :=
  ⟨fun | .ref => rfl, fun h => h ▸ .ref⟩

theorem mentions_complement : (complement e).Mentions name ↔ e.Mentions name :=
  ⟨fun | .complement h => h, .complement⟩

theorem mentions_group : (group e).Mentions name ↔ e.Mentions name :=
  ⟨fun | .group h => h, .group⟩

theorem mentions_both : (both l r).Mentions name ↔ l.Mentions name ∨ r.Mentions name :=
  ⟨fun | .bothLeft h => .inl h | .bothRight h => .inr h, fun h => h.elim .bothLeft .bothRight⟩

theorem mentions_either : (either l r).Mentions name ↔ l.Mentions name ∨ r.Mentions name :=
  ⟨fun | .eitherLeft h => .inl h | .eitherRight h => .inr h,
    fun h => h.elim .eitherLeft .eitherRight⟩

/-- The names in an expression are those that it mentions, without `all`. -/
theorem mem_namesIn_iff : name ∈ e.namesIn ↔ name ≠ allName ∧ e.Mentions name := by
  induction e with
  | ref n =>
    rw [namesIn, mentions_ref]
    split
    · rename_i hall
      refine iff_of_false List.not_mem_nil ?_
      rintro ⟨hname, rfl⟩
      exact hname hall
    · rename_i hall
      rw [List.mem_singleton]
      refine ⟨?_, And.right⟩
      rintro rfl
      exact ⟨hall, rfl⟩
  | filter tag pattern =>
    refine iff_of_false List.not_mem_nil ?_
    rintro ⟨-, ⟨⟩⟩
  | complement e ih => exact ih.trans (and_congr_right fun _ => mentions_complement.symm)
  | group e ih => exact ih.trans (and_congr_right fun _ => mentions_group.symm)
  | both l r ihl ihr => rw [namesIn, List.mem_append, ihl, ihr, mentions_both, and_or_left]
  | either l r ihl ihr => rw [namesIn, List.mem_append, ihl, ihr, mentions_either, and_or_left]

end Expression

/-- Inserting a name keeps a set of names sorted. -/
theorem NameSet.pairwise_insert {names : NameSet} (name : String)
    (h : names.Pairwise (· < ·)) : (NameSet.insert name names).Pairwise (· < ·) := by
  induction names with
  | nil => exact List.pairwise_singleton _ name
  | cons n rest ih =>
    obtain ⟨hn, hrest⟩ := List.pairwise_cons.1 h
    rw [insert]
    split
    · rename_i hlt
      refine List.pairwise_cons.2 ⟨fun x hx => ?_, h⟩
      rcases List.mem_cons.1 hx with rfl | hx
      · exact hlt
      · exact String.lt_trans hlt (hn x hx)
    · rename_i hge
      split
      · exact h
      · rename_i hne
        refine List.pairwise_cons.2 ⟨fun x hx => ?_, ih hrest⟩
        rcases mem_insert.1 hx with rfl | hx
        · exact Std.lt_of_le_of_ne (Std.not_lt.1 hge) (Ne.symm hne)
        · exact hn x hx

/-- A set of names is sorted, in whatever order they came. -/
theorem NameSet.pairwise_ofList (names : List String) : (ofList names).Pairwise (· < ·) := by
  induction names with
  | nil => exact .nil
  | cons name names ih => exact pairwise_insert name ih

namespace Store

/-- The store is an ordered map of these definitions, and what it derives from the texts is
in step. -/
structure InStep (store : Store) (definitions : List Definition) : Prop where
  definitions_eq : store.definitions = definitions
  names_nodup : store.names.Nodup
  tree_eq : ∀ c ∈ store.collections, c.tree = (parseExpression c.expression).toOption
  mem_dependencies : ∀ c ∈ store.collections, ∀ name, name ∈ c.dependencies ↔
    name ≠ Expression.allName ∧ ∃ e, c.tree = some e ∧ e.Mentions name
  dependencies_sorted : ∀ c ∈ store.collections, c.dependencies.Pairwise (· < ·)

/-- What records definitions is in step with them: the dependencies are those of the tree. -/
theorem inStep_of_records {store : Store} {definitions : List Definition}
    (h : Collection.Records store.collections definitions) : store.InStep definitions where
  definitions_eq := h.definitions_eq
  names_nodup := h.nodup
  tree_eq c hc := congrArg Collection.tree (h.derived c hc)
  mem_dependencies c hc name := by
    have htree : c.tree = (parseExpression c.expression).toOption :=
      congrArg Collection.tree (h.derived c hc)
    have hdependencies : c.dependencies = (c.tree.map Expression.references).getD [] :=
      htree ▸ congrArg Collection.dependencies (h.derived c hc)
    rw [hdependencies]
    cases c.tree with
    | none => exact ⟨nofun, nofun⟩
    | some e =>
      refine (NameSet.mem_ofList.trans Expression.mem_namesIn_iff).trans
        (and_congr_right fun _ => ⟨fun hmentions => ⟨e, rfl, hmentions⟩, ?_⟩)
      rintro ⟨_, ⟨⟩, hmentions⟩
      exact hmentions
  dependencies_sorted c hc := by
    have hdependencies : c.dependencies =
        (((parseExpression c.expression).toOption).map Expression.references).getD [] :=
      congrArg Collection.dependencies (h.derived c hc)
    rw [hdependencies]
    cases (parseExpression c.expression).toOption with
    | none => exact .nil
    | some e => exact NameSet.pairwise_ofList e.namesIn

end Store

/-! ## Stores that share a cache -/

/-- Stores that share a cache.  The files that they work on are those of each operation. -/
structure Pool (κ : Type) where
  stores : Nat → Store
  cache : κ
  /-- The ordered maps that the stores are to be.  Nothing reads them. -/
  maps : Nat → List Definition
  /-- The snapshot in the cache, and the map of the store that wrote it.  Nothing reads it. -/
  cached : Option (Json × List Definition)
  /-- All snapshots that were written.  Nothing reads them. -/
  written : List (Json × List Definition)

namespace Pool

variable {φ κ : Type} [Files φ] [Cache κ]

/-- What one of the stores does next. -/
inductive Op (φ : Type) where
  | edit (i : Nat) (op : Store.Op φ)
  | feed (i : Nat) (now : Time) (files : φ) (path : Path) (force : Bool)
  | updateCache (i : Nat) (now : Time) (catalog : Catalog)

/-- Gives a store and its map their next states. -/
def put (s : Pool κ) (i : Nat) (store : Store) (definitions : List Definition) : Pool κ :=
  { s with
    stores := fun j => if j = i then store else s.stores j
    maps := fun j => if j = i then definitions else s.maps j }

/-- Notes that a store wrote its snapshot. -/
def note (s : Pool κ) (i : Nat) : Pool κ :=
  { s with
    cached := some ((s.stores i).snapshot, s.maps i)
    written := ((s.stores i).snapshot, s.maps i) :: s.written }

/-- The map that a feed leaves, given how it ends. -/
def fed (s : Pool κ) (i : Nat) (files : φ) (path : Path) :
    Except StoreError FeedOutcome → List Definition
  | .ok .cache => (s.cached.map Prod.snd).getD []
  | .ok .file => Definitions.settled (Store.linesAt files path)
  | .error _ => s.maps i

/-- The pool after an operation, with the map of what the store says that it did. -/
def perform (s : Pool κ) : Op φ → Pool κ
  | .edit i op =>
    s.put i ((s.stores i).perform op) ((op.change (s.stores i)).recorded (s.maps i))
  | .feed i now files path force =>
    let (outcome, store, cache) := (s.stores i).feed now files path force s.cache
    let next := { s with cache }.put i store (s.fed i files path outcome)
    match outcome with
    | .ok .file => next.note i
    | _ => next
  | .updateCache i now catalog =>
    let (store, cache) := (s.stores i).updateCache now catalog s.cache
    ({ s with cache }.put i store (s.maps i)).note i

/-- The map of a store that came from a file takes the lines of the file when the store is
loaded again, as soon as the file can be read: such a load is never skipped. -/
theorem maps_reload {s : Pool κ} {i : Nat} {files : φ} {source : Source} {modified : Time}
    {text : String} (hsource : (s.stores i).source = some source)
    (hm : Files.modified files source.path = .ok modified)
    (ht : Files.readText files source.path = .ok text) :
    (s.perform (.edit i (.reload files))).maps i =
      Definitions.settled (Definitions.parse text) := by
  have hchange : (Store.Op.reload files).change (s.stores i) = .read (Definitions.parse text) := by
    rw [Store.Op.change, hsource, Store.reload_of_readText hsource hm ht]
    simp only [Store.linesAt, ht]
  simp only [perform, put, if_true, hchange, Store.Change.recorded]

/-- What can come about, beginning with empty stores and no snapshot. -/
inductive History (φ : Type) [Files φ] : Pool κ → Prop
  | start (cache : κ) : (Cache.entry Cache.Key.collections cache).1 = none →
      History φ { stores := fun _ => .empty, cache, maps := fun _ => [],
                  cached := none, written := [] }
  | step {s : Pool κ} (op : Op φ) : History φ s → History φ (s.perform op)
  /-- The cache is opened anew.  A write may have been lost, so it has no snapshot or any
  one that was written. -/
  | reopen {s : Pool κ} (cache : κ) (cached : Option (Json × List Definition)) :
      History φ s → (∀ snapshot, cached = some snapshot → snapshot ∈ s.written) →
      (Cache.entry Cache.Key.collections cache).1 = cached.map Prod.fst →
      History φ { s with cache, cached }

/-- The stores record their maps, and so do those that the snapshots were taken of. -/
structure Kept (s : Pool κ) : Prop where
  records : ∀ i, Collection.Records (s.stores i).collections (s.maps i)
  value : (Cache.entry Cache.Key.collections s.cache).1 = s.cached.map Prod.fst
  cached : ∀ snapshot, s.cached = some snapshot → snapshot ∈ s.written
  written : ∀ snapshot ∈ s.written, ∃ store : Store, snapshot.1 = store.snapshot ∧
    Collection.Records store.collections snapshot.2

namespace Kept

variable {s : Pool κ} {i : Nat} {store : Store} {definitions : List Definition}

/-- A store that records its map takes the place of one. -/
theorem put (h : s.Kept) (hstore : Collection.Records store.collections definitions) :
    (s.put i store definitions).Kept where
  records j := by
    by_cases hj : j = i
    · simpa [Pool.put, hj] using hstore
    · simpa [Pool.put, hj] using h.records j
  value := h.value
  cached := h.cached
  written := h.written

/-- A cache that has the same snapshot does as well. -/
theorem recached (h : s.Kept) {cache : κ}
    (hcache : Cache.entry Cache.Key.collections cache = Cache.entry Cache.Key.collections s.cache) :
    Kept { s with cache } where
  records := h.records
  value := by rw [hcache, h.value]
  cached := h.cached
  written := h.written

/-- A store writes its snapshot. -/
theorem noted (h : s.Kept) (now : Time) {cache : κ}
    (hstore : Collection.Records store.collections definitions)
    (hcache : Cache.entry Cache.Key.collections cache = (some store.snapshot, some now)) :
    (({ s with cache }.put i store definitions).note i).Kept where
  records := by
    intro j
    by_cases hj : j = i
    · simpa [Pool.put, note, hj] using hstore
    · simpa [Pool.put, note, hj] using h.records j
  value := by simp [Pool.put, note, hcache]
  cached := by
    rintro snapshot ⟨⟩
    exact List.mem_cons_self
  written := by
    intro snapshot hmem
    rcases List.mem_cons.1 hmem with rfl | hmem
    · exact ⟨store, by simp [Pool.put], by simpa [Pool.put] using hstore⟩
    · exact h.written snapshot hmem

/-- The entries in the cache are those of a store that recorded the map noted. -/
theorem restored (h : s.Kept) {entries : List CachedCollection}
    (hvalue : Cache.valueAs (Json.list? CachedCollection.ofJson?) Cache.Key.collections s.cache =
      some entries) :
    Collection.Records (entries.map CachedCollection.toCollection)
      ((s.cached.map Prod.snd).getD []) := by
  rw [Cache.valueAs, h.value] at hvalue
  cases hcached : s.cached with
  | none =>
    rw [hcached] at hvalue
    cases hvalue
  | some snapshot =>
    obtain ⟨store, hsnapshot, hstore⟩ := h.written snapshot (h.cached snapshot hcached)
    rw [hcached, Option.map_some, Option.bind_some, hsnapshot, Store.list?_snapshot] at hvalue
    obtain rfl := Option.some.inj hvalue
    exact hstore.restored

variable [LawfulCache κ]

/-- A feed keeps the pool, wherever the definitions come from. -/
theorem feed (h : s.Kept) (i : Nat) (now : Time) (files : φ) (path : Path) (force : Bool) :
    (s.perform (.feed i now files path force)).Kept := by
  rcases hfed : (s.stores i).feed now files path force s.cache with ⟨outcome, store, cache⟩
  simp only [perform, hfed]
  cases Store.feed_cases hfed with
  | unreadable e hsame hcache => exact (h.recached (hcache _)).put (hsame ▸ h.records i)
  | cache hfrom hcache =>
    refine (h.recached (hcache _)).put ?_
    rw [hfrom.store_eq]
    exact h.restored hfrom.value
  | file hfrom hcache =>
    refine h.noted now ?_ (by rw [hcache, if_pos rfl])
    rw [fed, Store.linesAt, hfrom.text_eq, hfrom.store_eq]
    exact .collectionsOf _

end Kept

variable [LawfulCache κ]

/-- Every step keeps the pool, and so does a cache that another process wrote before. -/
theorem History.kept {s : Pool κ} (h : History φ s) : s.Kept := by
  induction h with
  | start cache hcache => exact ⟨fun _ => .nil, hcache, nofun, nofun⟩
  | @step s op _ ih =>
    cases op with
    | edit i op =>
      refine ih.put ?_
      rw [Store.collections_perform]
      exact Store.Change.records_applied (ih.records i) _
    | feed i now files path force => exact ih.feed i now files path force
    | updateCache i now catalog =>
      refine ih.noted now ?_ (Cache.entry_write_self now _ _ s.cache)
      exact Store.Change.records_applied (ih.records i) (.refreshed catalog)
  | reopen cache cached _ hcached hvalue ih => exact ⟨ih.records, hvalue, hcached, ih.written⟩

/-- **Stores are ordered maps.**  Whatever stores do with files and a shared cache, each is
the ordered map of its definitions, under distinct names, and the tree and the dependencies
of each collection are those of its text. -/
theorem History.inStep {s : Pool κ} (h : History φ s) (i : Nat) :
    (s.stores i).InStep (s.maps i) :=
  Store.inStep_of_records (h.kept.records i)

/-- A file in which a name is defined twice. -/
def twiceDefined : FileTree where
  nodes := [(["notes"], .file (.text "a = all\nb = NOT c\na = ((\n") 1)]
  clock := 2

/-- One store reads the file, another one takes its snapshot from the cache, deletes a
collection and defines two, of which one is rejected. -/
def handedOver : Pool MemoryCache :=
  (((((start : Pool MemoryCache).perform (.feed 0 3 twiceDefined "notes" false)).perform
    (.feed 1 4 twiceDefined "notes" false)).perform
    (.edit 1 (.delete "a" : Store.Op FileTree))).perform
    (.edit 1 (.define "c" "b" : Store.Op FileTree))).perform
    (.edit 1 (.define "d" " b OR all " : Store.Op FileTree))
where
  start := { stores := fun _ => .empty, cache := {}, maps := fun _ => [],
             cached := none, written := [] }

/-- Both stores are in step: a later line counts, a text that is no expression has no
dependencies, and the definition that was refused left nothing. -/
theorem handedOver_inStep :
    History FileTree handedOver ∧ handedOver.maps 0 = [("a", "(("), ("b", "NOT c")] ∧
      handedOver.maps 1 = [("b", "NOT c"), ("d", "b OR all")] ∧
      (handedOver.stores 0).InStep [("a", "(("), ("b", "NOT c")] ∧
      (handedOver.stores 1).InStep [("b", "NOT c"), ("d", "b OR all")] := by
  have hhistory : History FileTree handedOver :=
    .step _ (.step _ (.step _ (.step _ (.step _ (.start _ rfl)))))
  have hfirst : handedOver.maps 0 = [("a", "(("), ("b", "NOT c")] := by decide +kernel
  have hsecond : handedOver.maps 1 = [("b", "NOT c"), ("d", "b OR all")] := by decide +kernel
  exact ⟨hhistory, hfirst, hsecond, hfirst ▸ hhistory.inStep 0, hsecond ▸ hhistory.inStep 1⟩

end Pool
end MusicCollections
