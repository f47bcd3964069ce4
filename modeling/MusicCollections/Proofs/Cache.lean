/-
# What a cache keeps

Reading may change the state of a cache but not what it has, and a write changes
what it has under one key.  `LawfulCache` says so of what a cache has under a key
(`Cache.entry`), whatever its state is.  The cache in memory is lawful, and a cache
over a table is if the table is; a table of rows is.
-/

import MusicCollections.Cache.Rows

namespace MusicCollections

/-- The value that a cache has under a key and when it was written. -/
def Cache.entry {κ : Type} [Cache κ] (key : String) (cache : κ) : Option Json × Option Time :=
  ((Cache.read key cache).1, (Cache.lastModified key cache).1)

/-- A cache that keeps what was written until the next write. -/
class LawfulCache (κ : Type) [Cache κ] : Prop where
  entry_read (key other : String) (cache : κ) :
    Cache.entry other (Cache.read key cache).2 = Cache.entry other cache
  entry_lastModified (key other : String) (cache : κ) :
    Cache.entry other (Cache.lastModified key cache).2 = Cache.entry other cache
  entry_write (now : Time) (key other : String) (value : Json) (cache : κ) :
    Cache.entry other (Cache.write now key value cache) =
      if other = key then (some value, some now) else Cache.entry other cache

/-- A table that returns what it took.  A row that was put is selected until it is put anew,
whatever else is put, and neither looking nor making a table that is there changes anything. -/
class LawfulTable (τ : Type) [Table τ] : Prop where
  select_snd (key : String) (table : τ) : (Table.select key table).2 = table
  select_create (key : String) (table : τ) :
    (Table.select key (Table.create table)).1 = (Table.select key table).1
  select_upsert_self {key : String} {row : Row} {table left : τ}
    (h : Table.upsert key row table = some left) : (Table.select key left).1 = some row
  select_upsert_of_ne {key other : String} {row : Row} {table left : τ} (hne : other ≠ key)
    (h : Table.upsert key row table = some left) :
    (Table.select other left).1 = (Table.select other table).1

namespace Cache

variable {κ α : Type} [Cache κ]

/-- The value under a key, if it has the shape `shape?`. -/
def valueAs (shape? : Json → Option α) (key : String) (cache : κ) : Option α :=
  (Cache.entry key cache).1.bind shape?

/-- A typed read gives the value that the cache has, if it has the shape. -/
theorem readAs_fst (shape? : Json → Option α) (key : String) (cache : κ) :
    (Cache.readAs shape? key cache).1 = Cache.valueAs shape? key cache := rfl

variable [LawfulCache κ]

/-- A typed read changes no entry. -/
theorem entry_readAs (shape? : Json → Option α) (key other : String) (cache : κ) :
    Cache.entry other (Cache.readAs shape? key cache).2 = Cache.entry other cache :=
  LawfulCache.entry_read key other cache

/-- What was written is there, with the time at which it was. -/
theorem entry_write_self (now : Time) (key : String) (value : Json) (cache : κ) :
    Cache.entry key (Cache.write now key value cache) = (some value, some now) := by
  rw [LawfulCache.entry_write, if_pos rfl]

/-- A write changes no other entry. -/
theorem entry_write_of_ne {key other : String} (h : other ≠ key) (now : Time) (value : Json)
    (cache : κ) :
    Cache.entry other (Cache.write now key value cache) = Cache.entry other cache := by
  rw [LawfulCache.entry_write, if_neg h]

/-- What became of a cache that was looked at, and not written to. -/
inductive LookedAt {κ : Type} [Cache κ] (cache : κ) : κ → Prop
  | refl : LookedAt cache cache
  | read {looked : κ} (key : String) : LookedAt cache looked →
      LookedAt cache (Cache.read key looked).2
  | lastModified {looked : κ} (key : String) : LookedAt cache looked →
      LookedAt cache (Cache.lastModified key looked).2

/-- **Looking at a cache leaves what it has.** -/
theorem LookedAt.entry_eq {cache looked : κ} (h : LookedAt cache looked) (key : String) :
    Cache.entry key looked = Cache.entry key cache := by
  induction h with
  | refl => rfl
  | read other _ ih => rw [LawfulCache.entry_read, ih]
  | lastModified other _ ih => rw [LawfulCache.entry_lastModified, ih]

end Cache

/-- A pair of one key keeps what is under the others. -/
theorem lookup_cons_of_ne {κ α : Type} [BEq κ] [LawfulBEq κ] {key other : κ} (h : other ≠ key)
    (value : α) (pairs : List (κ × α)) :
    ((key, value) :: pairs).lookup other = pairs.lookup other := by
  rw [List.lookup_cons, beq_eq_false_iff_ne.2 h]

/-- Leaving out one key keeps what is under the others. -/
theorem lookup_filter_of_ne {κ α : Type} [BEq κ] [LawfulBEq κ] {key other : κ} (h : other ≠ key)
    (pairs : List (κ × α)) :
    (pairs.filter (·.1 != key)).lookup other = pairs.lookup other := by
  induction pairs with
  | nil => rfl
  | cons pair rest ih =>
    obtain ⟨k, value⟩ := pair
    by_cases hk : k = key
    · subst hk
      rw [List.filter_cons_of_neg (by simp), lookup_cons_of_ne h]
      exact ih
    · simp only [List.filter_cons, bne_iff_ne.2 hk, if_true, List.lookup_cons]
      rw [ih]

/-! ## The cache in memory -/

namespace MemoryCache

/-- An entry that is put leaves the others. -/
theorem get?_put_of_ne {key other : String} (h : other ≠ key) (entry : CacheEntry)
    (cache : MemoryCache) : (cache.put key entry).get? other = cache.get? other := by
  rw [put, get?, get?, lookup_cons_of_ne h]
  exact lookup_filter_of_ne h cache.entries

/-- What a cache in memory has under a key is the entry that it keeps. -/
theorem entry_eq (key : String) (cache : MemoryCache) :
    Cache.entry key cache =
      ((cache.get? key).map CacheEntry.value, (cache.get? key).map CacheEntry.written) := rfl

instance : LawfulCache MemoryCache where
  entry_read _ _ _ := rfl
  entry_lastModified _ _ _ := rfl
  entry_write now key other value cache := by
    change Cache.entry other (cache.put key ⟨value, now⟩) = _
    rw [entry_eq]
    by_cases h : other = key
    · subst h
      rw [get?_put_self, if_pos rfl]
      rfl
    · rw [get?_put_of_ne h, if_neg h, entry_eq]

end MemoryCache

/-! ## The cache over a table -/

namespace TableCache

variable {τ : Type} [Table τ]

/-- What a cache over a table has under a key is the entry that it finds. -/
theorem entry_eq (key : String) (cache : TableCache τ) :
    Cache.entry key cache = ((cache.entry key).1.map CacheEntry.value,
      (cache.entry key).1.map CacheEntry.written) := rfl

/-- What is remembered is what is had. -/
theorem entry_of_lookup {key : String} {found : Option CacheEntry} {cache : TableCache τ}
    (h : cache.memo.lookup key = some found) : cache.entry key = (found, cache) := by
  rw [entry, h]

/-- A key that was not read before is looked up in the table, and what is found is
remembered. -/
theorem entry_of_lookup_none {key : String} {cache : TableCache τ}
    (h : cache.memo.lookup key = none) :
    cache.entry key = ((Table.select key cache.table).1.bind entryOfRow,
      { table := (Table.select key cache.table).2
        memo := (key, (Table.select key cache.table).1.bind entryOfRow) :: cache.memo }) := by
  rw [entry, h]

/-- Remembering something of one key leaves the others as they are, if the table has
the same row of them. -/
theorem entry_cons {key other : String} (h : other ≠ key) (found : Option CacheEntry)
    {table : τ} {cache : TableCache τ}
    (ht : (Table.select other table).1 = (Table.select other cache.table).1) :
    (entry other { table, memo := (key, found) :: cache.memo }).1 = (cache.entry other).1 := by
  have hlookup : ((key, found) :: cache.memo).lookup other = cache.memo.lookup other :=
    lookup_cons_of_ne h found cache.memo
  cases hmemo : cache.memo.lookup other with
  | some was =>
    rw [entry_of_lookup hmemo, entry_of_lookup (hlookup.trans hmemo)]
  | none =>
    rw [entry_of_lookup_none hmemo, entry_of_lookup_none (hlookup.trans hmemo), ht]

variable [LawfulTable τ]

/-- Putting a row keeps the rows of other keys, whether or not the table takes it. -/
theorem select_upsert_getD {key other : String} (h : other ≠ key) (row : Row) (table : τ) :
    (Table.select other ((Table.upsert key row table).getD table)).1 =
      (Table.select other table).1 := by
  cases hput : Table.upsert key row table with
  | none => rfl
  | some left => exact LawfulTable.select_upsert_of_ne h hput

/-- Reading one key changes no entry. -/
theorem entry_entry (key other : String) (cache : TableCache τ) :
    ((cache.entry key).2.entry other).1 = (cache.entry other).1 := by
  cases hmemo : cache.memo.lookup key with
  | some found => rw [entry_of_lookup hmemo]
  | none =>
    by_cases h : other = key
    · subst h
      rw [entry_of_lookup_none hmemo]
      exact congrArg Prod.fst (entry_of_lookup (List.lookup_cons_self ..))
    · rw [entry_of_lookup_none hmemo]
      exact entry_cons h _ (by rw [LawfulTable.select_snd])

instance : LawfulCache (TableCache τ) where
  entry_read key other cache := by
    change Cache.entry other (cache.entry key).2 = _
    rw [entry_eq, entry_eq, entry_entry key other cache]
  entry_lastModified key other cache := by
    change Cache.entry other (cache.entry key).2 = _
    rw [entry_eq, entry_eq, entry_entry key other cache]
  entry_write now key other value cache := by
    change Cache.entry other (cache.write now key value) = _
    rw [entry_eq]
    by_cases h : other = key
    · subst h
      have hwritten : (cache.write now other value).memo.lookup other = some (some ⟨value, now⟩) :=
        List.lookup_cons_self ..
      rw [entry_of_lookup hwritten, if_pos rfl]
      rfl
    · have hkept : ((cache.write now key value).entry other).1 = (cache.entry other).1 :=
        entry_cons h _ (select_upsert_getD h _ cache.table)
      rw [hkept, if_neg h, entry_eq]

end TableCache

/-! ## Rows -/

namespace Rows

variable {key other : String} {payload modified : Cell} {row : Row} {table left : Rows}

/-- The cells of the row of a key. -/
def cells? (key : String) (table : Rows) : Option (Cell × Cell) :=
  table.rows.bind (·.lookup key)

/-- **A row is selected if it has a text and an integer.** -/
theorem select_eq_some_iff :
    (Table.select key table).1 = some row ↔
      table.cells? key = some (.text row.payload, .integer row.modified) := by
  obtain ⟨payload, modified⟩ := row
  rw [cells?]
  simp only [Table.select]
  split
  · rename_i hcells
    simp [hcells]
  · rename_i hother
    simpa using hother payload modified

/-- What is selected is a matter of the cells. -/
theorem select_congr (h : table.cells? key = left.cells? key) :
    (Table.select key table).1 = (Table.select key left).1 := by
  refine Option.ext fun row => ?_
  rw [select_eq_some_iff, select_eq_some_iff, h]

/-- A row that was put is there, in the form in which its columns hold it. -/
theorem cells?_put_self (h : table.put key payload modified = some left) :
    left.cells? key = some (payload.inTextColumn, modified.inIntegerColumn) := by
  unfold put at h
  split at h
  · cases h
  split at h
  · cases h
  · obtain rfl := Option.some.inj h
    rw [cells?, Option.bind_some, List.lookup_cons_self]

/-- Putting a row keeps the rows of other keys. -/
theorem cells?_put_of_ne (hne : other ≠ key) (h : table.put key payload modified = some left) :
    left.cells? other = table.cells? other := by
  rw [put] at h
  cases hrows : table.rows with
  | none =>
    rw [hrows] at h
    cases h
  | some rows =>
    rw [hrows] at h
    simp only at h
    split at h
    · cases h
    · obtain rfl := Option.some.inj h
      rw [cells?, cells?, hrows, Option.bind_some, Option.bind_some, lookup_cons_of_ne hne]
      exact lookup_filter_of_ne hne rows

/-- A table that is made has no rows. -/
theorem cells?_create (key : String) (table : Rows) :
    table.create.cells? key = table.cells? key := by
  obtain ⟨_ | rows⟩ := table <;> rfl

instance : LawfulTable Rows where
  select_snd key table := by
    simp only [Table.select]
    split <;> rfl
  select_create key table := select_congr (cells?_create key table)
  select_upsert_self h := select_eq_some_iff.2 (cells?_put_self h)
  select_upsert_of_ne hne h := select_congr (cells?_put_of_ne hne h)

end Rows

end MusicCollections
