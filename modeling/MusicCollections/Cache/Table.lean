/-
# A cache over a database table

A table keeps rows of a key, a payload and a time in milliseconds.  It may be
changed or dropped by others, and reading and writing it may fail; both failures
are silent here, a failed read being no row and a failed write no change.  What is
remembered of a write has the precision of the table.

The cache looks at the table once for each key and remembers what it found,
nothing included.  From then on the key changes only by writes through this
cache, whether or not the table took them.
-/

import MusicCollections.Cache.Memory
import MusicCollections.Json.Reader

namespace MusicCollections

/-- What the system clock shows: nanoseconds since 1970, negative before. -/
abbrev Instant := Int

namespace Instant

/-- The greatest integer of 64 bits. -/
def maxMillis : Int := 9223372036854775807

/-- The milliseconds that a table keeps of an instant: none of one before 1970, and no more
than 64 bits hold. -/
def toMillis (instant : Instant) : Int :=
  if instant < 0 then 0
  else if maxMillis < instant / 1000000 then maxMillis
  else instant / 1000000

/-- The time of a number of milliseconds; one before 1970 counts as 1970. -/
def ofMillis (millis : Int) : Time := millis.toNat

/-- A count of milliseconds is no negative number. -/
theorem toMillis_nonneg (instant : Instant) : 0 ≤ toMillis instant := by
  unfold toMillis
  split
  · exact Int.le_refl 0
  · rename_i h
    split
    · decide
    · exact Int.ediv_nonneg (Int.not_lt.1 h) (by decide)

/-- Milliseconds that a table keeps are the time that they stand for. -/
theorem ofMillis_toMillis (instant : Instant) :
    (ofMillis (toMillis instant) : Int) = toMillis instant :=
  Int.toNat_of_nonneg (toMillis_nonneg instant)

end Instant

/-- What a row holds, as far as it can be read. -/
structure Row where
  payload : String
  modified : Int
  deriving DecidableEq, Repr

/-- The operations of a table whose state is a `τ`. -/
class Table (τ : Type) where
  /-- Makes the table if it is not there. -/
  create : τ → τ
  /-- The row of a key, if there is one that can be read. -/
  select : String → τ → Option Row × τ
  /-- Puts the row of a key; `none` if that fails. -/
  upsert : String → Row → τ → Option τ

/-- A cache over a table. -/
structure TableCache (τ : Type) where
  table : τ
  /-- What was found or written under each key that was used. -/
  memo : List (String × Option CacheEntry) := []

namespace TableCache

variable {τ : Type} [Table τ]

/-- The entry of a row; a payload that is not JSON is none. -/
def entryOfRow (row : Row) : Option CacheEntry :=
  match Json.parse row.payload with
  | .ok value => some ⟨value, Instant.ofMillis row.modified⟩
  | .error _ => none

/-- The row of an entry. -/
def rowOfEntry (entry : CacheEntry) : Row := ⟨entry.value.render, entry.written⟩

/-- The entry of a key, from the table at its first use. -/
def entry (key : String) (cache : TableCache τ) : Option CacheEntry × TableCache τ :=
  match cache.memo.lookup key with
  | some found => (found, cache)
  | none =>
    let (row, table) := Table.select key cache.table
    let found := row.bind entryOfRow
    (found, { table, memo := (key, found) :: cache.memo })

/-- Writes an entry to the table, and remembers it in any case. -/
def write (now : Time) (key : String) (value : Json) (cache : TableCache τ) : TableCache τ :=
  let entry := ⟨value, now⟩
  { table := (Table.upsert key (rowOfEntry entry) cache.table).getD cache.table
    memo := (key, some entry) :: cache.memo }

/-- Writes an entry as of an instant. -/
def writeAt (now : Instant) (key : String) (value : Json) (cache : TableCache τ) :
    TableCache τ :=
  let millis := Instant.toMillis now
  { table := (Table.upsert key ⟨value.render, millis⟩ cache.table).getD cache.table
    memo := (key, some ⟨value, Instant.ofMillis millis⟩) :: cache.memo }

/-- An instant counts by the time of its milliseconds. -/
theorem writeAt_eq_write (now : Instant) (key : String) (value : Json) (cache : TableCache τ) :
    cache.writeAt now key value =
      cache.write (Instant.ofMillis (Instant.toMillis now)) key value := by
  rw [write, rowOfEntry, Instant.ofMillis_toMillis]
  rfl

instance : Cache (TableCache τ) where
  contains key cache :=
    let (entry, cache) := cache.entry key
    (entry.isSome, cache)
  read key cache :=
    let (entry, cache) := cache.entry key
    (entry.map (·.value), cache)
  write := write
  lastModified key cache :=
    let (entry, cache) := cache.entry key
    (entry.map (·.written), cache)

end TableCache

end MusicCollections
