/-
# One map over a table that others change

A cache over a table is used while others change the table, and while the table may refuse
any statement (`Database`).  It answers as a plain map would (`OneMap`) that was there from
the beginning: under each key the map has what the table shows when the key is first used
(`firstFound`), and nothing but a write through the cache changes it.  The table is any that
gives back what it took (`LawfulTable`); a table of rows is one.

What the map has at some moment is what the cache remembers, and for the other keys what the
rest of the run finds (`TableCache.view`).  One step of the cache is one step of the map
(`next_view`), and so is a run (`follow_view`).  A row that was written and left alone is found
again by a cache that is opened later (`behaves_as_one_map`).
-/

import Mathlib.Logic.Function.Basic
import MusicCollections.Proofs.Cache

namespace MusicCollections

/-! ## Tables that others change -/

/-- The entry of a key in a table. -/
def Table.entryAt? {τ : Type} [Table τ] (key : String) (table : τ) : Option CacheEntry :=
  (Table.select key table).1.bind TableCache.entryOfRow

/-- **A row is an entry if its payload is a text of JSON**; any other is absent. -/
theorem Table.entryAt?_eq_some_iff {τ : Type} [Table τ] {key : String} {table : τ}
    {entry : CacheEntry} :
    Table.entryAt? key table = some entry ↔ ∃ payload modified,
      (Table.select key table).1 = some ⟨payload, modified⟩ ∧
      Json.parse payload = .ok entry.value ∧ entry.written = Instant.ofMillis modified := by
  have hrow : ∀ row : Row, TableCache.entryOfRow row = some entry ↔
      Json.parse row.payload = .ok entry.value ∧
        entry.written = Instant.ofMillis row.modified := by
    intro row
    obtain ⟨value, written⟩ := entry
    unfold TableCache.entryOfRow
    split
    · rename_i found hfound
      rw [hfound, Option.some.injEq, CacheEntry.mk.injEq, Except.ok.injEq]
      exact and_congr_right fun _ => eq_comm
    · rename_i e hfailed
      rw [hfailed]
      exact ⟨nofun, fun h => nomatch h.1⟩
  rw [entryAt?, Option.bind_eq_some_iff]
  constructor
  · rintro ⟨⟨payload, modified⟩, hselect, h⟩
    exact ⟨payload, modified, hselect, (hrow ⟨payload, modified⟩).1 h⟩
  · rintro ⟨payload, modified, hselect, h⟩
    exact ⟨⟨payload, modified⟩, hselect, (hrow ⟨payload, modified⟩).2 h⟩

/-- A table with other users, and whether it refuses the next statement. -/
structure Database (τ : Type) where
  rows : τ
  refuses : Bool := false

instance {τ : Type} [Table τ] : Table (Database τ) where
  create database := { database with rows := Table.create database.rows }
  select key database :=
    if database.refuses then (none, database)
    else
      let (row, rows) := Table.select key database.rows
      (row, { database with rows })
  upsert key row database :=
    if database.refuses then none
    else (Table.upsert key row database.rows).map fun rows => { database with rows }

namespace TableCache

/-- What there is to be known of a key. -/
inductive Look where
  | contains
  | read
  | lastModified

/-- A call of the cache, with the instant of the clock at which something is written. -/
inductive Call where
  | look (kind : Look) (key : String)
  | write (now : Instant) (key : String) (value : Json)

inductive Answer where
  | present (there : Bool)
  | value (found : Option Json)
  | time (found : Option Time)
  | written

/-- What happens to a cache over a table. -/
inductive Event (τ : Type) where
  /-- A call, and whether the table refuses its statement. -/
  | call (refused : Bool) (call : Call)
  /-- Others leave the table with these rows. -/
  | outside (rows : τ)

def Call.key : Call → String
  | .look _ key => key
  | .write _ key _ => key

/-- The answer of an entry. -/
def Look.answer : Look → Option CacheEntry → Answer
  | .contains, entry => .present entry.isSome
  | .read, entry => .value (entry.map CacheEntry.value)
  | .lastModified, entry => .time (entry.map CacheEntry.written)

/-- Whether an answer says that there is an entry. -/
def Answer.shows : Answer → Bool
  | .present there => there
  | .value found => found.isSome
  | .time found => found.isSome
  | .written => true

variable {τ : Type}

/-- Whether the key is written through the cache. -/
def Event.Writes (key : String) : Event τ → Prop
  | .call _ (.write _ written _) => written = key
  | _ => False

/-- A map that nothing but writes through the cache changes. -/
abbrev OneMap := String → Option CacheEntry

/-- The answer of the map to an event, if it is a call, and the map after it. -/
def OneMap.next (map : OneMap) : Event τ → Option Answer × OneMap
  | .call _ (.look kind key) => (some (kind.answer (map key)), map)
  | .call _ (.write now key value) =>
    (some .written,
      Function.update map key (some ⟨value, Instant.ofMillis (Instant.toMillis now)⟩))
  | .outside _ => (none, map)

/-- The answers to events one after the other, and what is left in the end. -/
def follow {σ : Type} (next : σ → Event τ → Option Answer × σ) (state : σ) :
    List (Event τ) → List (Option Answer) × σ
  | [] => ([], state)
  | event :: rest =>
    ((next state event).1 :: (follow next (next state event).2 rest).1,
      (follow next (next state event).2 rest).2)

/-- Events one after the other end where the later ones do. -/
theorem follow_append {σ : Type} (step : σ → Event τ → Option Answer × σ) (state : σ)
    (before after : List (Event τ)) :
    (follow step state (before ++ after)).2 =
      (follow step (follow step state before).2 after).2 := by
  induction before generalizing state with
  | nil => rfl
  | cons event rest ih => exact ih (step state event).2

variable [Table τ]

/-- The rows after an event. -/
def Event.left : Event τ → τ → τ
  | .call _ (.look _ _), rows => rows
  | .call refused (.write now key value), rows =>
    if refused then rows
    else (Table.upsert key ⟨value.render, Instant.toMillis now⟩ rows).getD rows
  | .outside rows, _ => rows

/-- A cache that was just opened; the table is made if it is missing. -/
def opened (rows : τ) : TableCache (Database τ) := { table := Table.create { rows } }

/-- The answer to a call, and the cache after it.  What is written counts as written at the time
of the clock in whole milliseconds. -/
def perform (cache : TableCache (Database τ)) : Call → Answer × TableCache (Database τ)
  | .look .contains key =>
    let (there, cache) := Cache.contains key cache
    (.present there, cache)
  | .look .read key =>
    let (found, cache) := Cache.read key cache
    (.value found, cache)
  | .look .lastModified key =>
    let (found, cache) := Cache.lastModified key cache
    (.time found, cache)
  | .write now key value =>
    (.written, Cache.write (Instant.ofMillis (Instant.toMillis now)) key value cache)

/-- The answer to an event, if it is a call, and the cache after it. -/
def next (cache : TableCache (Database τ)) : Event τ → Option Answer × TableCache (Database τ)
  | .call refused call =>
    let (answer, cache) := perform { cache with table.refuses := refused } call
    (some answer, cache)
  | .outside rows => (none, { cache with table.rows := rows })

/-- What the table shows of a key when it is first used, which is nothing if it refuses. -/
def firstFound (key : String) (rows : τ) : List (Event τ) → Option CacheEntry
  | [] => none
  | .call refused call :: rest =>
    if call.key = key then if refused then none else Table.entryAt? key rows
    else firstFound key ((Event.call refused call).left rows) rest
  | .outside rows :: rest => firstFound key rows rest

/-- The map that a cache stands for, given the events to come. -/
def view (cache : TableCache (Database τ)) (events : List (Event τ)) : OneMap :=
  fun key => (cache.memo.lookup key).getD (firstFound key cache.table.rows events)

variable {cache : TableCache (Database τ)} {key other : String} {event : Event τ}

/-! ## One step -/

/-- Looks of all kinds give what they show of one entry. -/
theorem perform_look (kind : Look) (key : String) (cache : TableCache (Database τ)) :
    cache.perform (.look kind key) = (kind.answer (cache.entry key).1, (cache.entry key).2) := by
  cases kind <;> rfl

/-- What is written is the row of the instant. -/
theorem perform_write (now : Instant) (key : String) (value : Json)
    (cache : TableCache (Database τ)) :
    cache.perform (.write now key value) = (.written, cache.writeAt now key value) := by
  rw [writeAt_eq_write]
  rfl

/-- The first call about a key decides what is found of it. -/
theorem firstFound_key (refused : Bool) (call : Call) (rows : τ) (rest : List (Event τ)) :
    firstFound call.key rows (.call refused call :: rest) =
      if refused then none else Table.entryAt? call.key rows := by
  rw [firstFound, if_pos rfl]

/-- A call about another key does not. -/
theorem firstFound_of_ne {call : Call} (h : call.key ≠ key) (refused : Bool) (rows : τ)
    (rest : List (Event τ)) : firstFound key rows (.call refused call :: rest) =
      firstFound key ((Event.call refused call).left rows) rest := by
  rw [firstFound, if_neg h]

variable [LawfulTable τ]

/-- A key that was not used is looked up in the table. -/
theorem entry_of_unused (h : cache.memo.lookup key = none) :
    cache.entry key =
      (if cache.table.refuses then none else Table.entryAt? key cache.table.rows,
        { cache with memo := (key, if cache.table.refuses then none
          else Table.entryAt? key cache.table.rows) :: cache.memo }) := by
  have hselect : Table.select key cache.table =
      (if cache.table.refuses then none else (Table.select key cache.table.rows).1,
        cache.table) := by
    simp only [Table.select]
    split
    · rfl
    · rw [LawfulTable.select_snd]
  rw [entry_of_lookup_none h, hselect, Table.entryAt?]
  split <;> rfl

/-- A look at a key leaves the table. -/
theorem table_entry (key : String) (cache : TableCache (Database τ)) :
    (cache.entry key).2.table = cache.table := by
  cases hmemo : cache.memo.lookup key with
  | some found => rw [entry_of_lookup hmemo]
  | none => rw [entry_of_unused hmemo]

/-- What a look finds is remembered. -/
theorem lookup_entry (key : String) (cache : TableCache (Database τ)) :
    (cache.entry key).2.memo.lookup key = some (cache.entry key).1 := by
  cases hmemo : cache.memo.lookup key with
  | some found => rw [entry_of_lookup hmemo, hmemo]
  | none =>
    rw [entry_of_unused hmemo]
    exact List.lookup_cons_self

/-- What is remembered of other keys stays. -/
theorem lookup_entry_of_ne (h : other ≠ key) (cache : TableCache (Database τ)) :
    (cache.entry key).2.memo.lookup other = cache.memo.lookup other := by
  cases hmemo : cache.memo.lookup key with
  | some found => rw [entry_of_lookup hmemo]
  | none =>
    rw [entry_of_unused hmemo]
    exact lookup_cons_of_ne h _ cache.memo

/-- The rows after a step. -/
theorem rows_next (cache : TableCache (Database τ)) (event : Event τ) :
    (cache.next event).2.table.rows = event.left cache.table.rows := by
  cases event with
  | outside rows => rfl
  | call refused call =>
    cases call with
    | look kind key => simp only [next, perform_look, table_entry, Event.left]
    | write now key value =>
      simp only [next, perform_write, writeAt, Event.left, Table.upsert]
      split
      · rfl
      · cases Table.upsert key ⟨value.render, Instant.toMillis now⟩ cache.table.rows <;> rfl

/-- An entry that is looked at is the one in the map. -/
theorem entry_eq_view (cache : TableCache (Database τ)) (kind : Look) (key : String)
    (rest : List (Event τ)) :
    (cache.entry key).1 = cache.view (.call cache.table.refuses (.look kind key) :: rest) key := by
  rw [view]
  cases hmemo : cache.memo.lookup key with
  | some found => rw [entry_of_lookup hmemo, Option.getD_some]
  | none =>
    rw [entry_of_unused hmemo, Option.getD_none]
    exact (firstFound_key cache.table.refuses (.look kind key) cache.table.rows rest).symm

/-- **One step of the cache is one step of the map that it stands for.** -/
theorem next_view (cache : TableCache (Database τ)) (event : Event τ) (rest : List (Event τ)) :
    (cache.next event).1 = ((cache.view (event :: rest)).next event).1 ∧
      (cache.next event).2.view rest = ((cache.view (event :: rest)).next event).2 := by
  cases event with
  | outside rows => exact ⟨rfl, rfl⟩
  | call refused call =>
    have hrows := rows_next cache (.call refused call)
    cases call with
    | look kind key =>
      have hentry := entry_eq_view { cache with table.refuses := refused } kind key rest
      refine ⟨?_, funext fun other => ?_⟩
      · simp only [next, perform_look, OneMap.next, hentry]
        rfl
      · by_cases h : other = key
        · subst h
          simp only [OneMap.next, next, perform_look, view, lookup_entry, Option.getD_some]
          exact hentry
        · have hkey : (Call.look kind key).key ≠ other := Ne.symm h
          -- What is found of another key is still decided by the events to come.
          simp only [OneMap.next, view, hrows, firstFound_of_ne hkey]
          simp only [next, perform_look, lookup_entry_of_ne h]
    | write now key value =>
      refine ⟨by simp only [next, perform_write, OneMap.next], funext fun other => ?_⟩
      by_cases h : other = key
      · subst h
        simp only [OneMap.next, Function.update_self, view, next, perform_write, writeAt,
          List.lookup_cons_self, Option.getD_some]
      · have hkey : (Call.write now key value).key ≠ other := Ne.symm h
        simp only [OneMap.next, Function.update_of_ne h, view, hrows, firstFound_of_ne hkey]
        simp only [next, perform_write, writeAt, lookup_cons_of_ne h]

/-! ## Runs -/

/-- **A run of the cache is a run of the map that it stands for.** -/
theorem follow_view (cache : TableCache (Database τ)) (events : List (Event τ)) :
    (follow next cache events).1 = (follow OneMap.next (cache.view events) events).1 := by
  induction events generalizing cache with
  | nil => rfl
  | cons event rest ih =>
    obtain ⟨hanswer, hview⟩ := next_view cache event rest
    simp only [follow]
    rw [hanswer, ih, hview]

/-- What is remembered of a key stays until the key is written. -/
theorem lookup_next {found : Option CacheEntry} (h : cache.memo.lookup key = some found)
    (hunwritten : ¬event.Writes key) : (cache.next event).2.memo.lookup key = some found := by
  cases event with
  | outside rows => exact h
  | call refused call =>
    cases call with
    | look kind asked =>
      simp only [next, perform_look]
      by_cases hkey : key = asked
      · subst hkey
        have hremembered :
            { cache with table.refuses := refused }.memo.lookup key = some found := h
        rw [lookup_entry, entry_of_lookup hremembered]
      · rw [lookup_entry_of_ne hkey]
        exact h
    | write now written value =>
      have hkey : key ≠ written := fun heq => hunwritten heq.symm
      simp only [next, perform_write, writeAt]
      exact (lookup_cons_of_ne hkey _ cache.memo).trans h

/-- What is remembered of a key stays as long as the key is not written. -/
theorem lookup_follow (cache : TableCache (Database τ)) {found : Option CacheEntry}
    {events : List (Event τ)} (h : cache.memo.lookup key = some found)
    (hunwritten : ∀ event ∈ events, ¬event.Writes key) :
    (follow next cache events).2.memo.lookup key = some found := by
  induction events generalizing cache with
  | nil => exact h
  | cons event rest ih =>
    rw [List.forall_mem_cons] at hunwritten
    exact ih _ (lookup_next h hunwritten.1) hunwritten.2

/-- The row of a key stays until the key is written or others change it. -/
theorem select_left {rows : τ} {row : Option Row} (h : (Table.select key rows).1 = row)
    (hunwritten : ¬event.Writes key)
    (hothers : ∀ left, event = .outside left → (Table.select key left).1 = row) :
    (Table.select key (event.left rows)).1 = row := by
  cases event with
  | outside left => exact hothers left rfl
  | call refused call =>
    cases call with
    | look kind asked => exact h
    | write now written value =>
      have hkey : key ≠ written := fun heq => hunwritten heq.symm
      simp only [Event.left]
      split
      · exact h
      · exact (select_upsert_getD hkey _ rows).trans h

/-- The row of a key stays as long as the key is not written and others keep it. -/
theorem select_follow (cache : TableCache (Database τ)) {row : Option Row}
    {events : List (Event τ)} (h : (Table.select key cache.table.rows).1 = row)
    (hunwritten : ∀ event ∈ events, ¬event.Writes key)
    (hothers : ∀ left, .outside left ∈ events → (Table.select key left).1 = row) :
    (Table.select key (follow next cache events).2.table.rows).1 = row := by
  induction events generalizing cache with
  | nil => exact h
  | cons event rest ih =>
    rw [List.forall_mem_cons] at hunwritten
    refine ih _ ?_ hunwritten.2 fun left hleft => hothers left (List.mem_cons_of_mem event hleft)
    rw [rows_next]
    refine select_left h hunwritten.1 fun left hleft => hothers left ?_
    exact hleft ▸ List.mem_cons_self

/-! ## Opening again -/

/-- A cache that is opened finds the rows of the table. -/
theorem entry_opened {rows : τ} {payload : String} {modified : Int} {value : Json}
    (h : (Table.select key rows).1 = some ⟨payload, modified⟩)
    (hpayload : Json.parse payload = .ok value) :
    ((opened rows).entry key).1 = some ⟨value, Instant.ofMillis modified⟩ := by
  have hunused : (opened rows).memo.lookup key = none := rfl
  rw [entry_of_unused hunused]
  exact Table.entryAt?_eq_some_iff.2
    ⟨payload, modified, (LawfulTable.select_create key rows).trans h, hpayload, rfl⟩

/-- A value whose write the table took is found when the cache is opened again, unless the
row was changed since. -/
theorem entry_opened_of_write {now : Instant} {value : Json} {after : List (Event τ)}
    (hput : (Table.upsert key ⟨value.render, Instant.toMillis now⟩ cache.table.rows).isSome)
    (hunwritten : ∀ event ∈ after, ¬event.Writes key)
    (hothers : ∀ left, .outside left ∈ after →
      (Table.select key left).1 = some ⟨value.render, Instant.toMillis now⟩)
    (hparse : Json.parse value.render = .ok value) :
    let later := (follow next cache (.call false (.write now key value) :: after)).2
    Cache.entry key later = (some value, some (Instant.ofMillis (Instant.toMillis now))) ∧
      Cache.entry key (opened later.table.rows) =
        (some value, some (Instant.ofMillis (Instant.toMillis now))) := by
  intro later
  constructor
  · have hwritten : (cache.next (.call false (.write now key value))).2.memo.lookup key =
        some (some ⟨value, Instant.ofMillis (Instant.toMillis now)⟩) := by
      simp only [next, perform_write, writeAt, List.lookup_cons_self]
    have hlater : later.memo.lookup key =
        some (some ⟨value, Instant.ofMillis (Instant.toMillis now)⟩) :=
      lookup_follow (cache.next _).2 hwritten hunwritten
    rw [entry_eq, entry_of_lookup hlater]
    rfl
  · obtain ⟨left, hleft⟩ := Option.isSome_iff_exists.1 hput
    have hrow : (Table.select key
        (cache.next (.call false (.write now key value))).2.table.rows).1 =
          some ⟨value.render, Instant.toMillis now⟩ := by
      rw [rows_next, Event.left, if_neg Bool.false_ne_true, hleft]
      exact LawfulTable.select_upsert_self hleft
    have hlater : (Table.select key later.table.rows).1 =
        some ⟨value.render, Instant.toMillis now⟩ :=
      select_follow (cache.next _).2 hrow hunwritten hothers
    rw [entry_eq, entry_opened hlater hparse]
    rfl

/-- Every kind of look shows whether there is an entry. -/
theorem shows_answer (kind : Look) (entry : Option CacheEntry) :
    (kind.answer entry).shows = entry.isSome := by
  cases kind <;> cases entry <;> rfl

/-- Two looks at a key agree on whether it has an entry, unless it is written in between. -/
theorem looks_agree (cache : TableCache (Database τ)) (kind kind' : Look)
    (refused refused' : Bool) {between : List (Event τ)}
    (hunwritten : ∀ event ∈ between, ¬event.Writes key) :
    let later := (follow next cache (.call refused (.look kind key) :: between)).2
    (cache.next (.call refused (.look kind key))).1.map Answer.shows =
      (later.next (.call refused' (.look kind' key))).1.map Answer.shows := by
  intro later
  generalize hasked : { cache with table.refuses := refused } = asked
  have hnext : cache.next (.call refused (.look kind key)) =
      (some (kind.answer (asked.entry key).1), (asked.entry key).2) := by
    rw [← hasked]
    simp only [next, perform_look]
  have hlooked : (cache.next (.call refused (.look kind key))).2.memo.lookup key =
      some (asked.entry key).1 := by
    rw [hnext]
    exact lookup_entry key asked
  have hlater : { later with table.refuses := refused' }.memo.lookup key =
      some (asked.entry key).1 := lookup_follow (cache.next _).2 hlooked hunwritten
  rw [hnext]
  simp only [next, perform_look, entry_of_lookup hlater, Option.map_some, shows_answer]

/-! ## The cache as one map -/

/-- A cache that was opened with some rows, after some events. -/
def used {τ : Type} [Table τ] (rows : τ) (events : List (Event τ)) : TableCache (Database τ) :=
  (follow next (opened rows) events).2

/-- **A cache over a table behaves as one map, whatever becomes of the table.**  It was
opened with any rows, and any events have happened since: calls, with the table refusing any
of their statements, and changes by others.

* The answers are those of the map that has under each key what the table showed when the key
  was first used, and that nothing but writes changes.
* Looks of any kinds agree on whether there is an entry of a key, as long as the key is not
  written in between.
* A value whose write the table took, and whose row nobody has changed since, is found with
  its time when the cache is opened again, if its text reads back. -/
theorem behaves_as_one_map {τ : Type} [Table τ] [LawfulTable τ] (rows : τ)
    (events : List (Event τ)) :
    (follow next (opened rows) events).1 =
      (follow OneMap.next (fun key => firstFound key (Table.create rows) events) events).1 ∧
    (∀ key kind kind' refused refused' between,
      (∀ event ∈ (between : List (Event τ)), ¬event.Writes key) →
      let later := used rows (events ++ .call refused (.look kind key) :: between)
      ((used rows events).next (.call refused (.look kind key))).1.map Answer.shows =
        (later.next (.call refused' (.look kind' key))).1.map Answer.shows) ∧
    ∀ now key value after,
      let written : Row := ⟨value.render, Instant.toMillis now⟩
      let later := used rows (events ++ .call false (.write now key value) :: after)
      (Table.upsert key written (used rows events).table.rows).isSome →
      (∀ event ∈ after, ¬event.Writes key) →
      (∀ left, .outside left ∈ after → (Table.select key left).1 = some written) →
      Json.parse value.render = .ok value →
        Cache.entry key later = (some value, some (Instant.ofMillis (Instant.toMillis now))) ∧
        Cache.entry key (opened later.table.rows) = Cache.entry key later := by
  refine ⟨follow_view (opened rows) events, ?_, ?_⟩
  · intro key kind kind' refused refused' between hunwritten
    simp only [used, follow_append]
    exact looks_agree _ kind kind' refused refused' hunwritten
  · intro now key value after written later hput hunwritten hothers hparse
    have hlater : later = (follow next (used rows events)
        (.call false (.write now key value) :: after)).2 := follow_append next _ _ _
    obtain ⟨hentry, hopened⟩ := entry_opened_of_write hput hunwritten hothers hparse
    rw [hlater]
    exact ⟨hentry, hopened.trans hentry.symm⟩

/-- A row that spells no JSON. -/
def tornRows : Rows := ⟨some [("k", .text "\x7b", .integer 3)]⟩

/-- The row that a write put in its place, beside one of others. -/
def mendedRows : Rows :=
  ⟨some [("n", .text "1", .blob), ("k", .text "\"x\"", .integer 1)]⟩

/-- The value that is written reads back. -/
theorem parse_render_x : Json.parse (Json.string "x").render = .ok (.string "x") := by
  have hread : (Json.parse "\"x\"").toOption.bind Json.string? = some "x" := by
    decide +kernel
  change Json.parse "\"x\"" = .ok (.string "x")
  cases hparsed : Json.parse "\"x\"" with
  | error e =>
    rw [hparsed] at hread
    cases hread
  | ok value =>
    rw [hparsed] at hread
    cases value with
    | string s =>
      obtain rfl : s = "x" := Option.some.inj hread
      rfl
    | _ => cases hread

/-- The torn row is absent, and stays absent when the table is dropped; the value that is
written then is found in a table that others have added to. -/
theorem behaves_as_one_map_torn :
    (∀ kind kind',
      ((used tornRows []).next (.call false (.look kind "k"))).1.map Answer.shows =
        ((used tornRows [.call false (.look kind "k"), .outside ⟨none⟩]).next
          (.call true (.look kind' "k"))).1.map Answer.shows) ∧
      Cache.entry "k" (opened (used tornRows [.call false (.look .contains "k"),
        .call false (.write 1999999 "k" (.string "x")), .call true (.write 7 "n" .null),
        .outside mendedRows]).table.rows) = (some (.string "x"), some 1) := by
  constructor
  · intro kind kind'
    refine (behaves_as_one_map tornRows []).2.1 "k" kind kind' false true [.outside ⟨none⟩] ?_
    rw [List.forall_mem_singleton]
    exact id
  · have hput : (Table.upsert "k" ⟨(Json.string "x").render, Instant.toMillis 1999999⟩
        (used tornRows [.call false (.look .contains "k")]).table.rows).isSome := rfl
    have hothers : ∀ left, .outside left ∈
        [Event.call true (.write 7 "n" .null), .outside mendedRows] →
          (Table.select "k" left).1 =
            some ⟨(Json.string "x").render, Instant.toMillis 1999999⟩ := by
      intro left hleft
      obtain rfl : left = mendedRows := by simpa using hleft
      rfl
    obtain ⟨hentry, hopened⟩ :=
      (behaves_as_one_map tornRows [.call false (.look .contains "k")]).2.2 1999999 "k"
        (.string "x") [.call true (.write 7 "n" .null), .outside mendedRows] hput
        (by simp [Event.Writes]) hothers parse_render_x
    exact hopened.trans hentry

end TableCache
end MusicCollections
