/-
# Rows in a file

A table as a value, and the contents of a file that keeps it: a byte that begins
no text, and the rows as JSON.
-/

import MusicCollections.Cache.Cell
import MusicCollections.Cache.Table
import MusicCollections.Json.Shape

namespace MusicCollections

/-- The rows of a table by key, `none` if the table was dropped. -/
structure Rows where
  rows : Option (List (String × Cell × Cell)) := some []

namespace Rows

/-- Puts a row; `none` if the table is not there or a cell is null. -/
def put (key : String) (payload modified : Cell) (table : Rows) : Option Rows :=
  match table.rows with
  | none => none
  | some rows =>
    if payload = .null ∨ modified = .null then none
    else
      let row := (key, payload.inTextColumn, modified.inIntegerColumn)
      some ⟨some (row :: rows.filter (·.1 != key))⟩

/-- Deletes the row of a key; `none` if the table is not there. -/
def delete (key : String) (table : Rows) : Option Rows :=
  table.rows.map fun rows => ⟨some (rows.filter (·.1 != key))⟩

/-- Drops the table; `none` if it is not there. -/
def drop (table : Rows) : Option Rows := table.rows.map fun _ => ⟨none⟩

/-- Makes the table if it is not there. -/
def create (table : Rows) : Rows := ⟨some (table.rows.getD [])⟩

instance : Table Rows where
  create := create
  select key table :=
    match table.rows.bind (·.lookup key) with
    | some (.text payload, .integer modified) => (some ⟨payload, modified⟩, table)
    | _ => (none, table)
  upsert key row table := table.put key (.text row.payload) (.integer row.modified)

/-- The first byte of a file of rows. -/
def mark : UInt8 := 0xFF

def rowToJson? (row : String × Cell × Cell) : Option Json :=
  match row with
  | (key, .text payload, .integer modified) =>
    some (.array [.string key, .string payload, .int modified])
  | _ => none

def rowOfJson? : Json → Option (String × Cell × Cell)
  | .array [.string key, .string payload, .int modified] =>
    some (key, .text payload, .integer modified)
  | _ => none

/-- What a file of rows holds; rows that cannot be read are left out. -/
def contents (table : Rows) : Contents :=
  .bytes (mark :: (Json.array ((table.rows.getD []).filterMap rowToJson?)).render.toUTF8.toList)

/-- The rows of a text of JSON. -/
def ofJson? (text : String) : Option Rows :=
  match Json.parse text with
  | .ok value => (value.list? rowOfJson?).map fun rows => ⟨some rows⟩
  | .error _ => none

/-- The rows of a file; a file of one byte or none is an empty table. -/
def ofBytes? : List UInt8 → Option Rows
  | [] => some {}
  | [_] => some {}
  | b :: bytes => if b = mark then (Text.decode? bytes).bind ofJson? else none

end Rows

end MusicCollections
