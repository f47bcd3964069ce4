/-
# Documents of a fixed form

A document that a person writes is read field by field, so that the first fault
met in reading order is the one reported: a value of the wrong type before a
break of the grammar that comes later, and the other way round.  Fields that are
not known are skipped.  A record may be an object, in which no field repeats, or
an array of the fields in order, which may end early.
-/

import MusicCollections.Json.Reader

namespace MusicCollections
namespace Json

/-- Reads a value of one type from the characters left of a document. -/
abbrev Decoder (α : Type) := List Char → Except Fault (α × List Char)

/-- The fault of a value that is not of the type asked for.  A value that is
itself broken is reported as such; of an array or object only the first
character is looked at. -/
def wrongType (cs : List Char) : Fault :=
  match cs with
  | '[' :: _ => .mismatched
  | '\x7b' :: _ => .mismatched
  | _ =>
    match nextValue .kept cs with
    | .ok _ => .mismatched
    | .error fault => fault

/-- A text. -/
def stringDecoder : Decoder String := fun cs =>
  match skipSpace cs with
  | '"' :: rest => readString .kept rest
  | rest => .error (wrongType rest)

/-- A natural number up to `bound`. -/
def naturalDecoder (bound : Nat) : Decoder Nat := fun cs =>
  let cs := skipSpace cs
  match nextValue .kept cs with
  | .error _ => .error (wrongType cs)
  | .ok (.int (.ofNat n), rest) => if n ≤ bound then .ok (n, rest) else .error .mismatched
  | .ok _ => .error .mismatched

/-- A truth value. -/
def boolDecoder : Decoder Bool := fun cs =>
  match skipSpace cs with
  | 't' :: rest => (readWord "rue".toList rest).map (true, ·)
  | 'f' :: rest => (readWord "alse".toList rest).map (false, ·)
  | rest => .error (wrongType rest)

/-- A value or `null`. -/
def nullableDecoder {α : Type} (value : Decoder α) : Decoder (Option α) := fun cs =>
  match skipSpace cs with
  | 'n' :: rest => (readWord "ull".toList rest).map (none, ·)
  | rest => (value rest).map fun (a, rest) => (some a, rest)

/-- What stands next in an array. -/
inductive NextItem where
  /-- An item, which begins the characters. -/
  | item (rest : List Char)
  /-- The closing bracket, and the characters after it. -/
  | closed (rest : List Char)

/-- Goes to the next item of an array, over the comma if it is not the first. -/
def nextItem (first : Bool) (cs : List Char) : Except Fault NextItem :=
  match skipSpace cs, first with
  | [], _ => .error .truncated
  | ']' :: rest, _ => .ok (.closed rest)
  | rest, true => .ok (.item rest)
  | ',' :: rest, false =>
    match skipSpace rest with
    | [] => .error .truncated
    | ']' :: _ => .error .malformed
    | rest => .ok (.item rest)
  | _, false => .error .malformed

/-- Reads the items of an array up to its closing bracket, after the items
`done`, which are given backwards. -/
def readList {α : Type} (item : Decoder α) : (fuel : Nat) → (first : Bool) → (done : List α) →
    Decoder (List α)
  | 0, _, _, _ => .error .malformed
  | fuel + 1, first, done, cs =>
    match nextItem first cs with
    | .error fault => .error fault
    | .ok (.closed rest) => .ok (done.reverse, rest)
    | .ok (.item rest) =>
      match item rest with
      | .error fault => .error fault
      | .ok (a, rest) => readList item fuel false (a :: done) rest

/-- A list. -/
def listDecoder {α : Type} (item : Decoder α) : Decoder (List α) := fun cs =>
  match skipSpace cs with
  | '[' :: rest => readList item (fuelFor rest) true [] rest
  | rest => .error (wrongType rest)

/-- A field of a record of type `α`: its name, and how its value is read into a
record. -/
structure Field (α : Type) where
  name : String
  read : α → Decoder α

/-- The field `name` with values read by `value` and stored by `store`. -/
def field {α β : Type} (name : String) (value : Decoder β) (store : α → β → α) : Field α :=
  ⟨name, fun record cs => (value cs).map fun (b, rest) => (store record b, rest)⟩

/-- Reads a record from an array, after its opening bracket. -/
def readPositional {α : Type} : List (Field α) → (first : Bool) → α → Decoder α
  | [], _, record, cs =>
    match skipSpace cs with
    | [] => .error .truncated
    | ']' :: rest => .ok (record, rest)
    | _ => .error .malformed
  | field :: fields, first, record, cs =>
    match nextItem first cs with
    | .error fault => .error fault
    | .ok (.closed rest) => .ok (record, rest)
    | .ok (.item rest) =>
      match field.read record rest with
      | .error fault => .error fault
      | .ok (record, rest) => readPositional fields false record rest

/-- What stands next in an object. -/
inductive NextMember where
  /-- A member, whose name goes on with the characters. -/
  | member (rest : List Char)
  /-- The closing brace, and the characters after it. -/
  | closed (rest : List Char)

/-- Goes to the next member of an object and over the quote that opens its
name. -/
def nextMember (first : Bool) (cs : List Char) : Except Fault NextMember :=
  match skipSpace cs, first with
  | [], _ => .error .truncated
  | '\x7d' :: rest, _ => .ok (.closed rest)
  | '"' :: rest, true => .ok (.member rest)
  | ',' :: rest, false =>
    match skipSpace rest with
    | [] => .error .truncated
    | '"' :: rest => .ok (.member rest)
    | _ => .error .malformed
  | _, _ => .error .malformed

/-- Reads a record from an object, after its opening brace.  `seen` are the
names of the fields read so far. -/
def readNamed {α : Type} (fields : List (Field α)) : (fuel : Nat) → (first : Bool) →
    (seen : List String) → α → Decoder α
  | 0, _, _, _, _ => .error .malformed
  | fuel + 1, first, seen, record, cs =>
    match nextMember first cs with
    | .error fault => .error fault
    | .ok (.closed rest) => .ok (record, rest)
    | .ok (.member rest) =>
      match readString .kept rest with
      | .error fault => .error fault
      | .ok (name, rest) =>
        match fields.find? (·.name == name) with
        | some field =>
          if seen.contains name then .error .mismatched
          else
            match readColon rest with
            | .error fault => .error fault
            | .ok rest =>
              match field.read record rest with
              | .error fault => .error fault
              | .ok (record, rest) => readNamed fields fuel false (name :: seen) record rest
        | none =>
          match readColon rest with
          | .error fault => .error fault
          | .ok rest =>
            match nextValue .skipped rest with
            | .error fault => .error fault
            | .ok (_, rest) => readNamed fields fuel false seen record rest

/-- A record; a field that is not given keeps its value in `default`. -/
def recordDecoder {α : Type} (fields : List (Field α)) (default : α) : Decoder α := fun cs =>
  match skipSpace cs with
  | [] => .error .truncated
  | '[' :: rest => readPositional fields true default rest
  | '\x7b' :: rest => readNamed fields (fuelFor rest) true [] default rest
  | rest => .error (wrongType rest)

/-- The value of a whole document. -/
def decode {α : Type} (decoder : Decoder α) (text : String) : Except Fault α :=
  match decoder text.toList with
  | .error fault => .error fault
  | .ok (value, rest) => finish value rest

end Json
end MusicCollections
