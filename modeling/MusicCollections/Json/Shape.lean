/-
# Shapes of JSON values

A cache entry is used only if it has the shape that was written: a text, a list
of texts, a dictionary of such lists, or a record.  A record is an object with
the fields by name, unknown ones being ignored, or an array with the fields in
order.  Any other value has no such shape and counts as absent.
-/

import MusicCollections.Json.Value

namespace MusicCollections
namespace Json

def string? : Json → Option String
  | .string s => some s
  | _ => none

/-- A list whose items all have the shape `item?`. -/
def list? {α : Type} (item? : Json → Option α) : Json → Option (List α)
  | .array items => items.mapM item?
  | _ => none

/-- A list of texts. -/
def strings? : Json → Option (List String) := list? string?

/-- An object whose members all have the shape `value?`. -/
def dictionary? {α : Type} (value? : Json → Option α) : Json → Option (Dictionary α)
  | .object members => members.mapM fun (name, value) => (value? value).map (name, ·)
  | _ => none

/-- A value that may be `null`. -/
def nullable? {α : Type} (value? : Json → Option α) : Json → Option (Option α)
  | .null => some none
  | value => (value? value).map some

/-- The fields `names` of a record, in order, with `none` for each that is
missing.  An array may end early but holds no more than the fields. -/
def fields? (names : List String) : Json → Option (List (Option Json))
  | .object members => some (names.map fun name => members.lookup name)
  | .array items =>
    if items.length ≤ names.length then
      some (items.map some ++ List.replicate (names.length - items.length) none)
    else none
  | _ => none

/-- A list of texts as a value. -/
def ofStrings (texts : List String) : Json := .array (texts.map .string)

/-- **A list reads back if each of its items does.** -/
theorem list?_map {α : Type} {item? : Json → Option α} {toJson : α → Json} {xs : List α}
    (h : ∀ x ∈ xs, item? (toJson x) = some x) : list? item? (.array (xs.map toJson)) = some xs := by
  induction xs with
  | nil => rfl
  | cons x xs ih =>
    have hx := h x List.mem_cons_self
    have hs := ih fun y hy => h y (List.mem_cons_of_mem x hy)
    rw [list?] at hs ⊢
    simp [hx, hs]

theorem strings?_ofStrings (texts : List String) : strings? (ofStrings texts) = some texts :=
  list?_map fun _ _ => rfl

end Json
end MusicCollections
