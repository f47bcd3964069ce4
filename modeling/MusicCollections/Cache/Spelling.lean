/-
# Numbers spelled in a cell

A text spells a number if, white space around it aside, it is a sign, digits with
a point among them, and an exponent.  Sign, point and exponent may be missing, but
not all digits.

A number with a point or an exponent is a double.  Its digits make a whole number
until that is `digitLimit` or more, which is then multiplied by ten or by a tenth
as often as the exponent says, a hundred, ten or one at a time.  These steps are
rounded to the format `extended`, and the last result to a double.
-/

import MusicCollections.Number.Double
import MusicCollections.Text.Digits

namespace MusicCollections

/-- A number as a text spells it. -/
structure Spelling where
  negative : Bool
  whole : List Char
  fraction : Option (List Char)
  /-- Whether the exponent is negative, and its digits. -/
  exponent : Option (Bool × List Char)

namespace Spelling

/-! ## Reading the characters -/

/-- White space that may stand around a number. -/
def isSpace (c : Char) : Bool := c == ' ' || (9 ≤ c.toNat && c.toNat ≤ 13)

/-- The sign that characters begin with, and the characters after it. -/
def takeSign : List Char → Bool × List Char
  | '-' :: cs => (true, cs)
  | '+' :: cs => (false, cs)
  | cs => (false, cs)

/-- The digits that characters begin with, and the characters after them. -/
def takeDigits (cs : List Char) : List Char × List Char := cs.span Char.isDigit

/-- The fraction that characters begin with, and the characters after it. -/
def takeFraction : List Char → Option (List Char) × List Char
  | '.' :: cs => let (digits, rest) := takeDigits cs; (some digits, rest)
  | cs => (none, cs)

/-- The exponent that characters begin with, and the characters after it. -/
def takeExponent : List Char → Option (Bool × List Char) × List Char
  | c :: cs =>
    if c = 'e' ∨ c = 'E' then
      let (negative, rest) := takeSign cs
      let (digits, rest) := takeDigits rest
      (some (negative, digits), rest)
    else (none, c :: cs)
  | [] => (none, [])

/-- The number that a text spells. -/
def ofText? (s : String) : Option Spelling :=
  let (negative, cs) := takeSign (s.toList.dropWhile isSpace)
  let (whole, cs) := takeDigits cs
  let (fraction, cs) := takeFraction cs
  let (exponent, cs) := takeExponent cs
  let someDigit := !(whole ++ fraction.getD []).isEmpty
  let fullExponent := (exponent.map fun (_, digits) => !digits.isEmpty).getD true
  if someDigit && fullExponent && cs.all isSpace then some { negative, whole, fraction, exponent }
  else none

/-! ## The number -/

/-- Whole numbers that take no further digit. -/
def digitLimit : Nat := (UInt64.size - 10) / 10

/-- `n` with the digits after it until it takes no more, and the number of digits
that it took. -/
def appendDigits (n : Nat) : List Char → Nat × Nat
  | [] => (n, 0)
  | c :: cs =>
    if n < digitLimit then
      let (m, taken) := appendDigits (n * 10 + Text.digitValue c) cs
      (m, taken + 1)
    else (n, 0)

/-- An exponent of five digits counts, but of the digits after them only that
they are there. -/
def exponentValue (digits : List Char) : Nat :=
  digits.foldl (fun e c => if e < 10000 then e * 10 + Text.digitValue c else 10000) 0

/-- `n · 10 ^ up` with as much as possible of the power in the whole number. -/
def raise (n : Nat) : (up : Nat) → Nat × Nat
  | 0 => (n, 0)
  | up + 1 => if n < (UInt64.size - 1) / 10 then raise (n * 10) up else (n, up + 1)

/-- `n / 10 ^ down` with as much as possible of the power in the whole number. -/
def lower (n : Nat) : (down : Nat) → Nat × Nat
  | 0 => (n, 0)
  | down + 1 => if n % 10 = 0 then lower (n / 10) down else (n, down + 1)

/-- The powers of ten that make up `10 ^ n`. -/
def powerSteps (n : Nat) : List Nat :=
  List.replicate (n / 100) 100 ++ List.replicate (n % 100 / 10) 10 ++ List.replicate (n % 10) 1

/-- The product of `n` and one power of ten for each of the steps. -/
def multiply (power : Nat → Option Binary) (n : Nat) (steps : List Nat) : Option Binary :=
  let step (b : Option Binary) (k : Nat) : Option Binary :=
    b.bind fun b => (power k).bind (BinaryFormat.extended.mul b)
  (steps.foldl step (BinaryFormat.extended.round (.ofNat n))).bind BinaryFormat.double.round

/-- `n · 10 ^ power` as a double; none if that is too large. -/
def scale (n : Nat) (power : Int) : Option Binary :=
  if n = 0 then some (.ofNat 0)
  else if 0 ≤ power then
    let (n, up) := raise n power.toNat
    multiply BinaryFormat.extended.tenPower n (powerSteps up)
  else
    let (n, down) := lower n (-power).toNat
    multiply BinaryFormat.extended.tenthPower n (powerSteps down)

/-- The magnitude of the number as a double; none if that is too large. -/
def magnitude? (t : Spelling) : Option Binary :=
  let (n, taken) := appendDigits 0 t.whole
  let (m, places) := appendDigits n (t.fraction.getD [])
  let exponent : Int := match t.exponent with
    | none => 0
    | some (true, digits) => -exponentValue digits
    | some (false, digits) => exponentValue digits
  scale m (exponent + (t.whole.length - taken : Nat) - places)

/-- The digits before the point as a number with its sign. -/
def wholeValue (t : Spelling) : Int :=
  if t.negative then -Text.digitsValue t.whole else Text.digitsValue t.whole

/-- The 64-bit integer that is spelled, if it is one. -/
def integer? (t : Spelling) : Option Int :=
  if t.fraction.isNone ∧ t.exponent.isNone then
    if Int64.minValue.toInt ≤ t.wholeValue ∧ t.wholeValue ≤ Int64.maxValue.toInt then
      some t.wholeValue
    else none
  else t.magnitude?.bind fun b => Double.integer? ⟨t.negative, b⟩

/-- **Only integers that fit 64 bits are found.** -/
theorem integer?_bounds {t : Spelling} {i : Int} (h : t.integer? = some i) :
    Int64.minValue.toInt ≤ i ∧ i ≤ Int64.maxValue.toInt := by
  unfold integer? at h
  split at h
  · split at h
    · rename_i bounds
      obtain rfl := Option.some.inj h
      exact bounds
    · simp at h
  · obtain ⟨b, _, hb⟩ := Option.bind_eq_some_iff.1 h
    exact Double.integer?_bounds hb

end Spelling

end MusicCollections
