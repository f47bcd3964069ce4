/-
# Doubles

A finite number of the format `double` with its sign.  It is written with at most
fifteen digits, of which at least one stands after the point:

| magnitude | text |
| --- | --- |
| 0 | `0.0` |
| from `10 ^ -4` to below `10 ^ 15` | `1234.5`, `100.0`, `0.00025` |
| any other | `1.5e+21`, `2.0e-07` |
-/

import MusicCollections.Number.Binary

namespace MusicCollections

structure Double where
  negative : Bool
  magnitude : Binary
  deriving DecidableEq, Repr

namespace Double

/-- Greatest magnitude of a double that is taken for a 64-bit integer. -/
def maxInteger : Nat := 0x7FFFFFFFFFFFFC00

/-- The 64-bit integer that a double is, if it is one. -/
def integer? (x : Double) : Option Int :=
  match x.magnitude.nat? with
  | none => none
  | some n => if n ≤ maxInteger then some (if x.negative then -n else n) else none

/-- **Only integers that fit 64 bits are found.** -/
theorem integer?_bounds {x : Double} {i : Int} (h : x.integer? = some i) :
    Int64.minValue.toInt ≤ i ∧ i ≤ Int64.maxValue.toInt := by
  unfold integer? at h
  split at h
  · simp at h
  · split at h
    · rename_i n _ small
      simp only [Option.some.injEq, maxInteger] at h small
      rw [Int64.toInt_minValue, Int64.toInt_maxValue]
      split at h <;> omega
    · simp at h

/-! ## Text -/

/-- Digits that are written, at most. -/
def maxDigits : Nat := 15

/-- Digits of `n` in base ten. -/
def digitCount (n : Nat) : Nat := (Nat.toDigits 10 n).length

/-- The first `maxDigits` digits of a positive number as a whole number, and the
power of ten that its first digit counts. -/
def leadingDigits (b : Binary) : Nat × Int :=
  let num := b.significand <<< b.exponent.toNat
  let den := 1 <<< (-b.exponent).toNat
  -- The number is below `10 ^ places` and not below a tenth of that.
  let places : Int := if den ≤ num then digitCount (num / den) else 1 - digitCount ((den - 1) / num)
  let up := Nat.pow 10 (maxDigits - places).toNat
  let down := Nat.pow 10 (places - maxDigits).toNat
  let n := (2 * num * up + den * down) / (2 * den * down)
  if n < Nat.pow 10 maxDigits then (n, places - 1) else (n / 10, places)

/-- Digits without the zeros at their end. -/
def withoutZeros (digits : List Char) : List Char := (digits.reverse.dropWhile (· == '0')).reverse

/-- Whole part and fraction with the point between. -/
def pointed (whole fraction : List Char) : String :=
  String.ofList (whole ++ '.' :: if fraction.isEmpty then ['0'] else fraction)

/-- The text of a number whose digits are `digits` and whose first digit counts
`10 ^ power`. -/
def layOut (digits : List Char) (power : Int) : String :=
  if power < -4 ∨ maxDigits ≤ power then
    let n := toString power.natAbs
    pointed (digits.take 1) (digits.drop 1) ++ (if power < 0 then "e-" else "e+") ++
      (if n.length < 2 then "0" ++ n else n)
  else if power < 0 then pointed ['0'] (List.replicate (power.natAbs - 1) '0' ++ digits)
  else
    let whole := power.toNat + 1
    pointed (digits.take whole ++ List.replicate (whole - digits.length) '0') (digits.drop whole)

/-- The text of a double. -/
def text (x : Double) : String :=
  if x.magnitude.significand = 0 then "0.0"
  else
    let (n, power) := leadingDigits x.magnitude
    (if x.negative then "-" else "") ++ layOut (withoutZeros (Nat.toDigits 10 n)) power

end Double

end MusicCollections
