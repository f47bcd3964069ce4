/-
# Binary numbers

Numbers `m · 2 ^ e`, and the formats that keep them to so many bits.  A number
is rounded to the nearest one of a format, and from halfway to the one with the
even significand.

| format | bits | least exponent | below |
| --- | ---: | ---: | --- |
| `double` | 53 | -1074 | `2 ^ 1024` |
| `extended` | 64 | -16445 | `2 ^ 16384` |

What is too large for a format has no number in it.
-/

namespace MusicCollections

/-- The number `significand · 2 ^ exponent`. -/
structure Binary where
  significand : Nat
  exponent : Int
  deriving DecidableEq, Repr

/-- The numbers that a machine can hold. -/
structure BinaryFormat where
  /-- Bits of a significand. -/
  bits : Nat
  /-- The least exponent. -/
  least : Int
  /-- Every number is below this power of two. -/
  top : Int

namespace Binary

/-- A whole number. -/
def ofNat (n : Nat) : Binary := ⟨n, 0⟩

/-- Digits of `n` in base two. -/
def bitCount (n : Nat) : Nat := if n = 0 then 0 else n.log2 + 1

/-- `n / 2 ^ k` as a whole number: the nearest, and from halfway the even one. -/
def roundShift (n k : Nat) : Nat :=
  let q := n >>> k
  let r := n % 1 <<< k
  if 2 * r < 1 <<< k ∨ (2 * r = 1 <<< k ∧ q % 2 = 0) then q else q + 1

/-- The number is below `2 ^ top`. -/
def isBelow (b : Binary) (top : Int) : Bool :=
  b.significand == 0 || decide ((b.significand.log2 : Int) + b.exponent < top)

/-- The whole number that `b` is, if it is one. -/
def nat? (b : Binary) : Option Nat :=
  if 0 ≤ b.exponent then some (b.significand <<< b.exponent.toNat)
  else
    let unit := 1 <<< (-b.exponent).toNat
    if b.significand % unit = 0 then some (b.significand / unit) else none

/-- The product, exactly. -/
def mul (a b : Binary) : Binary := ⟨a.significand * b.significand, a.exponent + b.exponent⟩

/-- The quotient to more than `bits` bits, cut off.  The last bit is set if
something was cut off, so that the quotient rounds to `bits` bits as the exact one
does. -/
def quotient (bits : Nat) (a b : Binary) : Binary :=
  let shift := bits + 3 + b.significand.log2 - a.significand.log2
  let n := a.significand <<< shift
  let rest := if n % b.significand = 0 then 0 else 1
  ⟨2 * (n / b.significand) + rest, a.exponent - b.exponent - shift - 1⟩

end Binary

namespace BinaryFormat

def double : BinaryFormat := ⟨53, -1074, 1024⟩

def extended : BinaryFormat := ⟨64, -16445, 16384⟩

/-- Bits of `b` that the format has no room for. -/
def excess (f : BinaryFormat) (b : Binary) : Nat :=
  (max ((Binary.bitCount b.significand : Int) - f.bits) (f.least - b.exponent)).toNat

/-- The number of the format next to `b`; none if that is too large. -/
def round (f : BinaryFormat) (b : Binary) : Option Binary :=
  let k := f.excess b
  let r : Binary := ⟨Binary.roundShift b.significand k, b.exponent + k⟩
  if r.isBelow f.top then some r else none

/-- The product of two numbers, rounded. -/
def mul (f : BinaryFormat) (a b : Binary) : Option Binary := f.round (a.mul b)

/-- The quotient of two numbers, rounded. -/
def div (f : BinaryFormat) (a b : Binary) : Option Binary := f.round (a.quotient f.bits b)

/-- The number of the format next to `10 ^ n`. -/
def tenPower (f : BinaryFormat) (n : Nat) : Option Binary := f.round (.ofNat (Nat.pow 10 n))

/-- The number of the format next to `10 ^ -n`. -/
def tenthPower (f : BinaryFormat) (n : Nat) : Option Binary :=
  f.div (.ofNat 1) (.ofNat (Nat.pow 10 n))

end BinaryFormat

end MusicCollections
