/-
# Numbers of JSON

A number is read as the characters of its parts.  Its magnitude as a double is a
whole number times a power of ten: the whole number takes the digits in their
order for as long as it fits 64 bits, and what is left over of the fraction does
not count.  Both are rounded to doubles, and their product or quotient is rounded
again, so that long numbers can miss the nearest double by a little.
-/

import MusicCollections.Json.Value
import MusicCollections.Number.Double
import MusicCollections.Text.Digits

namespace MusicCollections
namespace Json

/-- Whether a value that is read is kept or skipped. -/
inductive Use where
  | kept
  | skipped
  deriving DecidableEq

/-- The characters of a number: whole part, fraction and exponent. -/
structure NumberText where
  whole : List Char
  fraction : Option (List Char)
  /-- Whether the exponent is negative, and its digits. -/
  exponent : Option (Bool × List Char)

/-! ## Reading the characters -/

/-- The fault of a number after which the characters `cs` cannot go on. -/
def numberFault (use : Use) (cs : List Char) : Fault :=
  if use = .kept ∧ cs.isEmpty then .truncated else .malformed

/-- Reads the digits that must stand here. -/
def readDigits (use : Use) (cs : List Char) : Except Fault (List Char × List Char) :=
  match cs.span Char.isDigit with
  | ([], rest) => .error (numberFault use rest)
  | (digits, rest) => .ok (digits, rest)

/-- Reads the whole part: a zero alone, or digits that do not begin with one. -/
def readWhole (use : Use) (cs : List Char) : Except Fault (List Char × List Char) :=
  match cs with
  | '0' :: rest =>
    if (rest.head?.map Char.isDigit).getD false then .error .malformed else .ok (['0'], rest)
  | _ => readDigits use cs

def readFraction (use : Use) (cs : List Char) :
    Except Fault (Option (List Char) × List Char) :=
  match cs with
  | '.' :: rest => (readDigits use rest).map fun (digits, rest) => (some digits, rest)
  | _ => .ok (none, cs)

def readExponent (use : Use) (cs : List Char) :
    Except Fault (Option (Bool × List Char) × List Char) :=
  match cs with
  | c :: rest =>
    if c = 'e' ∨ c = 'E' then
      match rest with
      | '-' :: rest => (readDigits use rest).map fun (digits, rest) => (some (true, digits), rest)
      | '+' :: rest => (readDigits use rest).map fun (digits, rest) => (some (false, digits), rest)
      | _ => (readDigits use rest).map fun (digits, rest) => (some (false, digits), rest)
    else .ok (none, cs)
  | [] => .ok (none, cs)

/-- Reads the characters of a number after its sign. -/
def readNumberText (use : Use) (cs : List Char) : Except Fault (NumberText × List Char) :=
  match readWhole use cs with
  | .error e => .error e
  | .ok (whole, afterWhole) =>
    match readFraction use afterWhole with
    | .error e => .error e
    | .ok (fraction, afterFraction) =>
      match readExponent use afterFraction with
      | .error e => .error e
      | .ok (exponent, rest) => .ok (⟨whole, fraction, exponent⟩, rest)

namespace NumberText

/-- The characters of a number again, with `e` before its exponent. -/
def chars (t : NumberText) : List Char :=
  let fraction := match t.fraction with
    | some digits => '.' :: digits
    | none => []
  let exponent := match t.exponent with
    | some (true, digits) => 'e' :: '-' :: digits
    | some (false, digits) => 'e' :: digits
    | none => []
  t.whole ++ fraction ++ exponent

/-! ## The magnitude -/

/-- `n` with the digits after it for as long as it fits 64 bits, and the digits
left over. -/
def takeDigits (n : Nat) : List Char → Nat × List Char
  | [] => (n, [])
  | c :: cs =>
    let next := n * 10 + Text.digitValue c
    if next < UInt64.size then takeDigits next cs else (n, c :: cs)

/-- The whole number that a number without its exponent begins with, and the power
of ten that it counts. -/
def scaled (t : NumberText) : Nat × Int :=
  let fraction := t.fraction.getD []
  let (n, left) := takeDigits 0 t.whole
  let (m, fractionLeft) := takeDigits n fraction
  (m, left.length - (fraction.length - fractionLeft.length : Nat))

/-- Greatest power of ten that is a double. -/
def maxTenPower : Nat := 308

/-- Greatest exponent that is read as a number. -/
def maxExponent : Nat := 0x7FFFFFFF

/-- `b / 10 ^ n`, divided by `10 ^ maxTenPower` at most at a time. -/
def divideTenPower (b : Binary) (n : Nat) : Option Binary :=
  if n ≤ maxTenPower then (BinaryFormat.double.tenPower n).bind (BinaryFormat.double.div b)
  else if b.significand = 0 then some b
  else
    ((BinaryFormat.double.tenPower maxTenPower).bind (BinaryFormat.double.div b)).bind
      (divideTenPower · (n - maxTenPower))
termination_by n
decreasing_by
  simp only [maxTenPower] at *
  omega

/-- `n · 10 ^ power` as a double; none if that is too large. -/
def scale (n : Nat) (power : Int) : Option Binary :=
  (BinaryFormat.double.round (.ofNat n)).bind fun b =>
    if n = 0 then some b
    else if power < 0 then divideTenPower b (-power).toNat
    else if maxTenPower < power then none
    else (BinaryFormat.double.tenPower power.toNat).bind (BinaryFormat.double.mul b)

/-- The magnitude of a number as a double; none if that is too large. -/
def magnitude? (t : NumberText) : Option Binary :=
  let (n, power) := t.scaled
  match t.exponent with
  | none => scale n power
  | some (negative, digits) =>
    let exponent := Text.digitsValue digits
    if maxExponent < exponent then if negative ∨ n = 0 then some (.ofNat 0) else none
    else scale n (if negative then power - exponent else power + exponent)

/-- Whether a number is beyond the largest double. -/
def isTooLarge (t : NumberText) : Bool := t.magnitude?.isNone

/-- The value of a number: an integer if it is written as one, fits 64 bits and
is not `-0`. -/
def value (negative : Bool) (t : NumberText) : Json :=
  let n := Text.digitsValue t.whole
  let text := String.ofList ((if negative then ['-'] else []) ++ t.chars)
  if t.fraction.isSome ∨ t.exponent.isSome then .decimal text
  else if negative then
    if n = 0 ∨ UInt64.size / 2 < n then .decimal text else .int (-n)
  else if n < UInt64.size then .int n else .decimal text

end NumberText

/-- Reads a number after its sign. -/
def readNumber (use : Use) (negative : Bool) (cs : List Char) :
    Except Fault (Json × List Char) :=
  match readNumberText use cs with
  | .error e => .error e
  | .ok (t, rest) =>
    if use = .kept ∧ t.isTooLarge then .error .malformed else .ok (t.value negative, rest)

/-- The double of a number that is not too large. -/
def double? : Json → Option Double
  | .int i => (BinaryFormat.double.round (.ofNat i.natAbs)).map (⟨decide (i < 0), ·⟩)
  | .decimal text =>
    let (negative, digits) := match text.toList with
      | '-' :: cs => (true, cs)
      | cs => (false, cs)
    match readNumberText .kept digits with
    | .error _ => none
    | .ok (t, _) => t.magnitude?.map (⟨negative, ·⟩)
  | _ => none

end Json
end MusicCollections
