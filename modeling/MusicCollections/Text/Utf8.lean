/-
# Reading UTF-8

A file is read as text only if all of it is UTF-8.  What a program prints is
read leniently: every longest run of bytes that begins a character and cannot
be continued is replaced by one U+FFFD.

| first byte | more bytes | second byte |
| --- | ---: | --- |
| 00–7F | 0 | |
| C2–DF | 1 | 80–BF |
| E0 | 2 | A0–BF |
| E1–EC, EE, EF | 2 | 80–BF |
| ED | 2 | 80–9F |
| F0 | 3 | 90–BF |
| F1–F3 | 3 | 80–BF |
| F4 | 3 | 80–8F |

Bytes after the second are 80–BF.
-/

namespace MusicCollections
namespace Text

/-- How a character continues after its first byte. -/
structure Continuation where
  /-- Bytes still to come. -/
  count : Nat
  /-- Least value of the next byte. -/
  low : Nat
  /-- Greatest value of the next byte. -/
  high : Nat

/-- The continuation after the first byte `b` of a character of several bytes. -/
def continuation? (b : Nat) : Option Continuation :=
  if 0xC2 ≤ b ∧ b ≤ 0xDF then some ⟨1, 0x80, 0xBF⟩
  else if b = 0xE0 then some ⟨2, 0xA0, 0xBF⟩
  else if b = 0xED then some ⟨2, 0x80, 0x9F⟩
  else if 0xE1 ≤ b ∧ b ≤ 0xEF then some ⟨2, 0x80, 0xBF⟩
  else if b = 0xF0 then some ⟨3, 0x90, 0xBF⟩
  else if 0xF1 ≤ b ∧ b ≤ 0xF3 then some ⟨3, 0x80, 0xBF⟩
  else if b = 0xF4 then some ⟨3, 0x80, 0x8F⟩
  else none

/-- The bits that the first byte `b` gives to its character. -/
def leadBits (b : Nat) : Nat :=
  if b < 0xE0 then b % 32 else if b < 0xF0 then b % 16 else b % 8

/-- Reads `count` more bytes onto `value`; the value is `none` if one is
missing or out of its range, and that byte is left. -/
def readTail : (count low high value : Nat) → List UInt8 → Option Nat × List UInt8
  | 0, _, _, value, bytes => (some value, bytes)
  | _ + 1, _, _, _, [] => (none, [])
  | count + 1, low, high, value, b :: bytes =>
    if low ≤ b.toNat ∧ b.toNat ≤ high then
      readTail count 0x80 0xBF (value * 64 + b.toNat % 64) bytes
    else (none, b :: bytes)

/-- Reading the bytes that continue a character leaves no more than there were. -/
theorem readTail_length_le (count low high value : Nat) (bytes : List UInt8) :
    (readTail count low high value bytes).2.length ≤ bytes.length := by
  induction bytes generalizing count low high value with
  | nil => cases count <;> simp [readTail]
  | cons b bytes ih =>
    cases count with
    | zero => simp [readTail]
    | succ count =>
      simp only [readTail]
      split
      · exact Nat.le_succ_of_le (ih ..)
      · simp

/-- The character that begins with byte `b`, `none` if no character does, and
the bytes after it. -/
def readChar (b : UInt8) (bytes : List UInt8) : Option Char × List UInt8 :=
  if b.toNat < 0x80 then (some (Char.ofNat b.toNat), bytes)
  else
    match continuation? b.toNat with
    | none => (none, bytes)
    | some k =>
      let (value, rest) := readTail k.count k.low k.high (leadBits b.toNat) bytes
      (value.map Char.ofNat, rest)

/-- So does reading a character, which ends the decoding. -/
theorem readChar_length_le (b : UInt8) (bytes : List UInt8) :
    (readChar b bytes).2.length ≤ bytes.length := by
  unfold readChar
  split
  · simp
  · split
    · simp
    · exact readTail_length_le ..

/-- The characters of a byte sequence after those in `done`, which are given
backwards; `none` stands for a run of bytes that is no character. -/
def charsAfter (done : List (Option Char)) : List UInt8 → List (Option Char)
  | [] => done.reverse
  | b :: bytes => charsAfter ((readChar b bytes).1 :: done) (readChar b bytes).2
termination_by bytes => bytes.length
decreasing_by
  have := readChar_length_le b bytes
  simp
  omega

/-- The text that the bytes encode, if all of them do. -/
def decode? (bytes : List UInt8) : Option String :=
  ((charsAfter [] bytes).mapM id).map String.ofList

/-- The text that the bytes encode, with U+FFFD in the place of what is no
character. -/
def decodeLossy (bytes : List UInt8) : String :=
  String.ofList ((charsAfter [] bytes).map (·.getD '\uFFFD'))

end Text
end MusicCollections
