/-
# Which track numbers are the same

Of a track number counts the run of digits at its start, if that stands for a number below
2³², and otherwise the whole text but for the case of ASCII letters; white space around it
never counts (`numberKey`).  Texts that differ in the case of ASCII letters alone begin with
the same digits (`leadingNumber?_congr`), so what counts of one text does not depend on the
other: a track matches a pattern of `track` if and only if the same counts of both
(`sameNumber_iff`).

Hence matching is an equivalence of texts, it is equality where both begin with a number, and
no text that does matches one that does not (`numberMatches_equivalence`).
-/

import Mathlib.Data.List.Induction
import Mathlib.Data.Nat.Digits.Defs
import MusicCollections.Proofs.Text
import MusicCollections.Tag

namespace MusicCollections

variable {s t : String} {cs digits rest : List Char} {m n : Nat}

/-! ## Digits at the start -/

/-- A run of digits stands for its number in base ten, of which the last digit comes first. -/
theorem Text.digitsValue_eq_ofDigits (cs : List Char) :
    digitsValue cs = Nat.ofDigits 10 (cs.reverse.map fun c => c.toNat - '0'.toNat) := by
  induction cs using List.reverseRecOn with
  | nil => rfl
  | append_singleton cs c ih =>
    rw [digitsValue_append_singleton, ih, List.reverse_append, List.reverse_singleton,
      List.singleton_append, List.map_cons, Nat.ofDigits_cons, digitValue, Nat.mul_comm,
      Nat.add_comm]
    rfl

/-- White space aside, the text begins with a run of digits that stands for the number. -/
def BeginsWithNumber (s : String) (n : Nat) : Prop :=
  ∃ digits rest, Text.trimChars s.toList = digits ++ rest ∧ digits ≠ [] ∧
    (∀ c ∈ digits, c.isDigit = true) ∧ (∀ c ∈ rest.head?, c.isDigit = false) ∧
    n = Nat.ofDigits 10 (digits.reverse.map fun c => c.toNat - '0'.toNat)

/-- A run of digits ends before the first character that is none. -/
theorem takeWhile_isDigit_append (hdigits : ∀ c ∈ digits, c.isDigit = true)
    (hrest : ∀ c ∈ rest.head?, c.isDigit = false) :
    (digits ++ rest).takeWhile Char.isDigit = digits := by
  rw [List.takeWhile_append_of_pos hdigits]
  cases rest with
  | nil => simp
  | cons c rest => simp [hrest c rfl]

/-- **The number at the start of a text** is that of its digits, if it is below 2³². -/
theorem leadingNumber?_eq_some_iff :
    leadingNumber? s = some n ↔ BeginsWithNumber s n ∧ n < 2 ^ 32 := by
  have hsize : UInt32.size = 2 ^ 32 := rfl
  simp only [leadingNumber?, hsize, Text.digitsValue_eq_ofDigits, List.isEmpty_iff]
  constructor
  · intro h
    split_ifs at h with hne hlt
    obtain rfl := Option.some.inj h
    refine ⟨⟨_, (Text.trimChars s.toList).dropWhile Char.isDigit,
      List.takeWhile_append_dropWhile.symm, hne, fun c hc => List.mem_takeWhile_imp hc,
      fun c hc => ?_, rfl⟩, hlt⟩
    obtain ⟨tail, htail⟩ := List.head?_eq_some_iff.1 hc
    exact Text.head_of_dropWhile htail
  · rintro ⟨⟨digits, rest, hsplit, hne, hdigits, hrest, rfl⟩, hlt⟩
    rw [hsplit, takeWhile_isDigit_append hdigits hrest, if_neg hne, if_pos hlt]

/-! ## What counts of a text -/

/-- A capital letter goes up by 32 code points, and every other character stays. -/
theorem Text.toLower_cases (c : Char) :
    (65 ≤ c.toNat ∧ c.toNat ≤ 90 ∧ c.toLower.toNat = c.toNat + 32) ∨
      (¬(65 ≤ c.toNat ∧ c.toNat ≤ 90) ∧ c.toLower = c) := by
  by_cases h : c.val ≥ 65 ∧ c.val ≤ 90
  · have hlow : 65 ≤ c.toNat := UInt32.le_iff_toNat_le.1 h.1
    have hhigh : c.toNat ≤ 90 := UInt32.le_iff_toNat_le.1 h.2
    have hval : c.toLower.val = c.val + 32 := congrArg Char.val (dif_pos h)
    have hsum : c.toLower.toNat = (c.toNat + 32) % 2 ^ 32 :=
      (congrArg UInt32.toNat hval).trans (UInt32.toNat_add _ _)
    exact .inl ⟨hlow, hhigh, by omega⟩
  · refine .inr ⟨fun ⟨hlow, hhigh⟩ => h ⟨?_, ?_⟩, dif_neg h⟩
    · exact UInt32.le_iff_toNat_le.2 hlow
    · exact UInt32.le_iff_toNat_le.2 hhigh

/-- The digits by their code points. -/
theorem Text.isDigit_iff {c : Char} : c.isDigit = true ↔ 48 ≤ c.toNat ∧ c.toNat ≤ 57 := by
  rw [Char.isDigit, Bool.and_eq_true, decide_eq_true_iff, decide_eq_true_iff, ge_iff_le,
    UInt32.le_iff_toNat_le, UInt32.le_iff_toNat_le]
  rfl

/-- Lower-casing ASCII letters makes no digit and changes none. -/
theorem Text.isDigit_toLower (c : Char) : c.toLower.isDigit = c.isDigit := by
  rw [Bool.eq_iff_iff, isDigit_iff, isDigit_iff]
  rcases toLower_cases c with ⟨_, _, h⟩ | ⟨-, h⟩
  · omega
  · rw [h]

/-- Digits are left by lower-casing. -/
theorem Text.toLower_of_isDigit {c : Char} (h : c.isDigit = true) : c.toLower = c := by
  have hdigit := isDigit_iff.1 h
  rcases toLower_cases c with ⟨_, _, -⟩ | ⟨-, hsame⟩
  · omega
  · exact hsame

/-- Lower-casing ASCII letters changes no digit and makes none. -/
theorem takeWhile_isDigit_map_toLower (cs : List Char) :
    (cs.map Char.toLower).takeWhile Char.isDigit = cs.takeWhile Char.isDigit := by
  have hdigit : Char.isDigit ∘ Char.toLower = Char.isDigit := funext Text.isDigit_toLower
  rw [List.takeWhile_map, hdigit]
  exact List.map_congr_left (fun c hc => Text.toLower_of_isDigit (List.mem_takeWhile_imp hc))
    |>.trans (List.map_id _)

/-- **The number of a text does not depend on the case of ASCII letters.** -/
theorem leadingNumber?_congr
    (h : Text.asciiLower (Text.trim s) = Text.asciiLower (Text.trim t)) :
    leadingNumber? s = leadingNumber? t := by
  have hchars := congrArg String.toList h
  simp only [Text.asciiLower, String.toList_ofList, Text.toList_trim] at hchars
  rw [leadingNumber?, leadingNumber?, ← takeWhile_isDigit_map_toLower, hchars,
    takeWhile_isDigit_map_toLower]

/-- What counts of a track number: the number at its start, or else the text. -/
def numberKey (s : String) : Nat ⊕ String :=
  match leadingNumber? s with
  | some n => .inl n
  | none => .inr (Text.asciiLower (Text.trim s))

/-- **Track numbers are the same if the same counts of them.** -/
theorem sameNumber_iff : sameNumber s t = true ↔ numberKey s = numberKey t := by
  -- If one text begins with a number and the other does not, they are not equal.
  have hcongr := leadingNumber?_congr (s := s) (t := t)
  unfold sameNumber numberKey
  cases hs : leadingNumber? s with
  | some m =>
    cases ht : leadingNumber? t with
    | some n => simp
    | none =>
      rw [hs, ht] at hcongr
      simpa [Text.equalIgnoringAsciiCase] using hcongr
  | none =>
    cases ht : leadingNumber? t with
    | some n =>
      rw [hs, ht] at hcongr
      simpa [Text.equalIgnoringAsciiCase] using hcongr
    | none => simp [Text.equalIgnoringAsciiCase]

/-! ## The relation of tracks and patterns -/

/-- The text begins with a number below 2³². -/
def Numbered (s : String) : Prop := ∃ n < 2 ^ 32, BeginsWithNumber s n

/-- Tracks of the one number match the other as a pattern. -/
def NumberMatches (number pattern : String) : Prop :=
  ∀ track : Track, track.tags.number = number → Tag.number.matches track pattern = true

/-- A pattern matches if the same counts of both texts. -/
theorem numberMatches_iff : NumberMatches s t ↔ numberKey s = numberKey t := by
  rw [← sameNumber_iff]
  constructor
  · exact fun h => h ⟨"", { number := s }⟩ rfl
  · rintro h track rfl
    exact h

/-- Of a text that begins with a number, the number counts. -/
theorem numberKey_of_beginsWithNumber (h : BeginsWithNumber s n) (hlt : n < 2 ^ 32) :
    numberKey s = .inl n := by
  rw [numberKey, leadingNumber?_eq_some_iff.2 ⟨h, hlt⟩]

/-- Of a text that begins with none, no number counts. -/
theorem numberKey_ne_inl (h : ¬Numbered s) (n : Nat) : numberKey s ≠ .inl n := by
  unfold numberKey
  cases hs : leadingNumber? s with
  | some m =>
    obtain ⟨hm, hlt⟩ := leadingNumber?_eq_some_iff.1 hs
    exact absurd ⟨m, hlt, hm⟩ h
  | none => simp

/-- **Matching by track number is an equivalence of texts.**  It depends on the number of the
track alone, two texts that begin with numbers below 2³² match if and only if the numbers are
equal, and a text that begins with one neither matches nor is matched by one that does not. -/
theorem numberMatches_equivalence :
    (∀ (track : Track) pattern,
      Tag.number.matches track pattern = true ↔ NumberMatches track.tags.number pattern) ∧
    Equivalence NumberMatches ∧
    (∀ s t m n, BeginsWithNumber s m → BeginsWithNumber t n → m < 2 ^ 32 → n < 2 ^ 32 →
      (NumberMatches s t ↔ m = n)) ∧
    ∀ s t, Numbered s → ¬Numbered t → ¬NumberMatches s t ∧ ¬NumberMatches t s := by
  have hkeys : NumberMatches = fun s t => numberKey s = numberKey t := by
    funext s t
    exact propext numberMatches_iff
  refine ⟨fun track pattern => ?_, ?_, fun s t m n hs ht hm hn => ?_, ?_⟩
  · rw [numberMatches_iff, ← sameNumber_iff]
    rfl
  · rw [hkeys]
    exact eq_equivalence.comap numberKey
  · rw [numberMatches_iff, numberKey_of_beginsWithNumber hs hm,
      numberKey_of_beginsWithNumber ht hn, Sum.inl.injEq]
  · rintro s t ⟨n, hlt, hn⟩ ht
    rw [numberMatches_iff, numberMatches_iff, numberKey_of_beginsWithNumber hn hlt]
    exact ⟨(numberKey_ne_inl ht n).symm, numberKey_ne_inl ht n⟩

/-- Zeros at the start and what follows the digits do not count, and beyond 2³² there is no
number. -/
theorem numberMatches_seven :
    BeginsWithNumber " 007/12" 7 ∧ BeginsWithNumber "7b" 7 ∧ NumberMatches " 007/12" "7b" ∧
      ¬Numbered "4294967296" ∧ ¬NumberMatches "4294967296" "7b" := by
  obtain ⟨-, -, hequal, hapart⟩ := numberMatches_equivalence
  have hzeros : leadingNumber? " 007/12" = some 7 := rfl
  have hletter : leadingNumber? "7b" = some 7 := rfl
  have hlarge : leadingNumber? "4294967296" = none := rfl
  obtain ⟨hzeros, hlt⟩ := leadingNumber?_eq_some_iff.1 hzeros
  obtain ⟨hletter, -⟩ := leadingNumber?_eq_some_iff.1 hletter
  have hnumberless : ¬Numbered "4294967296" := by
    rintro ⟨n, hn, hbegins⟩
    rw [leadingNumber?_eq_some_iff.2 ⟨hbegins, hn⟩] at hlarge
    cases hlarge
  exact ⟨hzeros, hletter, (hequal _ _ 7 7 hzeros hletter hlt hlt).2 rfl, hnumberless,
    (hapart _ _ ⟨7, hlt, hletter⟩ hnumberless).2⟩

end MusicCollections
