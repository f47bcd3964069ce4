/-
# What a text copied from a tag matches

Filters by artist, album artist, album, title and file lower-case the value and the pattern
apart, and look for the one in the other.  So a part of the value matches it where its capital
sigmas keep their form, the whole value among others, and a text matches every value that it is
a part of if and only if none of its capital sigmas is loose (`matches_every_part_iff`).
-/

import MusicCollections.Proofs.Lowercase
import MusicCollections.Tag

namespace MusicCollections
namespace Tag

variable {tag : Tag} {track : Track} {pattern : String}

/-- A filter on a text looks for the pattern in the value, both in lower case. -/
theorem matches_eq_true_iff (h : tag.policy = .contains) : tag.matches track pattern = true ↔
    Text.lowerChars pattern.toList <:+: Text.lowerChars (tag.value track).toList := by
  rw [Tag.matches, h]
  exact Text.hasPart_iff

/-- Any text can be the value of a tag. -/
theorem exists_value (tag : Tag) (value : String) : ∃ track, tag.value track = value := by
  cases tag with
  | artist => exact ⟨⟨"", { artist := value }⟩, rfl⟩
  | albumArtist => exact ⟨⟨"", { albumArtist := value }⟩, rfl⟩
  | album => exact ⟨⟨"", { album := value }⟩, rfl⟩
  | title => exact ⟨⟨"", { title := value }⟩, rfl⟩
  | number => exact ⟨⟨"", { number := value }⟩, rfl⟩
  | file | extension => exact ⟨⟨value, {}⟩, rfl⟩

/-- **A part of a value matches where its capital sigmas keep their form, and a text matches
every value that it is a part of if and only if none of its capital sigmas is loose.** -/
theorem matches_every_part_iff (h : tag.policy = .contains) (part : String) :
    (∀ track before after, (tag.value track).toList = before ++ part.toList ++ after →
      Text.SigmasKept before.reverse part.toList after → tag.matches track part = true) ∧
    ((∀ track, part.toList <:+: (tag.value track).toList → tag.matches track part = true) ↔
      ¬Text.SigmaLoose part.toList) := by
  have hkept : ∀ track before after, (tag.value track).toList = before ++ part.toList ++ after →
      Text.SigmasKept before.reverse part.toList after → tag.matches track part = true := by
    intro track before after hvalue hsigmas
    rw [matches_eq_true_iff h, hvalue]
    exact hsigmas.lowered_part
  refine ⟨hkept, ⟨fun hevery hloose => ?_, fun hfixed track hpart => ?_⟩⟩
  · obtain ⟨before, after, hmissing⟩ := hloose.exists_unmatched
    obtain ⟨track, hvalue⟩ := tag.exists_value (String.ofList (before ++ part.toList ++ after))
    have hwhole : (tag.value track).toList = before ++ part.toList ++ after := by
      rw [hvalue, String.toList_ofList]
    have hmatch := hevery track (hwhole ▸ List.infix_append before part.toList after)
    rw [matches_eq_true_iff h, hwhole] at hmatch
    exact hmissing hmatch
  · obtain ⟨before, after, hvalue⟩ := hpart
    exact hkept track before after hvalue.symm (Text.sigmasKept_of_not_loose hfixed _ _)

/-- A last word that ends in a capital sigma matches its value, and not every value that it is
a part of. -/
theorem matches_last_word :
    Tag.artist.policy = .contains ∧
      Tag.artist.matches ⟨"a.mp3", { artist := "ΟΔΟΣ ΑΣ" }⟩ "ΑΣ" = true ∧
      ∃ track, "ΑΣ".toList <:+: (Tag.artist.value track).toList ∧
        Tag.artist.matches track "ΑΣ" = false := by
  obtain ⟨hkept, hevery⟩ :=
    matches_every_part_iff (rfl : Tag.artist.policy = .contains) "ΑΣ"
  have hsigma : ∀ front back, "ΑΣ".toList = front ++ 'Σ' :: back → front = ['Α'] ∧ back = [] := by
    rintro (_ | ⟨c, _ | ⟨d, front⟩⟩) back hsplit
    · cases hsplit
    · cases hsplit
      exact ⟨rfl, rfl⟩
    · simp at hsplit
  refine ⟨rfl, ?_, ?_⟩
  · refine hkept _ "ΟΔΟΣ ".toList [] rfl fun front back hsplit => ?_
    obtain ⟨rfl, rfl⟩ := hsigma front back hsplit
    rfl
  · have hloose : Text.SigmaLoose "ΑΣ".toList :=
      ⟨['Α'], [], rfl, .inr ⟨nofun, rfl⟩⟩
    obtain ⟨track, hmissing⟩ := not_forall.1 (mt hevery.1 (not_not.2 hloose))
    obtain ⟨hpart, hfails⟩ := Classical.not_imp.1 hmissing
    exact ⟨track, hpart, Bool.eq_false_iff.2 hfails⟩

/-- The sigma ends the word of the part and not that of the value. -/
theorem part_with_cut_sigma_unmatched :
    "ΑΣ".toList <:+: (Tag.artist.value ⟨"a.mp3", { artist := "ΑΣΑ" }⟩).toList ∧
      Tag.artist.policy = .contains ∧
      Tag.artist.matches ⟨"a.mp3", { artist := "ΑΣΑ" }⟩ "ΑΣ" = false :=
  ⟨⟨[], ['Α'], rfl⟩, rfl, rfl⟩

end Tag
end MusicCollections
