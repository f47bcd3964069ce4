/-
# The listing of tracks reads back

The daemon's client lists a track on a line, its fields between separators.  Nothing is
escaped, so a listing reads back only if nothing in it can be taken for something else:
`Track.Listable` says so.  Every track that is read from a listing is listable
(`Client.listable_of_mem_tracksOfListing`), and every listing of such tracks is read as these
tracks, in their order; no other listing is (`Client.listing_reads_back_iff`).
-/

import Mathlib.Data.Prod.Basic
import MusicCollections.Daemon.Client
import MusicCollections.Proofs.Text

namespace MusicCollections

open Text

/-- The values of tags are five. -/
theorem Tags.forall_mem_values {tags : Tags} {p : String → Prop} :
    (∀ value ∈ tags.values, p value) ↔
      p tags.artist ∧ p tags.albumArtist ∧ p tags.album ∧ p tags.title ∧ p tags.number := by
  simp [Tags.values, Tags.fields]

namespace Track

variable {t : Track} {text : String}

/-- What is listed of a track: its file, and its tags in the order of the format. -/
def fields (t : Track) : List String := t.file :: t.tags.values

/-- The line that lists a track, without its end. -/
def listedLine (t : Track) : String := join (String.singleton separator) t.fields

/-- Nothing in the track can be taken for something else in a listing. -/
structure Listable (t : Track) : Prop where
  file_ne_empty : t.file ≠ ""
  feed_not_mem : ∀ field ∈ t.fields, '\n' ∉ field.toList
  separator_not_mem : ∀ field ∈ t.fields, separator ∉ field.toList
  trimmed : ∀ value ∈ t.tags.values, Trimmed value.toList

namespace Listable

/-- **The line of a track reads back.** -/
theorem ofLine?_listedLine (h : t.Listable) : ofLine? t.listedLine = some t := by
  have hparts : parts separator t.listedLine = t.file :: t.tags.values :=
    parts_join (List.cons_ne_nil _ _) h.separator_not_mem
  have hfile : t.file.isEmpty = false := by simpa using h.file_ne_empty
  obtain ⟨hartist, halbumArtist, halbum, htitle, hnumber⟩ :=
    Tags.forall_mem_values.1 fun value hvalue => trim_eq_iff.2 (h.trimmed value hvalue)
  unfold ofLine?
  rw [hparts]
  simp [hfile, Tags.values, Tags.fields, hartist, halbumArtist, halbum, htitle, hnumber]

/-- A line of the listing is one line. -/
theorem feed_not_mem_listedLine (h : t.Listable) : '\n' ∉ t.listedLine.toList := by
  intro hmem
  rcases mem_join hmem with hmem | ⟨field, hfield, hmem⟩
  · simp [separator] at hmem
  · exact h.feed_not_mem field hfield hmem

end Listable

/-- A line ends in the last tag, after a separator. -/
theorem toList_listedLine (t : Track) :
    ∃ before, t.listedLine.toList = before ++ separator :: t.tags.number.toList := by
  refine ⟨(join (String.singleton separator)
    [t.file, t.tags.artist, t.tags.albumArtist, t.tags.album, t.tags.title]).toList, ?_⟩
  simp [listedLine, fields, Tags.values, Tags.fields, join, String.intercalate_cons_cons]

/-- No line ends in a carriage return, which would belong to its end. -/
theorem Listable.getLast?_listedLine_ne (h : t.Listable) :
    t.listedLine.toList.getLast? ≠ some '\r' := by
  obtain ⟨before, hline⟩ := toList_listedLine t
  obtain ⟨-, -, -, -, hnumber⟩ := Tags.forall_mem_values.1 h.trimmed
  intro hlast
  rw [hline, List.getLast?_append_of_ne_nil _ (List.cons_ne_nil _ _)] at hlast
  cases hcs : t.tags.number.toList with
  | nil =>
    rw [hcs] at hlast
    exact absurd hlast (by decide)
  | cons c cs =>
    rw [hcs, List.getLast?_cons_cons, ← hcs] at hlast
    exact absurd (hnumber.last '\r' hlast) (by decide)

/-- **What is read from a line is listable.** -/
theorem listable_of_ofLine? (htext : '\n' ∉ text.toList) (h : ofLine? text = some t) :
    t.Listable := by
  unfold ofLine? at h
  split at h
  · cases h
  rename_i file rest hparts
  split at h
  · cases h
  rename_i hfile
  obtain rfl := Option.some.inj h
  have hpart : ∀ field ∈ file :: rest, '\n' ∉ field.toList ∧ separator ∉ field.toList := by
    intro field hfield
    obtain ⟨hsep, hsubset⟩ := of_mem_parts (hparts ▸ hfield)
    exact ⟨fun hmem => htext (hsubset hmem), hsep⟩
  -- A tag is trimmed from a part of the line, or empty where there is no part.
  have htag : ∀ i : Nat, '\n' ∉ (trim (rest[i]?.getD "")).toList ∧
      separator ∉ (trim (rest[i]?.getD "")).toList := by
    intro i
    rw [toList_trim]
    cases hi : rest[i]? with
    | none => exact ⟨List.not_mem_nil, List.not_mem_nil⟩
    | some field =>
      obtain ⟨hfeed, hsep⟩ := hpart field (List.mem_cons_of_mem _ (List.mem_of_getElem? hi))
      exact ⟨fun hmem => hfeed (mem_of_mem_trimChars hmem),
        fun hmem => hsep (mem_of_mem_trimChars hmem)⟩
  have hfields := hpart file List.mem_cons_self
  exact {
    file_ne_empty := by simpa using hfile
    feed_not_mem := List.forall_mem_cons.2 ⟨hfields.1, Tags.forall_mem_values.2
      ⟨(htag 0).1, (htag 1).1, (htag 2).1, (htag 3).1, (htag 4).1⟩⟩
    separator_not_mem := List.forall_mem_cons.2 ⟨hfields.2, Tags.forall_mem_values.2
      ⟨(htag 0).2, (htag 1).2, (htag 2).2, (htag 3).2, (htag 4).2⟩⟩
    trimmed := Tags.forall_mem_values.2 ⟨trimmed_trim _, trimmed_trim _, trimmed_trim _,
      trimmed_trim _, trimmed_trim _⟩ }

end Track

namespace Client

variable {tracks : List Track} {text : String} {t : Track}

/-- The listing of tracks, one a line. -/
def listing (tracks : List Track) : String := String.join (tracks.map fun t => t.listedLine ++ "\n")

/-- **What is read from a listing is listable.** -/
theorem listable_of_mem_tracksOfListing (h : t ∈ tracksOfListing text) : t.Listable := by
  obtain ⟨line, hline, ht⟩ := List.mem_filterMap.1 h
  exact Track.listable_of_ofLine? (newline_not_mem_lines hline) ht

/-- The lines of a listing are those of its tracks. -/
theorem lines_listing (h : ∀ t ∈ tracks, t.Listable) :
    lines (listing tracks) = tracks.map Track.listedLine := by
  have hlines : listing tracks = String.join ((tracks.map Track.listedLine).map (· ++ "\n")) := by
    rw [List.map_map]
    rfl
  rw [hlines, lines_join_lines]
  intro line hline
  obtain ⟨t, ht, rfl⟩ := List.mem_map.1 hline
  exact ⟨(h t ht).feed_not_mem_listedLine, (h t ht).getLast?_listedLine_ne⟩

/-- **A listing of listable tracks reads back.** -/
theorem tracksOfListing_listing (h : ∀ t ∈ tracks, t.Listable) :
    tracksOfListing (listing tracks) = tracks := by
  have hread : ∀ t ∈ tracks, (Track.ofLine? ∘ Track.listedLine) t = some t := by
    intro t ht
    rw [Function.comp_apply, (h t ht).ofLine?_listedLine]
  rw [tracksOfListing, lines_listing h, List.filterMap_map, List.filterMap_congr hread,
    List.filterMap_some]

/-- **A listing is read as the tracks that it lists if and only if each of them is listable.**
A daemon whose client prints the listing has these tracks. -/
theorem listing_reads_back_iff (tracks : List Track) :
    (tracksOfListing (listing tracks) = tracks ↔ ∀ t ∈ tracks, t.Listable) ∧
    ∀ {ρ : Type} [Runner ρ] (client left : Client ρ), (∀ t ∈ tracks, t.Listable) →
      execute ["-f", trackFormat, "listall"] "" client = (.ok (listing tracks), left) →
        Daemon.listTracks client = (.ok tracks, left) := by
  refine ⟨⟨fun hread t ht => ?_, tracksOfListing_listing⟩, fun client left h hprinted => ?_⟩
  · exact listable_of_mem_tracksOfListing (hread ▸ ht)
  · show ask ["-f", trackFormat, "listall"] tracksOfListing client = (.ok tracks, left)
    rw [ask, hprinted]
    exact congrArg (fun read => (Except.ok read, left)) (tracksOfListing_listing h)

/-- A file that begins in a space and ends in a carriage return, without tags, and one with a
carriage return in a tag. -/
def oddTracks : List Track :=
  [⟨" a\r", {}⟩, ⟨"b", { artist := "A\rB", title := "1" }⟩]

/-- A client that prints their listing. -/
def oddClient : Client ScriptedRunner where
  connection := []
  runner := { answers := [("listall", { out :=
    [0x20, 0x61, 0x0D, 0x1F, 0x1F, 0x1F, 0x1F, 0x1F, 0x0A,
      0x62, 0x1F, 0x41, 0x0D, 0x42, 0x1F, 0x1F, 0x1F, 0x31, 0x1F, 0x0A] })] }

/-- Both tracks are listable, and the daemon of the client has them. -/
theorem oddTracks_read_back :
    (∀ t ∈ oddTracks, t.Listable) ∧ tracksOfListing (listing oddTracks) = oddTracks ∧
      ∃ left,
        execute ["-f", trackFormat, "listall"] "" oddClient = (.ok (listing oddTracks), left) ∧
        Daemon.listTracks oddClient = (.ok oddTracks, left) := by
  have hfile : ∀ t ∈ oddTracks, t.file ≠ "" := by decide
  have hfeed : ∀ t ∈ oddTracks, ∀ field ∈ t.fields, '\n' ∉ field.toList := by decide +kernel
  have hseparator : ∀ t ∈ oddTracks, ∀ field ∈ t.fields, Track.separator ∉ field.toList := by
    decide +kernel
  have htrim : ∀ t ∈ oddTracks, ∀ value ∈ t.tags.values, trim value = value := by
    decide +kernel
  have hlistable : ∀ t ∈ oddTracks, t.Listable := fun t ht =>
    ⟨hfile t ht, hfeed t ht, hseparator t ht,
      fun value hvalue => trim_eq_iff.1 (htrim t ht value hvalue)⟩
  have hprinted : (execute ["-f", trackFormat, "listall"] "" oddClient).1 =
      .ok (listing oddTracks) := by
    decide +kernel
  obtain ⟨hiff, hclient⟩ := listing_reads_back_iff oddTracks
  have hrun := Prod.fst_eq_iff.1 hprinted
  exact ⟨hlistable, hiff.2 hlistable, _, hrun, hclient oddClient _ hlistable hrun⟩

end Client
end MusicCollections
