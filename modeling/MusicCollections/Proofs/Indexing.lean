/-
# The index of a catalog

A catalog takes the tracks of a list one by one.  A track of a file that the catalog has
changes nothing (`push_of_known`), and any other one comes to its end (`toList_push`).  So
after each of them the catalog has the tracks so far that none of their file stands before
(`firsts_eq_filter`), finds for a file the first of them (`find?_firsts`), and is the catalog
that these tracks alone make (`ofTracks_firsts`).

The positions are those of this list: `ofTracks_indexes` says that the index is its inverse.
-/

import Mathlib.Data.List.Induction
import MusicCollections.Proofs.Catalog

namespace MusicCollections
namespace Catalog

variable {catalog : Catalog} {tracks : List Track} {track : Track} {file : String}

/-! ## One track -/

/-- The index knows the files of the tracks. -/
theorem contains_index_iff :
    catalog.index.contains file = true ↔ ∃ t ∈ catalog.tracks, t.file = file := by
  rw [Std.HashMap.contains_eq_isSome_getElem?, Option.isSome_iff_exists]
  constructor
  · rintro ⟨i, hi⟩
    obtain ⟨t, ht, hfile⟩ := (catalog.index_iff file i).1 hi
    exact ⟨t, mem_tracks_iff.2 ⟨i, ht⟩, hfile⟩
  · rintro ⟨t, ht, hfile⟩
    obtain ⟨i, hi⟩ := mem_tracks_iff.1 ht
    exact ⟨i, (catalog.index_iff file i).2 ⟨t, hi, hfile⟩⟩

/-- A track whose file is there is passed over. -/
theorem push_of_known (h : ∃ t ∈ catalog.tracks, t.file = track.file) :
    catalog.push track = catalog := by
  rw [push, dif_pos (contains_index_iff.2 h)]

/-- A track of a new file is added at the end. -/
theorem toList_push (h : ¬∃ t ∈ catalog.tracks, t.file = track.file) :
    (catalog.push track).tracks.toList = catalog.tracks.toList ++ [track] := by
  rw [push, dif_neg (mt contains_index_iff.1 h), Array.toList_push]

/-- The track that a catalog finds for a file is the first one of it. -/
theorem get?_eq_find? (catalog : Catalog) (file : String) :
    catalog.get? file = catalog.tracks.toList.find? (·.file == file) := by
  cases hfind : catalog.tracks.toList.find? (·.file == file) with
  | some t =>
    have hfile : t.file = file := by simpa using List.find?_some hfind
    exact get?_eq_some_iff.2 ⟨Array.mem_toList_iff.1 (List.mem_of_find?_eq_some hfind), hfile⟩
  | none =>
    rw [Option.eq_none_iff_forall_ne_some]
    intro t ht
    obtain ⟨hmem, rfl⟩ := get?_eq_some_iff.1 ht
    simpa using List.find?_eq_none.1 hfind t (Array.mem_toList_iff.2 hmem)

/-! ## A list of tracks -/

/-- The last track of a list is added last. -/
theorem ofTracks_concat (tracks : List Track) (track : Track) (playlists : Playlists) :
    ofTracks (tracks ++ [track]) playlists = (ofTracks tracks playlists).push track :=
  List.foldl_concat ..

/-- What one more track of the list changes. -/
theorem firsts_concat (tracks : List Track) (track : Track) :
    firsts (tracks ++ [track]) =
      if ∃ t ∈ firsts tracks, t.file = track.file then firsts tracks
      else firsts tracks ++ [track] := by
  have htracks := toList_ofTracks tracks []
  have hknown : (∃ t ∈ (ofTracks tracks []).tracks, t.file = track.file) ↔
      ∃ t ∈ firsts tracks, t.file = track.file := by
    simp only [← htracks, Array.mem_toList_iff]
  rw [← toList_ofTracks (tracks ++ [track]) [], ofTracks_concat]
  split
  · rw [push_of_known (hknown.2 ‹_›), htracks]
  · rw [toList_push (mt hknown.1 ‹_›), htracks]

/-- **No file is lost.** -/
theorem exists_mem_firsts_iff :
    (∃ t ∈ firsts tracks, t.file = file) ↔ ∃ t ∈ tracks, t.file = file := by
  induction tracks using List.reverseRecOn with
  | nil => rfl
  | append_singleton tracks track ih =>
    rw [firsts_concat]
    split
    · rename_i hknown
      simp only [List.mem_append, List.mem_singleton, or_and_right, exists_or, exists_eq_left, ih]
      exact (or_iff_left_of_imp fun h => by rwa [h, ih] at hknown).symm
    · simp only [List.mem_append, List.mem_singleton, or_and_right, exists_or, exists_eq_left, ih]

/-- Of a list of tracks, none before the position is of the file of the track there. -/
def IsFirst (tracks : List Track) (entry : Track × Nat) : Prop :=
  ∀ t ∈ tracks.take entry.2, t.file ≠ entry.1.file

instance (tracks : List Track) : DecidablePred (IsFirst tracks) :=
  fun entry => inferInstanceAs (Decidable (∀ t ∈ tracks.take entry.2, t.file ≠ entry.1.file))

/-- What comes later makes no track any less the first of its file. -/
theorem isFirst_concat {entry : Track × Nat} (h : entry.2 < tracks.length) :
    IsFirst (tracks ++ [track]) entry ↔ IsFirst tracks entry := by
  rw [IsFirst, IsFirst, List.take_append_of_le_length h.le]

/-- **The first tracks are those that none of their file stands before.** -/
theorem firsts_eq_filter (tracks : List Track) :
    firsts tracks = (tracks.zipIdx.filter fun entry => IsFirst tracks entry).map Prod.fst := by
  induction tracks using List.reverseRecOn with
  | nil => rfl
  | append_singleton tracks track ih =>
    -- One more track changes nothing for those before it.
    have hold : (tracks.zipIdx.filter fun entry => IsFirst (tracks ++ [track]) entry) =
        tracks.zipIdx.filter fun entry => IsFirst tracks entry := by
      refine List.filter_congr fun entry hentry => ?_
      obtain ⟨-, hlt, -⟩ := List.mem_zipIdx hentry
      rw [decide_eq_decide]
      exact isFirst_concat (by omega)
    have hnew : IsFirst (tracks ++ [track]) (track, tracks.length) ↔
        ¬∃ t ∈ firsts tracks, t.file = track.file := by
      rw [exists_mem_firsts_iff, IsFirst, List.take_left]
      simp
    rw [List.zipIdx_append, List.filter_append, hold, List.map_append, ← ih, firsts_concat]
    split
    · rename_i hknown
      simp [mt hnew.1 (not_not.2 hknown)]
    · rename_i hnone
      simp [hnew.2 hnone]

example : firsts [⟨"a", { artist := "X" }⟩, ⟨"b", {}⟩, ⟨"a", { artist := "Z" }⟩] =
    [⟨"a", { artist := "X" }⟩, ⟨"b", {}⟩] := by decide

/-- **What is found for a file is found among the first tracks.** -/
theorem find?_firsts (tracks : List Track) (file : String) :
    (firsts tracks).find? (·.file == file) = tracks.find? (·.file == file) := by
  induction tracks using List.reverseRecOn with
  | nil => rfl
  | append_singleton tracks track ih =>
    rw [firsts_concat, List.find?_append, ← ih]
    split
    · obtain ⟨t, ht, hfile⟩ := ‹∃ t ∈ firsts tracks, t.file = track.file›
      by_cases htrack : track.file = file
      · have hfound : ((firsts tracks).find? (·.file == file)).isSome := by
          rw [List.find?_isSome]
          exact ⟨t, ht, by simp [hfile, htrack]⟩
        rw [Option.or_of_isSome hfound]
      · simp [htrack]
    · rw [List.find?_append]

/-- **The first tracks alone make the same catalog.** -/
theorem ofTracks_firsts (tracks : List Track) (playlists : Playlists) :
    ofTracks (firsts tracks) playlists = ofTracks tracks playlists := by
  induction tracks using List.reverseRecOn with
  | nil => rfl
  | append_singleton tracks track ih =>
    rw [firsts_concat, ofTracks_concat]
    split
    · rename_i hknown
      rw [push_of_known, ih]
      simpa only [← Array.mem_toList_iff, toList_ofTracks] using hknown
    · rw [ofTracks_concat, ih]

/-- **A catalog has the first track of each file of the list, in the order of the list, and its
index is the inverse of its list of tracks.**  So no two files have one position, the track of
a file is the first one of it, and the catalog of its own tracks is the same. -/
theorem ofTracks_indexes (tracks : List Track) (playlists : Playlists) :
    (ofTracks tracks playlists).tracks.toList =
      (tracks.zipIdx.filter fun entry => IsFirst tracks entry).map Prod.fst ∧
    (∀ file i, (ofTracks tracks playlists).position? file = some i ↔
      ∃ t, (ofTracks tracks playlists).tracks.toList[i]? = some t ∧ t.file = file) ∧
    (∀ file i, (ofTracks tracks playlists).position? file = some i →
      i < (ofTracks tracks playlists).size) ∧
    (∀ file file' i, (ofTracks tracks playlists).position? file = some i →
      (ofTracks tracks playlists).position? file' = some i → file = file') ∧
    (∀ file, (ofTracks tracks playlists).get? file = tracks.find? (·.file == file)) ∧
    ofTracks (ofTracks tracks playlists).tracks.toList playlists = ofTracks tracks playlists := by
  refine ⟨?_, fun file i => ?_, fun file i hi => ?_, fun file file' i hi hi' => ?_, fun file => ?_,
    ?_⟩
  · rw [toList_ofTracks, firsts_eq_filter]
  · rw [position?_eq_some_iff, track?, Array.getElem?_toList]
  · obtain ⟨t, ht, -⟩ := position?_eq_some_iff.1 hi
    exact lt_size_of_track? ht
  · obtain ⟨t, ht, rfl⟩ := position?_eq_some_iff.1 hi
    obtain ⟨u, hu, rfl⟩ := position?_eq_some_iff.1 hi'
    obtain rfl := Option.some.inj (ht.symm.trans hu)
    rfl
  · rw [get?_eq_find?, toList_ofTracks, find?_firsts]
  · rw [toList_ofTracks, ofTracks_firsts]

end Catalog
end MusicCollections
