/-
# Sets of tracks as sets of positions

In a catalog every file has one position, so a set of its tracks and a set of
their positions say the same.  `Catalog.Represents` is that correspondence.  What
the catalog selects (`represents_select`, `represents_positionsOf`) represents the
tracks selected, the operations on positions represent those on tracks, and the
files at the positions are the files of the tracks, in catalog order and each
once (`Represents.filesAt_eq`, `nodup_listing`).
-/

import Mathlib.Data.Set.Basic
import MusicCollections.Catalog
import MusicCollections.Proofs.PositionSet

namespace MusicCollections
namespace Catalog

variable {catalog : Catalog}

/-- **The position of a file is where its track stands.** -/
theorem position?_eq_some_iff {file : String} {i : Nat} :
    catalog.position? file = some i ↔ ∃ t, catalog.track? i = some t ∧ t.file = file :=
  catalog.index_iff file i

/-- **No file has two positions.** -/
theorem position_unique {i j : Nat} {t u : Track} (ht : catalog.track? i = some t)
    (hu : catalog.track? j = some u) (h : t.file = u.file) : i = j := by
  have hi : catalog.position? u.file = some i := position?_eq_some_iff.2 ⟨t, ht, h⟩
  have hj : catalog.position? u.file = some j := position?_eq_some_iff.2 ⟨u, hu, rfl⟩
  exact Option.some.inj (hi.symm.trans hj)

/-- Positions are below the size. -/
theorem lt_size_of_track? {i : Nat} {t : Track} (h : catalog.track? i = some t) :
    i < catalog.size := by
  rw [track?, Array.getElem?_eq_some_iff] at h
  exact h.1

/-- Every track stands at a position. -/
theorem mem_tracks_iff {t : Track} : t ∈ catalog.tracks ↔ ∃ i, catalog.track? i = some t :=
  Array.mem_iff_getElem?

/-- The track of a file is the one that has it. -/
theorem get?_eq_some_iff {file : String} {t : Track} :
    catalog.get? file = some t ↔ t ∈ catalog.tracks ∧ t.file = file := by
  rw [get?, Option.bind_eq_some_iff]
  constructor
  · rintro ⟨i, hi, ht⟩
    obtain ⟨u, hu, hfile⟩ := position?_eq_some_iff.1 hi
    obtain rfl := Option.some.inj (ht.symm.trans hu)
    exact ⟨mem_tracks_iff.2 ⟨i, ht⟩, hfile⟩
  · rintro ⟨hmem, hfile⟩
    obtain ⟨i, hi⟩ := mem_tracks_iff.1 hmem
    exact ⟨i, position?_eq_some_iff.2 ⟨t, hi, hfile⟩, hi⟩

/-- **No two tracks have one file.** -/
theorem nodup_files : (catalog.tracks.toList.map Track.file).Nodup := by
  rw [List.Nodup, List.pairwise_iff_getElem]
  intro i j hi hj hlt h
  rw [List.length_map] at hi hj
  rw [List.getElem_map, List.getElem_map, Array.getElem_toList, Array.getElem_toList] at h
  have hij := position_unique (Array.getElem?_eq_getElem hi) (Array.getElem?_eq_getElem hj) h
  omega

open Classical in
/-- The files of the tracks in a set, in catalog order. -/
noncomputable def listing (catalog : Catalog) (s : Set Track) : List String :=
  (catalog.tracks.toList.filter fun t => decide (t ∈ s)).map Track.file

/-- A listing has each file once. -/
theorem nodup_listing (s : Set Track) : (catalog.listing s).Nodup :=
  nodup_files.sublist (List.filter_sublist.map _)

/-- A listing has the files of the tracks in the set. -/
theorem mem_listing_iff {s : Set Track} {file : String} :
    file ∈ catalog.listing s ↔ ∃ t ∈ catalog.tracks, t ∈ s ∧ t.file = file := by
  simp [listing, and_assoc]

/-- Tracks of one file are the same. -/
theorem track_unique {t u : Track} (ht : t ∈ catalog.tracks) (hu : u ∈ catalog.tracks)
    (h : t.file = u.file) : t = u := by
  obtain ⟨i, hi⟩ := mem_tracks_iff.1 ht
  obtain ⟨j, hj⟩ := mem_tracks_iff.1 hu
  obtain rfl := position_unique hi hj h
  exact Option.some.inj (hi.symm.trans hj)

/-- The file of a track is listed if the track is in the set. -/
theorem file_mem_listing_iff {s : Set Track} {t : Track} (ht : t ∈ catalog.tracks) :
    t.file ∈ catalog.listing s ↔ t ∈ s := by
  rw [mem_listing_iff]
  constructor
  · rintro ⟨u, hu, hs, hfile⟩
    exact track_unique hu ht hfile ▸ hs
  · exact fun hs => ⟨t, ht, hs, rfl⟩

/-- Sets of tracks with one listing are the same. -/
theorem listing_injective {s u : Set Track} (hs : ∀ t ∈ s, t ∈ catalog.tracks)
    (hu : ∀ t ∈ u, t ∈ catalog.tracks) (h : catalog.listing s = catalog.listing u) : s = u := by
  ext t
  constructor
  · intro ht
    rw [← file_mem_listing_iff (hs t ht), ← h]
    exact (file_mem_listing_iff (hs t ht)).2 ht
  · intro ht
    rw [← file_mem_listing_iff (hu t ht), h]
    exact (file_mem_listing_iff (hu t ht)).2 ht

/-- The positions hold the tracks of the set, which are tracks of the catalog. -/
structure Represents (catalog : Catalog) (positions : PositionSet) (s : Set Track) : Prop where
  valid : positions.Valid
  size_eq : positions.size = catalog.size
  subset : ∀ t ∈ s, t ∈ catalog.tracks
  marks_iff : ∀ i t, catalog.track? i = some t →
    (PositionSet.marks positions.words i = true ↔ t ∈ s)

namespace Represents

variable {p q : PositionSet} {s u : Set Track}

/-- **The files at the positions are those of the tracks, in catalog order.** -/
theorem filesAt_eq (h : catalog.Represents p s) : catalog.filesAt p = catalog.listing s := by
  classical
  have hrange : ∀ n, n ≤ catalog.size →
      ((List.range n).filter (PositionSet.marks p.words)).filterMap
        (fun i => (catalog.track? i).map Track.file) =
      ((catalog.tracks.toList.take n).filter fun t => decide (t ∈ s)).map Track.file := by
    intro n hn
    induction n with
    | zero => rfl
    | succ n ih =>
      have hlt : n < catalog.tracks.toList.length := hn
      obtain ⟨t, hget, htrack⟩ : ∃ t, catalog.tracks.toList[n] = t ∧ catalog.track? n = some t :=
        ⟨_, rfl, by rw [track?, ← Array.getElem?_toList, List.getElem?_eq_getElem hlt]⟩
      have hmark : PositionSet.marks p.words n = decide (t ∈ s) := by
        rw [Bool.eq_iff_iff, decide_eq_true_iff]
        exact h.marks_iff n t htrack
      rw [List.range_succ, List.take_succ_eq_append_getElem hlt, hget, List.filter_append,
        List.filter_append, List.filterMap_append, List.map_append, ih (by omega)]
      by_cases hs : t ∈ s
      · simp [hmark, hs, htrack]
      · simp [hmark, hs]
  have hall := hrange catalog.size le_rfl
  rw [List.take_of_length_le (le_of_eq (by rw [Array.length_toList, size]))] at hall
  rw [filesAt, h.valid.items_eq, h.size_eq, hall, listing]

/-- A complement represents the tracks that are not in the set. -/
theorem complement (h : catalog.Represents p s) :
    catalog.Represents p.complement {t | t ∈ catalog.tracks ∧ t ∉ s} where
  valid := PositionSet.valid_complement h.valid
  size_eq := h.size_eq
  subset _ ht := ht.1
  marks_iff i t ht := by
    have hlt : i < p.size := h.size_eq ▸ lt_size_of_track? ht
    have hmem : t ∈ catalog.tracks := mem_tracks_iff.2 ⟨i, ht⟩
    rw [PositionSet.marks_complement h.valid]
    simp [hlt, hmem, ← h.marks_iff i t ht]

/-- An intersection represents the intersection. -/
theorem inter (hp : catalog.Represents p s) (hq : catalog.Represents q u) :
    catalog.Represents (p.inter q) (s ∩ u) where
  valid := PositionSet.valid_inter hp.valid hq.valid (hp.size_eq.trans hq.size_eq.symm)
  size_eq := hp.size_eq
  subset t ht := hp.subset t ht.1
  marks_iff i t ht := by
    rw [PositionSet.marks_inter hp.valid hq.valid (hp.size_eq.trans hq.size_eq.symm),
      Bool.and_eq_true, hp.marks_iff i t ht, hq.marks_iff i t ht]
    rfl

/-- A union represents the union. -/
theorem union (hp : catalog.Represents p s) (hq : catalog.Represents q u) :
    catalog.Represents (p.union q) (s ∪ u) where
  valid := PositionSet.valid_union hp.valid hq.valid (hp.size_eq.trans hq.size_eq.symm)
  size_eq := hp.size_eq
  subset t ht := ht.elim (hp.subset t) (hq.subset t)
  marks_iff i t ht := by
    rw [PositionSet.marks_union hp.valid hq.valid (hp.size_eq.trans hq.size_eq.symm),
      Bool.or_eq_true, hp.marks_iff i t ht, hq.marks_iff i t ht]
    rfl

end Represents

/-- All positions represent all tracks. -/
theorem represents_full (catalog : Catalog) :
    catalog.Represents (PositionSet.full catalog.size) {t | t ∈ catalog.tracks} where
  valid := PositionSet.valid_full _
  size_eq := rfl
  subset _ ht := ht
  marks_iff i t ht := by
    have hmem : t ∈ catalog.tracks := mem_tracks_iff.2 ⟨i, ht⟩
    simp [PositionSet.marks_full, lt_size_of_track? ht, hmem]

/-- A list of positions represents the tracks that stand at them. -/
theorem represents_ofPositions {positions : List Nat} {s : Set Track}
    (hs : ∀ t ∈ s, t ∈ catalog.tracks)
    (h : ∀ i t, catalog.track? i = some t → (i ∈ positions ↔ t ∈ s)) :
    catalog.Represents (PositionSet.ofPositions catalog.size positions) s where
  valid := PositionSet.valid_ofPositions _ _
  size_eq := PositionSet.size_ofPositions _ _
  subset := hs
  marks_iff i t ht := by
    rw [PositionSet.marks_ofPositions, decide_eq_true_iff, h i t ht]
    exact and_iff_left (lt_size_of_track? ht)

/-- The positions of a filter represent the tracks that match. -/
theorem represents_select (catalog : Catalog) (tag : Tag) (pattern : String) :
    catalog.Represents (catalog.select tag pattern)
      {t | t ∈ catalog.tracks ∧ tag.matches t pattern = true} := by
  refine represents_ofPositions (fun t ht => ht.1) fun i t ht => ?_
  have hi : catalog.tracks.toList[i]? = some t := by rwa [Array.getElem?_toList]
  have hmem : t ∈ catalog.tracks := mem_tracks_iff.2 ⟨i, ht⟩
  simp only [List.mem_map, List.mem_filter, Prod.exists, List.mem_zipIdx_iff_getElem?,
    exists_eq_right, Set.mem_ofPred_eq]
  constructor
  · rintro ⟨u, hu, hmatch⟩
    obtain rfl := Option.some.inj (hi.symm.trans hu)
    exact ⟨hmem, hmatch⟩
  · rintro ⟨-, hmatch⟩
    exact ⟨t, hi, hmatch⟩

/-- The files that a list names; those that the catalog does not know drop out. -/
theorem represents_positionsOf (catalog : Catalog) (files : List String) :
    catalog.Represents (catalog.positionsOf files) {t | t ∈ catalog.tracks ∧ t.file ∈ files} := by
  refine represents_ofPositions (fun t ht => ht.1) fun i t ht => ?_
  have hmem : t ∈ catalog.tracks := mem_tracks_iff.2 ⟨i, ht⟩
  simp only [List.mem_filterMap, position?_eq_some_iff, Set.mem_ofPred_eq]
  constructor
  · rintro ⟨file, hfile, u, hu, rfl⟩
    obtain rfl := Option.some.inj (ht.symm.trans hu)
    exact ⟨hmem, hfile⟩
  · rintro ⟨-, hfile⟩
    exact ⟨t.file, hfile, t, ht, rfl⟩

/-- A listing selects what it lists. -/
theorem filesAt_positionsOf_listing {s : Set Track} (hs : ∀ t ∈ s, t ∈ catalog.tracks) :
    catalog.filesAt (catalog.positionsOf (catalog.listing s)) = catalog.listing s := by
  have hset : {t | t ∈ catalog.tracks ∧ t.file ∈ catalog.listing s} = s := by
    ext t
    constructor
    · exact fun ht => (file_mem_listing_iff ht.1).1 ht.2
    · exact fun ht => ⟨hs t ht, (file_mem_listing_iff (hs t ht)).2 ht⟩
  rw [(catalog.represents_positionsOf (catalog.listing s)).filesAt_eq, hset]

/-! ## The tracks of a list -/

/-- The tracks without those of a file that comes before. -/
def firsts (tracks : List Track) : List Track := tracks.eraseDupsBy fun a b => a.file == b.file

/-- Tracks that are added one after the other come to those of new files, of which the first
of each file counts. -/
theorem toList_foldl_push (tracks : List Track) (catalog : Catalog) :
    (tracks.foldl push catalog).tracks.toList = catalog.tracks.toList ++
      firsts (tracks.filter fun t => !catalog.index.contains t.file) := by
  induction tracks generalizing catalog with
  | nil => simp [firsts, List.eraseDupsBy, List.eraseDupsBy.loop]
  | cons track rest ih =>
    rw [List.foldl_cons, ih, push]
    split
    · rename_i hthere
      rw [List.filter_cons_of_neg (by simp [hthere])]
    · rename_i hnew
      rw [List.filter_cons_of_pos (by simpa using hnew), firsts, firsts, List.eraseDupsBy_cons,
        List.filter_filter]
      simp only [Array.toList_push, List.append_assoc, List.cons_append, List.nil_append,
        Std.HashMap.contains_insert]
      congr 3
      refine List.filter_congr fun t _ => ?_
      by_cases h : t.file = track.file
      · simp [h]
      · simp [h, Ne.symm h]

/-- **A catalog has the tracks listed, of which the first of each file counts.** -/
theorem toList_ofTracks (tracks : List Track) (playlists : Playlists) :
    (ofTracks tracks playlists).tracks.toList = firsts tracks := by
  rw [ofTracks, toList_foldl_push]
  simp [ofPlaylists]

end Catalog
end MusicCollections
