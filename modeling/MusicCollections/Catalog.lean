/-
# The catalog

What the daemon knows: its tracks in its own order, each file once, and the
stored playlists.  An index gives the position of each file.
-/

import MusicCollections.Dictionary
import MusicCollections.PositionSet
import MusicCollections.Tag
import Std.Data.HashMap

namespace MusicCollections

/-- Stored playlists: the files of each, by name. -/
abbrev Playlists := Dictionary (List String)

structure Catalog where
  tracks : Array Track
  /-- The position of each file in `tracks`. -/
  index : Std.HashMap String Nat
  playlists : Playlists
  /-- The index has the files of the tracks and no others. -/
  index_iff : ∀ file i, index[file]? = some i ↔ ∃ t : Track, tracks[i]? = some t ∧ t.file = file

namespace Catalog

/-- An index stays right when a track of a new file and its position are added. -/
theorem index_push {catalog : Catalog} {track : Track}
    (h : ¬catalog.index.contains track.file = true) (file : String) (i : Nat) :
    (catalog.index.insert track.file catalog.tracks.size)[file]? = some i ↔
      ∃ t : Track, (catalog.tracks.push track)[i]? = some t ∧ t.file = file := by
  have hnone : catalog.index[track.file]? = none := by simpa using h
  have hold := catalog.index_iff file i
  rw [Std.HashMap.getElem?_insert, Array.getElem?_push]
  by_cases hi : i = catalog.tracks.size
  · subst hi
    have hout : catalog.index[file]? ≠ some catalog.tracks.size := by
      rw [Ne, hold]
      simp
    by_cases hf : track.file = file
    · simp [hf]
    · simp [hf, hout]
  · by_cases hf : track.file = file
    · subst hf
      rw [hnone] at hold
      simpa [hi, Ne.symm hi] using hold
    · simpa [hi, hf] using hold

/-- Adds a track at the end; a file that is there already is passed over. -/
def push (catalog : Catalog) (track : Track) : Catalog :=
  if h : catalog.index.contains track.file then catalog
  else
    { catalog with
      tracks := catalog.tracks.push track
      index := catalog.index.insert track.file catalog.tracks.size
      index_iff := index_push h }

/-- The catalog without tracks. -/
def ofPlaylists (playlists : Playlists) : Catalog := ⟨#[], ∅, playlists, by simp⟩

/-- The catalog of the tracks, of which the first of each file counts. -/
def ofTracks (tracks : List Track) (playlists : Playlists) : Catalog :=
  tracks.foldl push (ofPlaylists playlists)

def size (catalog : Catalog) : Nat := catalog.tracks.size

/-- The position of a file. -/
def position? (catalog : Catalog) (file : String) : Option Nat := catalog.index[file]?

/-- The track at a position. -/
def track? (catalog : Catalog) (position : Nat) : Option Track := catalog.tracks[position]?

/-- The track of a file. -/
def get? (catalog : Catalog) (file : String) : Option Track :=
  (catalog.position? file).bind catalog.track?

/-- The files of a stored playlist. -/
def playlist? (catalog : Catalog) (name : String) : Option (List String) :=
  catalog.playlists.get? name

/-- The positions of the tracks that match a tag filter. -/
def select (catalog : Catalog) (tag : Tag) (pattern : String) : PositionSet :=
  let chosen := catalog.tracks.toList.zipIdx.filter fun (track, _) => tag.matches track pattern
  PositionSet.ofPositions catalog.size (chosen.map Prod.snd)

/-- The positions of the files listed; files that the catalog does not know
drop out. -/
def positionsOf (catalog : Catalog) (files : List String) : PositionSet :=
  PositionSet.ofPositions catalog.size (files.filterMap catalog.position?)

/-- The files at the positions of a set, in catalog order. -/
def filesAt (catalog : Catalog) (set : PositionSet) : List String :=
  set.items.filterMap fun position => (catalog.track? position).map (·.file)

end Catalog

end MusicCollections
