/-
# Tracks

A track is a file of the music library and what its tags say.  The daemon's
client lists tracks one per line, file and tags separated by U+001F; a line
without a file is no track, and tags that are missing at the end are empty.
-/

import MusicCollections.Text.Blank
import MusicCollections.Text.Lines

namespace MusicCollections

/-- The tags of a track; an absent tag is empty. -/
structure Tags where
  artist : String := ""
  albumArtist : String := ""
  album : String := ""
  title : String := ""
  number : String := ""
  deriving DecidableEq, Repr, Inhabited

structure Track where
  /-- Path inside the music directory, by which the track is known. -/
  file : String
  tags : Tags := {}
  deriving DecidableEq, Repr, Inhabited

namespace Tags

/-- The tags with their names, in the order in which reports list them. -/
def fields (tags : Tags) : List (String × String) :=
  [("artist", tags.artist), ("albumartist", tags.albumArtist), ("album", tags.album),
    ("title", tags.title), ("track", tags.number)]

/-- The values of the tags, in the order of `fields`. -/
def values (tags : Tags) : List String := tags.fields.map Prod.snd

/-- Tags are given by their values. -/
theorem values_injective {s t : Tags} (h : s.values = t.values) : s = t := by
  cases s
  cases t
  simpa [values, fields] using h

/-- Tags without white space around them; the artist stands in for an album
artist that is then empty. -/
def normalize (tags : Tags) : Tags :=
  let artist := Text.trim tags.artist
  let albumArtist := Text.trim tags.albumArtist
  { artist
    albumArtist := if albumArtist.isEmpty then artist else albumArtist
    album := Text.trim tags.album
    title := Text.trim tags.title
    number := Text.trim tags.number }

end Tags

namespace Track

/-- The track with its tags normalized. -/
def normalize (track : Track) : Track := { track with tags := track.tags.normalize }

/-- What separates the fields of a listed track. -/
def separator : Char := '\x1f'

/-- The track that a line of the listing stands for; only tags are trimmed. -/
def ofLine? (line : String) : Option Track :=
  match Text.parts separator line with
  | [] => none
  | file :: rest =>
    if file.isEmpty then none
    else
      let tag (i : Nat) := Text.trim (rest[i]?.getD "")
      some ⟨file, ⟨tag 0, tag 1, tag 2, tag 3, tag 4⟩⟩

end Track

end MusicCollections
