/-
# What a tag filter compares

A filter `tag:pattern` selects tracks by one tag.  How the value is compared
with the pattern depends on the tag:

| tag | a track matches when |
| --- | --- |
| artist, albumartist, album, title, file | the value contains the pattern, in lower case |
| track | both begin with the same number, or are equal but for ASCII case |
| extension | the file name ends in a dot and the pattern, in lower case |

Numbers count below 2³²; a run of digits beyond that is no number.
-/

import MusicCollections.Text.Digits
import MusicCollections.Text.Lowercase
import MusicCollections.Text.Part
import MusicCollections.Track

namespace MusicCollections

/-- What a tag filter can select on. -/
inductive Tag where
  | artist
  | albumArtist
  | album
  | title
  | number
  | file
  /-- The last part of the file name, such as `flac`. -/
  | extension
  deriving DecidableEq, Repr

/-- How a value is compared with a pattern. -/
inductive MatchPolicy where
  | contains
  | trackNumber
  | suffix
  deriving DecidableEq, Repr

/-- Whether two texts are equal but for the case of ASCII letters. -/
def Text.equalIgnoringAsciiCase (s t : String) : Bool := Text.asciiLower s == Text.asciiLower t

namespace Tag

/-- All tags, in the order in which messages list them. -/
def all : List Tag := [.artist, .albumArtist, .album, .title, .number, .file, .extension]

def name : Tag → String
  | .artist => "artist"
  | .albumArtist => "albumartist"
  | .album => "album"
  | .title => "title"
  | .number => "track"
  | .file => "file"
  | .extension => "extension"

/-- The tag of a name, whatever its ASCII case. -/
def ofName? (name : String) : Option Tag :=
  all.find? fun tag => Text.equalIgnoringAsciiCase tag.name name

def policy : Tag → MatchPolicy
  | .number => .trackNumber
  | .extension => .suffix
  | _ => .contains

/-- The value of a tag; files stand for their extension. -/
def value (track : Track) : Tag → String
  | .artist => track.tags.artist
  | .albumArtist => track.tags.albumArtist
  | .album => track.tags.album
  | .title => track.tags.title
  | .number => track.tags.number
  | .file | .extension => track.file

end Tag

/-- The number that a text begins with, white space aside, if it is below
2³². -/
def leadingNumber? (s : String) : Option Nat :=
  let digits := (Text.trimChars s.toList).takeWhile Char.isDigit
  if digits.isEmpty then none
  else
    let n := Text.digitsValue digits
    if n < UInt32.size then some n else none

/-- Whether two track numbers count as the same. -/
def sameNumber (value pattern : String) : Bool :=
  match leadingNumber? value, leadingNumber? pattern with
  | some a, some b => a == b
  | _, _ => Text.equalIgnoringAsciiCase (Text.trim value) (Text.trim pattern)

/-- The characters of an extension, without the dot it may be written with. -/
def extensionChars (pattern : String) : List Char :=
  match pattern.toList with
  | '.' :: cs => Text.lowerChars cs
  | cs => Text.lowerChars cs

/-- Whether a file name ends in the extension `pattern`; no file ends in an
empty one. -/
def hasExtension (file pattern : String) : Bool :=
  let suffix := extensionChars pattern
  !suffix.isEmpty && ('.' :: suffix).isSuffixOf (Text.lowerChars file.toList)

/-- Whether a value matches a pattern. -/
def MatchPolicy.holds (policy : MatchPolicy) (value pattern : String) : Bool :=
  match policy with
  | .contains => Text.hasPart (Text.lowerChars pattern.toList) (Text.lowerChars value.toList)
  | .trackNumber => sameNumber value pattern
  | .suffix => hasExtension value pattern

/-- Whether the track's value of the tag matches the pattern. -/
def Tag.matches (tag : Tag) (track : Track) (pattern : String) : Bool :=
  tag.policy.holds (tag.value track) pattern

end MusicCollections
