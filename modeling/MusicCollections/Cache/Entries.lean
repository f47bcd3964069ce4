/-
# What cache entries hold

The values under the keys of the cache: tracks, playlists, and collections with
their results.
-/

import MusicCollections.Cache.Basic
import MusicCollections.Catalog
import MusicCollections.Store.Collection

namespace MusicCollections

/-- The fields of a tag record, in order. -/
def Tags.fieldNames : List String := ["artist", "albumartist", "album", "title", "track"]

/-- The tags of a record, all of which must be there. -/
def Tags.ofJson? (value : Json) : Option Tags := do
  match ← Json.fields? fieldNames value with
  | [some artist, some albumArtist, some album, some title, some number] =>
    some {
      artist := ← artist.string?
      albumArtist := ← albumArtist.string?
      album := ← album.string?
      title := ← title.string?
      number := ← number.string? }
  | _ => none

def Tags.toJson (tags : Tags) : Json :=
  .object [("album", .string tags.album), ("albumartist", .string tags.albumArtist),
    ("artist", .string tags.artist), ("title", .string tags.title), ("track", .string tags.number)]

/-- Tags read back from the cache. -/
theorem Tags.ofJson?_toJson (tags : Tags) : Tags.ofJson? tags.toJson = some tags := by
  simp [ofJson?, toJson, Json.fields?, fieldNames, List.lookup_cons, Json.string?]

def Track.ofJson? (value : Json) : Option Track := do
  match ← Json.fields? ["file", "tags"] value with
  | [some file, some tags] => some ⟨← file.string?, ← Tags.ofJson? tags⟩
  | _ => none

def Track.toJson (track : Track) : Json :=
  .object [("file", .string track.file), ("tags", track.tags.toJson)]

/-- So do tracks. -/
theorem Track.ofJson?_toJson (track : Track) : Track.ofJson? track.toJson = some track := by
  simp [ofJson?, toJson, Json.fields?, List.lookup_cons, Json.string?, Tags.ofJson?_toJson]

def Playlists.ofJson? : Json → Option Playlists := Json.dictionary? Json.strings?

def Playlists.toJson (playlists : Playlists) : Json :=
  .object (playlists.map fun (name, files) => (name, Json.ofStrings files))

/-- A collection as the cache keeps it: what its expression spells is read from
the text again. -/
structure CachedCollection where
  name : String
  expression : String
  result : Option (List String)
  deriving DecidableEq, Repr

namespace CachedCollection

def ofCollection (c : Collection) : CachedCollection := ⟨c.name, c.expression, c.result⟩

def toCollection (c : CachedCollection) : Collection :=
  { Collection.ofText c.name c.expression with result := c.result }

/-- The result may be `null` or missing. -/
def ofJson? (value : Json) : Option CachedCollection := do
  match ← Json.fields? ["name", "expression", "songs"] value with
  | [some name, some expression, songs] =>
    let result ← (songs.getD .null).nullable? Json.strings?
    some ⟨← name.string?, ← expression.string?, result⟩
  | _ => none

def toJson (c : CachedCollection) : Json :=
  .object [("expression", .string c.expression), ("name", .string c.name),
    ("songs", (c.result.map Json.ofStrings).getD .null)]

/-- A collection reads back from the cache as it was written. -/
theorem ofJson?_toJson (c : CachedCollection) : ofJson? c.toJson = some c := by
  obtain ⟨name, expression, result⟩ := c
  cases result with
  | none => simp [ofJson?, toJson, Json.fields?, List.lookup_cons, Json.string?, Json.nullable?]
  | some files =>
    have h := Json.strings?_ofStrings files
    simp only [Json.ofStrings] at h
    simp [ofJson?, toJson, Json.fields?, List.lookup_cons, Json.string?, Json.nullable?,
      Json.ofStrings, h]

end CachedCollection

end MusicCollections
