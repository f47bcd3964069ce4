/-
# The configuration

A JSON document such as

    {"profiles": [{"host": "localhost", "port": 6600, "password": null}],
     "default_profile": 1, "collections": "~/music/collections.mpdc",
     "columns": ["artist", "title", "album"], "cache": true}

in which every field may be left out.  Profiles count from 1.
-/

import MusicCollections.Daemon.Client
import MusicCollections.Json.Document
import MusicCollections.Tag

namespace MusicCollections

structure Configuration where
  /-- How to reach each daemon. -/
  profiles : List Profile := [{}]
  /-- The number of the profile that is used if no other is asked for. -/
  defaultProfile : Nat := 1
  /-- The definitions file, if it is not the usual one. -/
  collections : Option Path := none
  /-- The names of the tags by which tracks are listed. -/
  columns : List String := ["artist", "title", "album"]
  /-- Whether there is a cache file. -/
  cache : Bool := true
  deriving DecidableEq, Repr

namespace Configuration

/-- Greatest number of a port. -/
def maxPort : Nat := UInt16.size - 1

/-- Greatest number of a profile that a document can name. -/
def maxProfile : Nat := UInt64.size - 1

/-- The fields of a profile. -/
def profileFields : List (Json.Field Profile) :=
  [Json.field "host" Json.stringDecoder fun p host => { p with host },
    Json.field "port" (Json.naturalDecoder maxPort) fun p port => { p with port },
    Json.field "password" (Json.nullableDecoder Json.stringDecoder) fun p password =>
      { p with password }]

/-- The fields of a configuration. -/
def fields : List (Json.Field Configuration) :=
  [Json.field "profiles" (Json.listDecoder (Json.recordDecoder profileFields {}))
      fun c profiles => { c with profiles },
    Json.field "default_profile" (Json.naturalDecoder maxProfile)
      fun c defaultProfile => { c with defaultProfile },
    Json.field "collections" (Json.nullableDecoder Json.stringDecoder)
      fun c collections => { c with collections },
    Json.field "columns" (Json.listDecoder Json.stringDecoder) fun c columns => { c with columns },
    Json.field "cache" Json.boolDecoder fun c cache => { c with cache }]

/-- The profile of a number, or the default one. -/
def profile (c : Configuration) (number : Option Nat) : Except ConfigFault Profile :=
  let number := number.getD c.defaultProfile
  match number with
  | 0 => .error (.noProfile 0 c.profiles.length)
  | i + 1 =>
    match c.profiles[i]? with
    | some profile => .ok profile
    | none => .error (.noProfile number c.profiles.length)

/-- The tag of a column; the extension, which is no tag of its own, is none. -/
def column? (name : String) : Option Tag :=
  match Tag.ofName? name with
  | some .extension => none
  | tag => tag

/-- The tags of the columns. -/
def columnTags (c : Configuration) : Except ConfigFault (List Tag) :=
  c.columns.mapM fun name =>
    match column? name with
    | some tag => .ok tag
    | none => .error (.unknownColumn name)

/-- The configuration, if there is a profile, the default one is among them, and
all columns are known. -/
def check (c : Configuration) : Except ConfigFault Configuration := do
  if c.profiles.isEmpty then .error .noProfiles
  else
    let _ ← c.profile none
    let _ ← c.columnTags
    .ok c

/-- **What passes the check is kept as it is, and has its default profile.** -/
theorem check_eq_ok {c d : Configuration} (h : c.check = .ok d) :
    d = c ∧ ∃ p, c.profile none = .ok p := by
  unfold check at h
  split at h
  · cases h
  · cases hp : c.profile none with
    | error fault => simp [hp, bind, Except.bind] at h
    | ok p =>
      cases ht : c.columnTags with
      | error fault => simp [hp, ht, bind, Except.bind] at h
      | ok tags =>
        simp only [hp, ht, bind, Except.bind, Except.ok.injEq] at h
        exact ⟨h.symm, p, rfl⟩

/-- The configuration of a document. -/
def ofText (text : String) : Except Failure Configuration :=
  match Json.decode (Json.recordDecoder fields {}) text with
  | .error fault => .error (.ofCause (.json fault))
  | .ok c => c.check.mapError fun fault => .ofCause (.config fault)

end Configuration

end MusicCollections
