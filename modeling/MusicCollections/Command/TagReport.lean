/-
# The tag report

A track should have all five tags, and no two tracks the same five.  A report
lists the tracks that lack tags, and groups the others by their tags; groups of
two or more are conflicts.
-/

import MusicCollections.Catalog

namespace MusicCollections

/-- Tracks that agree in all tags. -/
structure TagConflict where
  tags : Tags
  files : List String
  deriving DecidableEq, Repr

structure TagReport where
  /-- The files that lack tags, with the names of those tags. -/
  missing : List (String × List String) := []
  /-- The conflicts, in ascending order of the tags. -/
  conflicts : List TagConflict := []
  deriving DecidableEq, Repr

namespace Tags

/-- The names of the tags that are empty. -/
def missing (tags : Tags) : List String :=
  (tags.fields.filter (·.2.isEmpty)).map Prod.fst

end Tags

namespace TagReport

/-- Puts a track into the group of its tags; groups ascend by the values of the
tags. -/
def fileUnder (track : Track) : List TagConflict → List TagConflict
  | [] => [⟨track.tags, [track.file]⟩]
  | group :: groups =>
    if track.tags = group.tags then ⟨group.tags, group.files ++ [track.file]⟩ :: groups
    else if track.tags.values < group.tags.values then ⟨track.tags, [track.file]⟩ :: group :: groups
    else group :: fileUnder track groups

/-- The groups of the tracks that have all tags. -/
def groups (tracks : List Track) : List TagConflict :=
  (tracks.filter (·.tags.missing.isEmpty)).foldl (fun groups track => fileUnder track groups) []

/-- The report on the files that the catalog knows. -/
def ofFiles (catalog : Catalog) (files : List String) : TagReport :=
  let tracks := files.filterMap catalog.get?
  { missing :=
      (tracks.map fun track => (track.file, track.tags.missing)).filter (!·.2.isEmpty)
    conflicts := (groups tracks).filter (1 < ·.files.length) }

/-- The lines that tell which tags a file lacks. -/
def missingLines (entry : String × List String) : List String :=
  [entry.1, "missing tag(s): " ++ Text.join ", " entry.2]

/-- The lines that tell of a conflict. -/
def conflictLines (conflict : TagConflict) : List String :=
  let tags := conflict.tags
  ("Conflict with tags " ++ Text.join " - " [tags.artist, tags.album, tags.title, tags.number]) ::
    conflict.files.map ("    " ++ ·)

/-- The lines of a report. -/
def lines (report : TagReport) : List String :=
  report.missing.flatMap missingLines ++
    if report.conflicts.isEmpty then []
    else ["", "Conflict(s) found:"] ++ report.conflicts.flatMap conflictLines

end TagReport

end MusicCollections
