/-
# Listing tracks

A track is listed on one line, as the columns asked for.  Several expressions are
listed one after the other, each under its own text, and one that fails does not
stop the others.
-/

import MusicCollections.Command.Basic

namespace MusicCollections

/-- The line of a track: its columns, or the file if all of them are empty. -/
def Track.line (columns : List Tag) (track : Track) : String :=
  let values := columns.map (Tag.value track)
  if values.all String.isEmpty then track.file else Text.join " - " values

namespace Session

variable {φ κ δ : Type}

/-- The files that the expression spelled by a text selects, or the message of
what is wrong with it. -/
def filesOrMessage (s : Session φ κ δ) (text : String) : Except String (List String) :=
  match parseExpression text with
  | .error e => .error e.message
  | .ok e => (evaluate s.catalog s.store e).mapError EvalError.message

/-- The lines of the tracks of the files. -/
def trackLines (s : Session φ κ δ) (columns : List Tag) (files : List String) : List String :=
  files.filterMap fun file => (s.catalog.get? file).map (Track.line columns)

/-- The lines for an expression on either output, under its text if it is one of
several. -/
def listing (s : Session φ κ δ) (columns : List Tag) (several : Bool) (text : String) :
    Except String (List String) :=
  match s.filesOrMessage text with
  | .error message => .error (text ++ ": " ++ message)
  | .ok files => .ok ((if several then [":: " ++ text] else []) ++ s.trackLines columns files)

/-- Lists the tracks of each expression. -/
def showTracks (s : Session φ κ δ) (columns : List Tag) (texts : List String) : Report :=
  let listings := texts.map (s.listing columns (decide (1 < texts.length)))
  let failed := listings.filterMap fun | .error line => some line | .ok _ => none
  { out := (listings.map fun | .error _ => [] | .ok lines => lines).flatten
    err := failed
    result :=
      if failed.isEmpty then .ok ()
      else .error (.ofCause (.command (.expressionsFailed failed.length texts.length))) }

end Session
end MusicCollections
