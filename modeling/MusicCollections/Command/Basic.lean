/-
# Commands

What a user can ask for once a session has started, and what it comes to: lines
on the two outputs, and whether it succeeded.  What was printed before a failure
stays printed.
-/

import MusicCollections.Session.Refresh

namespace MusicCollections

/-- Words of a command line that form one expression. -/
abbrev Words := List String

/-- The expression that words form. -/
def Words.text (words : Words) : String := Text.join " " words

/-- What is done to the queue with the tracks that an expression selects. -/
inductive QueueEdit where
  /-- Appends them. -/
  | add
  /-- Appends them and plays the first. -/
  | addAndPlay
  /-- Inserts them after the current track. -/
  | insert
  /-- Empties the queue and appends them. -/
  | replace
  /-- Removes them wherever they are queued. -/
  | remove
  /-- Removes all others. -/
  | keep
  /-- Plays the first of them that is queued. -/
  | play
  deriving DecidableEq, Repr

/-- What is done to the queue. -/
inductive QueueAction where
  | edit (how : QueueEdit) (words : Words)
  | clear
  /-- Removes all but the current track. -/
  | crop
  deriving DecidableEq, Repr

inductive CollectionsAction where
  | list
  /-- Lists the tracks of each expression. -/
  | showTracks (expressions : List String)
  | define (name : String) (words : Words)
  | delete (name : String)
  /-- Resolves every collection and reports the failures. -/
  | check
  deriving DecidableEq, Repr

inductive DatabaseAction where
  /-- Rescans and fetches everything. -/
  | update
  /-- Reports missing and colliding tags. -/
  | check (words : Words)
  deriving DecidableEq, Repr

/-- What a command printed and came to. -/
structure Report where
  out : List String := []
  err : List String := []
  result : Except Failure Unit := .ok ()

namespace Report

/-- The text of lines, each with its end. -/
def textOfLines (lines : List String) : String := String.join (lines.map (· ++ "\n"))

def outText (report : Report) : String := textOfLines report.out

def errText (report : Report) : String := textOfLines report.err

/-- The report of something that prints nothing. -/
def ofResult (result : Except Failure Unit) : Report := { result }

end Report

end MusicCollections
