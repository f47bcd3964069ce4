/-
# Carrying out commands
-/

import MusicCollections.Command.Collections
import MusicCollections.Command.Queue
import MusicCollections.Command.TagReport

namespace MusicCollections

/-- A command that needs a session. -/
inductive Command where
  | queue (action : QueueAction)
  | collections (action : CollectionsAction)
  | database (action : DatabaseAction)
  deriving DecidableEq, Repr

namespace Session

variable {φ κ δ : Type} [Files φ] [Cache κ] [Daemon δ]

/-- Reports on an effect that prints nothing. -/
def silently (act : Effect (Session φ κ δ) Unit) (s : Session φ κ δ) :
    Report × Session φ κ δ :=
  let (result, s) := act.runOn s
  (.ofResult result, s)

/-- Reports on the tags of the tracks that an expression selects. -/
def checkTags (words : Words) (s : Session φ κ δ) : Report :=
  match s.resolve words.text with
  | .error f => .ofResult (.error f)
  | .ok files => { out := (TagReport.ofFiles s.catalog files).lines }

/-- Carries out an action on the database. -/
def actOnDatabase (action : DatabaseAction) (s : Session φ κ δ) : Report × Session φ κ δ :=
  match action with
  | .update => silently refresh s
  | .check words => (s.checkTags words, s)

/-- Carries out a command; tracks are listed by the columns. -/
def run (columns : List Tag) (command : Command) (s : Session φ κ δ) : Report × Session φ κ δ :=
  match command with
  | .queue action => silently (actOnQueue action) s
  | .collections action => s.actOnCollections columns action
  | .database action => s.actOnDatabase action

end Session
end MusicCollections
