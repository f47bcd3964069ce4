/-
# A transcript of the client

What the client printed in its first runs, one answer after the other.  The first
run beyond them fails and is noted, so that whoever can run the client learns
which answer is missing.
-/

import MusicCollections.Daemon.Client

namespace MusicCollections

structure Transcript where
  /-- The answers to the runs to come. -/
  answers : List (Except IoError Printed) := []
  /-- The first run that had no answer. -/
  missing : Option ClientRun := none

namespace Transcript

/-- How a run without an answer fails. -/
def unanswered : IoError := .other "no answer"

instance : Runner Transcript where
  run args input t :=
    match t.missing, t.answers with
    | none, answer :: answers => (answer, { t with answers })
    | none, [] => (.error unanswered, { t with missing := some ⟨args, input⟩ })
    | some _, _ => (.error unanswered, t)

end Transcript

end MusicCollections
