/-
# The end of a run

A run ends with an exit code and what it printed on either output.  A failure is
told by its message, with the causes in an indented list below it:

    Error: Failed to load collections

    Caused by:
        0: cannot read collections file c.mpdc: Is a directory (os error 21)
        1: Is a directory (os error 21)

A single cause has no number.
-/

import MusicCollections.Command.Basic

namespace MusicCollections

/-- How a run ended. -/
structure Exit where
  code : Nat := 0
  out : String := ""
  err : String := ""
  deriving DecidableEq, Repr

/-- The line breaks of a text followed by `indent`. -/
def Text.indentRest (indent : Nat) (text : String) : String :=
  Text.join ("\n" ++ String.ofList (List.replicate indent ' ')) (Text.parts '\n' text)

namespace Failure

/-- The line of a cause among several. -/
def numberedCause (cause : String) (i : Nat) : String :=
  let number := toString i
  String.ofList (List.replicate (5 - number.length) ' ') ++ number ++ ": " ++
    Text.indentRest 7 cause

/-- The lines of the causes. -/
def causeLines : List String → List String
  | [] => []
  | [cause] => ["", "Caused by:", "    " ++ Text.indentRest 4 cause]
  | causes => ["", "Caused by:"] ++ causes.zipIdx.map fun (cause, i) => numberedCause cause i

/-- What is printed about a failure. -/
def report (f : Failure) : String :=
  match f.chain with
  | [] => "Error: unknown\n"
  | message :: causes => Report.textOfLines (("Error: " ++ message) :: causeLines causes)

end Failure

/-- The exit of a report: 1 if it tells of a failure. -/
def Report.toExit (report : Report) : Exit :=
  match report.result with
  | .ok () => { out := report.outText, err := report.errText }
  | .error f => { code := 1, out := report.outText, err := report.errText ++ f.report }

/-- **The exit code is zero exactly if the command succeeded.** -/
theorem Report.toExit_code_eq_zero_iff {report : Report} :
    report.toExit.code = 0 ↔ report.result = .ok () := by
  unfold Report.toExit
  split <;> simp_all

end MusicCollections
