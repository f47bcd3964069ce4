/-
# The command-line client of the daemon

The daemon is reached by running its client program `mpc`, which prints what was
asked for, one item a line.  Files and positions to work on go to its standard
input, one a line, so a queue of any size takes one run; without any there is no
run.  What it prints is read as lenient UTF-8.
-/

import MusicCollections.Daemon.Basic
import MusicCollections.Text.Utf8

namespace MusicCollections

/-- How to reach a daemon. -/
structure Profile where
  host : String := "localhost"
  port : Nat := 6600
  password : Option String := none
  deriving DecidableEq, Repr

/-- What a program printed, and its exit code. -/
structure Printed where
  code : UInt8 := 0
  out : List UInt8 := []
  err : List UInt8 := []

/-- A means, with state `ρ`, to run the client with arguments and input. -/
class Runner (ρ : Type) where
  run : (args : List String) → (input : String) → ρ → Except IoError Printed × ρ

/-- The client for one profile. -/
structure Client (ρ : Type) where
  /-- The arguments that name the daemon. -/
  connection : List String
  runner : ρ

namespace Client

variable {ρ : Type} [Runner ρ]

/-- The arguments that name the daemon of a profile. -/
def connectionArgs (profile : Profile) : List String :=
  let host := match profile.password with
    | some password => password ++ "@" ++ profile.host
    | none => profile.host
  ["-h", host, "-p", toString profile.port]

def ofProfile (profile : Profile) (runner : ρ) : Client ρ := ⟨connectionArgs profile, runner⟩

/-- What the client prints for the arguments, if it runs and succeeds. -/
def execute (args : List String) (input : String) : Daemon.Call (Client ρ) String := fun client =>
  let all := client.connection ++ args
  let failed (e : IoError) : Failure := (Failure.ofCause (.io e)).within .runningClient
  if all.any (·.toList.contains '\x00') then (.error (failed .nulInArgument), client)
  else
    match Runner.run all input client.runner with
    | (.error e, runner) => (.error (failed e), { client with runner })
    | (.ok printed, runner) =>
      if printed.code = 0 then (.ok (Text.decodeLossy printed.out), { client with runner })
      else
        let fault := .clientFailed args (Text.trim (Text.decodeLossy printed.err))
        (.error (.ofCause (.daemon fault)), { client with runner })

/-- What is made of the text that the client prints for the arguments. -/
def ask {α : Type} (args : List String) (read : String → α) : Daemon.Call (Client ρ) α :=
  fun client =>
    let (outcome, client) := execute args "" client
    (outcome.map read, client)

/-- Runs the client for its effect. -/
def order (args : List String) : Daemon.Call (Client ρ) Unit := ask args fun _ => ()

/-- Runs the client for its effect on the lines, if there are any. -/
def orderLines (args lines : List String) : Daemon.Call (Client ρ) Unit := fun client =>
  if lines.isEmpty then (.ok (), client)
  else
    let (outcome, client) := execute args (Text.join "\n" lines) client
    (outcome.map fun _ => (), client)

/-- Names what a call attempts in its failure. -/
def attempting {α : Type} (context : Context) (call : Daemon.Call (Client ρ) α) :
    Daemon.Call (Client ρ) α := fun client =>
  let (outcome, client) := call client
  (outcome.mapError (Failure.within context), client)

/-- The format in which tracks are listed; tags that are absent print nothing. -/
def trackFormat : String :=
  Text.join (String.singleton Track.separator)
    ["%file%", "[%artist%]", "[%albumartist%]", "[%album%]", "[%title%]", "[%track%]"]

/-- The tracks of a listing. -/
def tracksOfListing (text : String) : List Track := (Text.lines text).filterMap Track.ofLine?

/-- The lines of a text that hold more than white space. -/
def filledLines (text : String) : List String :=
  (Text.lines text).filter fun line => !(Text.trim line).isEmpty

/-- What begins the line of the statistics that tells when the database changed. -/
def stampLabel : String := "DB Updated:"

/-- The stamp in the daemon's statistics. -/
def stampOfStatistics? (text : String) : Option String :=
  (Text.lines text).findSome? fun line =>
    if stampLabel.toList.isPrefixOf line.toList then
      some (Text.trim (String.ofList (line.toList.drop stampLabel.length)))
    else none

/-- Asks for the stamp. -/
def askStamp : Daemon.Call (Client ρ) String := fun client =>
  match ask ["stats"] stampOfStatistics? client with
  | (.error f, client) => (.error f, client)
  | (.ok none, client) => (.error (.ofCause (.daemon .noStamp)), client)
  | (.ok (some stamp), client) => (.ok stamp, client)

instance : Daemon (Client ρ) where
  connect := attempting .connecting (order ["version"])
  databaseStamp := askStamp
  listTracks := ask ["-f", trackFormat, "listall"] tracksOfListing
  storedPlaylists := ask ["lsplaylists"] filledLines
  storedPlaylistTracks name :=
    attempting (.listingPlaylist name) (ask ["-f", "%file%", "playlist", name] filledLines)
  queueFiles := ask ["-f", "%file%", "playlist"] filledLines
  add := orderLines ["add"]
  insert := orderLines ["insert"]
  removePositions positions := orderLines ["del"] (positions.map toString)
  playPosition position := order ["play", toString position]
  clear := order ["clear"]
  crop := order ["crop"]
  update := order ["update", "--wait"]

end Client

/-- One run of the client: its arguments and input. -/
structure ClientRun where
  args : List String
  input : String
  deriving DecidableEq, Repr

/-- A client that answers from a table of what it prints for each command, and
keeps a journal of its runs. -/
structure ScriptedRunner where
  /-- What is printed by command; other commands print nothing. -/
  answers : List (String × Printed) := []
  installed : Bool := true
  journal : List ClientRun := []

namespace ScriptedRunner

/-- Arguments without the leading options that name the daemon or a format. -/
def command : List String → List String
  | option :: value :: rest =>
    if ["-h", "-p", "-f"].contains option then command rest else option :: value :: rest
  | args => args

instance : Runner ScriptedRunner where
  run args input runner :=
    if runner.installed then
      let printed := (runner.answers.lookup (Text.join " " (command args))).getD {}
      (.ok printed, { runner with journal := runner.journal ++ [⟨args, input⟩] })
    else (.error .notFound, runner)

end ScriptedRunner

end MusicCollections
