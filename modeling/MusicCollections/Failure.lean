/-
# Failures

A failure has a cause, and around it contexts that say what was being attempted,
the outermost first.  Its chain are the messages of the contexts, of the cause,
and of what the cause wraps.
-/

import MusicCollections.Json.Value
import MusicCollections.Store.Error

namespace MusicCollections

/-- What went wrong between the library and the daemon. -/
inductive DaemonFault where
  /-- The daemon refused the call of a method. -/
  | refused (method : String)
  /-- There is no such position in the queue. -/
  | badPosition (position : Nat)
  /-- The client ran with these arguments and failed with this message. -/
  | clientFailed (args : List String) (message : String)
  /-- The client's statistics do not tell when the database changed. -/
  | noStamp
  deriving DecidableEq, Repr

def DaemonFault.message : DaemonFault → String
  | .refused method => method ++ " failed"
  | .badPosition position => "bad position " ++ toString position
  | .clientFailed args text => "mpc " ++ Text.join " " args ++ " failed: " ++ text
  | .noStamp => "mpc stats printed no `DB Updated` line"

/-- What is wrong with a configuration. -/
inductive ConfigFault where
  | noProfiles
  | noProfile (index count : Nat)
  | unknownColumn (name : String)
  | noConfigDirectory
  | noDataDirectory
  | noHome
  deriving DecidableEq, Repr

def ConfigFault.message : ConfigFault → String
  | .noProfiles => "`profiles` must list at least one daemon"
  | .noProfile index count =>
    "No profile " ++ toString index ++ ": " ++ toString count ++ " configured"
  | .unknownColumn name =>
    "Unknown column `" ++ name ++ "`; use artist, albumartist, album, title, track or file"
  | .noConfigDirectory =>
    "Could not determine system config directory. Pass --config explicitly."
  | .noDataDirectory => "Could not determine system data directory."
  | .noHome => "Cannot expand `~`: no home directory"

/-- Why a command that ran to its end failed. -/
inductive CommandFault where
  | expressionsFailed (failed count : Nat)
  | unresolved (count : Nat)
  deriving DecidableEq, Repr

def CommandFault.message : CommandFault → String
  | .expressionsFailed failed count =>
    toString failed ++ " of " ++ toString count ++ " expressions failed"
  | .unresolved count => toString count ++ " collections do not resolve"

inductive Cause where
  | expression (e : SyntaxError)
  | evaluation (e : EvalError)
  | store (e : StoreError)
  | daemon (fault : DaemonFault)
  | config (fault : ConfigFault)
  | command (fault : CommandFault)
  | io (e : IoError)
  | json (fault : Json.Fault)
  | other (message : String)
  deriving DecidableEq, Repr

/-- What was being attempted. -/
inductive Context where
  | resolving (expression : String)
  | loadingCollections
  | reloadingCollections
  /-- Saving failed too. -/
  | savingFailed (e : StoreError)
  | connecting
  | runningClient
  | listingPlaylist (name : String)
  | readingConfig (path : Path)
  | checkingConfig (path : Path)
  | makingConfigDirectory (path : Path)
  | makingDataDirectory (path : Path)
  | creating (path : Path)
  | reading (path : Path)
  | openingCache (path : Path)
  | creatingCacheTable
  | other (message : String)
  deriving DecidableEq, Repr

def Context.message : Context → String
  | .resolving expression => "Failed to resolve `" ++ expression ++ "`"
  | .loadingCollections => "Failed to load collections"
  | .reloadingCollections => "Failed to reload collections"
  | .savingFailed e => "Collections were not saved either: " ++ e.message
  | .connecting =>
    "Failed to connect to MPD. Make sure MPD is running and the profile's host and port are right"
  | .runningClient => "Failed to execute mpc command. Please install mpc (MPD client)"
  | .listingPlaylist name => "Failed to list stored playlist `" ++ name ++ "`"
  | .readingConfig path => "Failed to read configuration " ++ path
  | .checkingConfig path => "Invalid configuration " ++ path
  | .makingConfigDirectory path =>
    "Failed to create mpdc config directory at " ++ path ++ ". Please check file permissions."
  | .makingDataDirectory path =>
    "Failed to create mpdc data directory at " ++ path ++ ". Please check file permissions."
  | .creating path => "Failed to create " ++ path
  | .reading path => "Failed to read " ++ path
  | .openingCache path => "Failed to open cache database at " ++ path
  | .creatingCacheTable => "Failed to create cache table"
  | .other text => text

structure Failure where
  /-- What was being attempted, the outermost first. -/
  contexts : List Context := []
  cause : Cause
  deriving DecidableEq, Repr

/-- The messages of a store error and of what it wraps. -/
def StoreError.chain (e : StoreError) : List String :=
  match e with
  | .unreadable _ cause | .unwritable _ cause => [e.message, cause.message]
  | .invalidExpression _ cause => [e.message, cause.message]
  | _ => [e.message]

/-- The messages of an evaluation error and of what it wraps. -/
def EvalError.chain : EvalError → List String
  | .store e => e.chain
  | e => [e.message]

/-- The messages of a cause and of what it wraps.  What is wrong with JSON is told
by its kind alone. -/
def Cause.chain : Cause → List String
  | .expression e => [e.message]
  | .evaluation e => e.chain
  | .store e => e.chain
  | .daemon fault => [fault.message]
  | .config fault => [fault.message]
  | .command fault => [fault.message]
  | .io e => [e.message]
  | .json _ => []
  | .other text => [text]

namespace Failure

/-- The failure of a cause alone. -/
def ofCause (cause : Cause) : Failure := { cause }

/-- The failure inside a further context. -/
def within (context : Context) (f : Failure) : Failure :=
  { f with contexts := context :: f.contexts }

/-- All messages, the outermost first. -/
def chain (f : Failure) : List String := f.contexts.map Context.message ++ f.cause.chain

end Failure

end MusicCollections
