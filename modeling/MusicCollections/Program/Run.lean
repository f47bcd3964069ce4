/-
# A run of the program

A run reads its command line and its configuration, and then either answers at
once (a completion script, the names of the collections) or carries out a command
in a session.  The cache is opened before the session and, if it is in a file,
written back after it, whatever happened in between; if it cannot be opened, the
run goes on without one.
-/

import MusicCollections.Cache.File
import MusicCollections.CommandLine.Reading
import MusicCollections.Completion.Names
import MusicCollections.Configuration.Load
import MusicCollections.Program.Help

namespace MusicCollections

/-- The cache of a run. -/
inductive RunCache where
  | memory (cache : MemoryCache)
  | file (path : Path) (cache : TableCache Rows)

namespace RunCache

/-- The cache that is empty and ends with the run. -/
def none : RunCache := .memory {}

/-- An operation on either kind of cache. -/
def operate {α : Type} (f : {κ : Type} → [Cache κ] → κ → α × κ) : RunCache → α × RunCache
  | .memory cache => let (a, cache) := f cache; (a, .memory cache)
  | .file path cache => let (a, cache) := f cache; (a, .file path cache)

instance : Cache RunCache where
  contains key cache := operate (Cache.contains key) cache
  read key cache := operate (Cache.read key) cache
  write now key value cache :=
    (operate (fun cache => ((), Cache.write now key value cache)) cache).2
  lastModified key cache := operate (Cache.lastModified key) cache

/-- Writes a cache that is in a file back to it. -/
def save {φ : Type} [Files φ] (files : φ) : RunCache → φ
  | .memory _ => files
  | .file path cache => ((CacheFile.save path cache.table).runOn files).2

end RunCache

/-- What a run finds and may change. -/
structure Machine (φ ρ : Type) where
  files : φ
  /-- The means to run the daemon's client. -/
  runner : ρ

/-- What a run is started with. -/
structure Start where
  words : List String
  environment : Environment
  /-- The configuration file that the environment names. -/
  config : Option Path := none
  now : Time := 0

namespace Program

variable {φ ρ : Type} [Files φ] [Runner ρ]

/-- What a session is started with. -/
structure Setup where
  profile : Profile
  columns : List Tag
  cache : RunCache
  path : Path

/-- The cache of a profile, in a file unless that is not wanted or not possible. -/
def openCache (e : Environment) (wanted : Bool) (profile : Nat) : Effect φ RunCache :=
  let loading : Effect φ RunCache := do
    let path ← e.cachePath profile
    let rows ← CacheFile.load path
    pure (.file path { table := rows })
  if wanted then
    .ofFunction fun files =>
      match loading.runOn files with
      | (.ok cache, files) => (.ok cache, files)
      | (.error _, files) => (.ok .none, files)
  else pure .none

/-- The outcome of a check of the configuration. -/
def checked {α : Type} (outcome : Except ConfigFault α) : Effect φ α :=
  .ofState fun _ => outcome.mapError fun fault => .ofCause (.config fault)

/-- What a session needs, as the configuration and the options say. -/
def setup (e : Environment) (options : Options) (c : Configuration) : Effect φ Setup := do
  let number := options.profile.getD c.defaultProfile
  let profile ← checked (c.profile (some number))
  let columns ← checked c.columnTags
  let cache ← openCache e (c.cache && !options.noCache) number
  let path ← c.collectionsPath e
  pure { profile, columns, cache, path }

/-- The machine after a session. -/
def leave (w : World φ RunCache (Client ρ)) : Machine φ ρ :=
  { files := w.cache.save w.files, runner := w.daemon.runner }

/-- Carries out a command in a session. -/
def inSession (now : Time) (s : Setup) (command : Command) (m : Machine φ ρ) :
    Report × Machine φ ρ :=
  let daemon := Client.ofProfile s.profile m.runner
  match Session.start s.path { files := m.files, cache := s.cache, daemon, now } with
  | (.error f, w) => (.ofResult (.error f), leave w)
  | (.ok session, _) =>
    let (report, session) := session.run s.columns command
    let (closed, w) := session.close
    ({ report with result := Session.conclude report.result closed }, leave w)

/-- Carries out a command. -/
def command (start : Start) (options : Options) (command : Command) (m : Machine φ ρ) :
    Report × Machine φ ρ :=
  let e := start.environment
  let preparing : Effect φ Setup := do
    let c ← Configuration.load e options.config
    setup e options c
  match preparing.runOn m.files with
  | (.error f, files) => (.ofResult (.error f), { m with files })
  | (.ok s, files) => inSession start.now s command { m with files }

/-- Lists the names of the collections. -/
def collectionNames (start : Start) (options : Options) (m : Machine φ ρ) :
    Report × Machine φ ρ :=
  let e := start.environment
  let listing : Effect φ NameSet := do
    let c ← Configuration.load e options.config
    let path ← c.collectionsPath e
    .ofState (Completion.names · path)
  match listing.runOn m.files with
  | (.error f, files) => (.ofResult (.error f), { m with files })
  | (.ok names, files) => ({ out := names }, { m with files })

/-- Runs the program. -/
def run (start : Start) (m : Machine φ ρ) : Exit × Machine φ ρ :=
  match CommandLine.read start.config start.words with
  | .error fault => (fault.toExit, m)
  | .ok ⟨_, .completion shell⟩ => ({ out := Report.textOfLines (Completion.script shell) }, m)
  | .ok ⟨options, .collectionNames⟩ =>
    let (report, m) := collectionNames start options m
    (report.toExit, m)
  | .ok ⟨options, .command c⟩ =>
    let (report, m) := command start options c m
    (report.toExit, m)

end Program

end MusicCollections
