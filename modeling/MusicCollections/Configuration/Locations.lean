/-
# Where files are

| file | place |
| --- | --- |
| configuration | `config.json` in the configuration directory |
| definitions | `collections.mpdc` in the configuration directory |
| cache of a profile | `cache-N.db` in the data directory |

The directories are `mpdc` in `$XDG_CONFIG_HOME` and in `$XDG_DATA_HOME`, if these
are absolute paths, and else in `.config` and in `.local/share` at home.  They
are made when they are needed.
-/

import MusicCollections.Effect
import MusicCollections.Files.Basic

namespace MusicCollections

/-- What the environment tells of places. -/
structure Environment where
  home : Option Path := none
  xdgConfig : Option Path := none
  xdgData : Option Path := none
  /-- The working directory. -/
  cwd : Path := "/"

namespace Environment

/-- The directory named by a variable, if that is absolute, or the one at home. -/
def directory (e : Environment) (named : Option Path) (atHome : Path) : Option Path :=
  match named.filter Path.isAbsolute with
  | some path => some path
  | none => e.home.map (Path.join · atHome)

variable {φ : Type} [Files φ]

/-- The directory `mpdc` in `base?`, which is made if it is missing. -/
def applicationDirectory (base? : Option Path) (missing : ConfigFault) (making : Path → Context) :
    Effect φ Path := do
  match base? with
  | none => .fail (.config missing)
  | some base =>
    let path := Path.join base "mpdc"
    let make : Effect φ Unit := .ofFunction fun files =>
      let (outcome, files) := Files.makeDirectories path files
      (outcome.mapError fun e => (Failure.ofCause (.io e)).within (making path), files)
    make
    pure path

/-- The configuration directory. -/
def configDirectory (e : Environment) : Effect φ Path :=
  applicationDirectory (e.directory e.xdgConfig ".config") .noConfigDirectory
    .makingConfigDirectory

/-- The data directory. -/
def dataDirectory (e : Environment) : Effect φ Path :=
  applicationDirectory (e.directory e.xdgData ".local/share") .noDataDirectory
    .makingDataDirectory

/-- The cache file of a profile. -/
def cachePath (e : Environment) (profile : Nat) : Effect φ Path := do
  let directory ← e.dataDirectory
  pure (Path.join directory ("cache-" ++ toString profile ++ ".db"))

/-- The absolute path that `path` stands for; a first component `~` is home. -/
def resolvePath (e : Environment) (path : Path) : Except ConfigFault Path :=
  match Path.components path with
  | "~" :: rest =>
    match e.home with
    | none => .error .noHome
    | some home => .ok (Path.absolute e.cwd (Path.join home (Text.join "/" rest)))
  | _ => .ok (Path.absolute e.cwd path)

end Environment

end MusicCollections
