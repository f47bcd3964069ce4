/-
# The cache file

The table is kept in a file, which is made with an empty table if it is missing
or empty.  A file that holds something else is left as it is.
-/

import MusicCollections.Cache.Rows
import MusicCollections.Effect

namespace MusicCollections
namespace CacheFile

variable {φ : Type} [Files φ]

/-- Writes the table to its file. -/
def save (path : Path) (rows : Rows) : Effect φ Unit :=
  .ofFunction fun files =>
    let (outcome, files) := Files.write path rows.contents files
    (outcome.mapError fun e => (Failure.ofCause (.io e)).within (.openingCache path), files)

/-- The bytes of the file, none if it is missing. -/
def readBytes (files : φ) (path : Path) : Except Failure (List UInt8) :=
  match Files.read files path with
  | .ok contents => .ok contents.toBytes
  | .error .notFound => .ok []
  | .error e => .error ((Failure.ofCause (.io e)).within (.openingCache path))

/-- The table in a file, which is there afterwards. -/
def load (path : Path) : Effect φ Rows := do
  let bytes ← .ofState (readBytes · path)
  match Rows.ofBytes? bytes with
  | none => (Effect.fail (.other "not a cache table")).attempting .creatingCacheTable
  | some rows => do
    save path rows.create
    pure rows.create

end CacheFile
end MusicCollections
