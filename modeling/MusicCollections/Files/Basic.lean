/-
# Files

What the library asks of a file system, whatever holds it: the modification time
and contents of a file, writes in place, and what it takes to give a file a new text
in steps.  A draft is made beside the file, the text is written to the draft, and the
draft takes the place of the file (`Files.replace`).  A step that fails discards the
draft, so the file has the old text or the new one.
-/

import MusicCollections.Files.Path
import MusicCollections.Text.Utf8

namespace MusicCollections

/-- Milliseconds since 1970.

A file system may tell times of files apart that are finer, and a cache keeps none that are.
Both are compared in whole milliseconds here: an entry written in the millisecond in which its
file was changed counts as no older than the file, where finer times of files would show it
as older. -/
abbrev Time := Nat

/-- Why a file system refused. -/
inductive IoError where
  | notFound
  | busy
  | alreadyExists
  | notADirectory
  | isADirectory
  | invalidArgument
  | nameTooLong
  | nulInPath
  | nulInArgument
  /-- The file is not UTF-8. -/
  | notText
  | other (message : String)
  deriving DecidableEq, Repr

def IoError.message : IoError → String
  | .notFound => "No such file or directory (os error 2)"
  | .busy => "Device or resource busy (os error 16)"
  | .alreadyExists => "File exists (os error 17)"
  | .notADirectory => "Not a directory (os error 20)"
  | .isADirectory => "Is a directory (os error 21)"
  | .invalidArgument => "Invalid argument (os error 22)"
  | .nameTooLong => "File name too long (os error 36)"
  | .nulInPath => "file name contained an unexpected NUL byte"
  | .nulInArgument => "nul byte found in provided data"
  | .notText => "stream did not contain valid UTF-8"
  | .other text => text

/-- What a file holds. -/
inductive Contents where
  | text (s : String)
  /-- Bytes that are not UTF-8. -/
  | bytes (bs : List UInt8)
  deriving DecidableEq, Repr

namespace Contents

def toBytes : Contents → List UInt8
  | .text s => s.toUTF8.toList
  | .bytes bs => bs

/-- The contents that are these bytes. -/
def ofBytes (bs : List UInt8) : Contents := (Text.decode? bs).elim (.bytes bs) .text

/-- The contents with a text after them. -/
def append (contents : Contents) (text : String) : Contents :=
  match contents with
  | .text s => .text (s ++ text)
  | .bytes bs => .ofBytes (bs ++ text.toUTF8.toList)

end Contents

/-- The operations of a file system whose state is a `φ`. -/
class Files (φ : Type) where
  /-- When the file or directory was last changed. -/
  modified : φ → Path → Except IoError Time
  /-- What a file holds. -/
  read : φ → Path → Except IoError Contents
  /-- Makes an empty file beside the one at a path, under a name of its own. -/
  createDraft : Path → φ → Except IoError Path × φ
  /-- Writes a text at the end of a file. -/
  append : String → Path → φ → Except IoError Unit × φ
  /-- Has a file take what was written to it. -/
  flush : Path → φ → Except IoError Unit × φ
  /-- Puts the file at the first path in the place of the one at the second. -/
  rename : Path → Path → φ → Except IoError Unit × φ
  /-- Removes a file. -/
  discard : Path → φ → φ
  /-- Gives a file new contents in place. -/
  write : Path → Contents → φ → Except IoError Unit × φ
  /-- Makes a directory and those above it. -/
  makeDirectories : Path → φ → Except IoError Unit × φ

namespace Files

variable {φ : Type} [Files φ]

/-- The text of a file. -/
def readText (files : φ) (path : Path) : Except IoError String :=
  match Files.read files path with
  | .error e => .error e
  | .ok (.bytes _) => .error .notText
  | .ok (.text s) => .ok s

/-- **A text is read where the contents are that text, and nowhere else.** -/
theorem readText_eq_ok_iff {files : φ} {path : Path} {s : String} :
    Files.readText files path = .ok s ↔ Files.read files path = .ok (.text s) := by
  unfold readText
  split <;> simp_all

/-- Whether something is at the path. -/
def present (files : φ) (path : Path) : Bool := (Files.modified files path).toBool

/-! ## Replacing a file -/

/-- Writes texts one after the other at the end of a file. -/
def appendAll (path : Path) : List String → φ → Except IoError Unit × φ
  | [], files => (.ok (), files)
  | text :: rest, files =>
    match Files.append text path files with
    | (.error e, files) => (.error e, files)
    | (.ok (), files) => appendAll path rest files

/-- Writes texts to a draft and puts it in the place of the file at a path. -/
def publish (draft path : Path) (texts : List String) (files : φ) : Except IoError Unit × φ :=
  match appendAll draft texts files with
  | (.error e, files) => (.error e, files)
  | (.ok (), files) =>
    match Files.flush draft files with
    | (.error e, files) => (.error e, files)
    | (.ok (), files) => Files.rename draft path files

/-- Gives a file the text that is made of these, by way of a draft.  The draft is discarded if
it does not take the place of the file. -/
def replace (path : Path) (texts : List String) (files : φ) : Except IoError Unit × φ :=
  match Files.createDraft path files with
  | (.error e, files) => (.error e, files)
  | (.ok draft, files) =>
    match publish draft path texts files with
    | (.error e, files) => (.error e, Files.discard draft files)
    | (.ok (), files) => (.ok (), files)

end Files

end MusicCollections
