/-
# One level of a command line

A command line is read level by level: the words before the first command, the
words before a command of a group, and the words of that command.  Options may
stand on every level, once on each.  On a level

* `--name value` and `--name=value` give an option its value, `--name` is a flag,
  and so is each letter of `-letters`;
* after `--` no word is an option or a command;
* any other word is a command, or an operand.

A value is checked when the next option or operand is read, or at the end of the
level, so that a word that is not expected is reported before a value that is
not.
-/

import MusicCollections.CommandLine.Table

namespace MusicCollections
namespace CommandLine

/-- An option that takes a value. -/
inductive ValueOption where
  | config
  | profile
  deriving DecidableEq, Repr

/-- How a word looks. -/
inductive Shape where
  /-- `--` -/
  | ending
  /-- `--name` or `--name=value` -/
  | long (name : String) (value : Option String)
  /-- `-letters` -/
  | short (letters : List Char)
  | plain
  deriving DecidableEq, Repr

/-- How a word looks; `-` alone is plain. -/
def shape (word : String) : Shape :=
  match word.toList with
  | ['-', '-'] => .ending
  | '-' :: '-' :: name =>
    let name := String.ofList name
    match Text.splitAtFirst '=' name with
    | some (name, value) => .long name (some value)
    | none => .long name none
  | '-' :: c :: letters => .short (c :: letters)
  | _ => .plain

/-- Bound of the number of a profile. -/
def profileBound : Nat := UInt64.size

/-- The number that a word spells, which may begin with a plus sign. -/
def number? (word : String) : Option Nat :=
  let digits := match word.toList with
    | '+' :: digits => digits
    | digits => digits
  if digits.isEmpty || !digits.all Char.isDigit then none
  else
    let n := Text.digitsValue digits
    if n < profileBound then some n else none

/-- Gives an option its value. -/
def give (options : Options) (option : ValueOption) (text : String) :
    Except UsageFault Options :=
  match option with
  | .config =>
    if options.config.isSome then .error .repeatedOption
    else if text.isEmpty then .error .invalidValue
    else .ok { options with config := some text }
  | .profile =>
    if options.profile.isSome then .error .repeatedOption
    else
      match number? text with
      | none => .error .notANumber
      | some n => .ok { options with profile := some n }

/-- What can stand on a level. -/
structure Place where
  /-- Whether a word is a command here. -/
  isCommand : String → Bool := fun _ => false
  /-- Whether the version can be asked for. -/
  hasVersion : Bool := false
  /-- The most operands, if there is a limit. -/
  most : Option Nat := some 0
  /-- Whether a word can be an operand. -/
  admits : String → Bool := fun _ => true
  /-- What is wrong with a word that finds no place, where `ended` says that it
  comes after `--`. -/
  fault : (ended : Bool) → (word : String) → UsageFault := fun _ _ => .unexpectedWord

/-- A level as far as it was read. -/
structure Level where
  options : Options := {}
  /-- An option with its value, `none` if that is still to come, which was not
  checked yet. -/
  pending : Option (ValueOption × Option String) := none
  /-- Whether `--` was read. -/
  ended : Bool := false
  operands : List String := []

namespace Level

/-- Whether the next word is the value of an option. -/
def awaitsValue (level : Level) : Bool :=
  match level.pending with
  | some (_, none) => true
  | _ => false

/-- Checks the values read. -/
def settle (place : Place) (level : Level) : Except UsageFault Level :=
  if !level.operands.all place.admits then .error .invalidValue
  else
    match level.pending with
    | none => .ok level
    | some (_, none) => .error .invalidValue
    | some (option, some text) =>
      (give level.options option text).map fun options => { level with options, pending := none }

/-- Reads the name of an option that takes a value, or that with its value. -/
def takeValueOption (place : Place) (option : ValueOption) (value : Option String)
    (level : Level) : Except UsageFault Level := do
  let level ← level.settle place
  match value with
  | none => .ok { level with pending := some (option, none) }
  | some text => settle place { level with pending := some (option, some text) }

/-- Reads a flag that asks for something else than a command. -/
def takeQuestion (place : Place) (fault : UsageFault) (value : Option String) (level : Level) :
    Except UsageFault Level :=
  if value.isSome then .error .needlessValue
  else
    match level.settle place with
    | .error fault => .error fault
    | .ok _ => .error fault

/-- Reads the flag `--no-cache`. -/
def takeNoCache (place : Place) (value : Option String) (level : Level) :
    Except UsageFault Level :=
  if value.isSome then .error .needlessValue
  else do
    let level ← level.settle place
    if level.options.noCache then .error .repeatedOption
    else .ok { level with options := { level.options with noCache := true } }

/-- Reads `--name` or `--name=value`. -/
def takeLong (place : Place) (name : String) (value : Option String) (level : Level) :
    Except UsageFault Level :=
  if name = "config" then level.takeValueOption place .config value
  else if name = "profile" then level.takeValueOption place .profile value
  else if name = "no-cache" then level.takeNoCache place value
  else if name = "help" then level.takeQuestion place .help value
  else if name = "version" ∧ place.hasVersion then level.takeQuestion place .version value
  else .error .unexpectedWord

/-- Reads `-letters`, of which the first decides, since each asks for something
else than a command. -/
def takeShort (place : Place) (letters : List Char) (level : Level) : Except UsageFault Level :=
  match letters with
  | 'h' :: _ => level.takeQuestion place .help none
  | 'V' :: _ =>
    if place.hasVersion then level.takeQuestion place .version none else .error .unexpectedWord
  | _ => .error .unexpectedWord

/-- Reads an operand. -/
def takeOperand (place : Place) (word : String) (level : Level) : Except UsageFault Level :=
  if place.most.any (· ≤ level.operands.length) then .error (place.fault level.ended word)
  else do
    let level ← if level.pending.isSome then level.settle place else .ok level
    .ok { level with operands := level.operands ++ [word] }

/-- Reads a word that is no command. -/
def take (place : Place) (word : String) (level : Level) : Except UsageFault Level :=
  if level.ended then level.takeOperand place word
  else
    match shape word with
    | .ending => .ok { level with ended := true }
    | .long name value => level.takeLong place name value
    | .short letters => level.takeShort place letters
    | .plain =>
      match level.pending with
      | some (option, none) => .ok { level with pending := some (option, some word) }
      | _ => level.takeOperand place word

/-- Reads words up to the first command, which is given with the words after it. -/
def read (place : Place) (level : Level) :
    List String → Except UsageFault (Level × Option (String × List String))
  | [] => .ok (level, none)
  | word :: words =>
    if !level.ended && !level.awaitsValue && place.isCommand word then
      .ok (level, some (word, words))
    else
      match level.take place word with
      | .error fault => .error fault
      | .ok level => read place level words

end Level

end CommandLine
end MusicCollections
