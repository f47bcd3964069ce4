/-
# Reading a command line

The levels are read from the outside in, and checked from the inside out.  An
option given on an inner level wins over the same option further out.  The
configuration file may be named by the environment instead.
-/

import MusicCollections.CommandLine.Level

namespace MusicCollections
namespace CommandLine

/-- Options of an inner level, completed by those further out. -/
def merge (inner outer : Options) : Options :=
  { config := inner.config <|> outer.config
    profile := inner.profile <|> outer.profile
    noCache := inner.noCache || outer.noCache }

/-- The options of a level that was read to its end.  A configuration file named
by the environment must have a name, whether or not it is used. -/
def finishLevel (environment : Option String) (place : Place) (level : Level) :
    Except UsageFault Level := do
  let level ← level.settle place
  if level.options.config.isNone ∧ environment = some "" then .error .invalidValue
  else .ok level

/-- The fault of a level that needs a command and has none. -/
def noCommandFault (environment : Option String) (level : Level) : UsageFault :=
  if level.options = {} ∧ environment.isNone then .nothingAsked else .noCommand

/-- The fault of a word where a command should be. -/
def commandFault (isCommand : String → Bool) (ended : Bool) (word : String) : UsageFault :=
  if ended && isCommand word then .unexpectedWord else .unknownCommand

/-- A place for commands. -/
def commandPlace (hasVersion : Bool) (isCommand : String → Bool) : Place :=
  { isCommand, hasVersion, fault := commandFault isCommand }

/-- The place of the operands of a command. -/
def operandPlace (leaf : Leaf) : Place := { most := leaf.most, admits := leaf.admits }

/-- The place of the commands of a group. -/
def groupPlace (members : List Leaf) : Place :=
  commandPlace false fun word => word == helpName || (leaf? members word).isSome

/-- The place of what stands first. -/
def rootPlace : Place :=
  commandPlace true fun word => word == helpName || (entryNamed word).isSome

/-- What asking for help on the commands named comes to: help, unless one of them
is not where it is looked for. -/
def helpOn (members : List Leaf) : List String → UsageFault
  | [] => .help
  | [word] => if word = helpName ∨ (leaf? members word).isSome then .help else .unknownCommand
  | _ => .unknownCommand

/-- What asking for help at the first level comes to. -/
def rootHelpOn : List String → UsageFault
  | [] => .help
  | word :: words =>
    match entryNamed word with
    | some (.group _ _ members) => helpOn members words
    | some (.single _) => if words.isEmpty then .help else .unknownCommand
    | none => if word = helpName ∧ words.isEmpty then .help else .unknownCommand

/-- Reads the words of a command. -/
def readLeaf (environment : Option String) (leaf : Leaf) (words : List String) :
    Except UsageFault CommandLine := do
  let place := operandPlace leaf
  let (level, _) ← Level.read place {} words
  let level ← finishLevel environment place level
  match leaf.request level.operands with
  | none => .error .missingOperand
  | some request => .ok ⟨level.options, request⟩

/-- Reads the words of a level for commands, where `inside` reads those of a
command and `help` says what asking for help comes to. -/
def readCommand (environment : Option String) (place : Place) (help : List String → UsageFault)
    (inside : String → List String → Except UsageFault CommandLine) (words : List String) :
    Except UsageFault CommandLine := do
  let (level, found) ← Level.read place {} words
  match found with
  | none =>
    let level ← finishLevel environment place level
    .error (noCommandFault environment level)
  | some (word, words) =>
    if word = helpName then .error (help words)
    else
      let line ← inside word words
      let level ← finishLevel environment place level
      .ok { line with options := merge line.options level.options }

/-- Reads the words of a group. -/
def readGroup (environment : Option String) (members : List Leaf) :
    List String → Except UsageFault CommandLine :=
  readCommand environment (groupPlace members) (helpOn members) fun word words =>
    match leaf? members word with
    | none => .error .unknownCommand
    | some leaf => readLeaf environment leaf words

/-- Reads a command line.  `environment` names the configuration file for lines
that do not. -/
def read (environment : Option String) (words : List String) : Except UsageFault CommandLine := do
  let line ← readCommand environment rootPlace rootHelpOn (fun word words =>
    match entryNamed word with
    | none => .error .unknownCommand
    | some (.single leaf) => readLeaf environment leaf words
    | some (.group _ _ members) => readGroup environment members words) words
  .ok { line with options := merge line.options { config := environment } }

end CommandLine
end MusicCollections
