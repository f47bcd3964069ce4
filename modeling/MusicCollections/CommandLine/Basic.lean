/-
# The command line

What a command line asks for, the options it gives with it, and what can be wrong
with one.
-/

import MusicCollections.Command.Run

namespace MusicCollections

/-- A shell for which there is a completion script. -/
inductive Shell where
  | bash
  | zsh
  | fish
  | powerShell
  | elvish
  deriving DecidableEq, Repr

namespace Shell

def all : List Shell := [.bash, .zsh, .fish, .powerShell, .elvish]

def name : Shell → String
  | .bash => "bash"
  | .zsh => "zsh"
  | .fish => "fish"
  | .powerShell => "power-shell"
  | .elvish => "elvish"

def ofName? (name : String) : Option Shell := all.find? (·.name == name)

/-- Every shell is known by its name. -/
theorem ofName?_name (shell : Shell) : ofName? shell.name = some shell := by
  cases shell <;> decide

end Shell

/-- What a command line asks for. -/
inductive Request where
  | command (command : Command)
  /-- The completion script of a shell. -/
  | completion (shell : Shell)
  /-- The names of the collections, for completion. -/
  | collectionNames
  deriving DecidableEq, Repr

/-- The options, which may stand anywhere on the command line. -/
structure Options where
  /-- The configuration file. -/
  config : Option Path := none
  /-- The number of the profile, counted from 1. -/
  profile : Option Nat := none
  /-- Whether the cache file is left alone. -/
  noCache : Bool := false
  deriving DecidableEq, Repr

structure CommandLine where
  options : Options
  request : Request
  deriving DecidableEq, Repr

/-- Why a command line is not carried out. -/
inductive UsageFault where
  /-- Help was asked for. -/
  | help
  /-- The version was asked for. -/
  | version
  /-- Nothing was asked for. -/
  | nothingAsked
  /-- Options alone were given. -/
  | noCommand
  | unknownCommand
  /-- There is no such option, or no place for the word. -/
  | unexpectedWord
  /-- A command lacks an operand. -/
  | missingOperand
  /-- A value is missing, empty or not among those possible. -/
  | invalidValue
  /-- A value is no number. -/
  | notANumber
  /-- An option is given twice. -/
  | repeatedOption
  /-- An option that takes no value was given one. -/
  | needlessValue
  deriving DecidableEq, Repr

namespace UsageFault

def message : UsageFault → String
  | .help => "help"
  | .version => "version"
  | .nothingAsked => "a command is required"
  | .noCommand => "the command is missing"
  | .unknownCommand => "there is no such command"
  | .unexpectedWord => "there is no such option or operand"
  | .missingOperand => "an operand is missing"
  | .invalidValue => "a value is missing or not possible"
  | .notANumber => "a value is no number"
  | .repeatedOption => "an option is given twice"
  | .needlessValue => "an option takes no value"

end UsageFault

end MusicCollections
