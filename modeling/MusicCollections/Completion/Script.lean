/-
# Completion scripts

A script offers the commands, the commands of a group, and after these the names
of the collections, for which it runs the program again.
-/

import MusicCollections.CommandLine.Table

namespace MusicCollections
namespace Completion

/-- The names of what stands first on a command line. -/
def commandNames : List String := CommandLine.entries.map (·.name)

/-- The groups with the names of their commands. -/
def groups : List (String × List String) :=
  CommandLine.entries.filterMap fun
    | .group name _ members => some (name, members.map (·.name))
    | .single _ => none

/-- Names separated by spaces. -/
def spaced (names : List String) : String := Text.join " " names

/-- The script for bash, which counts the words of the line from 0. -/
def bashLines : List String :=
  ["_mpdc() \x7b",
    "    local words",
    "    case \"$COMP_CWORD $\x7bCOMP_WORDS[1]\x7d\" in",
    "        \"1 \"*) words=\"" ++ spaced commandNames ++ "\" ;;"] ++
  (groups.map fun (group, names) =>
    "        \"2 " ++ group ++ "\") words=\"" ++ spaced names ++ "\" ;;") ++
  ["        *) words=\"$(mpdc complete-collections)\" ;;",
    "    esac",
    "    COMPREPLY=($(compgen -W \"$words\" -- \"$\x7bCOMP_WORDS[COMP_CWORD]\x7d\"))",
    "\x7d",
    "complete -F _mpdc mpdc"]

/-- The script for zsh, which counts the words of the line from 1. -/
def zshLines : List String :=
  ["#compdef mpdc",
    "_mpdc() \x7b",
    "    case \"$CURRENT $words[2]\" in",
    "        \"2 \"*) compadd " ++ spaced commandNames ++ " ;;"] ++
  (groups.map fun (group, names) =>
    "        \"3 " ++ group ++ "\") compadd " ++ spaced names ++ " ;;") ++
  ["        *) compadd -Q -- $\x7b(f)\"$(mpdc complete-collections)\"\x7d ;;",
    "    esac",
    "\x7d",
    "compdef _mpdc mpdc"]

/-- The script for fish. -/
def fishLines : List String :=
  ["complete -c mpdc -f",
    "complete -c mpdc -n __fish_use_subcommand -a '" ++ spaced commandNames ++ "'"] ++
  (groups.map fun (group, names) =>
    "complete -c mpdc -n '__fish_seen_subcommand_from " ++ group ++ "' -a '" ++ spaced names ++
      "'") ++
  ["complete -c mpdc -n 'not __fish_use_subcommand' -a '(mpdc complete-collections)'"]

/-- Every name of a command, once. -/
def allNames : NameSet := NameSet.ofList (commandNames ++ groups.flatMap (·.2))

/-- The script for PowerShell, which offers all words everywhere. -/
def powerShellLines : List String :=
  ["Register-ArgumentCompleter -Native -CommandName mpdc -ScriptBlock \x7b",
    "    param($word)",
    "    $names = -split '" ++ spaced allNames ++ "'",
    "    @($names) + @(mpdc complete-collections) | Where-Object \x7b $_ -like \"$word*\" \x7d",
    "\x7d"]

/-- The script for elvish, which offers all words everywhere. -/
def elvishLines : List String :=
  ["set edit:completion:arg-completer[mpdc] = \x7b|@words|",
    "    put " ++ spaced allNames,
    "    mpdc complete-collections | from-lines",
    "\x7d"]

/-- The script of a shell. -/
def script (shell : Shell) : List String :=
  match shell with
  | .bash => bashLines
  | .zsh => zshLines
  | .fish => fishLines
  | .powerShell => powerShellLines
  | .elvish => elvishLines

end Completion
end MusicCollections
