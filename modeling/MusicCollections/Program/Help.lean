/-
# Help

Asking for help or for the version is answered on the first output; any other
command line that cannot be carried out is answered on the second, with exit
code 2.
-/

import MusicCollections.Completion.Script
import MusicCollections.Program.Exit

namespace MusicCollections

/-- The version of the program. -/
def programVersion : String := "1.1.0"

/-- The lines of the help text. -/
def helpLines : List String :=
  ["Usage: mpdc [OPTIONS] <COMMAND>", "", "Commands:"] ++
  (CommandLine.entries.map fun entry => "  " ++ entry.name) ++
  (Completion.groups.map fun (group, names) =>
    "\nCommands of " ++ group ++ ":\n  " ++ Text.join ", " names) ++
  ["", "Options:", "  --config <CONFIG>    Configuration file [env: MPDC_CONFIG]",
    "  --profile <PROFILE>  Number of the daemon to use",
    "  --no-cache           Leave the cache file alone",
    "  -h, --help           Print help", "  -V, --version        Print version"]

/-- The end of a run whose command line is not carried out. -/
def UsageFault.toExit (fault : UsageFault) : Exit :=
  match fault with
  | .help => { out := Report.textOfLines helpLines }
  | .version => { out := Report.textOfLines ["mpdc " ++ programVersion] }
  | .nothingAsked => { code := 2, err := Report.textOfLines helpLines }
  | fault => { code := 2, err := Report.textOfLines ["error: " ++ fault.message] }

end MusicCollections
