import SecretsWarden.Manifest
import SecretsWarden.Settings

/-!
# The command line

One command writes the manifest of the configuration object. The other one starts the operator,
which first reads its settings and ends if it cannot.
-/

namespace SecretsWarden

inductive Command where
  | manifest
  | operate
  deriving DecidableEq, Repr

/-- What a command that has ended leaves behind. -/
structure Outcome where
  exit : UInt8
  output : String := ""
  errors : String := ""
  deriving DecidableEq, Repr

namespace Command

def ofArguments? : List String → Option Command
  | [] => some operate
  | ["manifest"] => some manifest
  | _ => none

/-- Runs a command up to its end, or to the settings with which the operator goes on. -/
def run (command : Command) (environment : String → Option (List UInt8)) :
    Except Outcome Settings :=
  match command with
  | manifest => .error { exit := 0, output := Manifest.yaml }
  | operate =>
    match Settings.ofEnvironment environment with
    | .ok settings => .ok settings
    | .error fault => .error { exit := 1, errors := fault.report }

end Command

end SecretsWarden
