import SecretsWarden.Command

/-!
# The program

Reads the environment, runs the command and passes on what it leaves behind. The operator
goes on with a cluster; the program says with which settings and ends there.
-/

open SecretsWarden

/-- The variables that the settings are read from. -/
def readVariables : IO (List (String × List UInt8)) :=
  ["WEBHOOK_ENABLED", "WEBHOOK_PORT", "WEBHOOK_CERT_DIR", "ERROR_REQUEUE_SECS"].filterMapM
    fun name => do
      return (← IO.getEnv name).map fun value => (name, value.toUTF8.toList)

def main (arguments : List String) : IO UInt32 := do
  match Command.ofArguments? arguments with
  | none =>
    IO.eprintln "usage: secrets-warden [manifest]"
    return 2
  | some command =>
    let values ← readVariables
    match command.run fun name => values.lookup name with
    | .ok settings =>
      IO.println <| "Configuration loaded: "
        ++ s!"webhook_enabled={settings.webhookEnabled}, webhook_port={settings.webhookPort}"
      return 0
    | .error outcome =>
      IO.print outcome.output
      IO.eprint outcome.errors
      return outcome.exit.toUInt32
