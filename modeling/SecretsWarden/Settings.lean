import SecretsWarden.Duration
import SecretsWarden.Text.Numeral
import SecretsWarden.Text.Utf8

/-!
# Settings of the operator

Four environment variables, each with a default. They are read in a fixed order, and the first
one that cannot be read is reported.
-/

namespace SecretsWarden

structure Settings where
  /-- Whether the admission webhook is served. -/
  webhookEnabled : Bool := true
  webhookPort : UInt16 := 9443
  /-- The directory that holds the certificate and the key of the webhook. -/
  certificateDirectory : String := "/tmp/k8s-webhook-server/serving-certs"
  /-- The delay before a failed reconcile pass is tried again. -/
  failureDelay : Duration := .ofSeconds 30
  deriving DecidableEq, Repr

namespace Settings

/-- A variable that cannot be read, with its value. -/
inductive Fault where
  | webhookEnabled (value : String)
  | webhookPort (value : String) (cause : Text.NumeralFault)
  | failureDelay (value : String) (cause : Text.NumeralFault)
  deriving DecidableEq, Repr

namespace Fault

def message : Fault → String
  | .webhookEnabled v => s!"WEBHOOK_ENABLED must be true or false, got '{v}'"
  | .webhookPort v _ => s!"WEBHOOK_PORT is not a valid port: '{v}'"
  | .failureDelay v _ => s!"ERROR_REQUEUE_SECS is not a number: '{v}'"

def cause : Fault → String
  | .webhookEnabled _ => "provided string was not `true` or `false`"
  | .webhookPort _ fault | .failureDelay _ fault => fault.message

/-- What a program that ends with this fault writes. -/
def report (fault : Fault) : String :=
  s!"Error: {fault.message}\n\nCaused by:\n    {fault.cause}\n"

end Fault

def readBool? (s : String) : Option Bool :=
  if s = "true" then some true else if s = "false" then some false else none

def readWebhookEnabled : Option String → Except Fault Bool
  | none => .ok true
  | some v =>
    match readBool? v with
    | some b => .ok b
    | none => .error (.webhookEnabled v)

def readWebhookPort : Option String → Except Fault UInt16
  | none => .ok 9443
  | some v =>
    match Text.readNumeral 65535 v with
    | .ok n => .ok n.toUInt16
    | .error fault => .error (.webhookPort v fault)

def readFailureDelay : Option String → Except Fault Duration
  | none => .ok (.ofSeconds 30)
  | some v =>
    match Text.readNumeral 18446744073709551615 v with
    | .ok n => .ok (.ofSeconds n)
    | .error fault => .error (.failureDelay v fault)

/-- Reads the settings from a lookup of variables by name. -/
def ofVariables (lookup : String → Option String) : Except Fault Settings := do
  let webhookEnabled ← readWebhookEnabled (lookup "WEBHOOK_ENABLED")
  let webhookPort ← readWebhookPort (lookup "WEBHOOK_PORT")
  let certificateDirectory :=
    (lookup "WEBHOOK_CERT_DIR").getD "/tmp/k8s-webhook-server/serving-certs"
  let failureDelay ← readFailureDelay (lookup "ERROR_REQUEUE_SECS")
  return { webhookEnabled, webhookPort, certificateDirectory, failureDelay }

/-- Reads the settings from an environment of bytes. A value that is no UTF-8 counts as
unset. -/
def ofEnvironment (environment : String → Option (List UInt8)) : Except Fault Settings :=
  ofVariables fun name => (environment name).bind fun bytes => (Text.decodeUtf8 bytes).toOption

/-- A file in a directory; the separator is not doubled. -/
def joinPath (directory file : String) : String :=
  if directory.isEmpty ∨ directory.toList.getLast? = some '/' then directory ++ file
  else directory ++ "/" ++ file

def certificatePath (s : Settings) : String := joinPath s.certificateDirectory "tls.crt"

def keyPath (s : Settings) : String := joinPath s.certificateDirectory "tls.key"

/-- What is said when the certificate or its key cannot be read. -/
def certificateMessage (s : Settings) : String :=
  s!"Failed to load webhook certificate from {s.certificateDirectory}"

end Settings

end SecretsWarden
