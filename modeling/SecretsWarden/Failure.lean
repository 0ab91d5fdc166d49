import SecretsWarden.Cluster.Error

/-!
# Failures of the operator

A failure says which step went wrong, on what, and by which error of the API server. A write
of the status that met a conflict and a cache that is not yet filled pass by themselves; such
failures are transient.
-/

namespace SecretsWarden

inductive Failure where
  | request (cause : Cluster.Error)
  | readConfig (name : String) (cause : Cluster.Error)
  | readDefinition (name : String) (cause : Cluster.Error)
  | listDefinitions (selector : String) (cause : Cluster.Error)
  | patchDefinition (name : String) (cause : Cluster.Error)
  | writeStatus (name : String) (cause : Cluster.Error)
  | cacheNotFilled
  | findStores (kind reason : String)
  /-- The operation failed, and so did recording its outcome. -/
  | withStatus (operation status : Failure)
  deriving DecidableEq, Repr, Inhabited

namespace Failure

def message : Failure → String
  | request e => s!"Kubernetes API error: {e.message}"
  | readConfig name e => s!"Failed to fetch ExternalSecretsConfig '{name}': {e.message}"
  | readDefinition name e => s!"Failed to fetch CRD '{name}': {e.message}"
  | listDefinitions selector e => s!"Failed to list CRDs with selector '{selector}': {e.message}"
  | patchDefinition name e => s!"Failed to patch annotations on CRD '{name}': {e.message}"
  | writeStatus name e =>
    s!"Failed to update status of ExternalSecretsConfig '{name}': {e.message}"
  | cacheNotFilled => "Informer cache has not synced yet, retry later"
  | findStores kind reason => s!"Failed to look up {kind} resources: {reason}"
  | withStatus operation status =>
    s!"{operation.message}; additionally failed to record status: {status.message}"

/-- The error of the API server behind a failure. -/
def cause? : Failure → Option Cluster.Error
  | request e | readConfig _ e | readDefinition _ e | listDefinitions _ e
  | patchDefinition _ e | writeStatus _ e => some e
  | cacheNotFilled | findStores .. | withStatus .. => none

/-- The messages of the errors beneath a failure, outermost first. -/
def causes (f : Failure) : List String :=
  match f.cause? with
  | some e => e.message :: e.causes
  | none => []

/-- Whether a write met a conflicting one and may be tried again. -/
def isConflict : Failure → Bool
  | request e | writeStatus _ e => e.isConflict
  | _ => false

/-- Whether it is enough to try again later. -/
def isTransient : Failure → Bool
  | cacheNotFilled => true
  | f => f.isConflict

/-- The outcome of an operation together with the outcome of recording it; the operation comes
first. -/
def combine : (operation status : Except Failure Unit) → Except Failure Unit
  | .ok (), .ok () => .ok ()
  | .error e, .ok () | .ok (), .error e => .error e
  | .error operation, .error status => .error (.withStatus operation status)

end Failure

end SecretsWarden
