import SecretsWarden.Injection
import SecretsWarden.StatusRecord

/-!
# A reconcile pass

A pass reads the configuration object and, if it asks for annotations, brings one definition
or all of them in line and records how that went. Without the object there is nothing to do.
-/

namespace SecretsWarden

open Cluster Resource

/-- What a pass works on: a name, one of which stands for all managed definitions. -/
structure Target where
  name : String
  deriving DecidableEq, Repr

namespace Target

/-- Stands for all managed definitions. No object can have this name. -/
def sentinel : String := "_all_managed_crds_"

def all : Target := ⟨sentinel⟩

def definition (name : String) : Target := ⟨name⟩

def concernsAll (t : Target) : Bool := t.name = sentinel

end Target

namespace Reconcile

/-- The type of the condition that a pass records. -/
def conditionType : String := "UpdateAnnotation"

def upToDate : String := "CRD annotations are up to date"

/-- Brings the target in line. -/
def synchronize (target : Target) : Session (Except Failure Unit) :=
  if target.concernsAll then Injection.annotateAll.bind fun answer => .done (answer.map fun _ => ())
  else Injection.annotateNamed target.name

/-- Records the outcome of a pass and joins both outcomes. -/
def conclude (backoff : Backoff) (now : String) (config : SecretsConfig)
    (outcome : Except Failure Unit) : Session (Except Failure Unit) :=
  (StatusRecord.record backoff now config conditionType outcome upToDate).bind fun status =>
    .done (Failure.combine outcome (status.map fun _ => ()))

/-- The part of a pass that follows the reading of the configuration object. -/
def passOn (backoff : Backoff) (now : String) (target : Target) (config : SecretsConfig) :
    Session (Except Failure Unit) :=
  if config.spec.injectAnnotations then (synchronize target).bind (conclude backoff now config)
  else .done (.ok ())

/-- One pass, at the time `now`. -/
def pass (backoff : Backoff) (now : String) (target : Target) :
    Session (Except Failure Unit) :=
  (getOptional SecretsConfig.path SecretsConfig.singleton SecretsConfig.reader).bind fun
    | .error e => .done (.error (.readConfig SecretsConfig.singleton e))
    | .ok none => .done (.ok ())
    | .ok (some config) => passOn backoff now target config

def transientDelay : Duration := .ofSeconds 5

/-- When a failed pass is tried again: a transient failure sooner, but no later than another. -/
def delayAfter (failure : Failure) (failureDelay : Duration) : Duration :=
  if failure.isTransient then transientDelay.min failureDelay else failureDelay

end Reconcile

end SecretsWarden
