import SecretsWarden.Resource.SecretsConfig
import SecretsWarden.Usage.Report

/-!
# The admission gate

An update that disables the provider is let through only if it is certain that no store
refers to the provider.
-/

namespace SecretsWarden.Admission

open Resource Usage

/-- The provider that the gate guards. -/
def guardedProvider : String := "bitwardensecretsmanager"

inductive Refusal where
  | inUse (provider details : String)
  | unverified (provider : String) (cause : Failure)
  deriving DecidableEq, Repr

def Refusal.message : Refusal → String
  | .inUse provider details =>
    s!"cannot disable provider {provider}: still referenced by {details}"
  | .unverified provider cause =>
    s!"cannot disable provider {provider}: unable to verify it is unused: {cause.message}"

/-- Enabled before, and disabled or unset after. -/
def disables (old new : SecretsConfig) : Bool := old.enablesProvider && !new.enablesProvider

/-- What a check of the provider's use means for an update that disables it. -/
def judge : Except Failure Report → Except Refusal Unit
  | .error e => .error (.unverified guardedProvider e)
  | .ok usage =>
    if usage.inUse then .error (.inUse guardedProvider usage.summary) else .ok ()

/-- Decides on an update. `checker` is asked only if the update disables the provider. -/
def judgeUpdate (checker : Dialogue q r (Except Failure Report)) (old new : SecretsConfig) :
    Dialogue q r (Except Refusal Unit) :=
  if disables old new then checker.bind fun usage => .done (judge usage)
  else .done (.ok ())

end SecretsWarden.Admission
