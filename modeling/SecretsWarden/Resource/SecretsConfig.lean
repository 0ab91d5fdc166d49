import SecretsWarden.Resource.Condition
import SecretsWarden.Resource.Meta

/-!
# The configuration object of the cluster

One object, named `cluster`, says what the operator shall do and carries the conditions that
it reports.
-/

namespace SecretsWarden.Resource

open Json

inductive ProviderMode where
  | enabled
  | disabled
  deriving DecidableEq, Repr

namespace ProviderMode

def text : ProviderMode → String
  | enabled => "Enabled"
  | disabled => "Disabled"

def ofText? (s : String) : Option ProviderMode :=
  if s = "Enabled" then some enabled else if s = "Disabled" then some disabled else none

/-- A mode is its text, or an object whose only member is that text bound to null. -/
def ofJson? : Value → Option ProviderMode
  | .string s | .object [(s, .null)] => ofText? s
  | _ => none

end ProviderMode

namespace SecretsConfig

structure Spec where
  /-- Whether the managed definitions get their annotation. -/
  injectAnnotations : Bool := false
  providerMode : Option ProviderMode := none
  deriving DecidableEq, Repr, Inhabited

structure Status where
  conditions : List Condition := []
  deriving DecidableEq, Repr, Inhabited

def Spec.shape : Shape := .record [
  ("injectAnnotations", .optional, .flag),
  ("providerMode", .optional, .nullable (.choice ["Enabled", "Disabled"]))]

def Spec.ofJson? (v : Value) : Option Spec := do
  let members ← v.record? ["injectAnnotations", "providerMode"] 0
  some {
    injectAnnotations := ← defaulted members "injectAnnotations" false Value.bool?
    providerMode := ← optional members "providerMode" ProviderMode.ofJson? }

def Spec.toJson (s : Spec) : Value :=
  .object (
    [("injectAnnotations", .bool s.injectAnnotations)]
      ++ optionalMember "providerMode" (s.providerMode.map fun m => .string m.text))

def Status.shape : Shape := .record [("conditions", .optional, .list Condition.shape)]

def Status.ofJson? (v : Value) : Option Status := do
  let members ← v.record? ["conditions"] 0
  some { conditions := ← defaulted members "conditions" [] (Value.list? Condition.ofJson?) }

/-- No conditions are left out, not written as an empty array. -/
def Status.toJson (s : Status) : Value :=
  .object (
    if s.conditions.isEmpty then []
    else [("conditions", .array (s.conditions.map Condition.toJson))])

end SecretsConfig

structure SecretsConfig where
  metadata : Meta
  spec : SecretsConfig.Spec
  status : Option SecretsConfig.Status
  deriving Repr, BEq, Inhabited

namespace SecretsConfig

def group : String := "operator.openshift.io"

def version : String := "v1alpha1"

def kind : String := "ExternalSecretsConfig"

/-- Where the API server keeps these objects. -/
def path : String := "/apis/operator.openshift.io/v1alpha1/externalsecretsconfigs"

/-- The name of the one object that counts. -/
def singleton : String := "cluster"

def fields : List String := ["metadata", "spec", "status"]

def shape : Shape := .record [
  ("metadata", .required, Meta.shape), ("spec", .required, Spec.shape),
  ("status", .placed, .nullable Status.shape)]

def ofJson? (v : Value) : Option SecretsConfig := do
  let members ← v.record? fields fields.length
  some {
    metadata := ← required members "metadata" Meta.ofJson?
    spec := ← required members "spec" Spec.ofJson?
    status := ← optional members "status" Status.ofJson? }

def reader : Reader SecretsConfig where
  shape
  ofJson?

def toJson (c : SecretsConfig) : Value :=
  .object (
    [("apiVersion", .string s!"{group}/{version}"), ("kind", .string kind),
      ("metadata", c.metadata.toJson), ("spec", c.spec.toJson)]
      ++ optionalMember "status" (c.status.map Status.toJson))

def name (c : SecretsConfig) : String := c.metadata.anyName

/-- An absent mode counts as disabled. -/
def enablesProvider (c : SecretsConfig) : Bool := c.spec.providerMode = some .enabled

/-- The conditions of the status, none if there is no status. -/
def conditions (c : SecretsConfig) : List Condition := (c.status.getD {}).conditions

/-- The condition of a type, which is the first one. -/
def condition? (c : SecretsConfig) (type : String) : Option Condition :=
  c.conditions.find? (·.type = type)

end SecretsConfig

end SecretsWarden.Resource
