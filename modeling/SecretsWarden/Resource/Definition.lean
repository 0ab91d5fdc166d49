import SecretsWarden.Resource.Meta

/-!
# Definitions of custom resources

Of a definition the operator looks at its metadata only. The rest must have the shape of a
definition, version 1.
-/

namespace SecretsWarden.Resource

open Json

structure Definition where
  metadata : Meta
  deriving Repr, BEq, Inhabited

namespace Definition

/-- Where the API server keeps definitions. -/
def path : String := "/apis/apiextensions.k8s.io/v1/customresourcedefinitions"

/-- The label that marks the definitions which the operator may change. -/
def managedLabel : String × String := ("external-secrets.io/component", "controller")

def selector : String := "external-secrets.io/component=controller"

/-- The selector as it stands in a query. -/
def selectorQuery : String := "&labelSelector=external-secrets.io%2Fcomponent%3Dcontroller"

/-- The annotation that a managed definition shall carry. -/
def injection : String × String :=
  ("cert-manager.io/inject-ca-from", "external-secrets/external-secrets-webhook")

namespace Shape

open Json (Shape)

/-- A JSON schema in a definition. It stands first in `table`. -/
def schema : Shape := .entry 0

def validation : Shape := .object [
  ("fieldPath", .text), ("message", .text), ("messageExpression", .text),
  ("optionalOldSelf", .flag), ("reason", .text), ("rule", .text)]

/-- The members of a JSON schema. -/
def schemaFields : List (String × Shape) := [
  ("$ref", .text), ("$schema", .text), ("additionalItems", .either .flag schema),
  ("additionalProperties", .either .flag schema), ("allOf", .list schema),
  ("anyOf", .list schema), ("default", .any), ("definitions", .map schema),
  ("dependencies", .map (.either schema (.list .text))), ("description", .text),
  ("enum", .list .any), ("example", .any), ("exclusiveMaximum", .flag),
  ("exclusiveMinimum", .flag),
  ("externalDocs", .object [("description", .text), ("url", .text)]), ("format", .text),
  ("id", .text), ("items", .either schema (.list schema)), ("maxItems", .int64),
  ("maxLength", .int64), ("maxProperties", .int64), ("maximum", .number),
  ("minItems", .int64), ("minLength", .int64), ("minProperties", .int64),
  ("minimum", .number), ("multipleOf", .number), ("not", schema), ("nullable", .flag),
  ("oneOf", .list schema), ("pattern", .text), ("patternProperties", .map schema),
  ("properties", .map schema), ("required", .list .text), ("title", .text), ("type", .text),
  ("uniqueItems", .flag), ("x-kubernetes-embedded-resource", .flag),
  ("x-kubernetes-int-or-string", .flag), ("x-kubernetes-list-map-keys", .list .text),
  ("x-kubernetes-list-type", .text), ("x-kubernetes-map-type", .text),
  ("x-kubernetes-preserve-unknown-fields", .flag),
  ("x-kubernetes-validations", .list validation)]

/-- The shapes that contain themselves. -/
def table : List Shape := [.object schemaFields]

def names : Shape := .object [
  ("categories", .list .text), ("kind", .text), ("listKind", .text), ("plural", .text),
  ("shortNames", .list .text), ("singular", .text)]

def conversion : Shape := .object [
  ("strategy", .text),
  ("webhook", .object [
    ("clientConfig", .object [
      ("caBundle", .encoded),
      ("service", .object [
        ("name", .text), ("namespace", .text), ("path", .text), ("port", .int32)]),
      ("url", .text)]),
    ("conversionReviewVersions", .list .text)])]

def version : Shape := .object [
  ("additionalPrinterColumns", .list (.object [
    ("description", .text), ("format", .text), ("jsonPath", .text), ("name", .text),
    ("priority", .int32), ("type", .text)])),
  ("deprecated", .flag), ("deprecationWarning", .text), ("name", .text),
  ("schema", .object [("openAPIV3Schema", schema)]),
  ("selectableFields", .list (.object [("jsonPath", .text)])), ("served", .flag),
  ("storage", .flag),
  ("subresources", .object [
    ("scale", .object [
      ("labelSelectorPath", .text), ("specReplicasPath", .text),
      ("statusReplicasPath", .text)]),
    ("status", .any)])]

/-- The members of a definition beside its metadata. -/
def fields : List (String × Shape) := [
  ("apiVersion", .exactly "apiextensions.k8s.io/v1"),
  ("kind", .exactly "CustomResourceDefinition"),
  ("spec", .object [
    ("conversion", conversion), ("group", .text), ("names", names),
    ("preserveUnknownFields", .flag), ("scope", .text), ("versions", .list version)]),
  ("status", .object [
    ("acceptedNames", names),
    ("conditions", .list (.object [
      ("lastTransitionTime", .time), ("message", .text), ("reason", .text), ("status", .text),
      ("type", .text)])),
    ("storedVersions", .list .text)])]

end Shape

/-- Whether a member has its shape, if it is there. -/
def fits (members : List (String × Value)) (name : String) (shape : Json.Shape) : Bool :=
  (members.lookup name).all fun v => (shape.orNull.accept? Shape.table v).isSome

def ofJson? : Value → Option Definition
  | .object members =>
    if Shape.fields.all fun (name, shape) => fits members name shape then
      (optional members "metadata" Meta.ofJson?).map fun m => ⟨m.getD {}⟩
    else none
  | _ => none

def reader : Reader Definition where
  shape := .object (("metadata", Meta.shape) :: Shape.fields)
  table := Shape.table
  ofJson?

def name (d : Definition) : String := d.metadata.anyName

def isManaged (d : Definition) : Bool := d.metadata.isLabelledWith managedLabel.1 managedLabel.2

def isAnnotated (d : Definition) : Bool := d.metadata.isAnnotatedWith injection.1 injection.2

end Definition

end SecretsWarden.Resource
