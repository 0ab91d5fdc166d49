import SecretsWarden.Json.Yaml
import SecretsWarden.Resource.SecretsConfig

/-!
# The definition of the configuration object

The manifest by which a cluster learns of the kind of the configuration object.
-/

namespace SecretsWarden.Manifest

open Json Resource

def texts (ts : List String) : Value := .array (ts.map .string)

def plural : String := "externalsecretsconfigs"

def optionalText : Value := .object [("nullable", .bool true), ("type", .string "string")]

def text : Value := .object [("type", .string "string")]

def conditionSchema : Value := .object [
  ("properties", .object [
    ("lastTransitionTime", optionalText), ("message", optionalText),
    ("observedGeneration", .object [
      ("format", .string "int64"), ("nullable", .bool true), ("type", .string "integer")]),
    ("reason", optionalText), ("status", text), ("type", text)]),
  ("required", texts ["status", "type"]), ("type", .string "object")]

def statusSchema : Value := .object [
  ("nullable", .bool true),
  ("properties", .object [
    ("conditions", .object [("items", conditionSchema), ("type", .string "array")])]),
  ("type", .string "object")]

def specSchema : Value := .object [
  ("description", .string
    "Cluster-wide operator configuration. A single object named \x60cluster\x60 is honoured."),
  ("properties", .object [
    ("injectAnnotations", .object [
      ("default", .bool false),
      ("description", .string "Inject the cert-manager CA annotation on managed CRDs"),
      ("type", .string "boolean")]),
    ("providerMode", .object [
      ("description", .string "Whether the bitwarden secrets manager provider is enabled"),
      ("enum", texts [ProviderMode.enabled.text, ProviderMode.disabled.text]),
      ("nullable", .bool true), ("type", .string "string")])]),
  ("type", .string "object")]

def schema : Value := .object [
  ("description", .string
    "Auto-generated derived type for ExternalSecretsConfigSpec via \x60CustomResource\x60"),
  ("properties", .object [("spec", specSchema), ("status", statusSchema)]),
  ("required", texts ["spec"]), ("title", .string SecretsConfig.kind),
  ("type", .string "object")]

def version : Value := .object [
  ("additionalPrinterColumns", .array []), ("name", .string SecretsConfig.version),
  ("schema", .object [("openAPIV3Schema", schema)]), ("served", .bool true),
  ("storage", .bool true), ("subresources", .object [("status", .object [])])]

def members : List (String × Value) := [
  ("apiVersion", .string "apiextensions.k8s.io/v1"),
  ("kind", .string "CustomResourceDefinition"),
  ("metadata", .object [("name", .string (plural ++ "." ++ SecretsConfig.group))]),
  ("spec", .object [
    ("group", .string SecretsConfig.group),
    ("names", .object [
      ("categories", .array []), ("kind", .string SecretsConfig.kind),
      ("plural", .string plural), ("shortNames", .array []),
      ("singular", .string "externalsecretsconfig")]),
    ("scope", .string "Cluster"), ("versions", .array [version])])]

def json : Value := .object members

def yaml : String := Yaml.document members

end SecretsWarden.Manifest
