import SecretsWarden.Resource.Meta

/-!
# Secret stores

Two kinds of stores may refer to a provider of secrets, by a member of `spec.provider`. The
operator does not own these objects and reads no more of them than it needs.
-/

namespace SecretsWarden.Resource

open Json

inductive Store.Kind where
  | secretStore
  | clusterSecretStore
  deriving DecidableEq, Repr

namespace Store.Kind

/-- All kinds, in the order in which they are asked for. -/
def all : List Store.Kind := [secretStore, clusterSecretStore]

def group : String := "external-secrets.io"

def version : String := "v1"

def name : Store.Kind → String
  | secretStore => "SecretStore"
  | clusterSecretStore => "ClusterSecretStore"

def plural : Store.Kind → String
  | secretStore => "secretstores"
  | clusterSecretStore => "clustersecretstores"

def isNamespaced : Store.Kind → Bool
  | secretStore => true
  | clusterSecretStore => false

/-- Where the API server keeps the stores of a kind. -/
def path (k : Store.Kind) : String := s!"/apis/{group}/{version}/{k.plural}"

end Store.Kind

structure Store where
  metadata : Meta
  /-- The whole object. -/
  content : Value
  deriving Repr, BEq, Inhabited

namespace Store

def ofJson? : Value → Option Store
  | .object members =>
    (defaulted members "metadata" {} Meta.ofJson?).map fun m => ⟨m, .object members⟩
  | _ => none

def reader : Reader Store where
  shape := .extended [("metadata", .optional, Meta.shape)] []
  ofJson?

/-- Whether a provider is configured under `spec.provider`, with whatever value. -/
def refersTo (s : Store) (provider : String) : Bool :=
  (s.content.at? ["spec", "provider", provider]).isSome

/-- The providers configured under `spec.provider`, sorted. -/
def providers (s : Store) : List String :=
  match s.content.at? ["spec", "provider"] with
  | some v => v.names.mergeSort fun a b => !decide (b < a)
  | none => []

/-- The store in words, such as `SecretStore 'team-a/vault'`. -/
def inWords (k : Store.Kind) (s : Store) : String :=
  match s.metadata.namespaceName.filter fun _ => k.isNamespaced with
  | some space => s!"{k.name} '{space}/{s.metadata.anyName}'"
  | none => s!"{k.name} '{s.metadata.anyName}'"

end Store

end SecretsWarden.Resource
