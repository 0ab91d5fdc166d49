import SecretsWarden.Cluster.Client
import SecretsWarden.Failure
import SecretsWarden.Resource.Definition

/-!
# The annotation on managed definitions

A definition without the expected annotation gets a merge patch that sets nothing else. All
managed definitions are annotated one after the other, up to the first failure.
-/

namespace SecretsWarden

open Cluster Resource

namespace Injection

/-- The merge patch that sets the annotation. -/
def patchBody : Json.Value :=
  .object [("metadata", .object [("annotations",
    .object [(Definition.injection.1, .string Definition.injection.2)])])]

/-- Reads a definition, if it exists. -/
def fetch (name : String) : Session (Except Failure (Option Definition)) :=
  (getOptional Definition.path name Definition.reader).bind fun answer =>
    .done (answer.mapError (.readDefinition name))

/-- Patches a definition unless it has the annotation; says whether it did. -/
def annotate (d : Definition) : Session (Except Failure Bool) :=
  if d.isAnnotated then .done (.ok false)
  else
    (patch Definition.path d.name patchBody Definition.reader).bind fun
      | .ok _ => .done (.ok true)
      | .error e => .done (.error (.patchDefinition d.name e))

/-- Annotates definitions in order, up to the first failure, and counts the patches on top of
`patched`. -/
def annotateEach (patched : Nat) : List Definition → Session (Except Failure Nat)
  | [] => .done (.ok patched)
  | d :: rest =>
    (annotate d).bind fun
      | .ok true => annotateEach (patched + 1) rest
      | .ok false => annotateEach patched rest
      | .error e => .done (.error e)

/-- Annotates all managed definitions and counts the patches. -/
def annotateAll : Session (Except Failure Nat) :=
  (list Definition.path Definition.selectorQuery Definition.reader).bind fun
    | .ok definitions => annotateEach 0 definitions
    | .error e => .done (.error (.listDefinitions Definition.selector e))

/-- Annotates the definition of that name, if it exists and is managed. -/
def annotateNamed (name : String) : Session (Except Failure Unit) :=
  (fetch name).bind fun
    | .error e => .done (.error e)
    | .ok none => .done (.ok ())
    | .ok (some d) =>
      if d.isManaged then (annotate d).bind fun answer => .done (answer.map fun _ => ())
      else .done (.ok ())

end Injection

end SecretsWarden
