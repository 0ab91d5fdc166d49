import SecretsWarden.Cluster.Client
import SecretsWarden.Resource.SecretsConfig
import SecretsWarden.Backoff

/-!
# Recording an outcome in the status

The outcome of an operation becomes a condition on the configuration object. Nothing is sent
if the object at hand carries an equivalent one. Otherwise the object is read again, the
condition merged into what it has now, and the whole list written with the version that was
read, so that a write in between turns this one into a conflict; then all is done again.
-/

namespace SecretsWarden

open Cluster Resource

namespace StatusRecord

def outcomeCondition (now : String) (config : SecretsConfig) (type : String)
    (outcome : Except Failure Unit) (upToDate : String) : Condition where
  type
  status :=
    match outcome with
    | .ok _ => "True"
    | .error _ => "False"
  reason := some <|
    match outcome with
    | .ok _ => "Completed"
    | .error _ => "Failed"
  message := some <|
    match outcome with
    | .ok _ => upToDate
    | .error e => e.message
  observedGeneration := config.metadata.generation
  lastTransitionTime := some now

/-- The merge patch that writes a list of conditions over the version that was read. -/
def patchBody (resourceVersion : Option String) (conditions : List Condition) : Json.Value :=
  .object [
    ("metadata", .object [("resourceVersion", (resourceVersion.map Json.Value.string).getD .null)]),
    ("status", SecretsConfig.Status.toJson ⟨conditions⟩)]

/-- Reads the object again and merges the condition into its status; says whether it wrote. An
object that is gone needs no status. -/
def update (name : String) (condition : Condition) : Session (Except Failure Bool) :=
  (get SecretsConfig.path name SecretsConfig.reader).bind fun
    | .error e =>
      .done (if e.isNotFound then .ok false else .error (.writeStatus name e))
    | .ok latest =>
      match condition.merge? latest.conditions with
      | none => .done (.ok false)
      | some conditions =>
        (patchStatus SecretsConfig.path name
            (patchBody latest.metadata.resourceVersion conditions) SecretsConfig.reader).bind fun
          | .ok _ => .done (.ok true)
          | .error e => .done (.error (.writeStatus name e))

/-- Records an outcome and says whether the status was written. -/
def record (backoff : Backoff) (now : String) (config : SecretsConfig) (type : String)
    (outcome : Except Failure Unit) (upToDate : String) : Session (Except Failure Bool) :=
  let condition := outcomeCondition now config type outcome upToDate
  match condition.merge? config.conditions with
  | none => .done (.ok false)
  | some _ => backoff.retry (update config.name condition)

end StatusRecord

end SecretsWarden
