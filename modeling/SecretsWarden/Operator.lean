import SecretsWarden.Admission.Router
import SecretsWarden.Controller
import SecretsWarden.Settings
import SecretsWarden.Usage.Informers

/-!
# The operator

How the parts are put together. The operator waits until the kind of its configuration object
is served, starts its controllers and, if the webhook is enabled, the informers by which it
knows whether the guarded provider is in use.
-/

namespace SecretsWarden.Operator

open Cluster Resource Usage Admission

/-- The kind that must be served before anything else starts. -/
def awaitedKind : KindId := ⟨SecretsConfig.group, SecretsConfig.version, SecretsConfig.kind⟩

/-- The controllers try again after a conflict as usual and after a failure as the settings
say. -/
def controllers (settings : Settings) (timestamp : Nat → String)
    (spread : Controller.Role → Nat → Nat) : Controller.Setup where
  backoff := {}
  failureDelay := settings.failureDelay
  timestamp
  spread

/-- The operator waits for its kind, with so many looks at most, and once it is there the
controllers run for some time. Gives the server's state at the end. -/
def run {σ : Type} (setup : Controller.Setup) (answer : Answerer σ Request Reply) (server : σ)
    (looks millis : Nat) : Except Controller.Fault σ :=
  match (awaitKind awaitedKind looks).run answer 0 server with
  | ⟨.ok true, clock, server⟩ => Controller.run setup answer server millis clock
  | ⟨_, _, server⟩ => .ok server

/-- The strategies to find stores: caches first, then lists. -/
def strategies (index : Index) (order : Order) : List (Strategy Request Reply) :=
  [index.strategy order, listing]

/-- Checks the use of the guarded provider with these caches. `synced` is their flag. -/
def checker (index : Index) (order : Order) (synced : Bool) : Session (Except Failure Report) :=
  check (strategies index order) guardedProvider (some synced)

/-- Answers a request to the webhook with the informers as they are. -/
def webhook (informers : Informers) (order : Order) (request : HttpRequest) :
    Session HttpReply :=
  route (checker informers.index order informers.synced) request

end SecretsWarden.Operator
