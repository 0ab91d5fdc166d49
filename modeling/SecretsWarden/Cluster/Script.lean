import SecretsWarden.Cluster.Request
import SecretsWarden.Dialogue.Run

/-!
# A scripted API server

The script has answers for each verb and path; a query does not matter. Of several answers for
one verb and path each is given once, in order, and the last one again and again. Whatever
the script does not know is not found; a watch that it does not know has no events.
-/

namespace SecretsWarden.Cluster

structure ScriptLine where
  verb : String
  path : String
  reply : Reply
  deriving Repr

/-- The answers that are still to be given. -/
abbrev Script := List ScriptLine

/-- The answer to what the script does not know. -/
def unknownResource : Reply :=
  .answered 404 (.json (.object [
    ("kind", .string "Status"), ("apiVersion", .string "v1"), ("status", .string "Failure"),
    ("message", .string "resource \"unknown\" not found"), ("reason", .string "NotFound"),
    ("code", .ofNat 404)]))

namespace Script

/-- Takes the first answer out of the script, unless it is the last of its kind. -/
def take (verb path : String) : Script → Option (Reply × Script)
  | [] => none
  | line :: rest =>
    if line.verb = verb ∧ line.path = path then
      if rest.any fun l => l.verb = verb ∧ l.path = path then some (line.reply, rest)
      else some (line.reply, line :: rest)
    else (take verb path rest).map fun (reply, rest) => (reply, line :: rest)

def answer (script : Script) (request : Request) : Reply × Script :=
  (script.take request.verb request.path).getD
    (if request.isWatch then .stream [] else unknownResource, script)

end Script

/-- A request and the time at which it was made. -/
structure LogEntry where
  clock : Nat
  request : Request
  deriving Repr

/-- A scripted server that keeps a log of the requests, the latest first. -/
structure ScriptedServer where
  script : Script
  log : List LogEntry := []

namespace ScriptedServer

def answer : Answerer ScriptedServer Request Reply := fun clock server request =>
  let (reply, script) := server.script.answer request
  (reply, ⟨script, ⟨clock, request⟩ :: server.log⟩)

/-- Empties the log and gives its requests in the order in which they were made. -/
def takeLog (server : ScriptedServer) : List LogEntry × ScriptedServer :=
  (server.log.reverse, { server with log := [] })

end ScriptedServer

end SecretsWarden.Cluster
