import SecretsWarden.Cluster.Request
import SecretsWarden.Dialogue.Basic
import SecretsWarden.Json.Reader

/-!
# The client of the API server

Each operation is a dialogue that asks at most one request. A request that cannot be built is
an error without any question. An answer is first checked to be text, then its status code
decides whether it is read as an error or as the value asked for.
-/

namespace SecretsWarden.Cluster

/-- A dialogue with the API server. -/
abbrev Session (α : Type) := Dialogue Request Reply α

open Json (Reader)

def Status.shape : Json.Shape := .record [
  ("status", .required, .text), ("message", .optional, .text), ("reason", .optional, .text),
  ("code", .required, .word16)]

def Status.ofJson? (v : Json.Value) : Option Status := do
  let members ← v.record? ["status", "message", "reason", "code"] 4
  some {
    status := ← Json.required members "status" Json.Value.string?
    message := ← Json.defaulted members "message" "" Json.Value.string?
    reason := ← Json.defaulted members "reason" "" Json.Value.string?
    code := ← Json.required members "code" (Json.Value.below? 65536) }

def Status.reader : Reader Status where
  shape := Status.shape
  ofJson? := Status.ofJson?

/-- Reads a body that has this text. -/
def Body.read (reader : Reader α) (text : String) : Body → Except Json.Fault α
  | .json v =>
    match reader.ofJson? v with
    | some a => .ok a
    | none => .error .unfit
  | .bytes _ => reader.ofText text

def Body.read? (reader : Reader α) (text : String) (body : Body) : Option α :=
  (body.read reader text).toOption

/-- What an error answer stands for. One that is not the error object of the API server is
put into words by its status code and its text. -/
def errorOf (status : Nat) (body : Body) (text : String) : Error :=
  match body.read? Status.reader text with
  | some answer => .api answer
  | none =>
    .api {
      status := statusLine status
      message := Text.quote text
      reason := "Failed to parse error data"
      code := status }

/-- The value that an answer carries. A stream is none. -/
def Reply.receive (reader : Reader α) : Reply → Except Error α
  | .failed reason => .error (.service reason)
  | .stream _ => .error (.malformed .incomplete "")
  | .answered status body =>
    match body.text with
    | .error fault => .error (.notUtf8 fault)
    | .ok text =>
      if isFailure status then .error (errorOf status body text)
      else
        (body.read reader text).mapError fun fault => .malformed fault text

/-- Sends a request and reads its answer. -/
def send (reader : Reader α) (request : Request) : Session (Except Error α) :=
  .ask request fun reply => .done (reply.receive reader)

/-- Sends a request unless it could not be built. -/
def sendBuilt (reader : Reader α) : Except Error Request → Session (Except Error α)
  | .ok request => send reader request
  | .error e => .done (.error e)

/-- Reads the object of that name. -/
def get (path name : String) (reader : Reader α) : Session (Except Error α) :=
  sendBuilt reader (Request.read path name)

/-- An error that says that there is no such object becomes the absence of a value. -/
def absent? : Except Error α → Except Error (Option α)
  | .ok a => .ok (some a)
  | .error e => if e.saysNotFound then .ok none else .error e

/-- Reads the object of that name, if it exists. -/
def getOptional (path name : String) (reader : Reader α) : Session (Except Error (Option α)) :=
  (get path name reader).bind fun answer => .done (absent? answer)

def listMetadata : Json.Shape := .object [
  ("continue", .text), ("remainingItemCount", .int64), ("resourceVersion", .text),
  ("selfLink", .text)]

def listShape (item : Json.Shape) : Json.Shape :=
  .extended
    [("metadata", .optional, listMetadata), ("items", .required, .nullable (.list item))] []

/-- The items of a list, each of which must be readable. -/
def items? (read : Json.Value → Option α) : Json.Value → Option (List α)
  | .object members => do
    let _ ← Json.defaulted members "metadata" .null (listMetadata.accept? [])
    match members.lookup "items" with
    | none => none
    | some .null => some []
    | some v => v.list? read
  | _ => none

def listReader (reader : Reader α) : Reader (List α) where
  shape := listShape reader.shape
  table := reader.table
  ofJson? := items? reader.ofJson?

/-- Reads all objects under a path that the query selects. -/
def list (path query : String) (reader : Reader α) : Session (Except Error (List α)) :=
  send (listReader reader) (.list path query)

/-- Who is named as the writer of a change. -/
def fieldManager : String := "external-secrets-operator"

/-- Applies a merge patch to the object of that name. -/
def patch (path name : String) (body : Json.Value) (reader : Reader α) :
    Session (Except Error α) :=
  sendBuilt reader (Request.named .patch path name ("?&fieldManager=" ++ fieldManager) (some body))

/-- Applies a merge patch to the status of the object of that name. -/
def patchStatus (path name : String) (body : Json.Value) (reader : Reader α) :
    Session (Except Error α) :=
  sendBuilt reader
    (Request.named .patch path name ("/status?&fieldManager=" ++ fieldManager) (some body))

end SecretsWarden.Cluster
