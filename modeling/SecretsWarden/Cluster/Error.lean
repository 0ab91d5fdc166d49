import SecretsWarden.Cluster.Reply
import SecretsWarden.Text.Quoted

/-!
# What can go wrong with a request

An error of the API server itself carries a status code; only that code tells a missing
object (404) and a conflicting write (409) from other errors. The client, where it looks for an
object that may be absent, goes by the stated reason instead.
-/

namespace SecretsWarden.Cluster

/-- The error answer of the API server. -/
structure Status where
  status : String
  message : String
  reason : String
  code : Nat
  deriving DecidableEq, Repr

/-- Why a text is no address. -/
inductive AddressFault where
  | tooLong
  | invalidCharacter
  deriving DecidableEq, Repr

inductive RequestFault where
  | emptyName
  /-- The address with the name in it is no address. -/
  | name (fault : AddressFault)
  /-- The address comes from the API server itself. -/
  | address (fault : AddressFault)
  deriving DecidableEq, Repr

inductive Error where
  /-- The API server answered with an error. -/
  | api (answer : Status)
  /-- The transport failed. -/
  | service (reason : String)
  | tlsRequired
  | unbuildable (fault : RequestFault)
  | notUtf8 (fault : Text.Utf8Fault)
  /-- The text of an answer does not have the expected shape. -/
  | malformed (fault : Json.Fault) (text : String)
  /-- A group of the API has no versions. -/
  | emptyGroup (group : String)
  deriving DecidableEq, Repr, Inhabited

/-- The reason and message of an error answer in one line. -/
def Status.summary (s : Status) : String := s!"{s.message}: {s.reason}"

/-- The fields of an error answer, its texts quoted. -/
def Status.fields (s : Status) : String :=
  s!"status: {Text.quote s.status}, message: {Text.quote s.message}, "
    ++ s!"reason: {Text.quote s.reason}, code: {s.code}"

def AddressFault.message : AddressFault → String
  | tooLong => "uri too long"
  | invalidCharacter => "invalid uri character"

def RequestFault.message : RequestFault → String
  | .emptyName => "failed to validate request: A non-empty name is required"
  | .name fault => s!"failed to build request: {fault.message}"
  | .address fault => fault.message

/-- What a fault of a request is a fault of. -/
def RequestFault.subject : RequestFault → String
  | .emptyName | .name _ => "Failed to build request"
  | .address _ => "HttpError"

/-- What is wrong with a text, in some words, and how far the text goes. Nothing goes by these
words. -/
def misreading (fault : Json.Fault) (text : String) : String :=
  let lines := text.splitOn "\n"
  let last := lines.getLastD ""
  s!"{fault.message} in {Text.quote text} at line {lines.length} column {last.length}"

namespace Error

def message : Error → String
  | .api s =>
    s!"ApiError: {s.summary} (ErrorResponse \x7b {s.fields} \x7d)"
  | .service reason => s!"ServiceError: {reason}"
  | .tlsRequired => "TLS required but no TLS stack selected"
  | .unbuildable fault => s!"{fault.subject}: {fault.message}"
  | .notUtf8 fault => s!"UTF-8 Error: {fault.message}"
  | .malformed fault text => s!"Error deserializing response: {misreading fault text}"
  | .emptyGroup group => s!"Error from discovery: Empty Api Group: {group}"

/-- The messages of the errors beneath this one. -/
def causes : Error → List String
  | .api s => [s.summary]
  | .service reason => [reason]
  | .tlsRequired => []
  | .unbuildable fault => [fault.message]
  | .notUtf8 fault => [fault.message]
  | .malformed fault text => [misreading fault text]
  | .emptyGroup group => [s!"Empty Api Group: {group}"]

def isNotFound : Error → Bool
  | .api s => s.code = 404
  | _ => false

def isConflict : Error → Bool
  | .api s => s.code = 409
  | _ => false

/-- Whether the API server gives absence as the reason of its error. -/
def saysNotFound : Error → Bool
  | .api s => s.reason = "NotFound"
  | _ => false

end Error

end SecretsWarden.Cluster
