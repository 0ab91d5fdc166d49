import SecretsWarden.Admission.Disabling

/-!
# Admission reviews

A review asks for a decision on one operation on the configuration object. Only updates are
looked into: they need the object before and after, and they pass the gate. The answer repeats
the identity of the question.
-/

namespace SecretsWarden.Admission

open Json Resource Usage

inductive Operation where
  | create
  | update
  | delete
  | connect
  deriving DecidableEq, Repr

structure ReviewRequest where
  apiVersion : String
  kind : String
  uid : String
  operation : Operation
  /-- The object after the operation. -/
  object : Option SecretsConfig
  /-- The object before the operation. -/
  oldObject : Option SecretsConfig
  deriving Repr

structure Denial where
  code : Option Nat
  reason : String
  message : String
  deriving DecidableEq, Repr

structure ReviewResponse where
  apiVersion : String
  kind : String
  uid : String
  denial : Option Denial
  deriving DecidableEq, Repr

def ReviewResponse.allowed (r : ReviewResponse) : Bool := r.denial.isNone

namespace Operation

def ofText? : String → Option Operation
  | "CREATE" => some create
  | "UPDATE" => some update
  | "DELETE" => some delete
  | "CONNECT" => some connect
  | _ => none

/-- An operation is its text, or an object whose only member is that text bound to null. -/
def ofJson? : Value → Option Operation
  | .string s | .object [(s, .null)] => ofText? s
  | _ => none

end Operation

/-! ## Reading a review -/

namespace ReviewRequest

def fields : List String := [
  "uid", "kind", "resource", "subResource", "requestKind", "requestResource",
  "requestSubResource", "name", "namespace", "operation", "userInfo", "object", "oldObject",
  "dryRun", "options"]

/-- Reads the request of a review of that version and kind. The last two fields may be missing
in an array. -/
def ofJson? (apiVersion kind : String) (v : Value) : Option ReviewRequest := do
  let members ← v.record? fields (fields.length - 2)
  some {
    apiVersion, kind
    uid := ← required members "uid" Value.string?
    operation := ← required members "operation" Operation.ofJson?
    object := ← optional members "object" SecretsConfig.ofJson?
    oldObject := ← optional members "oldObject" SecretsConfig.ofJson? }

end ReviewRequest

namespace Review

def kindShape : Shape := .record [
  ("group", .required, .text), ("version", .required, .text), ("kind", .required, .text)]

def resourceShape : Shape := .record [
  ("group", .required, .text), ("version", .required, .text), ("resource", .required, .text),
  ("api_version", .optional, .text)]

def userShape : Shape := .object [
  ("extra", .map (.list .text)), ("groups", .list .text), ("uid", .text), ("username", .text)]

def operationShape : Shape := .choice ["CREATE", "UPDATE", "DELETE", "CONNECT"]

/-- An object under review, which may be absent. -/
def objectShape : Shape := .nullable SecretsConfig.shape

def requestShape : Shape := .record [
  ("uid", .required, .text), ("kind", .required, kindShape),
  ("resource", .required, resourceShape), ("subResource", .placed, .nullable .text),
  ("requestKind", .placed, .nullable kindShape),
  ("requestResource", .placed, .nullable resourceShape),
  ("requestSubResource", .placed, .nullable .text), ("name", .optional, .text),
  ("namespace", .placed, .nullable .text), ("operation", .required, operationShape),
  ("userInfo", .required, userShape), ("object", .placed, objectShape),
  ("oldObject", .placed, objectShape), ("dryRun", .optional, .flag),
  ("options", .optional, .nullable .any)]

def causeShape : Shape := .record [
  ("reason", .optional, .text), ("message", .optional, .text), ("field", .optional, .text)]

def detailsShape : Shape := .record [
  ("name", .optional, .text), ("group", .optional, .text), ("kind", .optional, .text),
  ("uid", .optional, .text), ("causes", .optional, .list causeShape),
  ("retryAfterSeconds", .optional, .word32)]

def statusShape : Shape := .record [
  ("status", .placed, .nullable (.choice ["Success", "Failure"])), ("code", .optional, .word16),
  ("message", .optional, .text), ("reason", .optional, .text),
  ("details", .optional, .nullable detailsShape)]

/-- A response that comes along with a request. -/
def responseShape : Shape := .record [
  ("uid", .required, .text), ("allowed", .required, .flag), ("status", .required, statusShape),
  ("patch", .optional, .nullable (.list .byte)),
  ("patchType", .placed, .nullable (.choice ["JSONPatch"])),
  ("auditAnnotations", .optional, .map .text), ("warnings", .optional, .nullable (.list .text))]

/-- Reads a review, which may lack its request. -/
def reader : Reader (Option ReviewRequest) where
  shape := .extended
    [("request", .optional, .nullable requestShape),
      ("response", .optional, .nullable responseShape)]
    ["apiVersion", "kind"]
  ofJson?
    | .object members => do
      let apiVersion ← required members "apiVersion" Value.string?
      let kind ← required members "kind" Value.string?
      optional members "request" (ReviewRequest.ofJson? apiVersion kind)
    | _ => none

end Review

/-! ## Deciding -/

namespace ReviewRequest

def allow (r : ReviewRequest) : ReviewResponse := ⟨r.apiVersion, r.kind, r.uid, none⟩

def deny (r : ReviewRequest) (code : Nat) (reason message : String) : ReviewResponse :=
  ⟨r.apiVersion, r.kind, r.uid, some ⟨some code, reason, message⟩⟩

def respond (r : ReviewRequest) : Except Refusal Unit → ReviewResponse
  | .ok () => r.allow
  | .error refusal => r.deny 403 "Forbidden" refusal.message

def decide (checker : Dialogue q r (Except Failure Report)) (request : ReviewRequest) :
    Dialogue q r ReviewResponse :=
  if request.operation = .update then
    match request.oldObject, request.object with
    | some old, some new =>
      (judgeUpdate checker old new).bind fun verdict => .done (request.respond verdict)
    | _, _ =>
      .done (request.deny 400 "BadRequest" "update request is missing the old or new object")
  else .done request.allow

end ReviewRequest

namespace ReviewResponse

/-- The response to a review without a request. -/
def withoutRequest : ReviewResponse where
  apiVersion := "admission.k8s.io/v1beta1"
  kind := "AdmissionReview"
  uid := ""
  denial := some ⟨none, "InvalidRequest",
    "failed to convert AdmissionReview into AdmissionRequest"⟩

def statusJson : Option Denial → Value
  | none => .object []
  | some d => .object (
      [("status", .string "Failure"), ("message", .string d.message),
        ("reason", .string d.reason)]
        ++ optionalMember "code" (d.code.map Value.ofNat))

def toJson (r : ReviewResponse) : Value :=
  .object [
    ("apiVersion", .string r.apiVersion), ("kind", .string r.kind),
    ("response", .object [
      ("uid", .string r.uid), ("allowed", .bool r.allowed), ("status", statusJson r.denial)])]

end ReviewResponse

end SecretsWarden.Admission
