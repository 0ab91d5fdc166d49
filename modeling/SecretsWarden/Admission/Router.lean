import SecretsWarden.Admission.MediaType
import SecretsWarden.Admission.Review
import SecretsWarden.Cluster.Reply

/-!
# The webhook

Two paths are served: one takes reviews, the other says that the webhook is up. A review must
be announced as JSON, and its first fault decides the answer: that it is no JSON, or that it is
no review.
-/

namespace SecretsWarden.Admission

open Json Usage

structure HttpRequest where
  method : String
  /-- The path with the query, maybe after a scheme and an authority. -/
  target : String
  contentType : Option String
  body : Cluster.Body

inductive Content where
  | text (content : String)
  | json (value : Value)
  deriving Repr

structure HttpReply where
  status : Nat
  content : Content
  deriving Repr

namespace HttpReply

def ok (content : Content) : HttpReply := ⟨200, content⟩

def notJson : HttpReply := ⟨400, .text "Failed to parse the request body as JSON"⟩

def notFound : HttpReply := ⟨404, .text ""⟩

def methodNotAllowed : HttpReply := ⟨405, .text ""⟩

def unsupportedType : HttpReply :=
  ⟨415, .text "Expected request with \x60Content-Type: application/json\x60"⟩

def unfit : HttpReply :=
  ⟨422, .text "Failed to deserialize the JSON body into the target type"⟩

end HttpReply

/-- Where reviews are taken. -/
def reviewPath : String := "/validate-operator-openshift-io-v1alpha1-externalsecretsconfig"

/-- Where the webhook says that it is up. -/
def healthPath : String := "/healthz"

/-- What a fault of a review is answered. -/
def HttpReply.ofFault : Fault → HttpReply
  | .unfit => unfit
  | .incomplete | .illFormed => notJson

/-- Reads a review from a body, up to the first fault. -/
def readReview : Cluster.Body → Except HttpReply (Option ReviewRequest)
  | .json v => (Review.reader.ofRaw (.ofValue v)).mapError .ofFault
  | .bytes content =>
    match Text.decodeUtf8 content with
    | .ok text => (Review.reader.ofText text).mapError .ofFault
    | .error _ => .error .notJson

def announcesJson (request : HttpRequest) : Bool :=
  match request.contentType.bind MediaType.parse? with
  | some m => m.isJson
  | none => false

def handleReview (checker : Dialogue q r (Except Failure Report)) (request : HttpRequest) :
    Dialogue q r HttpReply :=
  if announcesJson request then
    match readReview request.body with
    | .error reply => .done reply
    | .ok none => .done (.ok (.json ReviewResponse.withoutRequest.toJson))
    | .ok (some review) =>
      (review.decide checker).bind fun response => .done (.ok (.json response.toJson))
  else .done HttpReply.unsupportedType

def handleHealth (request : HttpRequest) : HttpReply :=
  if request.method = "GET" then .ok (.text "ok")
  else if request.method = "HEAD" then .ok (.text "")
  else .methodNotAllowed

def isSchemeChar (c : Char) : Bool := c.isAlphanum || c = '+' || c = '-' || c = '.'

/-- What follows the scheme and the authority of an address, if it has them. -/
def afterAuthority (cs : List Char) : List Char :=
  match cs.dropWhile isSchemeChar with
  | ':' :: '/' :: '/' :: rest => rest.dropWhile fun c => c ≠ '/' ∧ c ≠ '?' ∧ c ≠ '#'
  | _ => cs

/-- The path of a request's target, up to its query or its fragment. -/
def HttpRequest.path (request : HttpRequest) : String :=
  String.ofList ((afterAuthority request.target.toList).takeWhile fun c => c ≠ '?' ∧ c ≠ '#')

def route (checker : Dialogue q r (Except Failure Report)) (request : HttpRequest) :
    Dialogue q r HttpReply :=
  if request.path = reviewPath then
    if request.method = "POST" then handleReview checker request
    else .done HttpReply.methodNotAllowed
  else if request.path = healthPath then .done (handleHealth request)
  else .done HttpReply.notFound

end SecretsWarden.Admission
