import SecretsWarden.Json.Parser
import SecretsWarden.Json.Printer
import SecretsWarden.Text.Utf8

/-!
# Answers of the API server

An answer has a status code and a body, or there is none because the transport failed. A
body is the JSON text of a value, or any bytes. A watch is answered by a stream of events that
does not end.
-/

namespace SecretsWarden.Cluster

inductive Body where
  | json (value : Json.Value)
  | bytes (content : List UInt8)
  deriving Repr, BEq

namespace Body

def text : Body → Except Text.Utf8Fault String
  | json v => .ok v.render
  | bytes content => Text.decodeUtf8 content

end Body

inductive Reply where
  /-- The transport failed for this reason. -/
  | failed (reason : String)
  | answered (status : Nat) (body : Body)
  /-- A stream of events, each with the milliseconds after which it comes. -/
  | stream (events : List (Nat × Json.Value))
  deriving Repr, BEq

/-- The phrase that goes with a status code. -/
def reasonPhrase : Nat → Option String
  | 100 => "Continue"
  | 101 => "Switching Protocols"
  | 102 => "Processing"
  | 200 => "OK"
  | 201 => "Created"
  | 202 => "Accepted"
  | 203 => "Non Authoritative Information"
  | 204 => "No Content"
  | 205 => "Reset Content"
  | 206 => "Partial Content"
  | 207 => "Multi-Status"
  | 208 => "Already Reported"
  | 226 => "IM Used"
  | 300 => "Multiple Choices"
  | 301 => "Moved Permanently"
  | 302 => "Found"
  | 303 => "See Other"
  | 304 => "Not Modified"
  | 305 => "Use Proxy"
  | 307 => "Temporary Redirect"
  | 308 => "Permanent Redirect"
  | 400 => "Bad Request"
  | 401 => "Unauthorized"
  | 402 => "Payment Required"
  | 403 => "Forbidden"
  | 404 => "Not Found"
  | 405 => "Method Not Allowed"
  | 406 => "Not Acceptable"
  | 407 => "Proxy Authentication Required"
  | 408 => "Request Timeout"
  | 409 => "Conflict"
  | 410 => "Gone"
  | 411 => "Length Required"
  | 412 => "Precondition Failed"
  | 413 => "Payload Too Large"
  | 414 => "URI Too Long"
  | 415 => "Unsupported Media Type"
  | 416 => "Range Not Satisfiable"
  | 417 => "Expectation Failed"
  | 418 => "I'm a teapot"
  | 421 => "Misdirected Request"
  | 422 => "Unprocessable Entity"
  | 423 => "Locked"
  | 424 => "Failed Dependency"
  | 425 => "Too Early"
  | 426 => "Upgrade Required"
  | 428 => "Precondition Required"
  | 429 => "Too Many Requests"
  | 431 => "Request Header Fields Too Large"
  | 451 => "Unavailable For Legal Reasons"
  | 500 => "Internal Server Error"
  | 501 => "Not Implemented"
  | 502 => "Bad Gateway"
  | 503 => "Service Unavailable"
  | 504 => "Gateway Timeout"
  | 505 => "HTTP Version Not Supported"
  | 506 => "Variant Also Negotiates"
  | 507 => "Insufficient Storage"
  | 508 => "Loop Detected"
  | 510 => "Not Extended"
  | 511 => "Network Authentication Required"
  | _ => none

def statusLine (status : Nat) : String :=
  s!"{status} " ++ (reasonPhrase status).getD "<unknown status code>"

/-- Whether a status code says that the request failed. -/
def isFailure (status : Nat) : Bool := 400 ≤ status ∧ status < 600

end SecretsWarden.Cluster
