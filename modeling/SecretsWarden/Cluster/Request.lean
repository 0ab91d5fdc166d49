import SecretsWarden.Cluster.Error

/-!
# Requests to the API server

A request has a method, a path, a raw query and, if it writes, a merge patch. A name becomes
part of the path as it is: a question mark in it starts the query, a number sign ends the
address.
-/

namespace SecretsWarden.Cluster

inductive Method where
  | get
  | patch
  deriving DecidableEq, Repr

structure Request where
  method : Method
  path : String
  query : Option String
  body : Option Json.Value
  deriving Repr, BEq

def Method.name : Method → String
  | .get => "GET"
  | .patch => "PATCH"

def mergePatchType : String := "application/merge-patch+json"

def isPathChar (c : Char) : Bool :=
  c = '!' ∨ c = '"' ∨ ('$' ≤ c ∧ c ≤ ';') ∨ c = '=' ∨ ('@' ≤ c ∧ c ≤ '_')
    ∨ ('a' ≤ c ∧ c ≤ '~') ∨ '\x7f' < c

def isQueryChar (c : Char) : Bool :=
  c = '!' ∨ ('$' ≤ c ∧ c ≤ ';') ∨ c = '=' ∨ ('?' ≤ c ∧ c ≤ '~') ∨ '\x7f' < c

/-- How many bytes an address has at most. -/
def longestAddress : Nat := 65534

/-- Splits an address into path and query, if all their characters may stand there. -/
def splitAddress (address : String) : Except AddressFault (String × Option String) :=
  let shown := address.toList.takeWhile (· != '#')
  let path := shown.takeWhile (· != '?')
  let query := shown.dropWhile (· != '?')
  if longestAddress < address.utf8ByteSize then .error .tooLong
  else if path.all isPathChar ∧ query.all isQueryChar then
    match query with
    | [] => .ok (String.ofList path, none)
    | _ :: query => .ok (String.ofList path, some (String.ofList query))
  else .error .invalidCharacter

namespace Request

/-- A request for the object of that name under a path; `rest` follows the name. -/
def named (method : Method) (path name rest : String) (body : Option Json.Value) :
    Except Error Request :=
  if name.isEmpty then .error (.unbuildable .emptyName)
  else
    match splitAddress (path ++ "/" ++ name ++ rest) with
    | .ok (path, query) => .ok ⟨method, path, query, body⟩
    | .error fault => .error (.unbuildable (.name fault))

/-- A request that reads the object of that name. -/
def read (path name : String) : Except Error Request := named .get path name "" none

/-- A request for an address that the API server gave. -/
def address (path : String) : Except Error Request :=
  match splitAddress path with
  | .ok (path, query) => .ok ⟨.get, path, query, none⟩
  | .error fault => .error (.unbuildable (.address fault))

/-- A request that lists the objects under a path. -/
def list (path query : String) : Request := ⟨.get, path, some query, none⟩

/-- Whether the answer is a stream of events. -/
def isWatch (r : Request) : Bool :=
  (r.query.getD "").splitOn "watch=true" |>.length |> (1 < ·)

/-- What the request does: its method, or that it watches. -/
def verb (r : Request) : String := if r.isWatch then "WATCH" else r.method.name

end Request

end SecretsWarden.Cluster
