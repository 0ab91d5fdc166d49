import SecretsWarden.Json.Number

/-!
# JSON values

An object is the list of its members in the order they came. A name is bound by its first
member; `Value.ofMembers` gives each name its last value, as a reader of JSON text does.
-/

namespace SecretsWarden.Json

inductive Value where
  | null
  | bool (value : Bool)
  | number (value : Number)
  | string (value : String)
  | array (items : List Value)
  | object (members : List (String × Value))
  deriving Repr, Inhabited, BEq

namespace Value

def isNull : Value → Bool
  | null => true
  | _ => false

def get? (v : Value) (name : String) : Option Value :=
  match v with
  | .object members => members.lookup name
  | _ => none

/-- Walks a path of names through nested objects. -/
def at? (v : Value) : List String → Option Value
  | [] => some v
  | name :: path => (v.get? name).bind (at? · path)

/-- Binds a name, in place if it is bound already. -/
def bind (name : String) (v : Value) : List (String × Value) → List (String × Value)
  | [] => [(name, v)]
  | (n, w) :: rest => if n = name then (n, v) :: rest else (n, w) :: bind name v rest

/-- Members in which each name has its last value. -/
def foldMembers (members : List (String × Value)) : List (String × Value) :=
  members.foldl (fun ms (n, v) => bind n v ms) []

/-- The object in which each name has its last value. -/
def ofMembers (members : List (String × Value)) : Value := .object (foldMembers members)

def names : Value → List String
  | .object members => members.map Prod.fst
  | _ => []

def ofNat (n : Nat) : Value := .number (.integer n)

def ofInt (n : Int) : Value := .number (.integer n)

end Value

/-- A member that is left out when it has no value. -/
def optionalMember (name : String) (v : Option Value) : List (String × Value) :=
  match v with
  | none => []
  | some v => [(name, v)]

end SecretsWarden.Json
