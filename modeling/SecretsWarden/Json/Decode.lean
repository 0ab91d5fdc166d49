import SecretsWarden.Json.Value

/-!
# Reading typed data out of JSON

Reading is strict: no conversion between kinds, integers are checked against the range of
their type. Three rules for a member: it may be required, it may default, or it may be absent
or null.
-/

namespace SecretsWarden.Json

namespace Value

def string? : Value → Option String
  | .string s => some s
  | _ => none

def bool? : Value → Option Bool
  | .bool b => some b
  | _ => none

/-- An integer between two bounds, both included. -/
def integer? (low high : Int) : Value → Option Int
  | .number (.integer n) => if low ≤ n ∧ n ≤ high then some n else none
  | _ => none

def int64? (v : Value) : Option Int64 :=
  (v.integer? (-9223372036854775808) 9223372036854775807).map Int64.ofInt

def below? (limit : Nat) (v : Value) : Option Nat :=
  (v.integer? 0 (limit - 1)).map Int.toNat

def list? (read : Value → Option α) : Value → Option (List α)
  | .array items => items.mapM read
  | _ => none

/-- An object as a map: every member is read. -/
def map? (read : Value → Option α) : Value → Option (List (String × α))
  | .object members => members.mapM fun (name, v) => (read v).map (name, ·)
  | _ => none

/-- A record is an object, or an array of its fields in order of which the first `least` must
be there. -/
def record? (fields : List String) (least : Nat) : Value → Option (List (String × Value))
  | .object members => some members
  | .array items =>
    if least ≤ items.length ∧ items.length ≤ fields.length then some (fields.zip items)
    else none
  | _ => none

end Value

/-- A member that must be there. -/
def required (members : List (String × Value)) (name : String) (read : Value → Option α) :
    Option α :=
  (members.lookup name).bind read

/-- A member that has a default. -/
def defaulted (members : List (String × Value)) (name : String) (default : α)
    (read : Value → Option α) : Option α :=
  match members.lookup name with
  | none => some default
  | some v => read v

/-- A member that may be absent or null. -/
def optional (members : List (String × Value)) (name : String) (read : Value → Option α) :
    Option (Option α) :=
  match members.lookup name with
  | none | some .null => some none
  | some v => (read v).map some

end SecretsWarden.Json
