import SecretsWarden.Instant
import SecretsWarden.Json.Raw
import SecretsWarden.Text.Base64

/-!
# Shapes of JSON values

A shape says which values a typed reader accepts. The reader goes through what stands in a text
in its order, so that the first fault counts, and gives the value in a plain form: each name
comes once, times are in UTC, and members that nobody asked for are left out.

There are three ways to read members by name. In an object every member may be absent or null,
which is the same, and may come again. In a record each member comes once, and some must be
there; a record may also be an array of its fields in their order. An extended record keeps the
members that it does not name.
-/

namespace SecretsWarden.Json

/-- Whether a field of a record must be there. -/
inductive Presence where
  | required
  /-- May be missing, but has its place in an array. -/
  | placed
  | optional
  deriving DecidableEq, Repr

inductive Shape where
  | any
  | text
  /-- A text that is empty where it is missing. -/
  | filled
  /-- The one text. -/
  | exactly (text : String)
  | flag
  /-- An integer between two bounds, both included. -/
  | integer (low high : Int)
  | number
  /-- A point in time, as RFC 3339 writes it. -/
  | time
  | encoded
  /-- One of some texts. It may also be the only member of an object, bound to null. -/
  | choice (texts : List String)
  | nullable (shape : Shape)
  | list (item : Shape)
  | map (value : Shape)
  | object (fields : List (String × Shape))
  | record (fields : List (String × Presence × Shape))
  /-- A record that also has certain texts among its other members. -/
  | extended (fields : List (String × Presence × Shape)) (texts : List String)
  /-- One of two shapes, of values that begin differently. -/
  | either (a b : Shape)
  /-- The shape of that number in a table, for shapes that contain themselves. -/
  | entry (index : Nat)
  deriving Repr, Inhabited

namespace Shape

/-- What reading depends on beside the shape. -/
structure Context where
  /-- Where the entries of the shape are looked up. -/
  table : List Shape := []
  /-- Whether the value was read before without a shape, and held. -/
  isHeld : Bool := false

def int64 : Shape := .integer (-9223372036854775808) 9223372036854775807

def int32 : Shape := .integer (-2147483648) 2147483647

def word32 : Shape := .integer 0 4294967295

def word16 : Shape := .integer 0 65535

def byte : Shape := .integer 0 255

/-- The shape behind an entry of a table. -/
def resolve (table : List Shape) : Shape → Shape
  | entry i => table[i]?.getD any
  | s => s

/-- Whether values of a shape begin as this one. -/
def begins : Shape → Raw → Bool
  | flag, .bool _ | list _, .array .. | object _, .object .. => true
  | _, _ => false

/-- The shape that counts for a value, by what it begins with. -/
def settle (table : List Shape) (r : Raw) : Shape → Shape
  | nullable s => s.settle table r
  | either a b =>
    if (a.resolve table).begins r then a.resolve table else b.resolve table
  | s => s.resolve table

/-- The form in which a member of an object may be null. -/
def orNull : Shape → Shape
  | exactly t => exactly t
  | s => nullable s

/-! ## Values without parts -/

def readText (s : String) : Shape → Except Fault Value
  | any | text | filled => .ok (.string s)
  | exactly t => if s = t then .ok (.string s) else .error .unfit
  | time =>
    match Instant.parse? s with
    | some t => .ok (.string t.render)
    | none => .error .unfit
  | encoded => if Text.isBase64 s.toList then .ok (.string s) else .error .unfit
  | choice texts => if texts.contains s then .ok (.string s) else .error .unfit
  | _ => .error .unfit

def readNumber (n : Number) : Shape → Except Fault Value
  | any | number => .ok (.number n)
  | integer low high =>
    match n with
    | .integer i => if low ≤ i ∧ i ≤ high then .ok (.number n) else .error .unfit
    | .double .. => .error .unfit
  | choice _ => .error .illFormed
  | _ => .error .unfit

/-- Reads a value that is no array and no object. -/
def readLeaf (r : Raw) (s : Shape) : Except Fault Value :=
  match r, s with
  | .bool b, any | .bool b, flag => .ok (.bool b)
  | .null, any => .ok .null
  | .number (some n), s => s.readNumber n
  | .string (some t), s => s.readText t
  | .null, choice _ | .bool _, choice _ | .number none, choice _ => .error .illFormed
  | .torn .null .., choice _ | .torn .word .., choice _ => .error .illFormed
  | r, _ => .error r.misfit

/-- Whether a value stands for nothing. In a value that is held, an empty object does too. -/
def isNothing (isHeld : Bool) : Raw → Bool
  | .null => true
  | .object _ [] none => isHeld
  | _ => false

/-- Reads a choice that is the only member of an object. -/
def readChoice (isHeld : Bool) (texts : List String) (stop : Option Fault) :
    List (Raw × Raw) → Except Fault Value
  | [] => .error (stop.getD .illFormed)
  | (.string (some t), r) :: rest =>
    if !texts.contains t then .error .unfit
    else if !isNothing isHeld r then .error r.misfit
    else if rest.isEmpty then Raw.close stop (.string t)
    else .error .illFormed
  | (name, _) :: _ => .error name.misfit

/-! ## Records -/

/-- The fields of an object or a record, each with its shape. -/
def shapesOf (fields : List (String × Presence × Shape)) : List (String × Shape) :=
  fields.map fun (name, _, shape) => (name, shape)

/-- The members of an object that are missing but not left out. -/
def fillings (fields : List (String × Shape)) (members : List (String × Value)) :
    List (String × Value) :=
  fields.filterMap fun (name, shape) =>
    match shape, members.lookup name with
    | filled, none => some (name, .string "")
    | _, _ => none

/-- The members of an object, without those that are null. -/
def buildObject (fields : List (String × Shape)) (members : List (String × Value)) : Value :=
  let members := (Value.foldMembers members).filter fun (_, v) => !v.isNull
  .object (members ++ fillings fields members)

/-- Whether all fields are there that must be. -/
def isComplete (fields : List (String × Presence × Shape)) (members : List (String × Value)) :
    Bool :=
  fields.all fun (name, presence, _) =>
    presence ≠ .required || (members.lookup name).isSome

/-- A record, if its members are complete. -/
def buildRecord (fields : List (String × Presence × Shape)) (members : List (String × Value)) :
    Except Fault Value :=
  if isComplete fields members then .ok (.ofMembers members) else .error .unfit

/-- Whether a text comes exactly once among members. -/
def hasText (members : List (String × Value)) (name : String) : Bool :=
  match members.filter (·.1 = name) with
  | [(_, .string _)] => true
  | _ => false

mutual

def read (c : Context) (shape : Shape) : Raw → Except Fault Value
  | .array deep items stop =>
    let whole := Raw.array deep items stop
    match shape.settle c.table whole with
    | any => whole.value
    | list item =>
      if deep then .error .illFormed
      else (item.readItems c items).bind fun vs => Raw.close stop (.array vs)
    | record fields =>
      if deep then .error .illFormed
      else (readPlaces c fields stop items).bind (buildRecord fields)
    | object _ => .error (if deep then .illFormed else .unfit)
    | choice _ => .error .illFormed
    | _ => .error .unfit
  | .object deep members stop =>
    let whole := Raw.object deep members stop
    match shape.settle c.table whole with
    | any => whole.value
    | map value =>
      if deep then .error .illFormed
      else (readEntries c value members).bind fun ms => Raw.close stop (.ofMembers ms)
    | object fields =>
      if deep then .error .illFormed
      else
        (readMembers c (fields.map fun (n, s) => (n, s.orNull)) true false [] members).bind
          fun ms => Raw.close stop (buildObject fields ms)
    | record fields =>
      if deep then .error .illFormed
      else
        (readMembers c (shapesOf fields) false false [] members).bind fun ms =>
          (Raw.close stop ms).bind (buildRecord fields)
    | extended fields texts =>
      if deep then .error .illFormed
      else
        (readMembers c (shapesOf fields) false true [] members).bind fun ms =>
          (Raw.close stop ms).bind fun ms =>
            if texts.all (hasText ms) then buildRecord fields ms else .error .unfit
    | choice texts => if deep then .error .illFormed else readChoice c.isHeld texts stop members
    | _ => .error .unfit
  | .null =>
    match shape with
    | nullable _ => .ok .null
    | _ => (shape.settle c.table .null).readLeaf .null
  | .torn .null strict skipping =>
    match shape with
    | nullable _ => .error strict
    | _ => (shape.settle c.table .null).readLeaf (.torn .null strict skipping)
  | r => (shape.settle c.table r).readLeaf r

def readItems (c : Context) (item : Shape) : List Raw → Except Fault (List Value)
  | [] => .ok []
  | r :: rest => do
    let v ← item.read c r
    let vs ← item.readItems c rest
    .ok (v :: vs)

def readEntries (c : Context) (value : Shape) :
    List (Raw × Raw) → Except Fault (List (String × Value))
  | [] => .ok []
  | (name, r) :: rest => do
    let n ← name.name
    let v ← value.read c r
    let vs ← readEntries c value rest
    .ok ((n, v) :: vs)

/-- Reads members by their names; `seen` are those that came already. Only if `again` is set,
they may come again. Other members are read if `keep` is set, and skipped if not. -/
def readMembers (c : Context) (fields : List (String × Shape)) (again keep : Bool)
    (seen : List String) : List (Raw × Raw) → Except Fault (List (String × Value))
  | [] => .ok []
  | (name, r) :: rest => do
    let n ← name.name
    match fields.lookup n with
    | some shape =>
      if seen.contains n && !again then .error .unfit
      else
        let v ← shape.read c r
        let vs ← readMembers c fields again keep (n :: seen) rest
        .ok ((n, v) :: vs)
    | none =>
      if keep then
        let v ← r.value
        let vs ← readMembers c fields again keep seen rest
        .ok ((n, v) :: vs)
      else
        match r.skip with
        | some fault => .error fault
        | none => readMembers c fields again keep seen rest

/-- Reads the fields of a record in their order. -/
def readPlaces (c : Context) (fields : List (String × Presence × Shape))
    (stop : Option Fault) : List Raw → Except Fault (List (String × Value))
  | [] =>
    if fields.all fun (_, presence, _) => presence = .optional then Raw.close stop []
    else .error (stop.getD .unfit)
  | r :: rest =>
    match fields with
    | [] => .error .illFormed
    | (name, _, shape) :: fields => do
      let v ← shape.read c r
      let vs ← readPlaces c fields stop rest
      .ok ((name, v) :: vs)

end

end Shape

end SecretsWarden.Json
