import SecretsWarden.Json.Value

/-!
# What stands in a JSON text

A raw value is what a text holds before any type is asked of it. It keeps all members of an
object in their order, repeated names too, and it knows where the text stops to be JSON. So a
reader that wants a certain type can go through it in the order of the text and report the
first fault that it meets.

Readers differ in how strict they are. One that only skips a value looks at its grammar; one
that takes the value also refuses numbers that are too large, halves of surrogate pairs, and
arrays and objects that are nested too deeply.
-/

namespace SecretsWarden.Json

/-- Why a text cannot be read as a value of some kind. -/
inductive Fault where
  /-- The text ends too early. -/
  | incomplete
  /-- The text is no JSON, or exceeds what can be taken. -/
  | illFormed
  /-- The value is not of that kind. -/
  | unfit
  deriving DecidableEq, Repr

def Fault.message : Fault → String
  | incomplete => "unexpected end"
  | illFormed => "unexpected character"
  | unfit => "unexpected value"

/-- How a value begins that breaks off. -/
inductive Fragment where
  /-- As a string, or not at all. -/
  | blank
  /-- As `null`. -/
  | null
  /-- As another word, or as a number. -/
  | word
  deriving DecidableEq, Repr

/-- A value as it stands in a text. -/
inductive Raw where
  | null
  | bool (value : Bool)
  /-- A number, unless it is too large. -/
  | number (value : Option Number)
  /-- A string, unless it has half a surrogate pair. -/
  | string (value : Option String)
  /-- `deep` says that too many others are around it, `stop` what is wrong after the items. -/
  | array (deep : Bool) (items : List Raw) (stop : Option Fault)
  /-- The same for an object; a name is a string, or else the last thing there is. -/
  | object (deep : Bool) (members : List (Raw × Raw)) (stop : Option Fault)
  /-- No value stands here, or one that breaks off, with the fault that a strict reader finds
  and the one that a skipping reader finds. -/
  | torn (start : Fragment) (strict skipping : Fault)
  deriving Repr, Inhabited

namespace Raw

/-- The name of a member for a strict reader. -/
def name : Raw → Except Fault String
  | .string (some s) => .ok s
  | .torn .blank strict _ => .error strict
  | _ => .error .illFormed

/-- The fault of a name for a skipping reader. -/
def skipName : Raw → Option Fault
  | .string _ => none
  | .torn .blank _ skipping => some skipping
  | _ => some .illFormed

mutual

/-- The first fault in a value that is skipped. -/
def skip : Raw → Option Fault
  | .null | .bool _ | .number _ | .string _ => none
  | .array _ items stop => skipItems items <|> stop
  | .object _ members stop => skipMembers members <|> stop
  | .torn _ _ skipping => some skipping

def skipItems : List Raw → Option Fault
  | [] => none
  | r :: rest => r.skip <|> skipItems rest

def skipMembers : List (Raw × Raw) → Option Fault
  | [] => none
  | (name, r) :: rest => name.skipName <|> r.skip <|> skipMembers rest

end

/-- The fault of a value that is not of the wanted kind: an array or an object is refused where
it begins, anything else has to be read first. -/
def misfit : Raw → Fault
  | .torn _ strict _ => strict
  | .number none | .string none => .illFormed
  | _ => .unfit

mutual

/-- A value that is not read from a text. -/
def ofValue : Value → Raw
  | .null => .null
  | .bool b => .bool b
  | .number n => .number (some n)
  | .string s => .string (some s)
  | .array items => .array false (ofItems items) none
  | .object members => .object false (ofMembers members) none

def ofItems : List Value → List Raw
  | [] => []
  | v :: rest => ofValue v :: ofItems rest

def ofMembers : List (String × Value) → List (Raw × Raw)
  | [] => []
  | (name, v) :: rest => (.string (some name), ofValue v) :: ofMembers rest

end

/-- What is left to say after the last item or member. -/
def close (stop : Option Fault) (a : α) : Except Fault α :=
  match stop with
  | none => .ok a
  | some f => .error f

mutual

/-- The value, taken strictly. Of several members of one name the last one counts. -/
def value : Raw → Except Fault Value
  | .null => .ok .null
  | .bool b => .ok (.bool b)
  | .number (some n) => .ok (.number n)
  | .string (some s) => .ok (.string s)
  | .number none | .string none => .error .illFormed
  | .array deep items stop =>
    if deep then .error .illFormed
    else do
      let items ← itemValues items
      close stop (.array items)
  | .object deep members stop =>
    if deep then .error .illFormed
    else do
      let members ← memberValues members
      close stop (.ofMembers members)
  | .torn _ strict _ => .error strict

def itemValues : List Raw → Except Fault (List Value)
  | [] => .ok []
  | r :: rest => do
    let v ← r.value
    let vs ← itemValues rest
    .ok (v :: vs)

def memberValues : List (Raw × Raw) → Except Fault (List (String × Value))
  | [] => .ok []
  | (name, r) :: rest => do
    let n ← name.name
    let v ← r.value
    let vs ← memberValues rest
    .ok ((n, v) :: vs)

end

end Raw

end SecretsWarden.Json
