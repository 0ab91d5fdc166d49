import SecretsWarden.Json.Reader

/-!
# Status conditions

A list of conditions is read by type: the first entry of a type is the one that counts. Two
conditions are equivalent if they differ at most in their times. Merging a condition replaces
the first entry of its type, or adds one at the end; it says when an equivalent one is there
already, so that nothing has to be written.
-/

namespace SecretsWarden.Resource

open Json

structure Condition where
  type : String
  status : String
  reason : Option String := none
  message : Option String := none
  observedGeneration : Option Int64 := none
  lastTransitionTime : Option String := none
  deriving DecidableEq, Repr, Inhabited

namespace Condition

/-- Equal but for the time. -/
def equivalent (a b : Condition) : Bool :=
  a.type = b.type && a.status = b.status && a.reason = b.reason && a.message = b.message
    && a.observedGeneration = b.observedGeneration

/-- What stands in the place of an entry of the same type: the new condition, with the time
of the old one if the status did not change. -/
def replacing (new old : Condition) : Condition :=
  if old.status = new.status then { new with lastTransitionTime := old.lastTransitionTime }
  else new

/-- The list with the condition merged in, or nothing if the first entry of its type is
equivalent to it. -/
def merge? (new : Condition) : List Condition → Option (List Condition)
  | [] => some [new]
  | old :: rest =>
    if old.type = new.type then
      if old.equivalent new then none else some (new.replacing old :: rest)
    else (new.merge? rest).map (old :: ·)

/-- The list after the condition was merged in. -/
def merge (new : Condition) (cs : List Condition) : List Condition := (new.merge? cs).getD cs

def fields : List String :=
  ["type", "status", "reason", "message", "observedGeneration", "lastTransitionTime"]

def shape : Shape := .record [
  ("type", .required, .text), ("status", .required, .text), ("reason", .placed, .nullable .text),
  ("message", .placed, .nullable .text), ("observedGeneration", .placed, .nullable .int64),
  ("lastTransitionTime", .placed, .nullable .text)]

def ofJson? (v : Value) : Option Condition := do
  let members ← v.record? fields fields.length
  some {
    type := ← required members "type" Value.string?
    status := ← required members "status" Value.string?
    reason := ← optional members "reason" Value.string?
    message := ← optional members "message" Value.string?
    observedGeneration := ← optional members "observedGeneration" Value.int64?
    lastTransitionTime := ← optional members "lastTransitionTime" Value.string? }

def toJson (c : Condition) : Value :=
  .object (
    [("type", .string c.type), ("status", .string c.status)]
      ++ optionalMember "reason" (c.reason.map .string)
      ++ optionalMember "message" (c.message.map .string)
      ++ optionalMember "observedGeneration" (c.observedGeneration.map fun n => .ofInt n.toInt)
      ++ optionalMember "lastTransitionTime" (c.lastTransitionTime.map .string))

end Condition

end SecretsWarden.Resource
