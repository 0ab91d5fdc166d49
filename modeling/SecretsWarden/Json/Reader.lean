import SecretsWarden.Json.Decode
import SecretsWarden.Json.Parser
import SecretsWarden.Json.Shape

/-!
# Readers of typed data

A reader knows the shape of its data and how to build it from a value of that shape. From a
text it takes the value by the shape, so that it meets the faults of the text in their order.
-/

namespace SecretsWarden.Json

/-- A value in its plain form, if it has a shape. -/
def Shape.accept? (table : List Shape) (shape : Shape) (v : Value) : Option Value :=
  (shape.read { table } (.ofValue v)).toOption

/-- Reads data of a type. -/
structure Reader (α : Type) where
  shape : Shape
  /-- Where the entries of the shape are looked up. -/
  table : List Shape := []
  ofJson? : Value → Option α

namespace Reader

/-- Reads the same and keeps a part of it. -/
def map (f : α → β) (reader : Reader α) : Reader β where
  shape := reader.shape
  table := reader.table
  ofJson? v := (reader.ofJson? v).map f

/-- Reads what stands in a text, maybe after it was held. -/
def read (reader : Reader α) (isHeld : Bool) (r : Raw) : Except Fault α :=
  (reader.shape.read { table := reader.table, isHeld } r).bind fun v =>
    match reader.ofJson? v with
    | some a => .ok a
    | none => .error .unfit

/-- Reads what stands in a text. -/
def ofRaw (reader : Reader α) (r : Raw) : Except Fault α := reader.read false r

/-- Reads a text, which holds nothing else but space. -/
def ofText (reader : Reader α) (text : String) : Except Fault α :=
  let d := Document.ofText text
  (reader.ofRaw d.value).bind d.finish

end Reader

end SecretsWarden.Json
