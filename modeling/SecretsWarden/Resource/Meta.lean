import SecretsWarden.Json.Reader

/-!
# Metadata of a cluster object

The members that the operator looks at have fields of their own; the other known ones are
checked for their shape and kept in their plain form. Unknown members are dropped, and so
are members that are null.
-/

namespace SecretsWarden.Resource

open Json

structure Meta where
  name : Option String := none
  generateName : Option String := none
  namespaceName : Option String := none
  resourceVersion : Option String := none
  generation : Option Int64 := none
  labels : Option (List (String × String)) := none
  annotations : Option (List (String × String)) := none
  /-- The other known members. -/
  rest : List (String × Value) := []
  deriving Repr, BEq, Inhabited

/-- What identifies an object among those of its kind. -/
structure Key where
  space : Option String
  name : String
  deriving DecidableEq, Repr, Inhabited

namespace Meta

/-- The key of an object. One that has no name of its own has none. -/
def key? (m : Meta) : Option Key := m.name.map fun name => ⟨m.namespaceName, name⟩

/-- What is said of an object without a key. -/
def keylessMessage : String := ".metadata.name missing"

def ownerShape : Shape := .object [
  ("apiVersion", .filled), ("blockOwnerDeletion", .flag), ("controller", .flag),
  ("kind", .filled), ("name", .filled), ("uid", .filled)]

def managedFieldsShape : Shape := .object [
  ("apiVersion", .text), ("fieldsType", .text), ("fieldsV1", .any), ("manager", .text),
  ("operation", .text), ("subresource", .text), ("time", .time)]

/-- The members that the operator does not look at. -/
def restFields : List (String × Shape) := [
  ("creationTimestamp", .time), ("deletionGracePeriodSeconds", .int64),
  ("deletionTimestamp", .time), ("finalizers", .list .text),
  ("managedFields", .list managedFieldsShape), ("ownerReferences", .list ownerShape),
  ("selfLink", .text), ("uid", .text)]

/-- The members that the operator looks at. -/
def ownFields : List (String × Shape) := [
  ("name", .text), ("generateName", .text), ("namespace", .text), ("resourceVersion", .text),
  ("generation", .int64), ("labels", .map .text), ("annotations", .map .text)]

def shape : Shape := .object (ownFields ++ restFields)

/-- The known members among the rest, or nothing if one has the wrong shape. -/
def readRest? (members : List (String × Value)) : Option (List (String × Value)) :=
  (restFields.mapM fun ((name, shape) : String × Shape) =>
    (optional members name (shape.accept? [])).map (optionalMember name)).map List.flatten

def ofJson? : Value → Option Meta
  | .object members => do
    some {
      name := ← optional members "name" Value.string?
      generateName := ← optional members "generateName" Value.string?
      namespaceName := ← optional members "namespace" Value.string?
      resourceVersion := ← optional members "resourceVersion" Value.string?
      generation := ← optional members "generation" Value.int64?
      labels := ← optional members "labels" (Value.map? Value.string?)
      annotations := ← optional members "annotations" (Value.map? Value.string?)
      rest := ← readRest? members }
  | _ => none

def mapToJson (entries : List (String × String)) : Value :=
  .object (entries.map fun (name, text) => (name, .string text))

def toJson (m : Meta) : Value :=
  .object (
    optionalMember "name" (m.name.map .string)
      ++ optionalMember "generateName" (m.generateName.map .string)
      ++ optionalMember "namespace" (m.namespaceName.map .string)
      ++ optionalMember "resourceVersion" (m.resourceVersion.map .string)
      ++ optionalMember "generation" (m.generation.map fun n => .ofInt n.toInt)
      ++ optionalMember "labels" (m.labels.map mapToJson)
      ++ optionalMember "annotations" (m.annotations.map mapToJson)
      ++ m.rest)

/-- The name, else the stem from which one is to be generated, else nothing. -/
def anyName (m : Meta) : String := (m.name <|> m.generateName).getD ""

def hasEntry (entries : Option (List (String × String))) (key value : String) : Bool :=
  (entries.getD []).lookup key == some value

def isLabelledWith (m : Meta) (key value : String) : Bool := hasEntry m.labels key value

def isAnnotatedWith (m : Meta) (key value : String) : Bool := hasEntry m.annotations key value

end Meta

end SecretsWarden.Resource
