import SecretsWarden.Json.Value

/-!
# Merge patches

A patch that is an object is merged member by member: null takes a member out, an object is
merged into what the member has, anything else takes its place. A patch that is no object
takes the place of the whole value. This is RFC 7386.
-/

namespace SecretsWarden.Json

namespace Value

/-- The members of an object, none for any other value. -/
def membersOrNone : Value → List (String × Value)
  | object members => members
  | _ => []

/-- Takes a name out of an object's members. -/
def unbind (name : String) (members : List (String × Value)) : List (String × Value) :=
  members.filter fun m => m.1 ≠ name

mutual

/-- The value after a merge patch. -/
def mergePatch (target : Value) : Value → Value
  | .object changes => .object (mergeMembers target.membersOrNone changes)
  | .null => .null
  | .bool b => .bool b
  | .number n => .number n
  | .string s => .string s
  | .array items => .array items

/-- The members after the changes, one after the other. -/
def mergeMembers (members : List (String × Value)) :
    List (String × Value) → List (String × Value)
  | [] => members
  | (name, .null) :: rest => mergeMembers (unbind name members) rest
  | (name, change) :: rest =>
    mergeMembers (bind name (mergePatch ((members.lookup name).getD .null) change) members) rest

end

end Value

end SecretsWarden.Json
