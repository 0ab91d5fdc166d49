import SecretsWarden.Json.Printer

/-!
# YAML text of a JSON value

Block style, the members of an object sorted by name. The items of an array stand under the
name they belong to, without further indentation. A text that YAML could take for something
else is quoted, as JSON quotes it.
-/

namespace SecretsWarden.Json.Yaml

/-- Words that stand for something else than themselves. -/
def reserved : List String :=
  ["null", "true", "false", "yes", "no", "on", "off", "y", "n"]

/-- Whether a text begins like a word and cannot be taken for anything else. -/
def isPlain (s : String) : Bool :=
  let cs := s.toList
  let blank (c : Char) : Bool := c = ' '
  (match cs with
    | [] => false
    | c :: _ => c.isAlpha)
    && cs.all (fun c => ' ' ≤ c ∧ c ≤ '~')
    && (cs.zip (cs.tail ++ [' '])).all (fun (a, b) =>
      !(a = ':' && blank b) && !(blank a && b = '#'))
    && !(cs.getLast?.map blank).getD false
    && !reserved.contains s.toLower

def scalar (s : String) : String := if isPlain s then s else renderString s

def indent (depth : Nat) : String := "".pushn ' ' (2 * depth)

/-- The lines of an object's members in the order of their names. -/
def sortByName (members : List (String × String)) : List String :=
  (members.mergeSort fun a b => !decide (b.1 < a.1)).map Prod.snd

mutual

/-- The value after a name or a dash: on the same line, or as a block below it. -/
def renderAfter (depth : Nat) : Value → String
  | .array [] => " []\n"
  | .object [] => " \x7b\x7d\n"
  | .array items => "\n" ++ renderItems depth items
  | .object members =>
    "\n" ++ String.join (sortByName (renderMembers (depth + 1) members))
  | .string s => " " ++ scalar s ++ "\n"
  | .null => " null\n"
  | .bool b => (if b then " true" else " false") ++ "\n"
  | .number n => " " ++ n.render ++ "\n"

/-- The lines of an array. An object or array begins on the line of its dash. -/
def renderItems (depth : Nat) : List Value → String
  | [] => ""
  | .object (m :: ms) :: rest =>
    let lines := String.join (sortByName (renderMembers (depth + 1) (m :: ms)))
    indent depth ++ "- " ++ String.ofList (lines.toList.drop (2 * (depth + 1)))
      ++ renderItems depth rest
  | .array (v :: vs) :: rest =>
    let lines := renderItems (depth + 1) (v :: vs)
    indent depth ++ "- " ++ String.ofList (lines.toList.drop (2 * (depth + 1)))
      ++ renderItems depth rest
  | v :: rest => indent depth ++ "-" ++ renderAfter depth v ++ renderItems depth rest

/-- The names of an object's members and their lines. -/
def renderMembers (depth : Nat) : List (String × Value) → List (String × String)
  | [] => []
  | (name, v) :: rest =>
    (name, indent depth ++ scalar name ++ ":" ++ renderAfter depth v)
      :: renderMembers depth rest

end

/-- A document that is an object. -/
def document (members : List (String × Value)) : String :=
  String.join (sortByName (renderMembers 0 members))

end SecretsWarden.Json.Yaml
