/-!
# Media types

A media type is a type and a subtype, both tokens, and parameters after semicolons. What
follows the last plus sign of a subtype is its suffix.
-/

namespace SecretsWarden.Admission

/-- A media type without its parameters, in lower case. -/
structure MediaType where
  type : String
  subtype : String
  suffix : Option String
  deriving DecidableEq, Repr

namespace MediaType

def isTokenChar (c : Char) : Bool :=
  c.isAlphanum || "!#$%&'*+-.^_\x60|~".toList.contains c

def readToken? (cs : List Char) : Option (List Char × List Char) :=
  let token := cs.takeWhile isTokenChar
  if token.isEmpty then none else some (token, cs.dropWhile isTokenChar)

/-- What follows a value in quotes and the spaces after it. There is at least one character in
the quotes, and the first one may be a quotation mark. -/
def skipQuoted? : List Char → Option (List Char)
  | [] => none
  | c :: cs =>
    let quoted := c :: cs.takeWhile (· ≠ '"')
    match cs.dropWhile (· ≠ '"') with
    | [] => none
    | _ :: rest =>
      if quoted.all fun c => ' ' ≤ c ∧ c ≤ '~' then some (rest.dropWhile (· = ' ')) else none

/-- What follows the value of a parameter, which is a token or stands in quotes. It may be
missing at the very end. -/
def skipValue? : List Char → Option (List Char)
  | [] => some []
  | '"' :: cs => skipQuoted? cs
  | cs => (readToken? cs).map Prod.snd

/-- Whether a text consists of parameters, each after a semicolon; `fuel` bounds their number. -/
def areParameters : (fuel : Nat) → List Char → Bool
  | _, [] => true
  | 0, _ => false
  | fuel + 1, ';' :: cs =>
    match cs.dropWhile (· = ' ') with
    | [] => true
    | cs =>
      match readToken? cs with
      | some (_, '=' :: cs) =>
        match skipValue? cs with
        | some rest => areParameters fuel rest
        | none => false
      | _ => false
  | _, _ => false

/-- Splits a subtype at its last plus sign, unless that comes first. -/
def splitSuffix (subtype : List Char) : List Char × Option (List Char) :=
  let suffix := (subtype.reverse.takeWhile (· ≠ '+')).reverse
  let rest := subtype.take (subtype.length - suffix.length - 1)
  if rest.isEmpty then (subtype, none) else (rest, some suffix)

def lower (cs : List Char) : String := String.ofList (cs.map Char.toLower)

def parse? (text : String) : Option MediaType := do
  let (type, rest) ← readToken? text.toList
  match rest with
  | '/' :: rest =>
    let (subtype, rest) ← readToken? rest
    if areParameters (rest.length + 1) rest then
      let (subtype, suffix) := splitSuffix subtype
      some ⟨lower type, lower subtype, suffix.map lower⟩
    else none
  | _ => none

/-- Whether this is the type of JSON texts. -/
def isJson (m : MediaType) : Bool :=
  m.type = "application" && (m.subtype = "json" || m.suffix = some "json")

end MediaType

end SecretsWarden.Admission
