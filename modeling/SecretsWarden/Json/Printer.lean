import SecretsWarden.Json.Value

/-!
# JSON text of a value

Text without spaces, the members of an object sorted by name. A double keeps its point or
exponent, so that it does not read as an integer.
-/

namespace SecretsWarden.Json

/-- How a double is laid out: positionally up to `wide` digits before the point and fewer
than `deep` zeros after it, else with an exponent. -/
structure DoubleLayout where
  wide : Int
  deep : Int

def doubleLayout : DoubleLayout := ⟨16, 5⟩

/-- The text of an exponent, always with its sign. -/
def renderExponent (n : Int) : String := (if n < 0 then "e" else "e+") ++ toString n

def renderDecimal (layout : DoubleLayout) (d : Binary64.Decimal) : String :=
  let digits := toString d.digits
  let count : Int := digits.length
  let point := count + d.exponent
  let zeros (n : Int) : String := "".pushn '0' n.toNat
  if d.digits = 0 then "0.0"
  else if 0 ≤ d.exponent ∧ point ≤ layout.wide then digits ++ zeros d.exponent ++ ".0"
  else if 0 < point ∧ point ≤ layout.wide then
    String.ofList (digits.toList.take point.toNat) ++ "."
      ++ String.ofList (digits.toList.drop point.toNat)
  else if -layout.deep < point ∧ point ≤ 0 then "0." ++ zeros (-point) ++ digits
  else
    let exponent := renderExponent (point - 1)
    if count = 1 then digits ++ exponent
    else
      String.ofList (digits.toList.take 1) ++ "." ++ String.ofList (digits.toList.drop 1)
        ++ exponent

def Number.render : Number → String
  | .integer n => toString n
  | .double negative d => (if negative then "-" else "") ++ renderDecimal doubleLayout d

def hexDigit (n : Nat) : Char :=
  if n < 10 then Char.ofNat ('0'.toNat + n) else Char.ofNat ('a'.toNat + (n - 10))

/-- Quotes, backslashes and control characters are escaped, all else stands for itself. -/
def escapeChar (c : Char) : List Char :=
  if c = '"' then ['\\', '"']
  else if c = '\\' then ['\\', '\\']
  else if c = '\n' then ['\\', 'n']
  else if c = '\r' then ['\\', 'r']
  else if c = '\t' then ['\\', 't']
  else if c = '\x08' then ['\\', 'b']
  else if c = '\x0c' then ['\\', 'f']
  else if c.toNat < 32 then
    ['\\', 'u', '0', '0', hexDigit (c.toNat / 16), hexDigit (c.toNat % 16)]
  else [c]

def renderString (s : String) : String :=
  "\"" ++ String.ofList (s.toList.flatMap escapeChar) ++ "\""

mutual

def Value.render : Value → String
  | .null => "null"
  | .bool b => if b then "true" else "false"
  | .number n => n.render
  | .string s => renderString s
  | .array items => "[" ++ ",".intercalate (renderItems items) ++ "]"
  | .object members =>
    let sorted := (renderMembers members).mergeSort fun a b => !decide (b.1 < a.1)
    "\x7b" ++ ",".intercalate (sorted.map Prod.snd) ++ "\x7d"

def renderItems : List Value → List String
  | [] => []
  | v :: rest => v.render :: renderItems rest

/-- Each member's name and its text. -/
def renderMembers : List (String × Value) → List (String × String)
  | [] => []
  | (name, v) :: rest => (name, renderString name ++ ":" ++ v.render) :: renderMembers rest

end

end SecretsWarden.Json
