import SecretsWarden.Binary64.Shortest
import SecretsWarden.Text.Numeral

/-!
# Reading doubles

The grammar: an optional sign, then `inf`, `infinity`, `nan` (in any case), or digits with an
optional fraction and exponent, of which at least one digit stands outside the exponent.
-/

namespace SecretsWarden.Binary64

/-- The double nearest to a decimal. Exponents far outside the range need no arithmetic. -/
def ofDecimal (negative : Bool) (d : Decimal) : Float :=
  let size : Int := (Nat.toDigits 10 d.digits).length + d.exponent
  let x : Float :=
    if d.digits = 0 ∨ size < -400 then 0.0
    else if 400 < size then 1.0 / 0.0
    else Float.ofScientific d.digits (d.exponent < 0) d.exponent.natAbs
  if negative then -x else x

/-- What may follow the digits: nothing, or `e`, an optional sign and digits. -/
def readExponent? : List Char → Option Int
  | [] => some 0
  | c :: cs =>
    if c = 'e' ∨ c = 'E' then
      let (negative, ds) := Text.readSign cs
      if ds.isEmpty ∨ ds.any (!·.isDigit) then none
      else some (if negative then -(Text.ofDigits ds : Int) else Text.ofDigits ds)
    else none

/-- Digits with an optional fraction and exponent. -/
def readDecimal? (cs : List Char) : Option Decimal :=
  let whole := cs.takeWhile Char.isDigit
  let rest := cs.dropWhile Char.isDigit
  let (fraction, rest) :=
    match rest with
    | '.' :: ds => (ds.takeWhile Char.isDigit, ds.dropWhile Char.isDigit)
    | _ => ([], rest)
  if whole.isEmpty ∧ fraction.isEmpty then none
  else
    (readExponent? rest).map fun e =>
      ⟨Text.ofDigits (whole ++ fraction), e - fraction.length⟩

/-- Reads a double by the grammar above, rounding to nearest. -/
def read? (s : String) : Option Float :=
  let (negative, cs) := Text.readSign s.toList
  let signed (x : Float) : Float := if negative then -x else x
  let word := String.ofList (cs.map Char.toLower)
  if word = "inf" ∨ word = "infinity" then some (signed (1.0 / 0.0))
  else if word = "nan" then some (signed (0.0 / 0.0))
  else (readDecimal? cs).map (ofDecimal negative)

end SecretsWarden.Binary64
