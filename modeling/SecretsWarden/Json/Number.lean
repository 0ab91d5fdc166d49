import SecretsWarden.Binary64.Shortest
import SecretsWarden.Text.Numeral

/-!
# Numbers of JSON

A number is an integer of at most 64 bits or a double. A double is read in few steps, each of
which rounds: the first digits, as many as 64 bits hold, make a double, which is multiplied
with or divided by a power of ten. Up to fifteen digits and powers up to the twenty-second
nothing is lost.
-/

namespace SecretsWarden.Json

/-- A number: an integer of at most 64 bits, or a double by its shortest decimal. -/
inductive Number where
  | integer (value : Int)
  | double (negative : Bool) (decimal : Binary64.Decimal)
  deriving DecidableEq, Repr, Inhabited

namespace Number

/-- A limit that integers stay below. -/
def limit : Nat := 18446744073709551616

/-- Reads digits after a value as long as it stays below the limit, and gives back the others. -/
def readFitting (value : Nat) : List Char → Nat × List Char
  | [] => (value, [])
  | c :: cs =>
    let next := 10 * value + (c.toNat - '0'.toNat)
    if next < limit then readFitting next cs else (value, c :: cs)

/-- The greatest power of ten that is a double. -/
def maxPower : Nat := 308

/-- The double nearest to a power of ten. -/
def tenTo (n : Nat) : Float := Float.ofScientific 1 false n

/-- Divides by a power of ten. -/
def scaleDown (x : Float) (n : Nat) : Float :=
  if n ≤ maxPower then x / tenTo n
  else if x == 0.0 then x
  else scaleDown (x / tenTo maxPower) (n - maxPower)
termination_by n
decreasing_by simp only [maxPower] at *; omega

/-- Multiplies with a power of ten, unless the result is too large. -/
def scaleUp? (x : Float) (n : Nat) : Option Float :=
  if x == 0.0 then some x
  else if n ≤ maxPower ∧ (x * tenTo n).isFinite then some (x * tenTo n)
  else none

/-- A finite double as a number. -/
def ofFloat (negative : Bool) (x : Float) : Number :=
  .double negative (Binary64.magnitude x).shortest

/-- An integer below the limit. One that 64 bits with a sign cannot hold becomes a double, and so
does the negative zero. -/
def ofInteger (negative : Bool) (n : Nat) : Number :=
  if !negative then .integer n
  else if n ≠ 0 ∧ n ≤ 9223372036854775808 then .integer (-n)
  else ofFloat true n.toUInt64.toFloat

/-- An integer below the limit times a power of ten, unless it is too large. -/
def ofScaled? (negative : Bool) (n : Nat) (exponent : Int) : Option Number :=
  let x := n.toUInt64.toFloat
  (if exponent < 0 then some (scaleDown x exponent.natAbs) else scaleUp? x exponent.toNat).map
    (ofFloat negative)

/-- The number of a whole part, a fraction and an exponent. -/
def ofParts? (negative : Bool) (whole fraction : List Char) (exponent : Option Int) :
    Option Number :=
  match readFitting 0 whole, fraction, exponent with
  | (n, []), [], none => some (ofInteger negative n)
  | (n, left), fraction, exponent =>
    let (n, dropped) := readFitting n fraction
    let places : Int := fraction.length - dropped.length
    ofScaled? negative n (exponent.getD 0 + left.length - places)

end Number

end SecretsWarden.Json
