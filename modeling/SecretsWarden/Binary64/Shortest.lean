import SecretsWarden.Binary64.Magnitude

/-!
# Shortest decimals of doubles

The decimal of a double is the one with the fewest digits among those that read back as the
same double, and of these the nearest to it. Everything is compared as fractions of naturals.
-/

namespace SecretsWarden.Binary64

/-- A decimal `digits * 10 ^ exponent`. -/
structure Decimal where
  digits : Nat
  exponent : Int
  deriving DecidableEq, Repr, Inhabited

namespace Decimal

/-- The same number without trailing zeros in its digits. -/
def normalize (d : Decimal) : Decimal :=
  if h : d.digits ≠ 0 ∧ d.digits % 10 = 0 then
    normalize ⟨d.digits / 10, d.exponent + 1⟩
  else if d.digits = 0 then ⟨0, 0⟩ else d
termination_by d.digits
decreasing_by omega

end Decimal

namespace Magnitude

/-- Numerators of the value and of the ends of its rounding interval, over one denominator.
Below a power of two the neighbours lie half as far apart. -/
structure Interval where
  low : Nat
  value : Nat
  high : Nat
  denominator : Nat
  closed : Bool

def interval (x : Magnitude) : Interval :=
  let scale := Nat.pow 2 (x.power - 2).toNat
  let m := 4 * x.significand
  let gap := if x.significand = hiddenBit ∧ -1074 < x.power then 1 else 2
  { low := (m - gap) * scale
    value := m * scale
    high := (m + 2) * scale
    denominator := Nat.pow 2 (2 - x.power).toNat
    closed := x.significand % 2 = 0 }

/-- Whether a decimal reads back as the double. -/
def Interval.admits (i : Interval) (d : Decimal) : Bool :=
  let n := d.digits * Nat.pow 10 d.exponent.toNat * i.denominator
  let s := Nat.pow 10 (-d.exponent).toNat
  if i.closed then i.low * s ≤ n ∧ n ≤ i.high * s else i.low * s < n ∧ n < i.high * s

/-- The distance of a decimal from the value, times the denominator and the decimal's scale. -/
def Interval.distance (i : Interval) (d : Decimal) : Nat :=
  let n := d.digits * Nat.pow 10 d.exponent.toNat * i.denominator
  let v := i.value * Nat.pow 10 (-d.exponent).toNat
  if n ≤ v then v - n else n - v

/-- The best decimal on the grid `10 ^ exponent`, if one of the value's two neighbours on it
reads back. -/
def Interval.onGrid? (i : Interval) (exponent : Int) : Option Decimal :=
  let below : Decimal :=
    ⟨i.value * Nat.pow 10 (-exponent).toNat / (i.denominator * Nat.pow 10 exponent.toNat),
      exponent⟩
  let above : Decimal := ⟨below.digits + 1, exponent⟩
  match i.admits below, i.admits above with
  | true, true =>
    let lower := i.distance below
    let upper := i.distance above
    if lower < upper ∨ (lower = upper ∧ below.digits % 2 = 0) then some below else some above
  | true, false => some below
  | false, true => some above
  | false, false => none

/-- The number of digits before the decimal point; at most zero below one. -/
def integerDigits (x : Magnitude) : Int :=
  ((Nat.toDigits 10 (x.numerator * Nat.pow 10 340 / x.denominator)).length : Int) - 340

/-- The shortest decimal. Seventeen digits always suffice. -/
def shortest (x : Magnitude) : Decimal :=
  if x.significand = 0 then ⟨0, 0⟩
  else
    let i := x.interval
    let k := x.integerDigits
    let found := (List.range 17).findSome? fun (n : Nat) => i.onGrid? (k - 1 - (n : Int))
    (found.getD ⟨0, 0⟩).normalize

end Magnitude

end SecretsWarden.Binary64
