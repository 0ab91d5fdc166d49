/-!
# Magnitudes of doubles

A finite double is a sign and an integer times a power of two. Exact statements and exact
roundings about doubles are made on this pair.
-/

namespace SecretsWarden.Binary64

/-- The number `significand * 2 ^ power`. -/
structure Magnitude where
  significand : Nat
  power : Int
  deriving DecidableEq, Repr

/-- The leading bit of a significand, which the word does not hold. -/
def hiddenBit : Nat := 4503599627370496

/-- The absolute value of a finite double, read off its fields. -/
def magnitude (x : Float) : Magnitude :=
  let bits := x.toBits.toNat
  let fraction := bits % hiddenBit
  let exponent : Nat := bits / hiddenBit % 2048
  if exponent = 0 then ⟨fraction, -1074⟩
  else ⟨hiddenBit + fraction, (exponent : Int) - 1075⟩

namespace Magnitude

/-- The value as a fraction of naturals. -/
def numerator (x : Magnitude) : Nat := x.significand * Nat.pow 2 x.power.toNat

def denominator (x : Magnitude) : Nat := Nat.pow 2 (-x.power).toNat

/-- The nearest natural to `scale` times the value; a half goes to the even neighbour. -/
def roundScaled (x : Magnitude) (scale : Nat) : Nat :=
  let n := x.numerator * scale
  let d := x.denominator
  let q := n / d
  let r := n % d
  if 2 * r < d then q
  else if d < 2 * r then q + 1
  else if q % 2 = 0 then q else q + 1

end Magnitude

end SecretsWarden.Binary64
