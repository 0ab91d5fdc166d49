import SecretsWarden.Binary64.Magnitude

/-!
# Durations

A duration is a number of nanoseconds. Its value in seconds as a double is rounded twice, once
for the whole seconds and once for the sum; a double becomes a duration by its exact value,
rounded to the nearest nanosecond, a half to the even one.
-/

namespace SecretsWarden

structure Duration where
  nanoseconds : Nat
  deriving DecidableEq, Repr, Inhabited

namespace Duration

def perSecond : Nat := 1000000000

def perMilli : Nat := 1000000

def ofSeconds (n : Nat) : Duration := ⟨n * perSecond⟩

def ofMillis (n : Nat) : Duration := ⟨n * perMilli⟩

def zero : Duration := ⟨0⟩

def seconds (d : Duration) : Nat := d.nanoseconds / perSecond

/-- The nanoseconds beyond the whole seconds. -/
def subsecond (d : Duration) : Nat := d.nanoseconds % perSecond

/-- Milliseconds, a started one counting as a whole. -/
def millisCeil (d : Duration) : Nat := (d.nanoseconds + (perMilli - 1)) / perMilli

def min (a b : Duration) : Duration := if a.nanoseconds ≤ b.nanoseconds then a else b

def toFloat (d : Duration) : Float :=
  d.seconds.toUInt64.toFloat + d.subsecond.toUInt64.toFloat / 1e9

/-- Why a duration cannot be computed. -/
inductive Fault where
  | negative
  | tooLarge
  /-- It is drawn from a range that has no end. -/
  | unbounded
  deriving DecidableEq, Repr

def Fault.message : Fault → String
  | .negative => "cannot convert float seconds to Duration: value is negative"
  | .tooLarge => "cannot convert float seconds to Duration: value is either too big or NaN"
  | .unbounded => "UniformSampler::sample_single called with \x60high\x60 non-finite."

/-- A double as a number of seconds. The negative zero is zero. -/
def ofFloat (x : Float) : Except Fault Duration :=
  if x < 0.0 then .error .negative
  else if x < 18446744073709551616.0 then
    .ok ⟨(Binary64.magnitude x).roundScaled perSecond⟩
  else .error .tooLarge

end Duration

end SecretsWarden
