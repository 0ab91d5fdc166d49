/-!
# Unsigned decimal numerals

A numeral is an optional plus sign and at least one ASCII digit. It is read from the left, and
the first character that makes it no numeral, or makes it too large, decides the fault.
-/

namespace SecretsWarden.Text

inductive NumeralFault where
  | empty
  | invalidDigit
  | tooLarge
  deriving DecidableEq, Repr

def NumeralFault.message : NumeralFault → String
  | .empty => "cannot parse integer from empty string"
  | .invalidDigit => "invalid digit found in string"
  | .tooLarge => "number too large to fit in target type"

/-- The number written by a list of digits. -/
def ofDigits (cs : List Char) : Nat :=
  cs.foldl (fun n c => 10 * n + (c.toNat - '0'.toNat)) 0

/-- An optional sign, whether it is a minus sign, and what follows it. -/
def readSign : List Char → Bool × List Char
  | '-' :: cs => (true, cs)
  | '+' :: cs => (false, cs)
  | cs => (false, cs)

/-- Reads digits after a value that has been read. -/
def readDigits (max : Nat) (value : Nat) : List Char → Except NumeralFault Nat
  | [] => .ok value
  | c :: cs =>
    if c.isDigit then
      let next := 10 * value + (c.toNat - '0'.toNat)
      if next ≤ max then readDigits max next cs else .error .tooLarge
    else .error .invalidDigit

/-- The numeral of a natural up to `max`. -/
def readNumeral (max : Nat) (s : String) : Except NumeralFault Nat :=
  match s.toList with
  | [] => .error .empty
  | ['+'] => .error .invalidDigit
  | '+' :: cs => readDigits max 0 cs
  | cs => readDigits max 0 cs

end SecretsWarden.Text
