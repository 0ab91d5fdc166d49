/-!
# Base 64

In the encoding of RFC 4648 four letters stand for three bytes, six bits each. The last group
may stand for less: equals signs fill it up, and the bits of its last letter that belong to no
byte are zero. So each sequence of bytes has one text.
-/

namespace SecretsWarden.Text

/-- The six bits of a letter. -/
def sextet? (c : Char) : Option Nat :=
  if 'A' ≤ c ∧ c ≤ 'Z' then some (c.toNat - 'A'.toNat)
  else if 'a' ≤ c ∧ c ≤ 'z' then some (c.toNat - 'a'.toNat + 26)
  else if c.isDigit then some (c.toNat - '0'.toNat + 52)
  else if c = '+' then some 62
  else if c = '/' then some 63
  else none

/-- Whether a character is a letter of the encoding, the bits of which are a multiple of `unit`. -/
def isSextet (unit : Nat) (c : Char) : Bool := (sextet? c).any fun n => n % unit = 0

def isBase64 : List Char → Bool
  | [] => true
  | [a, b, '=', '='] => isSextet 1 a && isSextet 16 b
  | [a, b, c, '='] => isSextet 1 a && isSextet 1 b && isSextet 4 c
  | a :: b :: c :: d :: rest => [a, b, c, d].all (isSextet 1) && isBase64 rest
  | _ => false

end SecretsWarden.Text
