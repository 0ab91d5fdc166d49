/-!
# Reading UTF-8

Bytes are read one character at a time. A fault names the byte at which the faulty sequence
begins and, unless the input ends inside it, how many of its bytes can belong to no character.
-/

namespace SecretsWarden.Text

/-- A sequence that is no character. -/
structure Utf8Fault where
  index : Nat
  /-- How many bytes are at fault; none if the input ends too early. -/
  length : Option Nat
  deriving DecidableEq, Repr

namespace Utf8Fault

def message (fault : Utf8Fault) : String :=
  match fault.length with
  | some n => s!"invalid utf-8 sequence of {n} bytes from index {fault.index}"
  | none => s!"incomplete utf-8 byte sequence from index {fault.index}"

end Utf8Fault

/-- The bounds of the byte after a first one, and how many more follow it; none for a byte
that begins no sequence of several. -/
def utf8Lead? (lead : Nat) : Option (Nat × Nat × Nat) :=
  if 0xc2 ≤ lead ∧ lead ≤ 0xdf then some (0x80, 0xbf, 0)
  else if lead = 0xe0 then some (0xa0, 0xbf, 1)
  else if lead = 0xed then some (0x80, 0x9f, 1)
  else if 0xe1 ≤ lead ∧ lead ≤ 0xef then some (0x80, 0xbf, 1)
  else if lead = 0xf0 then some (0x90, 0xbf, 2)
  else if lead = 0xf4 then some (0x80, 0x8f, 2)
  else if 0xf1 ≤ lead ∧ lead ≤ 0xf3 then some (0x80, 0xbf, 2)
  else none

/-- What the first byte of a sequence of `1 + following` bytes adds to the code point. -/
def utf8LeadBits (lead following : Nat) : Nat :=
  if following = 1 then lead % 0x20 else if following = 2 then lead % 0x10 else lead % 0x08

inductive Utf8Step where
  /-- An open sequence: where it began, its length so far, its bits, the bounds of the next
  byte, and how many bytes follow that one. -/
  | within (start length bits low high following : Nat)
  | between
  deriving Repr

/-- Reads on from a state; `read` holds the characters in reverse. -/
def readUtf8 (index : Nat) (step : Utf8Step) (read : List Char) :
    List UInt8 → Except Utf8Fault String
  | [] =>
    match step with
    | .between => .ok (String.ofList read.reverse)
    | .within start .. => .error ⟨start, none⟩
  | b :: rest =>
    let n := b.toNat
    match step with
    | .between =>
      if n < 0x80 then readUtf8 (index + 1) .between (Char.ofNat n :: read) rest
      else
        match utf8Lead? n with
        | none => .error ⟨index, some 1⟩
        | some (low, high, following) =>
          readUtf8 (index + 1)
            (.within index 1 (utf8LeadBits n (following + 1)) low high following) read rest
    | .within start length bits low high following =>
      if low ≤ n ∧ n ≤ high then
        let bits := bits * 0x40 + n % 0x40
        if following = 0 then readUtf8 (index + 1) .between (Char.ofNat bits :: read) rest
        else
          readUtf8 (index + 1) (.within start (length + 1) bits 0x80 0xbf (following - 1)) read
            rest
      else .error ⟨start, some length⟩

def decodeUtf8 (bytes : List UInt8) : Except Utf8Fault String :=
  readUtf8 0 .between [] bytes

end SecretsWarden.Text
