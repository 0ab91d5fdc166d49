import SecretsWarden.Json.Raw

/-!
# Reading JSON text

The grammar of RFC 8259. Every function takes the characters that are left and gives back what
it read with the rest, or without a rest where the text cannot go on. `fuel` bounds the number
of calls: a value that is read and the items or members in it take one call each for at least
one character, so two for each character are enough.
-/

namespace SecretsWarden.Json

namespace Parser

def isSpace (c : Char) : Bool := c = ' ' ∨ c = '\n' ∨ c = '\t' ∨ c = '\r'

def skipSpace (cs : List Char) : List Char := cs.dropWhile isSpace

/-- The fault of a text that should go on otherwise than with these characters. -/
def faultAt (cs : List Char) : Fault := if cs.isEmpty then .incomplete else .illFormed

/-! ## Strings -/

def hexValue? (c : Char) : Option Nat :=
  if c.isDigit then some (c.toNat - '0'.toNat)
  else if 'a' ≤ c ∧ c ≤ 'f' then some (c.toNat - 'a'.toNat + 10)
  else if 'A' ≤ c ∧ c ≤ 'F' then some (c.toNat - 'A'.toNat + 10)
  else none

/-- Four hexadecimal digits. The text ends too early if it has less than four bytes. -/
def readHex4 (cs : List Char) : Except Fault (Nat × List Char) :=
  match (cs.take 4).mapM hexValue? with
  | some [a, b, c, d] => .ok (((a * 16 + b) * 16 + c) * 16 + d, cs.drop 4)
  | _ => .error (if (String.ofList (cs.take 4)).utf8ByteSize < 4 then .incomplete else .illFormed)

/-- What follows a backslash and `u`: one code unit, or a surrogate pair. There is no character
if a half of a pair stands alone. -/
def readUnicode (cs : List Char) : Except Fault (Option Char × List Char) := do
  let (unit, rest) ← readHex4 cs
  if 0xd800 ≤ unit ∧ unit < 0xdc00 then
    match rest with
    | '\\' :: 'u' :: rest =>
      let (low, rest) ← readHex4 rest
      if 0xdc00 ≤ low ∧ low < 0xe000 then
        .ok (some (Char.ofNat (0x10000 + (unit - 0xd800) * 0x400 + (low - 0xdc00))), rest)
      else .ok (none, rest)
    | [] | ['\\'] => .error .incomplete
    | rest => .ok (none, rest)
  else if 0xdc00 ≤ unit ∧ unit < 0xe000 then .ok (none, rest)
  else .ok (some (Char.ofNat unit), rest)

def simpleEscape? : Char → Option Char
  | '"' => some '"'
  | '\\' => some '\\'
  | '/' => some '/'
  | 'b' => some '\x08'
  | 'f' => some '\x0c'
  | 'n' => some '\n'
  | 'r' => some '\r'
  | 't' => some '\t'
  | _ => none

/-- What follows a backslash. -/
def readEscape : List Char → Except Fault (Option Char × List Char)
  | [] => .error .incomplete
  | 'u' :: rest => readUnicode rest
  | c :: rest =>
    match simpleEscape? c with
    | some c => .ok (some c, rest)
    | none => .error .illFormed

/-- A string after its opening quote; `read` holds its characters in reverse, or nothing after
half a surrogate pair. -/
def readString : (fuel : Nat) → (read : Option (List Char)) → List Char → Raw × Option (List Char)
  | 0, _, _ => (.torn .blank .illFormed .illFormed, none)
  | fuel + 1, read, cs =>
    let torn (f : Fault) := (.torn .blank (if read.isNone then .illFormed else f) f, none)
    match cs with
    | [] => torn .incomplete
    | '"' :: rest => (.string (read.map fun cs => String.ofList cs.reverse), some rest)
    | '\\' :: rest =>
      match readEscape rest with
      | .error f => torn f
      | .ok (c, rest) => readString fuel (do some ((← c) :: (← read))) rest
    | c :: rest =>
      if c.toNat < 32 then torn .illFormed else readString fuel (read.map (c :: ·)) rest

/-! ## Numbers and words -/

/-- Where a number breaks off. One who skips it does not ask why. -/
def tornNumber (rest : List Char) : Raw × Option (List Char) :=
  (.torn .word (faultAt rest) .illFormed, none)

/-- A number after its sign, its whole part and its fraction. -/
def readExponent (negative : Bool) (whole fraction : List Char) :
    List Char → Raw × Option (List Char)
  | [] => (.number (Number.ofParts? negative whole fraction none), some [])
  | c :: cs =>
    if c = 'e' ∨ c = 'E' then
      let (minus, cs) := Text.readSign cs
      let ds := cs.takeWhile Char.isDigit
      let rest := cs.dropWhile Char.isDigit
      if ds.isEmpty then tornNumber rest
      else
        let n : Int := Text.ofDigits ds
        let exponent := if minus then -n else n
        (.number (Number.ofParts? negative whole fraction (some exponent)), some rest)
    else (.number (Number.ofParts? negative whole fraction none), some (c :: cs))

/-- A number after its sign. A leading zero stands alone. -/
def readNumber (negative : Bool) (cs : List Char) : Raw × Option (List Char) :=
  let whole := cs.takeWhile Char.isDigit
  match cs.dropWhile Char.isDigit with
  | rest =>
    if whole.isEmpty then tornNumber rest
    else if whole.head? = some '0' ∧ 1 < whole.length then (.torn .word .illFormed .illFormed, none)
    else
      match rest with
      | '.' :: rest =>
        let fraction := rest.takeWhile Char.isDigit
        let rest := rest.dropWhile Char.isDigit
        if fraction.isEmpty then tornNumber rest else readExponent negative whole fraction rest
      | rest => readExponent negative whole [] rest

/-- A word of which these letters are still to come. -/
def readWord (r : Raw) (start : Fragment) :
    (word : List Char) → List Char → Raw × Option (List Char)
  | [], cs => (r, some cs)
  | _ :: _, [] => (.torn start .incomplete .incomplete, none)
  | w :: word, c :: cs =>
    if c = w then readWord r start word cs else (.torn start .illFormed .illFormed, none)

/-! ## Arrays and objects -/

/-- An array or an object with what follows it, if it is closed. -/
def bracket (build : List β → Option Fault → Raw)
    (read : List β × Option Fault × Option (List Char)) : Raw × Option (List Char) :=
  (build read.1 read.2.1, read.2.2)

mutual

/-- One value inside `depth` more levels of nesting. -/
def readValue : (fuel depth : Nat) → List Char → Raw × Option (List Char)
  | 0, _, _ => (.torn .blank .illFormed .illFormed, none)
  | fuel + 1, depth, cs =>
    match skipSpace cs with
    | [] => (.torn .blank .incomplete .incomplete, none)
    | '"' :: rest => readString (rest.length + 1) (some []) rest
    | '-' :: rest => readNumber true rest
    | 't' :: rest => readWord (.bool true) .word "rue".toList rest
    | 'f' :: rest => readWord (.bool false) .word "alse".toList rest
    | 'n' :: rest => readWord .null .null "ull".toList rest
    | '[' :: rest =>
      match skipSpace rest with
      | ']' :: rest => (.array (depth = 0) [] none, some rest)
      | [] => (.array (depth = 0) [] (some .incomplete), none)
      | rest => bracket (.array (depth = 0)) (readItems fuel (depth - 1) rest)
    | '\x7b' :: rest =>
      match skipSpace rest with
      | '\x7d' :: rest => (.object (depth = 0) [] none, some rest)
      | rest => bracket (.object (depth = 0)) (readMembers fuel (depth - 1) rest)
    | c :: rest =>
      if c.isDigit then readNumber false (c :: rest)
      else (.torn .blank .illFormed .illFormed, none)

/-- The items of an array, at least one, up to its closing bracket. -/
def readItems : (fuel depth : Nat) → List Char → List Raw × Option Fault × Option (List Char)
  | 0, _, _ => ([], some .illFormed, none)
  | fuel + 1, depth, cs =>
    match readValue fuel depth cs with
    | (r, none) => ([r], some .illFormed, none)
    | (r, some rest) =>
      match skipSpace rest with
      | ',' :: rest =>
        let (items, stop, rest) := readItems fuel depth rest
        (r :: items, stop, rest)
      | ']' :: rest => ([r], none, some rest)
      | rest => ([r], some (faultAt rest), none)

/-- The members of an object, at least one, up to its closing brace. -/
def readMembers :
    (fuel depth : Nat) → List Char → List (Raw × Raw) × Option Fault × Option (List Char)
  | 0, _, _ => ([], some .illFormed, none)
  | fuel + 1, depth, cs =>
    match readValue fuel depth cs with
    | (.string name, some rest) =>
      match skipSpace rest with
      | ':' :: rest =>
        match readValue fuel depth rest with
        | (r, none) => ([(.string name, r)], some .illFormed, none)
        | (r, some rest) =>
          match skipSpace rest with
          | ',' :: rest =>
            let (members, stop, rest) := readMembers fuel depth rest
            ((.string name, r) :: members, stop, rest)
          | '\x7d' :: rest => ([(.string name, r)], none, some rest)
          | rest => ([(.string name, r)], some (faultAt rest), none)
      | rest =>
        ([(.string name, .torn .blank (faultAt rest) (faultAt rest))], some .illFormed, none)
    | (r, _) => ([(r, .torn .blank .illFormed .illFormed)], some .illFormed, none)

end

end Parser

/-- How many arrays and objects may be open at once. -/
def maxDepth : Nat := 127

/-- A text by its first value, and whether anything but space follows that. -/
structure Document where
  value : Raw
  hasMore : Bool

namespace Document

def ofText (text : String) : Document :=
  let cs := text.toList
  let (value, rest) := Parser.readValue (2 * cs.length + 2) maxDepth cs
  ⟨value, !(Parser.skipSpace (rest.getD [])).isEmpty⟩

/-- Goes on with what was read of the value, unless something follows it. -/
def finish (d : Document) (a : α) : Except Fault α := if d.hasMore then .error .illFormed else .ok a

end Document

/-- The value of a JSON text, which holds nothing else but space. -/
def parse (text : String) : Except Fault Value :=
  let d := Document.ofText text
  d.value.value.bind d.finish

def parse? (text : String) : Option Value := (parse text).toOption

end SecretsWarden.Json
