import SecretsWarden.Text.Blank
import SecretsWarden.Text.Numeral

/-!
# Points in time

A date and a time of day with an offset from UTC, as RFC 3339 writes them. They are read
leniently: a field may lack its leading zero, blanks may stand around a field, a year may have
a sign and then more than four digits, and the offset needs no colon. They are written in UTC
without a fraction of the second.
-/

namespace SecretsWarden

/-- A day of the Gregorian calendar. -/
structure Date where
  year : Int
  month : Nat
  day : Nat
  deriving DecidableEq, Repr, Inhabited

namespace Date

def isLeapYear (year : Int) : Bool := year % 4 = 0 ∧ (year % 100 ≠ 0 ∨ year % 400 = 0)

def daysInMonth (year : Int) (month : Nat) : Nat :=
  if month = 2 then (if isLeapYear year then 29 else 28)
  else if month = 4 ∨ month = 6 ∨ month = 9 ∨ month = 11 then 30
  else 31

/-- The first and the last year that dates may have. -/
def firstYear : Int := -262143

def lastYear : Int := 262142

/-- Whether the calendar has this day, in a year that dates may have. -/
def isValid (d : Date) : Bool :=
  firstYear ≤ d.year ∧ d.year ≤ lastYear ∧ 1 ≤ d.month ∧ d.month ≤ 12 ∧ 1 ≤ d.day
    ∧ d.day ≤ daysInMonth d.year d.month

def next (d : Date) : Date :=
  if d.day < daysInMonth d.year d.month then { d with day := d.day + 1 }
  else if d.month < 12 then ⟨d.year, d.month + 1, 1⟩
  else ⟨d.year + 1, 1, 1⟩

def previous (d : Date) : Date :=
  if 1 < d.day then { d with day := d.day - 1 }
  else if 1 < d.month then ⟨d.year, d.month - 1, daysInMonth d.year (d.month - 1)⟩
  else ⟨d.year - 1, 12, 31⟩

end Date

/-- A point in time in UTC, to the second. -/
structure Instant where
  date : Date
  minute : Nat
  /-- The second of the minute; a leap second is the sixtieth. -/
  second : Nat
  deriving DecidableEq, Repr, Inhabited

namespace Instant

def minutesPerDay : Nat := 1440

/-- The point in time at a minute that may lie on the day before or after. -/
def ofMinute (date : Date) (minute : Int) (second : Nat) : Instant :=
  if minute < 0 then ⟨date.previous, (minute + minutesPerDay).toNat, second⟩
  else if minute < minutesPerDay then ⟨date, minute.toNat, second⟩
  else ⟨date.next, (minute - minutesPerDay).toNat, second⟩

/-! ## Reading -/

/-- What follows a letter, in whichever case. -/
def skip? (letter : Char) : List Char → Option (List Char)
  | c :: cs => if c.toLower = letter then some cs else none
  | [] => none

/-- A number of one to `width` digits. -/
def readDigits? (width : Nat) (cs : List Char) : Option (Nat × List Char) :=
  let digits := (cs.take width).takeWhile Char.isDigit
  if digits.isEmpty then none else some (Text.ofDigits digits, cs.drop digits.length)

/-- A number of one or two digits after blanks. -/
def readField? (cs : List Char) : Option (Nat × List Char) := readDigits? 2 (Text.skipBlanks cs)

/-- A field after blanks and a mark. -/
def readFieldAfter? (mark : Char) (cs : List Char) : Option (Nat × List Char) :=
  (skip? mark (Text.skipBlanks cs)).bind readField?

/-- A year after blanks: up to four digits, or any number of them after a sign. -/
def readYear? (cs : List Char) : Option (Int × List Char) :=
  match Text.skipBlanks cs with
  | '-' :: cs => (readDigits? cs.length cs).map fun (n, cs) => (-(n : Int), cs)
  | '+' :: cs => (readDigits? cs.length cs).map fun (n, cs) => ((n : Int), cs)
  | cs => (readDigits? 4 cs).map fun (n, cs) => ((n : Int), cs)

/-- What follows the mark between the date and the time of day. -/
def skipDivider? : List Char → Option (List Char)
  | ' ' :: cs => some cs
  | cs => skip? 't' cs

/-- What follows the fraction of the second, if there is one. -/
def skipFraction? : List Char → Option (List Char)
  | '.' :: c :: cs => if c.isDigit then some (cs.dropWhile Char.isDigit) else none
  | '.' :: [] => none
  | cs => some cs

def readPair? : List Char → Option (Nat × List Char)
  | a :: b :: cs => if a.isDigit ∧ b.isDigit then some (Text.ofDigits [a, b], cs) else none
  | _ => none

/-- The minutes of an offset after its sign. Between hours and minutes there may be colons and
blanks. -/
def readHours? (cs : List Char) : Option (Nat × List Char) := do
  let (hours, cs) ← readPair? cs
  let (minutes, cs) ← readPair? (cs.dropWhile fun c => c = ':' ∨ Text.isBlank c)
  if hours ≤ 23 ∧ minutes ≤ 59 then some (hours * 60 + minutes, cs) else none

/-- The minutes of an offset, which is `UTC` or `Z` in whichever case, or signed. -/
def readOffset? : List Char → Option (Int × List Char)
  | '+' :: cs => (readHours? cs).map fun (n, cs) => ((n : Int), cs)
  | '-' :: cs | '\u2212' :: cs => (readHours? cs).map fun (n, cs) => (-(n : Int), cs)
  | cs =>
    ((skip? 'u' cs >>= skip? 't' >>= skip? 'c') <|> skip? 'z' cs).map fun cs => (0, cs)

def parse? (text : String) : Option Instant := do
  let (year, cs) ← readYear? text.toList
  let (month, cs) ← readFieldAfter? '-' cs
  let (day, cs) ← readFieldAfter? '-' cs
  let (hour, cs) ← readField? (← skipDivider? cs)
  let (minute, cs) ← readFieldAfter? ':' cs
  let (second, cs) ← readFieldAfter? ':' cs
  let (offset, cs) ← readOffset? (Text.skipBlanks (← skipFraction? cs))
  let date : Date := ⟨year, month, day⟩
  if date.isValid ∧ hour ≤ 23 ∧ minute ≤ 59 ∧ second ≤ 60 ∧ (Text.skipBlanks cs).isEmpty then
    let t := ofMinute date ((hour * 60 + minute : Nat) - offset) second
    if t.date.isValid then some t else none
  else none

/-! ## Writing -/

/-- A number with at least `width` digits. -/
def pad (width n : Nat) : String :=
  let digits := toString n
  "".pushn '0' (width - digits.length) ++ digits

/-- A year; one that does not have four digits has a sign. -/
def renderYear (year : Int) : String :=
  if year < 0 then "-" ++ pad 4 year.natAbs
  else if year ≤ 9999 then pad 4 year.natAbs
  else "+" ++ pad 4 year.natAbs

def render (t : Instant) : String :=
  s!"{renderYear t.date.year}-{pad 2 t.date.month}-{pad 2 t.date.day}T"
    ++ s!"{pad 2 (t.minute / 60)}:{pad 2 (t.minute % 60)}:{pad 2 t.second}Z"

end Instant

end SecretsWarden
