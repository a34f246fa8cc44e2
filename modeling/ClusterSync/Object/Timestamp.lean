import ClusterSync.Decimal.Unsigned
import ClusterSync.Object.Calendar
import ClusterSync.Text.Blank

/-!
# Timestamps

Points in time to the second, read from and written to the usual text form
`2024-01-31T08:30:00Z`.

**Reading** is lenient: a number may have fewer digits than usual, blanks may stand before every
part, a year with a sign may have any number of digits, a fraction of a second is dropped, and
an offset from UTC is taken into account. **Writing** has one form, in UTC.

**Leap seconds.** A text may name second 60 of any minute. It is kept as the second before it
with a mark, so that an offset moves it like any other.
-/

namespace ClusterSync

/-- A second of time. -/
structure Timestamp where
  /-- Seconds since the start of 1970 in UTC, leap seconds not counted. -/
  seconds : Int
  /-- Whether the leap second after that second is meant. -/
  isLeapSecond : Bool := false
  deriving DecidableEq, Repr

namespace Timestamp

open Text (isBlank)

/-! ## Reading -/

def skipBlanks (cs : List Char) : List Char := cs.dropWhile isBlank

/-- A number of at least one digit and at most the given count, and the rest of the text. -/
def digits? (atMost : Nat) (cs : List Char) : Option (Nat × List Char) :=
  let ds := (cs.take atMost).takeWhile Char.isDigit
  if ds = [] then none else some (Decimal.ofDigits ds, cs.drop ds.length)

/-- A number of one or two digits, which blanks may precede, and the rest of the text. -/
def number? (cs : List Char) : Option (Nat × List Char) := digits? 2 (skipBlanks cs)

/-- The rest of the text after a mark, which blanks may precede. -/
def mark? (mark : Char) (cs : List Char) : Option (List Char) :=
  match skipBlanks cs with
  | c :: cs => if c = mark then some cs else none
  | [] => none

/-- A year has at most four digits, or a sign and any number of digits. -/
def year? (cs : List Char) : Option (Int × List Char) :=
  match skipBlanks cs with
  | '+' :: cs => (digits? cs.length cs).map fun p => (p.1, p.2)
  | '-' :: cs => (digits? cs.length cs).map fun p => (-p.1, p.2)
  | cs => (digits? 4 cs).map fun p => (p.1, p.2)

/-- A date, as days since the start of 1970, and the rest of the text. -/
def date? (cs : List Char) : Option (Int × List Char) := do
  let (year, cs) ← year? cs
  let (month, cs) ← number? (← mark? '-' cs)
  let (day, cs) ← number? (← mark? '-' cs)
  return (← Calendar.daysOfDate? year month day, cs)

/-- The text after the character that separates the date from the time. -/
def separator? : List Char → Option (List Char)
  | 'T' :: cs | 't' :: cs | ' ' :: cs => some cs
  | _ => none

/-- A time of the day, as hours, minutes and seconds, and the rest of the text. -/
def time? (cs : List Char) : Option ((Nat × Nat × Nat) × List Char) := do
  let (hour, cs) ← number? cs
  let (minute, cs) ← number? (← mark? ':' cs)
  let (second, cs) ← number? (← mark? ':' cs)
  guard (hour < 24 ∧ minute < 60 ∧ second ≤ 60)
  return ((hour, minute, second), cs)

/-- The text after a fraction of a second, if there is one. -/
def skipFraction? : List Char → Option (List Char)
  | '.' :: cs => if cs.head?.any Char.isDigit then some (cs.dropWhile Char.isDigit) else none
  | cs => some cs

/-- The direction of an offset from UTC. A minus sign may also be the typographic one. -/
def direction? : List Char → Option (Int × List Char)
  | '+' :: cs => some (1, cs)
  | '-' :: cs | '\u2212' :: cs => some (-1, cs)
  | _ => none

/-- A number of exactly two digits, and the rest of the text. -/
def twoDigits? (cs : List Char) : Option (Nat × List Char) :=
  if (cs.take 2).length = 2 ∧ (cs.take 2).all Char.isDigit then digits? 2 cs else none

/-- An offset from UTC in seconds, and the rest of the text. It is UTC by name or by the letter
`Z`, in either case of letters, or hours and minutes, two digits each, with any number of colons
and blanks between them. -/
def offset? (cs : List Char) : Option (Int × List Char) :=
  if (cs.take 3).map Char.toUpper = ['U', 'T', 'C'] then some (0, cs.drop 3)
  else if (cs.take 1).map Char.toUpper = ['Z'] then some (0, cs.drop 1)
  else do
    let (direction, cs) ← direction? cs
    let (hours, cs) ← twoDigits? cs
    let (minutes, cs) ← twoDigits? (cs.dropWhile fun c => c = ':' || isBlank c)
    guard (hours < 24 ∧ minutes < 60)
    return (direction * ((hours * 60 + minutes) * 60 : Nat), cs)

/-- The number of the day in UTC on which a second lies. -/
def day (t : Timestamp) : Int := t.seconds.fdiv 86400

/-- Reads the text form. The date has to be a date of the calendar both with its offset and
in UTC. -/
def ofString? (text : String) : Option Timestamp := do
  let (days, cs) ← date? text.toList
  let ((hour, minute, second), cs) ← time? (← separator? cs)
  let (offset, cs) ← offset? (skipBlanks (← skipFraction? cs))
  guard (skipBlanks cs = [])
  let time : Int := ((hour * 60 + minute) * 60 + min second 59 : Nat)
  let t : Timestamp := ⟨days * 86400 + time - offset, second = 60⟩
  guard (Calendar.isYear (Calendar.dateOfDays t.day).1)
  return t

/-! ## Writing -/

/-- A number with leading zeros up to a width. -/
def padded (width n : Nat) : String :=
  let ds := Nat.toDigits 10 n
  String.ofList (List.replicate (width - ds.length) '0' ++ ds)

/-- A year has four digits; one that needs more, or is negative, also has its sign. -/
def yearText (year : Int) : String :=
  if year < 0 then "-" ++ padded 4 year.natAbs
  else if year ≤ 9999 then padded 4 year.toNat
  else "+" ++ padded 4 year.toNat

/-- The text form, in UTC. -/
def toString (t : Timestamp) : String :=
  let time := (t.seconds - t.day * 86400).toNat
  let (year, month, day) := Calendar.dateOfDays t.day
  let second := time % 60 + if t.isLeapSecond then 1 else 0
  yearText year ++ "-" ++ padded 2 month ++ "-" ++ padded 2 day ++ "T"
    ++ padded 2 (time / 3600) ++ ":" ++ padded 2 (time / 60 % 60) ++ ":" ++ padded 2 second
    ++ "Z"

end Timestamp

end ClusterSync
