import ApiAvailability.Text.Numeral
import ApiAvailability.Time.Timestamp

/-!
# Time/Reader — reading timestamps, liberally

RFC 3339 with some freedom: blanks may stand in front of every number and around the whole, a number
may have fewer digits than usual, a year may have a sign and then any number of digits, a blank may
stand for the `T`, digits of a fraction beyond the ninth are dropped, and the zone may be written
`UTC` or without its colon.

Each reader takes a part from the front of the text and returns what is left.
-/

namespace ApiAvailability.Time

open ApiAvailability.Text

/-- One to `width` digits. -/
def readNumber (width : Nat) (cs : List Char) : Option (Nat × List Char) :=
  let ds := (cs.take width).takeWhile Char.isDigit
  if ds = [] then none else some (ofDigits 10 ds, cs.drop ds.length)

/-- One or more digits. -/
def readDigits (cs : List Char) : Option (Nat × List Char) := readNumber cs.length cs

/-- A year: up to four digits, or a sign and any number of digits. -/
def readYear (cs : List Char) : Option (Int × List Char) :=
  match trimStart cs with
  | '-' :: rest => (readDigits rest).map fun (n, rest) => (-(n : Int), rest)
  | '+' :: rest => (readDigits rest).map fun (n, rest) => ((n : Int), rest)
  | cs => (readNumber 4 cs).map fun (n, rest) => ((n : Int), rest)

/-- Blanks and one or two digits. -/
def readTwo (cs : List Char) : Option (Nat × List Char) := readNumber 2 (trimStart cs)

/-- Blanks, the mark `mark`, blanks and one or two digits. -/
def readAfter (mark : Char) (cs : List Char) : Option (Nat × List Char) :=
  match trimStart cs with
  | c :: rest => if c = mark then readTwo rest else none
  | [] => none

/-- A date. -/
def readDate (cs : List Char) : Option (Date × List Char) := do
  let (year, cs) ← readYear cs
  let (month, cs) ← readAfter '-' cs
  let (day, cs) ← readAfter '-' cs
  let date : Date := ⟨year, month, day⟩
  if date.isReal then some (date, cs) else none

/-- What stands between the date and the time. -/
def skipSeparator : List Char → Option (List Char)
  | 'T' :: rest => some rest
  | 't' :: rest => some rest
  | ' ' :: rest => some rest
  | _ => none

/-- A second's fraction in nanoseconds, if there is one. -/
def readFraction : List Char → Option (Nat × List Char)
  | '.' :: rest =>
    let ds := rest.takeWhile Char.isDigit
    if ds = [] then none
    else some (ofDigits 10 ((ds ++ List.replicate 9 '0').take 9), rest.drop ds.length)
  | cs => some (0, cs)

/-- A time of day: the second of the day, and the nanoseconds in it. The sixtieth second of a minute
is the leap second of the one before. -/
def readTime (cs : List Char) : Option ((Nat × Nat) × List Char) := do
  let (hour, cs) ← readTwo cs
  let (minute, cs) ← readAfter ':' cs
  let (second, cs) ← readAfter ':' cs
  let (nanos, cs) ← readFraction cs
  if hour < 24 ∧ minute < 60 ∧ second ≤ 60 then
    let start := hour * 3600 + minute * 60
    if second = 60 then some ((start + 59, nanos + nanosPerSecond), cs)
    else some ((start + second, nanos), cs)
  else none

/-- The hours and minutes of a zone, in seconds. -/
def readZoneTime (cs : List Char) : Option (Nat × List Char) := do
  let (h, cs) ← twoDigits cs
  let (m, cs) ← twoDigits (cs.dropWhile fun c => c = ':' || blankChar c)
  if m < 60 ∧ h < 24 then some (h * 3600 + m * 60, cs) else none
where
  /-- Exactly two digits. -/
  twoDigits : List Char → Option (Nat × List Char)
    | a :: b :: rest => if a.isDigit && b.isDigit then some (ofDigits 10 [a, b], rest) else none
    | _ => none

/-- A zone, as the seconds by which it is ahead of universal time. -/
def readZone (cs : List Char) : Option (Int × List Char) :=
  match cs with
  | 'Z' :: rest => some (0, rest)
  | 'z' :: rest => some (0, rest)
  | '+' :: rest => (readZoneTime rest).map fun (n, rest) => ((n : Int), rest)
  | '-' :: rest => (readZoneTime rest).map fun (n, rest) => (-(n : Int), rest)
  | '\u2212' :: rest => (readZoneTime rest).map fun (n, rest) => (-(n : Int), rest)
  | u :: t :: c :: rest =>
    if u.toLower = 'u' ∧ t.toLower = 't' ∧ c.toLower = 'c' then some (0, rest) else none
  | _ => none

namespace Timestamp

/-- The timestamp of a date and time that a clock shows which is `ahead` of universal time. -/
def ofLocal? (date : Date) (second nanos : Nat) (ahead : Int) : Option Timestamp :=
  let seconds := (second : Int) - ahead
  if firstDay ≤ date.toDays ∧ date.toDays ≤ lastDay then
    ofParts? (date.toDays + seconds / 86400) (seconds % 86400).toNat nanos
  else none

/-- **The timestamp that a text tells**, if it tells one. -/
def ofText? (s : String) : Option Timestamp := do
  let (date, cs) ← readDate s.toList
  let ((second, nanos), cs) ← readTime (← skipSeparator cs)
  let (ahead, cs) ← readZone (trimStart cs)
  if trimStart cs = [] then ofLocal? date second nanos ahead else none

end Timestamp

end ApiAvailability.Time
