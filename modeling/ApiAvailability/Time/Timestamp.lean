import ApiAvailability.Text.Numeral

/-!
# Time/Timestamp — points in time, to the nanosecond, and their text

Days are those of the Gregorian calendar, extended to all years before and after, counted from the
first of January 1970. Inside the counting a year begins in March, so that the leap day is its last,
and four hundred years make an era of 146097 days.

A timestamp is a day, a second of it and the nanoseconds in that second, in universal time. The last
second of a minute may be a leap second: it goes on for up to two thousand million nanoseconds.

A timestamp is written as in RFC 3339, `2024-01-01T00:00:00Z`, with none, three, six or nine digits
of a second's fraction: the fewest that lose nothing. The years 0 to 9999 have four digits, all
others a sign and at least four. A leap second is the sixtieth.
-/

namespace ApiAvailability.Time

/-! ## Days -/

/-- **A date** by year, month and day of the month. -/
structure Date where
  year : Int
  month : Nat
  day : Nat
  deriving DecidableEq

namespace Date

/-- Whether the year has a twenty-ninth of February. -/
def isLeapYear (year : Int) : Bool := year % 4 = 0 && (year % 100 ≠ 0 || year % 400 = 0)

/-- The number of days of a month. -/
def daysInMonth (year : Int) (month : Nat) : Nat :=
  if month = 2 then (if isLeapYear year then 29 else 28)
  else if month = 4 ∨ month = 6 ∨ month = 9 ∨ month = 11 then 30
  else 31

/-- Whether there is such a date. -/
def isReal (d : Date) : Bool :=
  1 ≤ d.month && d.month ≤ 12 && 1 ≤ d.day && d.day ≤ daysInMonth d.year d.month

/-- The days of an era. -/
def daysPerEra : Int := 146097

/-- The days from the first of March of year zero to the first of January 1970. -/
def epoch : Int := 719468

/-- The number of days from the first of January 1970 to the date. -/
def toDays (d : Date) : Int :=
  let year := if d.month ≤ 2 then d.year - 1 else d.year
  let era := year / 400
  let yearOfEra := year % 400
  let month : Int := if d.month ≤ 2 then d.month + 9 else d.month - 3
  let dayOfYear := (153 * month + 2) / 5 + d.day - 1
  era * daysPerEra + yearOfEra * 365 + yearOfEra / 4 - yearOfEra / 100 + dayOfYear - epoch

/-- The date so many days after the first of January 1970. -/
def ofDays (days : Int) : Date :=
  let z := days + epoch
  let era := z / daysPerEra
  let dayOfEra := z % daysPerEra
  let yearOfEra := (dayOfEra - dayOfEra / 1460 + dayOfEra / 36524 - dayOfEra / 146096) / 365
  let dayOfYear := dayOfEra - (365 * yearOfEra + yearOfEra / 4 - yearOfEra / 100)
  let m := (5 * dayOfYear + 2) / 153
  let month := if m < 10 then m + 3 else m - 9
  { year := era * 400 + yearOfEra + (if month ≤ 2 then 1 else 0)
    month := month.toNat
    day := (dayOfYear - (153 * m + 2) / 5 + 1).toNat }

/-- The leap day of the year 2000 is the 11016th day, and minus one is the last of 1969. -/
example : toDays ⟨2000, 2, 29⟩ = 11016 ∧ ofDays 11016 = ⟨2000, 2, 29⟩ ∧
    ofDays (-1) = ⟨1969, 12, 31⟩ := by decide

end Date

/-! ## Points in time -/

/-- Nanoseconds of a second. -/
def nanosPerSecond : Nat := 1000000000

/-- The first day that can be told, the first of January of the year -262143. -/
def firstDay : Int := -96465292

/-- The last day that can be told, the last of December of the year 262142. -/
def lastDay : Int := 95026236

example : firstDay = Date.toDays ⟨-262143, 1, 1⟩ ∧ lastDay = Date.toDays ⟨262142, 12, 31⟩ := by
  decide

/-- **A point in time**, in universal time. -/
structure Timestamp where
  /-- Days since the first of January 1970. -/
  day : Int
  /-- The second of the day. -/
  second : Nat
  /-- The nanoseconds in the second; from `nanosPerSecond` on, those of a leap second. -/
  nanos : Nat
  day_mem : firstDay ≤ day ∧ day ≤ lastDay
  second_lt : second < 86400
  nanos_lt : nanos < nanosPerSecond ∨ (second % 60 = 59 ∧ nanos < 2 * nanosPerSecond)
  deriving DecidableEq

namespace Timestamp

/-- A timestamp from its parts, if they make one. -/
def ofParts? (day : Int) (second nanos : Nat) : Option Timestamp :=
  if h : (firstDay ≤ day ∧ day ≤ lastDay) ∧ second < 86400 ∧
      (nanos < nanosPerSecond ∨ (second % 60 = 59 ∧ nanos < 2 * nanosPerSecond)) then
    some ⟨day, second, nanos, h.1, h.2.1, h.2.2⟩
  else none

/-- The timestamp so many nanoseconds after the beginning of 1970, if it can be told. -/
def ofNanos? (n : Int) : Option Timestamp :=
  let seconds := n / nanosPerSecond
  ofParts? (seconds / 86400) (seconds % 86400).toNat (n % nanosPerSecond).toNat

theorem ofParts?_self (t : Timestamp) : ofParts? t.day t.second t.nanos = some t := by
  rw [ofParts?, dif_pos ⟨t.day_mem, t.second_lt, t.nanos_lt⟩]

end Timestamp

/-! ## Their text -/

open ApiAvailability.Text

/-- A year, with a sign when four digits without one do not tell it. -/
def renderYear (year : Int) : List Char :=
  if 0 ≤ year ∧ year ≤ 9999 then padded 4 year.natAbs
  else (if year < 0 then '-' else '+') :: padded 4 year.natAbs

/-- A second's fraction. -/
def renderFraction (nanos : Nat) : List Char :=
  if nanos = 0 then []
  else if nanos % 1000000 = 0 then '.' :: padded 3 (nanos / 1000000)
  else if nanos % 1000 = 0 then '.' :: padded 6 (nanos / 1000)
  else '.' :: padded 9 nanos

namespace Timestamp

/-- The characters of a timestamp. -/
def render (t : Timestamp) : List Char :=
  let date := Date.ofDays t.day
  let leap := nanosPerSecond ≤ t.nanos
  renderYear date.year ++ '-' :: padded 2 date.month ++ '-' :: padded 2 date.day ++
    'T' :: padded 2 (t.second / 3600) ++ ':' :: padded 2 (t.second / 60 % 60) ++
    ':' :: padded 2 (t.second % 60 + if leap then 1 else 0) ++
    renderFraction (t.nanos - if leap then nanosPerSecond else 0) ++ ['Z']

/-- **The text of a timestamp.** -/
def toText (t : Timestamp) : String := String.ofList t.render

end Timestamp

end ApiAvailability.Time
