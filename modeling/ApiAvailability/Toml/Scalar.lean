import ApiAvailability.Text.Numeral
import ApiAvailability.Time.Timestamp
import ApiAvailability.Toml.Value

/-!
# Toml/Scalar — values written without quotes

Truth values, numbers, dates and times. Digits may be grouped by underscores, each of which stands
between two digits. Only decimal numbers take a sign, and their whole part has no leading zero.
-/

namespace ApiAvailability.Toml

open Text

/-! ## Numbers -/

/-- A run of digits of a base, without the underscores that group them. -/
def ungrouped? (base : Nat) (cs : List Char) : Option (List Char) :=
  let groups := cs.splitOn '_'
  if groups.all fun g => !g.isEmpty && g.all (isDigitOf base) then some groups.flatten else none

/-- A run of decimal digits that has no leading zero. -/
def whole? (cs : List Char) : Option (List Char) := do
  let ds ← ungrouped? 10 cs
  if ds.head? = some '0' ∧ ds.length ≠ 1 then none else some ds

/-- A sign, if there is one, and what it stands in front of. -/
def splitSign : List Char → Bool × List Char
  | '+' :: cs => (false, cs)
  | '-' :: cs => (true, cs)
  | cs => (false, cs)

/-- A whole number, in decimal or in the base that a mark names. -/
def integer? : List Char → Option Int
  | '0' :: 'x' :: cs => (ungrouped? 16 cs).map fun ds => (ofDigits 16 ds : Int)
  | '0' :: 'o' :: cs => (ungrouped? 8 cs).map fun ds => (ofDigits 8 ds : Int)
  | '0' :: 'b' :: cs => (ungrouped? 2 cs).map fun ds => (ofDigits 2 ds : Int)
  | cs =>
    let (negative, cs) := splitSign cs
    (whole? cs).map fun ds => if negative then -(ofDigits 10 ds : Int) else ofDigits 10 ds

/-- What the numbers of double precision stay below, once they are rounded: the middle between the
greatest of them and the power of two that follows it. -/
def doubleBound : Nat := ((1 <<< 54) - 1) <<< 970

/-- Whether `m` times ten to the power of `e` is in the range of double precision. -/
def inDoubleRange (m : Nat) (e : Int) : Bool :=
  let size : Int := (digits m).length + e
  if m = 0 ∨ size ≤ 300 then true
  else if 310 ≤ size then false
  else m * Nat.pow 10 e.toNat < doubleBound * Nat.pow 10 (-e).toNat

/-- An exponent: a mark, then a signed run of digits. No exponent stands for zero. -/
def exponent? : List Char → Option Int
  | [] => some 0
  | mark :: cs =>
    if mark = 'e' ∨ mark = 'E' then
      let (negative, cs) := splitSign cs
      (ungrouped? 10 cs).map fun ds => if negative then -(ofDigits 10 ds : Int) else ofDigits 10 ds
    else none

/-- A number with a fraction, an exponent or both: whether it is in range. -/
def real? (cs : List Char) : Option Bool := do
  let cs := (splitSign cs).2
  if cs = ['i', 'n', 'f'] ∨ cs = ['n', 'a', 'n'] then return true
  let isMark (c : Char) : Bool := c = 'e' || c = 'E'
  let mantissa := cs.takeWhile fun c => !isMark c
  let exponent ← exponent? (cs.dropWhile fun c => !isMark c)
  let ds ← whole? (mantissa.takeWhile (· ≠ '.'))
  match mantissa.dropWhile (· ≠ '.') with
  | [] => return inDoubleRange (ofDigits 10 ds) exponent
  | _ :: fraction =>
    let fs ← ungrouped? 10 fraction
    return inDoubleRange (ofDigits 10 (ds ++ fs)) (exponent - fs.length)

/-! ## Dates and times -/

/-- A number of exactly `width` digits at the front, and the rest. -/
def fixed? (width : Nat) (cs : List Char) : Option (Nat × List Char) :=
  let ds := cs.take width
  if ds.length = width ∧ ds.all Char.isDigit then some (ofDigits 10 ds, cs.drop width) else none

/-- What follows `mark`, if that is what comes first. -/
def after? (mark : Char) : List Char → Option (List Char)
  | c :: cs => if c = mark then some cs else none
  | [] => none

/-- What follows a date. -/
def afterDate? (cs : List Char) : Option (List Char) := do
  let (year, cs) ← fixed? 4 cs
  let (month, cs) ← fixed? 2 (← after? '-' cs)
  let (day, cs) ← fixed? 2 (← after? '-' cs)
  if (⟨year, month, day⟩ : Time.Date).isReal then some cs else none

/-- What follows hours and minutes, with seconds and a fraction of them if they are given. -/
def afterTime? (cs : List Char) : Option (List Char) := do
  let (hour, cs) ← fixed? 2 cs
  let (minute, cs) ← fixed? 2 (← after? ':' cs)
  if 23 < hour ∨ 59 < minute then none
  else
    match cs with
    | ':' :: cs =>
      let (second, cs) ← fixed? 2 cs
      if 60 < second then none
      else
        match cs with
        | '.' :: fraction =>
          if (fraction.takeWhile Char.isDigit).isEmpty then none
          else some (fraction.dropWhile Char.isDigit)
        | cs => some cs
    | cs => some cs

/-- Whether `cs` is a distance from UTC, or nothing. -/
def isOffset : List Char → Bool
  | [] => true
  | ['Z'] | ['z'] => true
  | sign :: cs =>
    let rest : Option (List Char) := do
      let (hour, cs) ← fixed? 2 cs
      let (minute, cs) ← fixed? 2 (← after? ':' cs)
      if 23 < hour ∨ 59 < minute then none else some cs
    (sign = '+' || sign = '-') && rest = some []

/-- Whether `cs` is a date with nothing after it. -/
def isDate (cs : List Char) : Bool := afterDate? cs = some []

/-- Whether `cs` is a date, a time, or a date and a time with or without a distance from UTC. -/
def isMoment (cs : List Char) : Bool :=
  match afterDate? cs with
  | some [] => true
  | some (c :: cs) =>
    (c = 'T' || c = 't' || c = ' ') && ((afterTime? cs).map isOffset).getD false
  | none => afterTime? cs = some []

/-! ## All of them -/

/-- **The value of a word.** -/
def Value.ofWord? (cs : List Char) : Option Value :=
  if cs = ['t', 'r', 'u', 'e'] then some (.bool true)
  else if cs = ['f', 'a', 'l', 's', 'e'] then some (.bool false)
  else if isMoment cs then some .moment
  else
    match Toml.integer? cs with
    | some i => some (.integer i)
    | none => (Toml.real? cs).map .real

/-- Underscores stand between digits, and a number has no leading zero. -/
example : integer? "1_000".toList = some 1000 ∧ integer? "1__0".toList = none ∧
    integer? "007".toList = none ∧ integer? "-0".toList = some 0 ∧
    integer? "0xFf".toList = some 255 ∧ integer? "+0x1".toList = none := by decide +kernel

/-- The middle above the greatest double is out of range. -/
example : real? "1.7976931348623158e308".toList = some true ∧
    real? "1.7976931348623159e308".toList = some false ∧ real? "1e-99999".toList = some true ∧
    real? "1.".toList = none ∧ real? "1e0_6".toList = some true := by decide +kernel

/-- Seconds may be left out, the time behind a date may not be. -/
example : isMoment "1979-05-27 07:32".toList = true ∧ isMoment "1979-05-27T".toList = false ∧
    isMoment "1979-02-29".toList = false ∧ isMoment "07:32:60.5".toList = true ∧
    isMoment "07:32Z".toList = false := by decide +kernel

end ApiAvailability.Toml
