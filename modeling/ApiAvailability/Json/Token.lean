import ApiAvailability.Json.Printer
import ApiAvailability.Text.Numeral

/-!
# Json/Token — the lexemes of a JSON text

`Token.scan?` runs a machine over the characters, one at a time, so that scanning a text in two
parts is scanning the first and going on with the second (`Scan.run_append`). Blanks separate
lexemes; control characters are refused inside text literals, and numbers are written without
leading zeros.
-/

namespace ApiAvailability.Json

/-- The lexemes of a JSON text. -/
inductive Token where
  | openArray | closeArray | openObject | closeObject | comma | colon
  | null
  | bool (b : Bool)
  | integer (i : Int)
  | real (written : String)
  | text (t : Text)
  deriving DecidableEq

/-- One place of a text literal: a character, or the half of a surrogate pair that an escape
names. -/
inductive Point where
  | scalar (c : Char)
  | surrogate (n : Nat)
  deriving DecidableEq

namespace Point

/-- The place that the escape of code unit `n` stands for. -/
def ofCodeUnit (n : Nat) : Point :=
  if 0xD800 ≤ n ∧ n < 0xE000 then surrogate n else scalar (Char.ofNat n)

/-- The character of a surrogate pair, for a high half `h` and a low half `l`. -/
def pair? (h l : Nat) : Option Char :=
  if h < 0xDC00 ∧ 0xDC00 ≤ l then
    some (Char.ofNat (0x10000 + (h - 0xD800) * 0x400 + (l - 0xDC00)))
  else none

/-- The characters of a literal, if every surrogate belongs to a pair. -/
def chars? : List Point → Option (List Char)
  | [] => some []
  | scalar c :: rest => (chars? rest).map (c :: ·)
  | surrogate h :: surrogate l :: rest => do
    let c ← pair? h l
    let cs ← chars? rest
    return c :: cs
  | surrogate _ :: _ => none

@[simp] theorem chars?_map_scalar (cs : List Char) : chars? (cs.map scalar) = some cs := by
  induction cs with
  | nil => rfl
  | cons c cs ih => simp [chars?, ih]

end Point

/-- The place that a one-letter escape stands for. -/
def Point.ofEscape? : Char → Option Point
  | '"' => some (.scalar '"')
  | '\\' => some (.scalar '\\')
  | '/' => some (.scalar '/')
  | 'b' => some (.scalar '\x08')
  | 'f' => some (.scalar '\x0c')
  | 'n' => some (.scalar '\n')
  | 'r' => some (.scalar '\r')
  | 't' => some (.scalar '\t')
  | _ => none

/-- The characters that may separate lexemes. -/
def isBlank (c : Char) : Bool := c = ' ' || c = '\n' || c = '\t' || c = '\r'

namespace Token

/-- The lexeme of a run of letters. -/
def ofWord? (word : List Char) : Option Token :=
  if word = ['n', 'u', 'l', 'l'] then some null
  else if word = ['t', 'r', 'u', 'e'] then some (bool true)
  else if word = ['f', 'a', 'l', 's', 'e'] then some (bool false)
  else none

/-- Whether `cs` is what may follow the whole part of a number: a fraction, an exponent, both. -/
def isTail (cs : List Char) : Bool :=
  let afterFraction : Option (List Char) :=
    match cs with
    | '.' :: rest =>
      if (rest.takeWhile Char.isDigit).isEmpty then none else some (rest.dropWhile Char.isDigit)
    | _ => some cs
  match afterFraction with
  | none => false
  | some [] => true
  | some (e :: rest) =>
    let power := match rest with
      | '+' :: ds => ds
      | '-' :: ds => ds
      | ds => ds
    (e = 'e' || e = 'E') && !power.isEmpty && power.all Char.isDigit

/-- The number without its sign: a whole part with no leading zero, then the rest. -/
def ofUnsigned? (negative : Bool) (cs : List Char) : Option Token :=
  let whole := cs.takeWhile Char.isDigit
  let tail := cs.dropWhile Char.isDigit
  if whole = [] ∨ (whole.length ≠ 1 ∧ whole.head? = some '0') then none
  else
    let n := Text.ofDigits 10 whole
    let written := String.ofList (if negative then '-' :: cs else cs)
    if tail = [] then
      if negative then
        if n = 0 then some (real written) else some (integer (-(n : Int)))
      else some (integer n)
    else if isTail tail then some (real written)
    else none

/-- The lexeme of a number, with its sign. Minus zero is no integer. -/
def ofNumber? : List Char → Option Token
  | '-' :: cs => ofUnsigned? true cs
  | cs => ofUnsigned? false cs

/-- The lexemes of one character. -/
def ofMark? : Char → Option Token
  | '[' => some openArray
  | ']' => some closeArray
  | '\x7b' => some openObject
  | '\x7d' => some closeObject
  | ',' => some comma
  | ':' => some colon
  | _ => none

end Token

/-- Where the machine stands: between lexemes, or inside one (what it has seen of it is kept last
first). -/
inductive Mode where
  | between
  | word (seen : List Char)
  | number (seen : List Char)
  | quoted (seen : List Point)
  | escape (seen : List Point)
  | codeUnit (seen : List Point) (hex : List Char)
  deriving DecidableEq

/-- **The machine's state**: its mode and the lexemes so far, last first. -/
structure Scan where
  mode : Mode
  found : List Token
  deriving DecidableEq

namespace Scan

/-- The state before the first character. -/
def start : Scan := ⟨.between, []⟩

/-- Whether `c` may stand in a number. -/
def isNumeric (c : Char) : Bool :=
  c.isDigit || c = '-' || c = '+' || c = '.' || c = 'e' || c = 'E'

/-- A character between lexemes, after `found`. -/
def begin (found : List Token) (c : Char) : Option Scan :=
  if isBlank c then some ⟨.between, found⟩
  else if c = '"' then some ⟨.quoted [], found⟩
  else if c = '-' || c.isDigit then some ⟨.number [c], found⟩
  else if c.isLower then some ⟨.word [c], found⟩
  else (Token.ofMark? c).map fun t => ⟨.between, t :: found⟩

/-- One character. -/
def step (s : Scan) (c : Char) : Option Scan :=
  match s.mode with
  | .between => begin s.found c
  | .word seen =>
    if c.isLower then some { s with mode := .word (c :: seen) }
    else do begin ((← Token.ofWord? seen.reverse) :: s.found) c
  | .number seen =>
    if isNumeric c then some { s with mode := .number (c :: seen) }
    else do begin ((← Token.ofNumber? seen.reverse) :: s.found) c
  | .quoted seen =>
    if c = '"' then
      some ⟨.between, .text ((Point.chars? seen.reverse).map String.ofList) :: s.found⟩
    else if c = '\\' then some { s with mode := .escape seen }
    else if c.toNat < 0x20 then none
    else some { s with mode := .quoted (.scalar c :: seen) }
  | .escape seen =>
    if c = 'u' then some { s with mode := .codeUnit seen [] }
    else (Point.ofEscape? c).map fun p => { s with mode := .quoted (p :: seen) }
  | .codeUnit seen hex =>
    if Text.isDigitOf 16 c then
      if hex.length < 3 then some { s with mode := .codeUnit seen (hex ++ [c]) }
      else
        some { s with
          mode := .quoted (Point.ofCodeUnit (Text.ofDigits 16 (hex ++ [c])) :: seen) }
    else none

/-- The lexemes, in order, once the text is over. -/
def finish? (s : Scan) : Option (List Token) :=
  match s.mode with
  | .between => some s.found.reverse
  | .word seen => do return ((← Token.ofWord? seen.reverse) :: s.found).reverse
  | .number seen => do return ((← Token.ofNumber? seen.reverse) :: s.found).reverse
  | _ => none

/-- The machine over a text. -/
def run (s : Scan) (cs : List Char) : Option Scan := cs.foldlM step s

@[simp] theorem run_nil (s : Scan) : run s [] = some s := rfl

@[simp] theorem run_cons (s : Scan) (c : Char) (cs : List Char) :
    run s (c :: cs) = (step s c).bind (run · cs) := rfl

/-- A text in two parts is scanned part after part. -/
theorem run_append (s : Scan) (cs ds : List Char) :
    run s (cs ++ ds) = (run s cs).bind (run · ds) := by
  simp only [run, List.foldlM_append]
  rfl

end Scan

/-- **The lexemes of a text**, if it is made of lexemes. -/
def Token.scan? (cs : List Char) : Option (List Token) :=
  (Scan.start.run cs).bind Scan.finish?

end ApiAvailability.Json
