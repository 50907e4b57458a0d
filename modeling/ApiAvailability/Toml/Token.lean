import ApiAvailability.Text.Numeral

/-!
# Toml/Token — the lexemes of a TOML document

A machine takes the characters one at a time, as the one for JSON does. Quoted texts are lexemes of
their own, with their escapes resolved; whatever else is neither blank nor a mark runs together to
words, and what a word means is for the place to decide where it stands. Comments leave nothing
behind. Line breaks are a line feed, or a carriage return and a line feed.
-/

namespace ApiAvailability.Toml

open Text

/-- The lexemes of a TOML document. -/
inductive Token where
  | dot | equals | comma | openSquare | closeSquare | openCurly | closeCurly
  | blank (c : Char)
  | newline
  | word (cs : List Char)
  /-- A text in single quotation marks of either kind. -/
  | text (s : String)
  /-- A text in tripled quotation marks. -/
  | longText (s : String)
  deriving DecidableEq

/-- Whether a text may hold `c` as it is: a tab, or what is no control character. -/
def isPrintable (c : Char) : Bool := c = '\t' || (0x20 ≤ c.toNat && c.toNat ≠ 0x7F)

/-- The character that a one-letter escape stands for. -/
def ofEscape? : Char → Option Char
  | 'b' => some '\x08'
  | 't' => some '\t'
  | 'n' => some '\n'
  | 'f' => some '\x0c'
  | 'r' => some '\r'
  | 'e' => some '\x1b'
  | '"' => some '"'
  | '\\' => some '\\'
  | _ => none

/-- The number of hexadecimal digits in an escape. -/
def codeLength? : Char → Option Nat
  | 'x' => some 2
  | 'u' => some 4
  | 'U' => some 8
  | _ => none

/-- The mark of one character. -/
def Token.ofMark? : Char → Option Token
  | '.' => some dot
  | '=' => some equals
  | ',' => some comma
  | '[' => some openSquare
  | ']' => some closeSquare
  | '\x7b' => some openCurly
  | '\x7d' => some closeCurly
  | _ => none

/-- A text that is being read: its quotation mark, whether that is tripled, and what it holds so
far, last first. -/
structure Quotation where
  mark : Char
  tripled : Bool
  seen : List Char
  deriving DecidableEq

namespace Quotation

/-- The quotation with another character. -/
def push (q : Quotation) (c : Char) : Quotation := { q with seen := c :: q.seen }

/-- The quotation with `n` quotation marks more. -/
def pushMarks (q : Quotation) (n : Nat) : Quotation :=
  { q with seen := List.replicate n q.mark ++ q.seen }

/-- The lexeme of the whole quotation. -/
def token (q : Quotation) : Token :=
  if q.tripled then .longText (String.ofList q.seen.reverse)
  else .text (String.ofList q.seen.reverse)

end Quotation

/-- Where the machine stands. -/
inductive Mode where
  | between
  /-- Behind a carriage return. -/
  | carriage
  | word (seen : List Char)
  | comment
  /-- Behind one or two quotation marks that begin a text, or are one. -/
  | opening (mark : Char) (two : Bool)
  /-- Behind three quotation marks: a line break here is not part of the text. -/
  | opened (mark : Char)
  | openedReturn (mark : Char)
  /-- Inside a text, behind so many quotation marks in a row. -/
  | quoted (q : Quotation) (marks : Nat)
  | quotedReturn (q : Quotation)
  | escape (q : Quotation)
  /-- Inside an escape by number, of which so many digits are missing. -/
  | code (q : Quotation) (missing value : Nat)
  /-- Behind a backslash that ends a line, and behind the line break or not yet. -/
  | gap (q : Quotation) (broken : Bool)
  | gapReturn (q : Quotation)
  deriving DecidableEq

/-- **The machine's state**: its mode and the lexemes so far, last first. -/
structure Scan where
  mode : Mode
  found : List Token
  deriving DecidableEq

namespace Scan

/-- The state before the first character. -/
def start : Scan := ⟨.between, []⟩

/-- A character between lexemes, after `found`. -/
def begin (found : List Token) (c : Char) : Scan :=
  if c = ' ' ∨ c = '\t' then ⟨.between, .blank c :: found⟩
  else if c = '\n' then ⟨.between, .newline :: found⟩
  else if c = '\r' then ⟨.carriage, found⟩
  else if c = '#' then ⟨.comment, found⟩
  else if c = '"' ∨ c = '\'' then ⟨.opening c false, found⟩
  else
    match Token.ofMark? c with
    | some t => ⟨.between, t :: found⟩
    | none => ⟨.word [c], found⟩

/-- Whether a word ends in front of `c`. -/
def endsWord (c : Char) : Bool :=
  c = ' ' || c = '\t' || c = '\n' || c = '\r' || c = '#' || (Token.ofMark? c).isSome

/-- A character of a text, which is not a quotation mark. -/
def inside (q : Quotation) (found : List Token) (c : Char) : Option Scan :=
  if c = '\\' ∧ q.mark = '"' then some ⟨.escape q, found⟩
  else if c = '\n' ∧ q.tripled then some ⟨.quoted (q.push c) 0, found⟩
  else if c = '\r' ∧ q.tripled then some ⟨.quotedReturn q, found⟩
  else if isPrintable c then some ⟨.quoted (q.push c) 0, found⟩
  else none

/-- A character of a text, behind `marks` quotation marks in a row. Three of them end a tripled
text, and up to two more may stand in front of those. -/
def resume (q : Quotation) (marks : Nat) (found : List Token) (c : Char) : Option Scan :=
  if c = q.mark then
    if !q.tripled then some ⟨.between, q.token :: found⟩
    else if marks = 4 then some ⟨.between, (q.pushMarks 2).token :: found⟩
    else some ⟨.quoted q (marks + 1), found⟩
  else if 3 ≤ marks then some (begin ((q.pushMarks (marks - 3)).token :: found) c)
  else inside (q.pushMarks marks) found c

/-- The character of an escape by number. -/
def ofCode? (n : Nat) : Option Char := if n.isValidChar then some (Char.ofNat n) else none

/-- One character. -/
def step (s : Scan) (c : Char) : Option Scan :=
  match s.mode with
  | .between => some (begin s.found c)
  | .carriage => if c = '\n' then some ⟨.between, .newline :: s.found⟩ else none
  | .word seen =>
    if endsWord c then some (begin (.word seen.reverse :: s.found) c)
    else some { s with mode := .word (c :: seen) }
  | .comment =>
    if c = '\n' ∨ c = '\r' then some (begin s.found c)
    else if isPrintable c then some s
    else none
  | .opening mark two =>
    if c = mark then some { s with mode := if two then .opened mark else .opening mark true }
    else if two then some (begin (.text "" :: s.found) c)
    else inside ⟨mark, false, []⟩ s.found c
  | .opened mark =>
    if c = '\n' then some { s with mode := .quoted ⟨mark, true, []⟩ 0 }
    else if c = '\r' then some { s with mode := .openedReturn mark }
    else resume ⟨mark, true, []⟩ 0 s.found c
  | .openedReturn mark =>
    if c = '\n' then some { s with mode := .quoted ⟨mark, true, []⟩ 0 } else none
  | .quoted q marks => resume q marks s.found c
  | .quotedReturn q =>
    if c = '\n' then some { s with mode := .quoted ((q.push '\r').push '\n') 0 } else none
  | .escape q =>
    match ofEscape? c, codeLength? c with
    | some e, _ => some { s with mode := .quoted (q.push e) 0 }
    | none, some n => some { s with mode := .code q n 0 }
    | none, none =>
      if !q.tripled then none
      else if c = ' ' ∨ c = '\t' then some { s with mode := .gap q false }
      else if c = '\n' then some { s with mode := .gap q true }
      else if c = '\r' then some { s with mode := .gapReturn q }
      else none
  | .code q missing value =>
    if isDigitOf 16 c then
      let value := 16 * value + digitValue c
      if missing ≤ 1 then (ofCode? value).map fun e => { s with mode := .quoted (q.push e) 0 }
      else some { s with mode := .code q (missing - 1) value }
    else none
  | .gap q broken =>
    if c = ' ' ∨ c = '\t' then some s
    else if c = '\n' then some { s with mode := .gap q true }
    else if c = '\r' then some { s with mode := .gapReturn q }
    else if broken then resume q 0 s.found c
    else none
  | .gapReturn q => if c = '\n' then some { s with mode := .gap q true } else none

/-- The lexemes, in order, once the document is over. -/
def finish? (s : Scan) : Option (List Token) :=
  match s.mode with
  | .between | .comment => some s.found.reverse
  | .word seen => some (.word seen.reverse :: s.found).reverse
  | .opening _ true => some (.text "" :: s.found).reverse
  | .quoted q marks =>
    if 3 ≤ marks then some ((q.pushMarks (marks - 3)).token :: s.found).reverse else none
  | _ => none

/-- The machine over a text. -/
def run (s : Scan) (cs : List Char) : Option Scan := cs.foldlM step s

theorem run_append (s : Scan) (cs ds : List Char) :
    run s (cs ++ ds) = (run s cs).bind (run · ds) := by
  simp only [run, List.foldlM_append]
  rfl

end Scan

/-- A mark of the encoding may come before all else. -/
def withoutMark : List Char → List Char
  | '\uFEFF' :: cs => cs
  | cs => cs

/-- **The lexemes of a document**, if it is made of lexemes. -/
def Token.scan? (cs : List Char) : Option (List Token) :=
  (Scan.start.run (withoutMark cs)).bind Scan.finish?

/-- Three quotation marks end a text, and up to two may stand in front of them. -/
example : Token.scan? "\"\"\"\na\"\"\"\"\"".toList = some [.longText "a\"\""] ∧
    Token.scan? "\"\"\"a\\\n \n b\"\"\"".toList = some [.longText "ab"] ∧
    Token.scan? "''".toList = some [.text ""] ∧ Token.scan? "'a\n'".toList = none := by
  decide +kernel

end ApiAvailability.Toml
