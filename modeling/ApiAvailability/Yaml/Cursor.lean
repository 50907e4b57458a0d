/-!
# Yaml/Cursor — characters, and a place among them

A YAML text is read with a cursor that knows its line and column, for both decide what a character
means, and how many bytes of UTF-8 are behind it. Line breaks of every kind but the line and the
paragraph separator are taken for a line feed.
-/

namespace ApiAvailability.Yaml

/-! ## Characters -/

/-- The characters that may occur in a text. -/
def isAllowed (c : Char) : Bool :=
  let n := c.toNat
  c = '\t' || c = '\n' || c = '\r' || (0x20 ≤ n && n ≤ 0x7E) || n = 0x85 ||
    (0xA0 ≤ n && n ≠ 0xFFFE && n ≠ 0xFFFF)

/-- A line break, once breaks are unified. -/
def isBreak (c : Char) : Bool := c = '\n' || c = '\u2028' || c = '\u2029'

/-- A blank inside a line. -/
def isBlank (c : Char) : Bool := c = ' ' || c = '\t'

/-- A blank or a line break. -/
def isGap (c : Char) : Bool := isBlank c || isBreak c

/-- A character of a name: an ASCII letter or digit, `_` or `-`. -/
def isWordChar (c : Char) : Bool := c.isAlphanum || c = '_' || c = '-'

/-- Whether a text ends here, or goes on with a blank or a line break. -/
def startsGap : List Char → Bool
  | [] => true
  | c :: _ => isGap c

/-- The text with one kind of line feed. -/
def unified : List Char → List Char
  | [] => []
  | '\r' :: '\n' :: cs => '\n' :: unified cs
  | c :: cs => (if c = '\r' ∨ c = '\x85' then '\n' else c) :: unified cs

/-! ## Cursors -/

/-- **A place in a text**: what lies ahead, and how far it is behind the start. -/
structure Cursor where
  rest : List Char
  /-- The number of characters of the whole text. -/
  size : Nat
  line : Nat
  column : Nat
  /-- The number of characters behind. -/
  index : Nat
  /-- The number of bytes behind. -/
  octets : Nat
  deriving DecidableEq

namespace Cursor

/-- The start of a text. -/
def start (cs : List Char) : Cursor := ⟨cs, cs.length, 0, 0, 0, 0⟩

/-- One character further. -/
def next (c : Cursor) : Cursor :=
  match c.rest with
  | [] => c
  | ch :: rest =>
    let c := { c with rest, index := c.index + 1, octets := c.octets + ch.utf8Size }
    if isBreak ch then { c with line := c.line + 1, column := 0 }
    else { c with column := c.column + 1 }

/-- The number of characters ahead. -/
def left (c : Cursor) : Nat := c.size - c.index

/-- So many characters further. -/
def advance : Nat → Cursor → Cursor
  | 0, c => c
  | n + 1, c => advance n c.next

/-- Behind the characters in front that satisfy `p`. -/
def skipWhile (p : Char → Bool) (c : Cursor) : Cursor := advance (c.rest.takeWhile p).length c

/-- The place from which on `rest` lies ahead. -/
def goTo (c : Cursor) (rest : List Char) : Cursor := advance (c.rest.length - rest.length) c

/-- The end of the line. -/
def skipLine (c : Cursor) : Cursor := c.skipWhile fun ch => !isBreak ch

/-- Behind blanks and a comment, if there is one. -/
def skipComment (c : Cursor) : Cursor :=
  let c := c.skipWhile isBlank
  if c.rest.head? = some '#' then c.skipLine else c

/-- Whether a mark between documents stands here: three hyphens or dots by themselves, at the start
of a line. -/
def atDocumentMark (c : Cursor) : Bool :=
  c.column = 0 &&
    match c.rest with
    | '-' :: '-' :: '-' :: cs => startsGap cs
    | '.' :: '.' :: '.' :: cs => startsGap cs
    | _ => false

end Cursor

namespace Cursor

theorem left_next {c : Cursor} (h : c.left = c.rest.length) : c.next.left = c.next.rest.length := by
  unfold next
  split
  · exact h
  · next ch rest hr =>
    simp only [left, hr, List.length_cons] at h
    split <;> simp only [left] <;> omega

/-- **What is left** is what lies ahead, wherever the cursor has gone. -/
theorem left_advance {c : Cursor} (h : c.left = c.rest.length) (n : Nat) :
    (c.advance n).left = (c.advance n).rest.length := by
  induction n generalizing c with
  | zero => exact h
  | succ n ih => exact ih (left_next h)

theorem left_start (cs : List Char) : (start cs).left = (start cs).rest.length := rfl

end Cursor

/-- A carriage return and a line feed are one break, and so is a next-line character. -/
example : unified ['a', '\r', '\n', '\r', '\x85', 'b'] = ['a', '\n', '\n', '\n', 'b'] := by decide

end ApiAvailability.Yaml
