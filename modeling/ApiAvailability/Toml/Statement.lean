import ApiAvailability.Toml.Scalar
import ApiAvailability.Toml.Token
import ApiAvailability.Toml.Value

/-!
# Toml/Statement — the lines of a TOML document, and its table

A document is a list of statements: headers, and assignments of a value to a dotted key. A machine
with a stack of unfinished values takes the lexemes one at a time. Arrays and inline tables may go
on over several lines, wherever a blank may stand but inside a key, and end in a comma; up to eighty
of them stand inside each other. A key has up to eighty parts.

The statements are followed one after the other. A header says where the assignments after it go: to
its own table, or to the table it has added to an array.
-/

namespace ApiAvailability.Toml

/-! ## Statements -/

/-- **What a document says**, line by line. A path is never empty. -/
inductive Statement where
  | assign (path : List String) (value : Value)
  | openTable (path : List String)
  | openElement (path : List String)

/-- What the key that is being read belongs to. -/
inductive KeyPlace where
  | assignment
  | header
  | elementHeader
  | inlineTable
  deriving DecidableEq

/-- An unfinished value, or the key of one. -/
inductive Frame where
  | assignment (path : List String)
  | array (items : List Value)
  | table (members : Members)
  | member (path : List String)

/-- What may come next. -/
inductive Phase where
  /-- A statement. -/
  | line
  /-- The second bracket of a header, or its key. -/
  | header
  /-- Another part of a key, behind the given ones (last first). -/
  | part (place : KeyPlace) (path : List String)
  /-- A dot, or the end of a key. -/
  | afterPart (place : KeyPlace) (path : List String)
  /-- The equals sign behind the key of a member, on a later line. -/
  | equals (path : List String)
  /-- The last bracket of a double-bracketed header. -/
  | secondBracket (path : List String)
  /-- A value. -/
  | value
  /-- An item of an array, or its end. -/
  | item
  /-- A member of an inline table, or its end. -/
  | member
  /-- More of a value without quotes (last first). -/
  | word (seen : List Char)
  /-- The time behind a date, or what follows the date as a value. -/
  | afterDate (seen : List Char)
  /-- A comma, or the end of the innermost array or table. -/
  | next
  /-- The end of the line. -/
  | lineEnd

/-- **The machine's state**: what may come next, the unfinished values, innermost first, and the
statements so far, last first. -/
structure Reading where
  phase : Phase
  frames : List Frame
  found : List Statement

namespace Reading

/-- The state before the first lexeme. -/
def start : Reading := ⟨.line, [], []⟩

/-- How many arrays and tables may stand inside each other. -/
def maxDepth : Nat := 80

/-- How many parts a key may have. -/
def maxParts : Nat := 80

/-- The number of unfinished arrays and tables. -/
def depth (frames : List Frame) : Nat :=
  frames.countP fun
    | .array _ | .table _ => true
    | _ => false

/-- Whether `c` may stand in a key without quotes. -/
def isKeyChar (c : Char) : Bool := c.isAlphanum || c = '_' || c = '-'

/-- The part of a key that a lexeme is. -/
def keyPart? : Token → Option String
  | .word cs => if cs.all isKeyChar then some (String.ofList cs) else none
  | .text s => some s
  | _ => none

/-- Hands a complete value to the innermost unfinished one. -/
def deliver (r : Reading) (v : Value) : Option Reading :=
  match r.frames with
  | [.assignment path] => some ⟨.lineEnd, [], .assign path v :: r.found⟩
  | .array items :: rest => some { r with phase := .next, frames := .array (v :: items) :: rest }
  | .member path :: .table ms :: rest => do
    let ms ← Members.assign? path v .inline ms
    return { r with phase := .next, frames := .table ms :: rest }
  | _ => none

/-- Whether what is being read is a member of an inline table. -/
def inMember (r : Reading) : Bool :=
  match r.frames with
  | .member _ :: _ => true
  | _ => false

/-- The first lexeme of a value. -/
def beginValue (r : Reading) : Token → Option Reading
  | .text s | .longText s => r.deliver (.text s)
  | .word cs => some { r with phase := .word cs.reverse }
  | .dot => some { r with phase := .word ['.'] }
  | .openSquare =>
    if depth r.frames < maxDepth then
      some { r with phase := .item, frames := .array [] :: r.frames }
    else none
  | .openCurly =>
    if depth r.frames < maxDepth then
      some { r with phase := .member, frames := .table [] :: r.frames }
    else none
  | _ => none

/-- The end of the innermost unfinished array or table. -/
def close (r : Reading) (t : Token) : Option Reading :=
  match r.frames, t with
  | .array items :: rest, .closeSquare => deliver { r with frames := rest } (.array items.reverse)
  | .table ms :: rest, .closeCurly => deliver { r with frames := rest } (.table .inline ms)
  | _, _ => none

/-- A lexeme behind a complete value, inside an array or a table. -/
def afterItem (r : Reading) : Token → Option Reading
  | .blank _ | .newline => some r
  | .comma =>
    match r.frames with
    | .array _ :: _ => some { r with phase := .item }
    | .table _ :: _ => some { r with phase := .member }
    | _ => none
  | t => r.close t

/-- A lexeme behind a complete statement. -/
def afterLine (r : Reading) : Token → Option Reading
  | .blank _ => some r
  | .newline => some { r with phase := .line }
  | _ => none

/-- A part of a key, or a blank in front of it. -/
def inKey (r : Reading) (place : KeyPlace) (path : List String) : Token → Option Reading
  | .blank _ => some { r with phase := .part place path }
  | t =>
    if path.length < maxParts then
      (keyPart? t).map fun k => { r with phase := .afterPart place (k :: path) }
    else none

/-- The end of a key, whose parts are given last first. -/
def endKey (r : Reading) (path : List String) : KeyPlace → Token → Option Reading
  | .assignment, .equals =>
    some { r with phase := .value, frames := .assignment path.reverse :: r.frames }
  | .inlineTable, .equals =>
    some { r with phase := .value, frames := .member path.reverse :: r.frames }
  | .header, .closeSquare =>
    some { r with phase := .lineEnd, found := .openTable path.reverse :: r.found }
  | .elementHeader, .closeSquare => some { r with phase := .secondBracket path.reverse }
  | _, _ => none

/-- A lexeme behind the word `seen`, which is complete. -/
def afterWord (r : Reading) (seen : List Char) (t : Token) : Option Reading := do
  let r ← r.deliver (← Value.ofWord? seen.reverse)
  match r.phase with
  | .lineEnd => r.afterLine t
  | _ => r.afterItem t

/-- One lexeme. -/
def step (r : Reading) (t : Token) : Option Reading :=
  match r.phase, t with
  | .line, .blank _ | .line, .newline => some r
  | .line, .openSquare => some { r with phase := .header }
  | .line, t => r.inKey .assignment [] t
  | .header, .openSquare => some { r with phase := .part .elementHeader [] }
  | .header, t => r.inKey .header [] t
  | .part place path, t => r.inKey place path t
  | .afterPart _ _, .blank _ => some r
  | .afterPart place path, .dot => some { r with phase := .part place path }
  | .afterPart .inlineTable path, .newline => some { r with phase := .equals path }
  | .afterPart place path, t => r.endKey path place t
  | .equals _, .blank _ | .equals _, .newline => some r
  | .equals path, t => r.endKey path .inlineTable t
  | .secondBracket path, .closeSquare =>
    some { r with phase := .lineEnd, found := .openElement path :: r.found }
  | .secondBracket _, _ => none
  | .value, .blank _ => some r
  | .value, .newline => if r.inMember then some r else none
  | .value, t => r.beginValue t
  | .item, .blank _ | .item, .newline => some r
  | .item, .closeSquare => r.close t
  | .item, t => r.beginValue t
  | .member, .blank _ | .member, .newline => some r
  | .member, .closeCurly => r.close t
  | .member, t => r.inKey .inlineTable [] t
  | .word seen, .word cs => some { r with phase := .word (cs.reverse ++ seen) }
  | .word seen, .dot => some { r with phase := .word ('.' :: seen) }
  | .word seen, .blank ' ' =>
    if isDate seen.reverse then some { r with phase := .afterDate seen } else r.afterWord seen t
  | .word seen, t => r.afterWord seen t
  | .afterDate seen, .word cs => some { r with phase := .word (cs.reverse ++ ' ' :: seen) }
  | .afterDate seen, t => r.afterWord seen t
  | .next, t => r.afterItem t
  | .lineEnd, t => r.afterLine t

/-- The machine over a list of lexemes. -/
def run (r : Reading) (ts : List Token) : Option Reading := ts.foldlM step r

/-- The statements, in order, once the lexemes are over. -/
def finish? (r : Reading) : Option (List Statement) := do
  let r ← match r.phase with
    | .word seen | .afterDate seen => r.deliver (← Value.ofWord? seen.reverse)
    | _ => some r
  match r.phase with
  | .line | .lineEnd => return r.found.reverse
  | _ => none

end Reading

/-- **The statements that a list of lexemes spells.** -/
def Statement.ofTokens? (ts : List Token) : Option (List Statement) :=
  (Reading.start.run ts).bind Reading.finish?

/-! ## Documents -/

/-- **A document so far**: its table, and the way to where assignments go. -/
structure Document where
  members : Members
  way : List String

namespace Document

/-- The document before the first statement. -/
def empty : Document := ⟨[], []⟩

/-- One statement. -/
def follow (d : Document) : Statement → Option Document
  | .assign path v => do
    let ms ← Members.update? .implied (Members.assign? path v) d.way .header d.members
    return { d with members := ms }
  | .openTable path => (Members.openTable? path d.members).map (⟨·, path⟩)
  | .openElement path => (Members.openElement? path d.members).map (⟨·, path⟩)

/-- The document that statements make. -/
def ofStatements? (ss : List Statement) : Option Document := ss.foldlM follow empty

end Document

/-- **The value of a TOML document**, if it is one: a table. -/
def Value.ofText? (s : String) : Option Value := do
  let document ← Document.ofStatements? (← Statement.ofTokens? (← Token.scan? s.toList))
  return .table .header document.members

end ApiAvailability.Toml
