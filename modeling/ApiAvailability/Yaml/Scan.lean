import ApiAvailability.Yaml.Scalar
import ApiAvailability.Yaml.Token

/-!
# Yaml/Scan — from a text to its lexemes

The scanner keeps the columns of the open blocks and, for every depth of brackets, the place of what
may turn out to be a key. A key that is not introduced by a question mark has to be on one line with
its colon, at most 1024 bytes before it; when the colon comes, the lexeme of the key is put in
front of what was found meanwhile. In a block mapping every line that begins at its column has to
begin with a key.

- `Token.scan?` — the lexemes of a text
-/

namespace ApiAvailability.Yaml

/-- **What may turn out to be a key**: the number of lexemes in front of it, and its place. -/
structure KeyMark where
  number : Nat
  /-- Whether nothing but a key can be here. -/
  required : Bool
  line : Nat
  column : Nat
  octets : Nat

/-- **The scanner's state.** -/
structure Scan where
  cursor : Cursor
  found : Array Token
  /-- The columns of the open blocks, innermost first. -/
  blocks : List Nat
  /-- What may be a key, for every depth of brackets, innermost first. -/
  keys : List (Option KeyMark)
  /-- Whether a key may begin here without a question mark. -/
  keyAllowed : Bool

namespace Scan

/-- The state before the first character. -/
def start (cs : List Char) : Scan := ⟨.start cs, #[], [], [none], true⟩

/-- Whether the place is inside brackets. -/
def inFlow (s : Scan) : Bool := 1 < s.keys.length

/-- The column behind which the content of the innermost block stands. -/
def indent (s : Scan) : Nat := (s.blocks.head?.map (· + 1)).getD 0

/-- The state with another lexeme. -/
def push (s : Scan) (t : Token) : Scan := { s with found := s.found.push t }

/-- The state with a lexeme of `width` characters behind which a key may begin or not. -/
def mark (s : Scan) (t : Token) (width : Nat) (keyAllowed : Bool) : Scan :=
  { s with found := s.found.push t, cursor := s.cursor.advance width, keyAllowed }

/-! ## Keys -/

/-- Nothing innermost may turn out to be a key any more. -/
def dropKey (s : Scan) : Option Scan :=
  match s.keys with
  | some k :: rest => if k.required then none else some { s with keys := none :: rest }
  | _ => some s

/-- What begins here may turn out to be a key. -/
def markKey (s : Scan) : Option Scan :=
  if s.keyAllowed then do
    let s ← s.dropKey
    let k : KeyMark := {
      number := s.found.size
      required := !s.inFlow && s.blocks.head? = some s.cursor.column
      line := s.cursor.line
      column := s.cursor.column
      octets := s.cursor.octets }
    return { s with keys := some k :: s.keys.tail }
  else some s

/-- What is too far behind to be a key is none. -/
def dropOldKeys (s : Scan) : Option Scan := do
  let keys ← s.keys.mapM fun
    | none => some none
    | some k =>
      if k.line < s.cursor.line ∨ k.octets + 1024 < s.cursor.octets then
        if k.required then none else some none
      else some (some k)
  return { s with keys }

/-! ## Blocks -/

/-- Opens a block at a column that is deeper than the innermost one; its first lexeme takes the
place `number`. -/
def openBlock (s : Scan) (column number : Nat) (t : Token) : Scan :=
  if s.inFlow then s
  else if s.blocks.head?.all (· < column) then
    { s with
      blocks := column :: s.blocks
      found := (s.found.extract 0 number).push t ++ s.found.extract number s.found.size }
  else s

/-- Closes all blocks that satisfy `p`, from the innermost one on, up to one that does not. -/
def closeBlocks (p : Nat → Bool) (s : Scan) : Scan :=
  if s.inFlow then s
  else
    { s with
      blocks := s.blocks.dropWhile p
      found := s.found ++ Array.replicate (s.blocks.takeWhile p).length Token.blockEnd }

/-! ## Gaps -/

/-- Passes over blanks, comments and line breaks. Outside of brackets a tab may not stand where a
key may begin, and a key may begin behind a line break. -/
def skipGap : Nat → Scan → Scan
  | 0, s => s
  | fuel + 1, s =>
    let c := s.cursor
    let c := if c.column = 0 ∧ c.rest.head? = some '\uFEFF' then c.next else c
    let c := c.skipWhile fun ch => ch = ' ' || (ch = '\t' && (s.inFlow || !s.keyAllowed))
    let c := if c.rest.head? = some '#' then c.skipLine else c
    if (c.rest.head?.map isBreak).getD false then
      skipGap fuel { s with cursor := c.next, keyAllowed := s.keyAllowed || !s.inFlow }
    else { s with cursor := c }

/-! ## Lexemes -/

/-- A directive, to the end of its line. -/
def directive (s : Scan) : Option Scan := do
  let s ← (s.closeBlocks fun _ => true).dropKey
  let (t, rest) ← Directive.read? s.cursor.next.rest
  let c := (s.cursor.goTo rest).skipComment
  match c.rest with
  | [] => return { s.push t with cursor := c, keyAllowed := false }
  | ch :: _ =>
    if isBreak ch then return { s.push t with cursor := c.next, keyAllowed := false } else none

/-- A mark between documents. -/
def documentMark (s : Scan) (t : Token) : Option Scan := do
  return (← (s.closeBlocks fun _ => true).dropKey).mark t 3 false

/-- An opening bracket. -/
def openBracket (s : Scan) (t : Token) : Option Scan := do
  let s ← s.markKey
  return { s.mark t 1 true with keys := none :: s.keys }

/-- A closing bracket. -/
def closeBracket (s : Scan) (t : Token) : Option Scan := do
  let s ← s.dropKey
  return { s.mark t 1 false with keys := if s.inFlow then s.keys.tail else s.keys }

/-- A hyphen in front of an entry. -/
def entry (s : Scan) : Option Scan := do
  if !s.inFlow && !s.keyAllowed then none
  let s := s.openBlock s.cursor.column s.found.size .blockSequence
  return (← s.dropKey).mark .entry 1 true

/-- A question mark in front of a key. -/
def key (s : Scan) : Option Scan := do
  if !s.inFlow && !s.keyAllowed then none
  let s := s.openBlock s.cursor.column s.found.size .blockMapping
  return (← s.dropKey).mark .key 1 (!s.inFlow)

/-- A colon in front of a value. -/
def value (s : Scan) : Option Scan := do
  match s.keys with
  | some k :: rest =>
    let found := (s.found.extract 0 k.number).push .key ++ s.found.extract k.number s.found.size
    let s := { s with found, keys := none :: rest }
    return (s.openBlock k.column k.number .blockMapping).mark .value 1 false
  | _ =>
    if !s.inFlow && !s.keyAllowed then none
    let s := s.openBlock s.cursor.column s.found.size .blockMapping
    return s.mark .value 1 (!s.inFlow)

/-- The name of an anchor, or of the anchor that an alias names. -/
def anchor (s : Scan) (make : String → Token) : Option Scan := do
  let s ← s.markKey
  let c := s.cursor.next
  let name := c.rest.takeWhile isWordChar
  let c := c.advance name.length
  let ended := match c.rest with
    | [] => true
    | ch :: _ => isGap ch || "?:,]\x7d%@`".toList.contains ch
  if name = [] || !ended then none
  return { s.push (make (String.ofList name)) with cursor := c, keyAllowed := false }

/-- A tag. -/
def tag (s : Scan) : Option Scan := do
  let s ← s.markKey
  let ((handle, suffix), rest) ← Tag.read? s.cursor.rest
  if !(startsGap rest || (s.inFlow && rest.head? = some ',')) then none
  return { s.push (.tag handle suffix) with cursor := s.cursor.goTo rest, keyAllowed := false }

/-- A block scalar. -/
def block (s : Scan) (folded : Bool) : Option Scan := do
  let s ← s.dropKey
  let (text, cursor) ← block? folded s.blocks.head? s.cursor
  let style := if folded then Style.folded else .literal
  return { s.push (.scalar style text) with cursor, keyAllowed := true }

/-- A scalar in quotation marks. -/
def quoted (s : Scan) (mark : Char) : Option Scan := do
  let s ← s.markKey
  let (text, cursor) ← quoted? mark s.cursor
  return { s.push (.scalar .quoted text) with cursor, keyAllowed := false }

/-- A plain scalar. -/
def plain (s : Scan) : Option Scan := do
  let s ← s.markKey
  let (text, broken, cursor) ← plain? s.inFlow s.indent s.cursor
  return { s.push (.scalar .plain text) with cursor, keyAllowed := broken }

/-- The marks with which no plain scalar may begin, unless a hyphen, a question mark or a colon is
followed by something else. -/
def isIndicator (c : Char) : Bool := "-?:,[]\x7b\x7d#&*!|>'\"%@`".toList.contains c

/-- Whether a plain scalar begins with `c` in front of `cs`. -/
def beginsPlain (s : Scan) (c : Char) (cs : List Char) : Bool :=
  (!isGap c && !isIndicator c) || (c = '-' && !(cs.head?.map isBlank).getD false) ||
    (!s.inFlow && (c = '?' || c = ':') && !startsGap cs)

/-- The lexeme that begins with `c`, in front of `cs`. -/
def lexeme (s : Scan) (c : Char) (cs : List Char) : Option Scan :=
  let atStart := s.cursor.column = 0
  if atStart ∧ c = '%' then s.directive
  else if s.cursor.atDocumentMark then
    s.documentMark (if c = '-' then .documentStart else .documentEnd)
  else if c = '[' then s.openBracket .openSequence
  else if c = '\x7b' then s.openBracket .openMapping
  else if c = ']' then s.closeBracket .closeSequence
  else if c = '\x7d' then s.closeBracket .closeMapping
  else if c = ',' then do return (← s.dropKey).mark .comma 1 true
  else if c = '-' ∧ startsGap cs then s.entry
  else if c = '?' ∧ (s.inFlow || startsGap cs) then s.key
  else if c = ':' ∧ (s.inFlow || startsGap cs) then s.value
  else if c = '*' then s.anchor .reference
  else if c = '&' then s.anchor .anchor
  else if c = '!' then s.tag
  else if c = '|' ∧ !s.inFlow then s.block false
  else if c = '>' ∧ !s.inFlow then s.block true
  else if c = '\'' ∨ c = '"' then s.quoted c
  else if s.beginsPlain c cs then s.plain
  else none

/-- The end of the text. -/
def finish? (s : Scan) : Option (Array Token) := do
  return (← (s.closeBlocks fun _ => true).dropKey).found

/-- Lexeme after lexeme, up to the end of the text. -/
def run : Nat → Scan → Option (Array Token)
  | 0, _ => none
  | fuel + 1, s => do
    let s := s.skipGap (s.cursor.left + 1)
    let s ← s.dropOldKeys
    let s := s.closeBlocks (s.cursor.column < ·)
    match s.cursor.rest with
    | [] => s.finish?
    | c :: cs => run fuel (← s.lexeme c cs)

end Scan

/-- **The lexemes of a text**, if it is made of lexemes and of characters that may occur. -/
def Token.scan? (cs : List Char) : Option (Array Token) :=
  if cs.all isAllowed then
    let cs := unified cs
    (Scan.start cs).run (cs.length + 1)
  else none

/-- A key is found behind what it consists of, and a block ends where the indentation does. -/
example : Token.scan? "a:\n  - b\nc: d".toList = some #[.blockMapping,
    .key, .scalar .plain "a", .value, .blockSequence, .entry, .scalar .plain "b", .blockEnd,
    .key, .scalar .plain "c", .value, .scalar .plain "d", .blockEnd] ∧
    Token.scan? "a: b: c".toList = none ∧ Token.scan? "a: b\nc".toList = none := by decide +kernel

end ApiAvailability.Yaml
