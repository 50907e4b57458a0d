import ApiAvailability.Text.Numeral
import ApiAvailability.Yaml.Cursor

/-!
# Yaml/Scalar — plain and quoted scalars, and those of indented lines

A scalar may go on over several lines. Blanks around the breaks are not part of it; a single line
break stands for a blank, and of several the first stands for nothing.

A plain scalar ends in front of a colon that a gap follows, of a comment, of a line that is not
indented enough, of a mark between documents, and inside brackets of every mark of those.

Between single marks, a mark is written twice and nothing else is special. Between double marks a
backslash begins an escape; in front of a line break it leaves nothing behind of the break.

Behind `|` the lines stand as they are, behind `>` they are folded. The header may say how far the
lines are indented, and what becomes of the line breaks at the end; by default the first line that
is not empty decides the one, and a single break is kept of the other.
-/

namespace ApiAvailability.Yaml

/-! ## Line breaks -/

/-- Blanks and line breaks between two parts of a scalar: the blanks in front of the first break,
and the breaks. -/
structure Gap where
  blanks : List Char
  breaks : List Char
  deriving DecidableEq

namespace Gap

/-- The gap that the characters `cs` make. -/
def ofChars (cs : List Char) : Gap := ⟨cs.takeWhile isBlank, cs.filter isBreak⟩

/-- **What a gap stands for.** -/
def folded (g : Gap) : List Char :=
  match g.breaks with
  | [] => g.blanks
  | ['\n'] => [' ']
  | '\n' :: more => more
  | breaks => breaks

end Gap

/-- The gap at a cursor, and the place behind it. -/
def Cursor.gap (c : Cursor) : Gap × Cursor :=
  let cs := c.rest.takeWhile isGap
  (.ofChars cs, c.advance cs.length)

/-- One break is a blank, two are one break, and separators stay what they are. -/
example : (Gap.ofChars [' ', '\n', ' ']).folded = [' '] ∧
    (Gap.ofChars ['\n', ' ', '\n']).folded = ['\n'] ∧
    (Gap.ofChars ['\u2028', '\n']).folded = ['\u2028', '\n'] := by decide

/-! ## Scalars without quotation marks -/

/-- The marks that end a plain scalar inside brackets. -/
def isFlowMark (c : Char) : Bool :=
  c = ',' || c = '[' || c = ']' || c = '\x7b' || c = '\x7d'

/-- The characters of a plain scalar up to the next gap, or to its end. Inside brackets a colon may
not be followed by a mark of those. -/
def plainRun? (inFlow : Bool) : List Char → Option (List Char)
  | [] => some []
  | c :: cs =>
    let followedByMark := match cs with
      | [] => false
      | d :: _ => isFlowMark d || d = '?'
    if isGap c then some []
    else if inFlow && c = ':' && followedByMark then none
    else if (c = ':' && startsGap cs) || (inFlow && isFlowMark c) then some []
    else (plainRun? inFlow cs).map (c :: ·)

/-- Whether a tab is among the first `indent` characters of a line that begins in the gap `cs`. -/
def tabIndents (indent : Nat) (cs : List Char) : Bool :=
  (cs.foldl (fun (column, found) c =>
    match column with
    | none => (if isBreak c then some 0 else none, found)
    | some n =>
      if isBreak c then (some 0, found) else (some (n + 1), found || (c = '\t' && n < indent)))
    ((none : Option Nat), false)).2

/-- The plain scalar that ends at `c` behind `seen` (last first) and a gap. -/
def plainEnd (seen : List Char) (gap : Gap) (c : Cursor) : List Char × Bool × Cursor :=
  (seen.reverse, !gap.breaks.isEmpty, c)

/-- The plain scalar that goes on at `c` behind a gap and `seen` (last first). Also tells whether it
ends behind a line break. -/
def plainFrom? (inFlow : Bool) (indent : Nat) :
    Nat → Gap → List Char → Cursor → Option (List Char × Bool × Cursor)
  | 0, _, _, _ => none
  | fuel + 1, gap, seen, c => do
    if c.atDocumentMark || c.rest.head? = some '#' then return plainEnd seen gap c
    else
      let run ← plainRun? inFlow c.rest
      if run = [] then return plainEnd seen gap c
      else
        let seen := run.reverse ++ gap.folded.reverse ++ seen
        let c := c.advance run.length
        let blanks := c.rest.takeWhile isGap
        if blanks = [] then return plainEnd seen ⟨[], []⟩ c
        else if tabIndents indent blanks then none
        else
          let (gap, c) := c.gap
          if !inFlow && c.column < indent then return plainEnd seen gap c
          else plainFrom? inFlow indent fuel gap seen c

/-- **The plain scalar at a cursor**, whether it ends behind a line break, and what is behind it. -/
def plain? (inFlow : Bool) (indent : Nat) (c : Cursor) : Option (String × Bool × Cursor) := do
  let (cs, broken, c) ← plainFrom? inFlow indent (c.left + 1) ⟨[], []⟩ [] c
  return (String.ofList cs, broken, c)

/-- A colon ends a plain scalar only in front of a gap, and a hash sign only behind one. -/
example : ((plain? false 1 (.start "a:b#c d #e".toList)).map (·.1)) = some "a:b#c d" ∧
    ((plain? true 0 (.start "a b, c".toList)).map (·.1)) = some "a b" ∧
    ((plain? true 0 (.start "a:[".toList)).map (·.1)) = none := by decide +kernel

/-! ## Scalars in quotation marks -/

open Text

/-- The character that a one-letter escape stands for. -/
def ofEscape? : Char → Option Char
  | '0' => some '\x00'
  | 'a' => some '\x07'
  | 'b' => some '\x08'
  | 't' | '\t' => some '\t'
  | 'n' => some '\n'
  | 'v' => some '\x0b'
  | 'f' => some '\x0c'
  | 'r' => some '\r'
  | 'e' => some '\x1b'
  | ' ' => some ' '
  | '"' => some '"'
  | '/' => some '/'
  | '\\' => some '\\'
  | 'N' => some '\u0085'
  | '_' => some '\u00a0'
  | 'L' => some '\u2028'
  | 'P' => some '\u2029'
  | _ => none

/-- The number of hexadecimal digits in an escape. -/
def codeLength? : Char → Option Nat
  | 'x' => some 2
  | 'u' => some 4
  | 'U' => some 8
  | _ => none

/-- The character of an escape, given what follows the backslash, and the length of that. -/
def escape? : List Char → Option (Char × Nat)
  | [] => none
  | c :: cs =>
    match ofEscape? c, codeLength? c with
    | some e, _ => some (e, 1)
    | none, some n =>
      let ds := cs.take n
      let code := ofDigits 16 ds
      if ds.length = n ∧ ds.all (isDigitOf 16) ∧ code.isValidChar then
        some (Char.ofNat code, n + 1)
      else none
    | none, none => none

/-- The scalar that goes on at `c` behind `seen` (last first), up to the mark. -/
def quotedFrom? (mark : Char) : Nat → List Char → Cursor → Option (List Char × Cursor)
  | 0, _, _ => none
  | fuel + 1, seen, c =>
    if c.atDocumentMark then none
    else
      match c.rest with
      | [] => none
      | ch :: cs =>
        if ch = mark then
          if mark = '\'' ∧ cs.head? = some '\'' then
            quotedFrom? mark fuel ('\'' :: seen) (c.advance 2)
          else some (seen.reverse, c.next)
        else if ch = '\\' ∧ mark = '"' then
          if (cs.head?.map isBreak).getD false then
            let (gap, c) := (c.advance 2).gap
            quotedFrom? mark fuel (gap.breaks.reverse ++ seen) c
          else
            match escape? cs with
            | none => none
            | some (e, n) => quotedFrom? mark fuel (e :: seen) (c.advance (n + 1))
        else if isGap ch then
          let (gap, c) := c.gap
          quotedFrom? mark fuel (gap.folded.reverse ++ seen) c
        else quotedFrom? mark fuel (ch :: seen) c.next

/-- **The scalar in quotation marks at a cursor**, and the place behind it. -/
def quoted? (mark : Char) (c : Cursor) : Option (String × Cursor) := do
  let (cs, c) ← quotedFrom? mark (c.left + 1) [] c.next
  return (String.ofList cs, c)

/-- Marks are doubled or escaped, and breaks are folded. -/
example : (quoted? '\'' (.start "'a''b \n\n c'".toList)).map (·.1) = some "a'b\nc" ∧
    (quoted? '"' (.start "\"a\\x41\\\n  b\"".toList)).map (·.1) = some "aAb" ∧
    (quoted? '"' (.start "\"\\ud800\"".toList)).map (·.1) = none ∧
    (quoted? '"' (.start "\"a".toList)).map (·.1) = none := by decide +kernel

/-! ## Scalars as indented lines -/

/-- What becomes of the line breaks at the end. -/
inductive Ending where
  /-- One is kept. -/
  | clip
  /-- None is kept. -/
  | strip
  /-- All are kept. -/
  | keep
  deriving DecidableEq

/-- **What a header says**: the ending, and the indentation below that of the parent. -/
structure BlockHeader where
  ending : Ending
  indent : Option Nat
  deriving DecidableEq

namespace BlockHeader

/-- The ending that a mark asks for. -/
def ending? : Char → Option Ending
  | '+' => some .keep
  | '-' => some .strip
  | _ => none

/-- The header at the front of `cs`, in either order, and what follows it. -/
def read? (cs : List Char) : Option (BlockHeader × List Char) :=
  match cs with
  | [] => some (⟨.clip, none⟩, [])
  | c :: rest =>
    match ending? c with
    | some e =>
      match rest with
      | d :: after =>
        if d = '0' then none
        else if d.isDigit then some (⟨e, some (Text.digitValue d)⟩, after)
        else some (⟨e, none⟩, rest)
      | [] => some (⟨e, none⟩, [])
    | none =>
      if c = '0' then none
      else if c.isDigit then
        match rest with
        | d :: after =>
          match ending? d with
          | some e => some (⟨e, some (Text.digitValue c)⟩, after)
          | none => some (⟨.clip, some (Text.digitValue c)⟩, rest)
        | [] => some (⟨.clip, some (Text.digitValue c)⟩, [])
      else some (⟨.clip, none⟩, cs)

end BlockHeader

/-- Passes over the empty lines at a cursor, collecting their breaks behind `seen` (last first), and
over the indentation of the line that follows. When the indentation is not known, the deepest column
on the way decides it, but it is at least `least`. A tab may not stand for indentation. -/
def emptyLines? (least : Nat) (indent : Option Nat) :
    Nat → Nat → List Char → Cursor → Option (Nat × List Char × Cursor)
  | 0, _, _, _ => none
  | fuel + 1, deepest, seen, c =>
    let spaces := (c.rest.takeWhile (· = ' ')).length
    let c := c.advance (match indent with
      | none => spaces
      | some n => min spaces (n - c.column))
    let deepest := max deepest c.column
    let early := match indent with
      | none => true
      | some n => c.column < n
    match c.rest with
    | [] => some (indent.getD (max deepest least), seen.reverse, c)
    | ch :: _ =>
      if early && ch = '\t' then none
      else if isBreak ch then emptyLines? least indent fuel deepest (ch :: seen) c.next
      else some (indent.getD (max deepest least), seen.reverse, c)

/-- The lines of a block scalar so far: its text (last first), the break behind the last line, the
breaks of the empty lines after that, and whether the last line began with a blank. -/
structure BlockLines where
  text : List Char
  lastBreak : List Char
  emptyBreaks : List Char
  beganBlank : Bool

namespace BlockLines

/-- The breaks between the last line and one that begins with a blank or not. -/
def joint (b : BlockLines) (folded beginsBlank : Bool) : List Char :=
  if folded && b.lastBreak = ['\n'] && !b.beganBlank && !beginsBlank then
    if b.emptyBreaks = [] then [' '] else b.emptyBreaks
  else b.lastBreak ++ b.emptyBreaks

/-- The text with its ending. -/
def ended (b : BlockLines) : Ending → List Char
  | .strip => b.text.reverse
  | .clip => b.text.reverse ++ b.lastBreak
  | .keep => b.text.reverse ++ b.lastBreak ++ b.emptyBreaks

end BlockLines

/-- The lines from `c` on that are indented by `indent`. -/
def blockLines? (folded : Bool) (indent : Nat) :
    Nat → BlockLines → Cursor → Option (BlockLines × Cursor)
  | 0, _, _ => none
  | fuel + 1, b, c =>
    if c.column = indent ∧ c.rest ≠ [] then do
      let beginsBlank := (c.rest.head?.map isBlank).getD false
      let line := c.rest.takeWhile fun ch => !isBreak ch
      let c := c.advance line.length
      let lastBreak := c.rest.take 1
      let (_, emptyBreaks, c) ← emptyLines? 0 (some indent) (c.left + 1) 0 [] c.next
      blockLines? folded indent fuel
        { text := line.reverse ++ ((b.joint folded beginsBlank).reverse ++ b.text)
          lastBreak
          emptyBreaks
          beganBlank := beginsBlank } c
    else some (b, c)

/-- **The block scalar at a cursor**, below a parent at column `parent`, and the place behind it. -/
def block? (folded : Bool) (parent : Option Nat) (c : Cursor) : Option (String × Cursor) := do
  let c := c.next
  let (header, rest) ← BlockHeader.read? c.rest
  let c := (c.goTo rest).skipComment
  match c.rest with
  | [] => pure ()
  | ch :: _ => if isBreak ch then pure () else none
  let least := max 1 ((parent.map (· + 1)).getD 0)
  let indent := header.indent.map ((parent.getD 0) + ·)
  let fuel := c.left + 2
  let (indent, emptyBreaks, c) ← emptyLines? least indent fuel 0 [] c.next
  let (b, c) ← blockLines? folded indent fuel ⟨[], [], emptyBreaks, false⟩ c
  return (String.ofList (b.ended header.ending), c)

/-- Folding joins lines that do not begin with a blank. -/
example : (block? true none (.start ">\n a\n b\n\n c\n  d\n".toList)).map (·.1) =
      some "a b\nc\n d\n" ∧
    (block? false (some 0) (.start "|+1\n a\n\n".toList)).map (·.1) = some "a\n\n" ∧
    (block? false none (.start "|-\n  a\n b".toList)).map (·.1) = some "a" ∧
    (block? false none (.start "|0\n a".toList)).map (·.1) = none := by decide +kernel

end ApiAvailability.Yaml
