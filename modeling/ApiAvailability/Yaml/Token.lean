import ApiAvailability.Text.Numeral
import ApiAvailability.Yaml.Cursor

/-!
# Yaml/Token — the lexemes of a YAML text, with its tags and directives

The indentation of a text shows in its lexemes: blocks have lexemes for their start and end, and a
key has one in front of it even where nothing but the colon behind it makes it a key.

A tag is written in full between angle brackets, or as a handle and a suffix. A handle stands for
the front of a tag; directives say which. Tags are sequences of octets, which may be escaped by a
percent sign and two hexadecimal digits; here every octet is one character.

A directive is a line that begins with a percent sign. There are two: one names the version of the
format, the other gives a meaning to a handle.
-/

namespace ApiAvailability.Yaml

/-! ## Lexemes -/

/-- How a scalar is written. -/
inductive Style where
  | plain
  | quoted
  | literal
  | folded
  deriving DecidableEq

/-- **The lexemes of a YAML text.** The parts of a tag are octets, one for each character. -/
inductive Token where
  | version (major minor : Nat)
  | handle (name meaning : List Char)
  | documentStart | documentEnd
  | blockSequence | blockMapping | blockEnd
  | openSequence | closeSequence | openMapping | closeMapping
  | entry | comma | key | value
  | reference (name : String)
  | anchor (name : String)
  | tag (handle suffix : List Char)
  | scalar (style : Style) (text : String)
  deriving DecidableEq

/-! ## Tags -/

open Text

/-- The octets of a tag. -/
abbrev Tag := List Char

namespace Tag

/-- The front of the tags that the handle `!!` stands for. -/
def standard : Tag := "tag:yaml.org,2002:".toList

/-- The tag of absent values. -/
def null : Tag := standard ++ "null".toList

/-- The tag of whole numbers. -/
def int : Tag := standard ++ "int".toList

/-- The characters that may stand in a tag. Commas and square brackets need angle brackets around
them. -/
def isUriChar (verbatim : Bool) (c : Char) : Bool :=
  isWordChar c || ";/?:@&=+$.!~*'()".toList.contains c ||
    (verbatim && (c = ',' || c = '[' || c = ']'))

/-- The number of octets behind one that begins a character. -/
def trailing? (octet : Nat) : Option Nat :=
  if octet < 0x80 then some 0
  else if octet < 0xC0 then none
  else if octet < 0xE0 then some 1
  else if octet < 0xF0 then some 2
  else if octet < 0xF8 then some 3
  else none

/-- How many octets have to follow an escaped octet, when `due` had to come before it. -/
def afterOctet? (due octet : Nat) : Option Nat :=
  if due = 0 then trailing? octet
  else if 0x80 ≤ octet ∧ octet < 0xC0 then some (due - 1)
  else none

/-- The octets at the front of a text, and what follows them; `due` more octets have to be escaped
ones. -/
def octets? (verbatim : Bool) : Nat → List Char → Option (Tag × List Char)
  | due, '%' :: h :: l :: cs => do
    if !(isDigitOf 16 h && isDigitOf 16 l) then none
    let octet := 16 * digitValue h + digitValue l
    let (rest, after) ← octets? verbatim (← afterOctet? due octet) cs
    return (Char.ofNat octet :: rest, after)
  | 0, c :: cs =>
    if c = '%' then none
    else if isUriChar verbatim c then do
      let (rest, after) ← octets? verbatim 0 cs
      return (c :: rest, after)
    else some ([], c :: cs)
  | 0, [] => some ([], [])
  | _, _ => none

/-- A handle at the front of a text, and what follows it. It may lack the mark at its end. -/
def handle? : List Char → Option (List Char × List Char)
  | '!' :: cs =>
    let name := cs.takeWhile isWordChar
    match cs.dropWhile isWordChar with
    | '!' :: rest => some ('!' :: name ++ ['!'], rest)
    | rest => some ('!' :: name, rest)
  | _ => none

/-- Whether a handle has marks at both ends. -/
def isWhole (handle : List Char) : Bool := 1 < handle.length && handle.getLast? = some '!'

/-- **The tag at the front of a text**: its handle, which is empty if the tag is written in full,
its suffix, and what follows. -/
def read? : List Char → Option ((List Char × Tag) × List Char)
  | '!' :: '<' :: cs => do
    match ← octets? true 0 cs with
    | ([], _) => none
    | (tag, '>' :: rest) => return (([], tag), rest)
    | _ => none
  | cs => do
    let (handle, rest) ← handle? cs
    let (suffix, rest) ← octets? false 0 rest
    if isWhole handle then
      if suffix = [] then none else return ((handle, suffix), rest)
    else if handle.tail ++ suffix = [] then return (([], ['!']), rest)
    else return ((['!'], handle.tail ++ suffix), rest)

/-- A handle with two marks stands apart from its suffix. -/
example : read? "!!int 5".toList = some ((['!', '!'], "int".toList), " 5".toList) ∧
    read? "!x".toList = some ((['!'], ['x']), []) ∧
    read? "! a".toList = some (([], ['!']), " a".toList) ∧
    read? "!!".toList = none ∧ read? "!<%41>".toList = some (([], ['A']), []) := by decide +kernel

end Tag

/-! ## Directives -/

namespace Directive

/-- Drops the blanks in front. -/
def skipBlanks (cs : List Char) : List Char := cs.dropWhile isBlank

/-- A number of up to nine digits at the front of a text, and what follows it. -/
def number? (cs : List Char) : Option (Nat × List Char) :=
  let ds := cs.takeWhile Char.isDigit
  if ds = [] ∨ 9 < ds.length then none
  else some (Text.ofDigits 10 ds, cs.dropWhile Char.isDigit)

/-- A version: two numbers with a dot between them. -/
def version? (cs : List Char) : Option (Token × List Char) := do
  let (major, rest) ← number? (skipBlanks cs)
  match rest with
  | '.' :: rest =>
    let (minor, rest) ← number? rest
    return (.version major minor, rest)
  | _ => none

/-- A handle and the front of a tag, which a gap has to follow. -/
def handle? (cs : List Char) : Option (Token × List Char) := do
  let (name, rest) ← Tag.handle? (skipBlanks cs)
  if !(Tag.isWhole name || name = ['!']) then none
  match rest with
  | c :: _ => if isBlank c then pure () else none
  | [] => none
  let (meaning, rest) ← Tag.octets? true 0 (skipBlanks rest)
  if meaning = [] || !startsGap rest then none
  return (.handle name meaning, rest)

/-- **The directive behind a percent sign**, and what follows it. -/
def read? (cs : List Char) : Option (Token × List Char) :=
  let name := cs.takeWhile isWordChar
  let rest := cs.dropWhile isWordChar
  if !startsGap rest then none
  else if name = "YAML".toList then version? rest
  else if name = "TAG".toList then handle? rest
  else none

end Directive

end ApiAvailability.Yaml
