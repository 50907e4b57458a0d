import ApiAvailability.Datum
import ApiAvailability.Text.Numeral
import ApiAvailability.Yaml.Grammar
import ApiAvailability.Yaml.Scan

/-!
# Yaml/Value — reading typed values out of YAML

A text is any scalar, however it is written. A number is a plain scalar in decimal, or in the base
that a mark in front of it names, and a plain scalar that is empty or a word for nothing stands for
the absence of a value. Records are mappings with scalar keys. Aliases stand for their nodes, and a
reading fails that follows too many of them, so that a short text cannot make it long.

- `Value.read?` — what a typed reader makes of a text
-/

namespace ApiAvailability.Yaml

open Text

/-! ## Numbers and absence -/

/-- What follows `front` in `cs`. -/
def after? (front cs : List Char) : Option (List Char) :=
  if front.isPrefixOf cs then some (cs.drop front.length) else none

/-- Whether `cs` begins with a sign. -/
def isSigned (cs : List Char) : Bool := cs.head? = some '+' || cs.head? = some '-'

/-- Whether `cs` has more than one digit, the first of them a zero, behind a sign or not. -/
def isPadded (cs : List Char) : Bool :=
  let ds := if isSigned cs then cs.tail else cs
  1 < ds.length && ds.head? = some '0' && ds.all Char.isDigit

/-- A number in the base that a mark names. -/
def marked? (cs : List Char) : Option Nat :=
  ((after? ['0', 'x'] cs).bind (natural? 16)).or
    (((after? ['0', 'o'] cs).bind (natural? 8)).or ((after? ['0', 'b'] cs).bind (natural? 2)))

/-- What follows a plus sign, or the whole of `cs` if there is none. -/
def unplussed (cs : List Char) : List Char := if cs.head? = some '+' then cs.tail else cs

/-- A number from zero on. -/
def readNatural? (cs : List Char) : Option Nat :=
  (marked? (unplussed cs)).or (if isPadded cs then none else natural? 10 (unplussed cs))

/-- A whole number. -/
def readInteger? (cs : List Char) : Option Int :=
  match cs with
  | '-' :: ds =>
    let n := (marked? ds).or (if isPadded cs then none else natural? 10 ds)
    n.map fun n => -(n : Int)
  | _ => (readNatural? cs).map (↑·)

/-- Whether `s` is a word for nothing. -/
def isNullWord (s : String) : Bool := s = "null" || s = "Null" || s = "NULL" || s = "~"

/-- Signs and marks go together, leading zeros do not. -/
example : readInteger? "-0x1f".toList = some (-31) ∧ readInteger? "+7".toList = some 7 ∧
    readInteger? "010".toList = none ∧ readInteger? "+-1".toList = none ∧
    readNatural? "-1".toList = none ∧ readInteger? "1_0".toList = none := by decide +kernel

/-! ## Readings -/

/-- **A reading**: it may fail, and has a number of aliases that it may still follow. -/
abbrev Reading := StateT Nat Option

/-- Follows an alias, if the reading still may. -/
def Reading.follow : Reading Unit := fun
  | 0 => none
  | n + 1 => some ((), n)

/-! ## Values -/

/-- **A YAML value**: a node, and the nodes that aliases stand for, the later ones first. -/
structure Value where
  anchors : List (Nat × Node)
  node : Node

namespace Value

/-- Another node of the same document. -/
def withNode (v : Value) (n : Node) : Value := ⟨v.anchors, n⟩

/-- The node, or the one that it stands for. -/
def followed (v : Value) : Reading Node :=
  match v.node with
  | .reference number => do
    Reading.follow
    return (v.anchors.lookup number).getD .empty
  | n => return n

/-- The value as a text. -/
def text? (v : Value) : Reading String := do
  match ← v.followed with
  | .scalar _ _ _ text => return text
  | _ => failure

/-- The characters of a scalar that may be a number: it is plain, or a literal block with the tag of
whole numbers. -/
def numeral? (v : Value) : Reading (List Char) := do
  match ← v.followed with
  | .scalar _ _ .plain text => return text.toList
  | .scalar _ tag .literal text => if tag = some Tag.int then return text.toList else failure
  | _ => failure

/-- The value as a list. A plain scalar that stands for nothing is an empty list. -/
def items? (v : Value) : Reading (List Value) := do
  match ← v.followed with
  | .sequence _ items => return items.map v.withNode
  | .scalar _ tag .plain text =>
    if text = "" ∨ (isNullWord text ∧ (tag = none ∨ tag = some Tag.null)) then return []
    else failure
  | _ => failure

/-- The value as a record with the given field names. -/
def fields? (names : List String) (v : Value) : Reading (List (Option Value)) := do
  match ← v.followed with
  | .mapping _ pairs =>
    let members ← pairs.mapM fun (k, w) => return (← text? (v.withNode k), v.withNode w)
    names.mapM (atMostOne? · members)
  | _ => failure

/-- The value, or `none` when it stands for the absence of one. The tag of absent values asks for a
word for nothing. -/
def given? (v : Value) : Reading (Option Value) := do
  let node ← v.followed
  let absent ← match node with
    | .scalar _ none .plain text => pure (text = "" || isNullWord text)
    | .scalar _ (some tag) .plain text =>
      if tag = Tag.null then (if isNullWord text then pure true else failure) else pure false
    | _ => pure false
  return if absent then none else some (v.withNode node)

instance : Datum Value Reading where
  text? := text?
  integer? v := do readInteger? (← v.numeral?)
  natural? v := do readNatural? (← v.numeral?)
  items? := items?
  fields? := fields?
  given? := given?

/-- The value of a YAML text, if it is one document. -/
def ofText? (s : String) : Option Value := do
  let root ← Node.ofTokens? (← Token.scan? s.toList).toList
  return ⟨root.anchored.reverse, root⟩

/-- The number of aliases that a reading may follow, for each step of its document's extent. -/
def aliasFactor : Nat := 100

/-- **What a typed reader makes of a YAML text.** -/
def read? {α : Type} (reader : Value → Reading α) (s : String) : Option α := do
  let v ← ofText? s
  (reader v).run' (aliasFactor * v.node.extent)

/-- An alias costs the reading one, and nothing else costs it anything. -/
example : (text? ⟨[(0, .scalar (some 0) none .plain "a")], .reference 0⟩).run 1 = some ("a", 0) ∧
    (text? ⟨[(0, .scalar (some 0) none .plain "a")], .reference 0⟩).run 0 = none ∧
    (text? ⟨[], .scalar none none .plain "b"⟩).run 0 = some ("b", 0) := by decide

end Value

end ApiAvailability.Yaml
