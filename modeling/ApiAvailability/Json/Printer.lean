import ApiAvailability.Text.Numeral

/-!
# Json/Printer — JSON values, and their text indented by two spaces

A text literal is kept as `none` when its escapes leave half of a surrogate pair: nobody can read
such a text, but a member that nobody asks for may hold one. A number is an integer when it is
written with neither fraction nor exponent, and is otherwise kept as it is written.

In print an empty array or object takes two characters, any other has one item or member on a line.
In text literals the quote, the backslash and the control characters are escaped and nothing else
is.
-/

namespace ApiAvailability.Json

/-! ## Values -/

/-- The text of a literal, or `none` when it holds a lone surrogate. -/
abbrev Text := Option String

/-- **JSON values**, members in the order and number in which they are written. -/
inductive Value where
  | null
  | bool (b : Bool)
  | integer (i : Int)
  | real (written : String)
  | text (t : Text)
  | array (items : List Value)
  | object (members : List (Text × Value))
  deriving Inhabited

namespace Value

/-- A text value. -/
def string (s : String) : Value := text (some s)

/-- An object from named members. -/
def record (members : List (String × Value)) : Value :=
  object (members.map fun (name, v) => (some name, v))

end Value

/-! ## Their text -/

/-- A digit of base sixteen, in lower case. -/
def hexDigit (n : Nat) : Char := Nat.digitChar n

/-- How a character is written inside a text literal. -/
def escape (c : Char) : List Char :=
  if c = '"' then ['\\', '"']
  else if c = '\\' then ['\\', '\\']
  else if c = '\x08' then ['\\', 'b']
  else if c = '\x0c' then ['\\', 'f']
  else if c = '\n' then ['\\', 'n']
  else if c = '\r' then ['\\', 'r']
  else if c = '\t' then ['\\', 't']
  else if c.toNat < 0x20 then
    ['\\', 'u', '0', '0', hexDigit (c.toNat / 16), hexDigit (c.toNat % 16)]
  else [c]

/-- A text literal. A text with a lone surrogate is written as one. -/
def quote : Text → List Char
  | some s => '"' :: s.toList.flatMap escape ++ ['"']
  | none => ['"', '\\', 'u', 'd', '8', '0', '0', '"']

/-- A new line, indented `depth` steps deep. -/
def newline (depth : Nat) : List Char := '\n' :: List.replicate (2 * depth) ' '

namespace Value

mutual

/-- The text of a value that stands `depth` steps deep. -/
def render (depth : Nat) : Value → List Char
  | null => ['n', 'u', 'l', 'l']
  | bool true => ['t', 'r', 'u', 'e']
  | bool false => ['f', 'a', 'l', 's', 'e']
  | integer i => Text.signed i
  | real w => w.toList
  | text t => quote t
  | array [] => ['[', ']']
  | array (v :: vs) =>
    '[' :: newline (depth + 1) ++ render (depth + 1) v ++ renderItems (depth + 1) vs ++
      newline depth ++ [']']
  | object [] => ['\x7b', '\x7d']
  | object ((name, v) :: ms) =>
    '\x7b' :: newline (depth + 1) ++ quote name ++ [':', ' '] ++ render (depth + 1) v ++
      renderMembers (depth + 1) ms ++ newline depth ++ ['\x7d']

/-- The items after the first, each on a line of its own. -/
def renderItems (depth : Nat) : List Value → List Char
  | [] => []
  | v :: vs => ',' :: newline depth ++ render depth v ++ renderItems depth vs

/-- The members after the first, each on a line of its own. -/
def renderMembers (depth : Nat) : List (Text × Value) → List Char
  | [] => []
  | (name, v) :: ms =>
    ',' :: newline depth ++ quote name ++ [':', ' '] ++ render depth v ++ renderMembers depth ms

end

/-- **The indented text** of a value. -/
def toText (v : Value) : String := String.ofList (v.render 0)

end Value

end ApiAvailability.Json
