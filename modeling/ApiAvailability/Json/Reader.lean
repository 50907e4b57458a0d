import ApiAvailability.Datum
import ApiAvailability.Json.Token

/-!
# Json/Reader — the value of a JSON document, and typed values in it

A machine with a stack of unfinished arrays and objects takes the lexemes one at a time. There is no
bound on nesting. `Value.ofText?` refuses whatever follows the value, blanks apart.

A document is UTF-8 text. Bytes that are not may stand only inside a text literal that nobody reads,
so each of them is taken for the escape of lone surrogates: there are two, both the second half of a
pair, so that no escape in front or behind makes a pair of the last of them.

A record is an object, or an array of its fields in order, from which fields may be missing at the
end. An object whose names are not all readable is no record. A choice between names is a text, or
an object that maps the name to `null`.
-/

namespace ApiAvailability.Json

/-! ## Values from lexemes -/

/-- An unfinished value: an array or an object with what it has so far, last first, or a member
whose value is due. -/
inductive Frame where
  | array (items : List Value)
  | object (members : List (Text × Value))
  | member (name : Text)

/-- What may come next. -/
inductive Phase where
  /-- A value. -/
  | value
  /-- The first item of an array, or its end. -/
  | firstItem
  /-- The first member of an object, or its end. -/
  | firstMember
  /-- A member's name. -/
  | name
  /-- The colon after a name. -/
  | colon
  /-- A comma, or the end of the innermost array or object. -/
  | next
  /-- Nothing: the value is complete. -/
  | done (v : Value)

/-- **The reader's state**: what may come next, and the unfinished values around it, innermost
first. -/
structure Reading where
  phase : Phase
  frames : List Frame

namespace Reading

/-- The state before the first lexeme. -/
def start : Reading := ⟨.value, []⟩

/-- Hands a complete value to the innermost unfinished one. -/
def deliver (v : Value) : List Frame → Option Reading
  | [] => some ⟨.done v, []⟩
  | .array items :: rest => some ⟨.next, .array (v :: items) :: rest⟩
  | .member name :: .object members :: rest =>
    some ⟨.next, .object ((name, v) :: members) :: rest⟩
  | _ => none

/-- The first lexeme of a value. -/
def beginValue (frames : List Frame) : Token → Option Reading
  | .null => deliver .null frames
  | .bool b => deliver (.bool b) frames
  | .integer i => deliver (.integer i) frames
  | .real w => deliver (.real w) frames
  | .text t => deliver (.text t) frames
  | .openArray => some ⟨.firstItem, .array [] :: frames⟩
  | .openObject => some ⟨.firstMember, .object [] :: frames⟩
  | _ => none

/-- The end of the innermost unfinished value. -/
def close : List Frame → Token → Option Reading
  | .array items :: rest, .closeArray => deliver (.array items.reverse) rest
  | .object members :: rest, .closeObject => deliver (.object members.reverse) rest
  | _, _ => none

/-- One lexeme. -/
def step (r : Reading) (t : Token) : Option Reading :=
  match r.phase, t with
  | .value, t => beginValue r.frames t
  | .firstItem, .closeArray => close r.frames t
  | .firstItem, t => beginValue r.frames t
  | .firstMember, .closeObject => close r.frames t
  | .firstMember, .text name => some ⟨.colon, .member name :: r.frames⟩
  | .name, .text name => some ⟨.colon, .member name :: r.frames⟩
  | .colon, .colon => some ⟨.value, r.frames⟩
  | .next, .comma =>
    match r.frames with
    | .array _ :: _ => some ⟨.value, r.frames⟩
    | .object _ :: _ => some ⟨.name, r.frames⟩
    | _ => none
  | .next, t => close r.frames t
  | _, _ => none

/-- The machine over a list of lexemes. -/
def run (r : Reading) (ts : List Token) : Option Reading := ts.foldlM step r

@[simp] theorem run_nil (r : Reading) : run r [] = some r := rfl

@[simp] theorem run_cons (r : Reading) (t : Token) (ts : List Token) :
    run r (t :: ts) = (step r t).bind (run · ts) := rfl

theorem run_append (r : Reading) (ts us : List Token) :
    run r (ts ++ us) = (run r ts).bind (run · us) := by
  simp only [run, List.foldlM_append]
  rfl

/-- The value, once the lexemes are over. -/
def finish? (r : Reading) : Option Value :=
  match r.phase with
  | .done v => some v
  | _ => none

end Reading

namespace Value

/-- The value that a list of lexemes spells. -/
def ofTokens? (ts : List Token) : Option Value :=
  (Reading.start.run ts).bind Reading.finish?

/-- **The value of a JSON text**, if it is one. -/
def ofText? (s : String) : Option Value :=
  (Token.scan? s.toList).bind ofTokens?

end Value

/-! ## Documents given as bytes -/

/-- The escapes of two lone surrogates, which are not a blank, a mark, a word or a number either. -/
def loneSurrogates : List Char := "\\udc00\\udc00".toList

/-- The characters of `bytes` from place `i` on, each byte that starts none as lone surrogates, or
as a control character where it is `escaped` by a backslash that is not escaped itself. At most
`fuel` of them are taken. -/
def mendedFrom (bytes : ByteArray) (escaped : Bool) (i : Nat) : Nat → List Char
  | 0 => []
  | fuel + 1 =>
    if bytes.size ≤ i then []
    else
      match bytes.utf8DecodeChar? i with
      | some c => c :: mendedFrom bytes (c = '\\' && !escaped) (i + c.utf8Size) fuel
      | none =>
        (if escaped then ['\x00'] else loneSurrogates) ++ mendedFrom bytes false (i + 1) fuel

/-- The text of `bytes`, with what is no UTF-8 made unreadable. -/
def mended (bytes : ByteArray) : String := String.ofList (mendedFrom bytes false 0 bytes.size)

/-- **The value of a JSON document**, if it is one. -/
def Value.ofBytes? (bytes : ByteArray) : Option Value :=
  match String.fromUTF8? bytes with
  | some s => ofText? s
  | none => ofText? (mended bytes)

theorem Value.ofBytes?_toUTF8 (s : String) : ofBytes? s.toUTF8 = ofText? s := by
  have h : String.fromUTF8? s.toUTF8 = some s := by
    simp only [String.fromUTF8?, String.toUTF8_eq_toByteArray]
    exact dif_pos s.isValidUTF8
  rw [ofBytes?, h]

/-! ## Typed values -/

namespace Value

/-- The value as a text. -/
def text? : Value → Option String
  | text t => t
  | _ => none

/-- The value as a whole number. -/
def integer? : Value → Option Int
  | integer i => some i
  | _ => none

/-- The value as a number from zero on. -/
def natural? : Value → Option Nat
  | integer (.ofNat n) => some n
  | _ => none

/-- The value as a list. -/
def items? : Value → Option (List Value)
  | array vs => some vs
  | _ => none

/-- The members of an object all of whose names are readable. -/
def members? : Value → Option (List (String × Value))
  | object ms => ms.mapM fun (name, v) => name.map (·, v)
  | _ => none

/-- The value as a record with the given field names. -/
def fields? (names : List String) (v : Value) : Option (List (Option Value)) :=
  match v with
  | array vs => if vs.length ≤ names.length then some (names.mapIdx fun i _ => vs[i]?) else none
  | _ => do
    let members ← v.members?
    names.mapM (atMostOne? · members)

instance : Datum Value Option where
  text? := text?
  integer? := integer?
  natural? := natural?
  items? := items?
  fields? := fields?
  given?
    | null => some none
    | v => some (some v)

/-- The name that the value chooses. -/
def choice? : Value → Option String
  | text t => t
  | object [(name, null)] => name
  | _ => none

end Value

end ApiAvailability.Json
