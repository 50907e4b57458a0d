import ApiAvailability.Datum

/-!
# Toml/Value — what a TOML document denotes

A table remembers how it came to be, for that decides what a later line may still add to it: a table
of a header is open to headers below it, a table made by a dotted key to further dotted keys, and a
table written inline to nothing at all.

A key leads from table to table. Tables that are missing on the way are made, and those that are
there have to be open to what is coming: a header may lead through every table that is not written
inline, a dotted key only through tables that headers or dotted keys below them have made. The way
through an array of tables is the way through its last table.

- `Value.isSound` — the numbers that a reader without expectations can hold
- `Members.update?` — a change at the end of a way
- `Members.assign?` — one member more, by a dotted key
-/

namespace ApiAvailability.Toml

/-! ## Values -/

/-- How a table came to be. -/
inductive Origin where
  /-- By a header of its own; the document's own table counts as one. -/
  | header
  /-- By the header of a table in it. -/
  | implied
  /-- By a dotted key. -/
  | dotted
  /-- By braces. -/
  | inline
  deriving DecidableEq

/-- **TOML values.** -/
inductive Value where
  | text (s : String)
  | integer (i : Int)
  /-- A number with a fraction or an exponent, infinity or no number: whether it is in the range of
  double precision. -/
  | real (inRange : Bool)
  | bool (b : Bool)
  /-- A date, a time or both. -/
  | moment
  | array (items : List Value)
  | table (origin : Origin) (members : List (String × Value))
  /-- The tables of double-bracketed headers, in order. -/
  | tables (elements : List (List (String × Value)))

/-- The members of a table. -/
abbrev Members := List (String × Value)

namespace Value

mutual

/-- Whether all numbers of the value are in the range that a reader without expectations can hold:
integers of 128 bits, with a sign or without. -/
def isSound : Value → Bool
  | integer i => -(2 ^ 127 : Int) ≤ i && i < 2 ^ 128
  | real inRange => inRange
  | array items => areSound items
  | table _ members => membersAreSound members
  | tables elements => elementsAreSound elements
  | _ => true

/-- Whether all items are sound. -/
def areSound : List Value → Bool
  | [] => true
  | v :: vs => isSound v && areSound vs

/-- Whether the values of all members are sound. -/
def membersAreSound : List (String × Value) → Bool
  | [] => true
  | (_, v) :: ms => isSound v && membersAreSound ms

/-- Whether the values of all members of all elements are sound. -/
def elementsAreSound : List (List (String × Value)) → Bool
  | [] => true
  | ms :: rest => membersAreSound ms && elementsAreSound rest

end

/-- The value as a text. -/
def text? : Value → Option String
  | text s => some s
  | _ => none

/-- The value as a whole number. -/
def integer? : Value → Option Int
  | integer i => some i
  | _ => none

/-- The value as a number from zero on. -/
def natural? : Value → Option Nat
  | integer (.ofNat n) => some n
  | _ => none

/-- The value as a list; double-bracketed headers make a list of tables. -/
def items? : Value → Option (List Value)
  | array items => some items
  | tables elements => some (elements.map (table .header))
  | _ => none

/-- The value as a record with the given field names: a table whose other members are sound, or a
list of its fields in order, from which fields may be missing at the end. -/
def fields? (names : List String) (v : Value) : Option (List (Option Value)) :=
  match v with
  | table _ members =>
    if members.all fun (name, v) => names.contains name || isSound v then
      names.mapM (atMostOne? · members)
    else none
  | _ => v.items?.map fun vs => names.mapIdx fun i _ => vs[i]?

instance : Datum Value Option where
  text? := text?
  integer? := integer?
  natural? := natural?
  items? := items?
  fields? := fields?
  given? v := some (some v)

end Value

/-! ## Adding at the end of a key -/

/-- Whether a way that makes tables of the first origin may lead through one of the second. -/
def Origin.mayEnter : Origin → Origin → Bool
  | _, .inline => false
  | dotted, .header => false
  | _, _ => true

namespace Members

/-- The members with `value` for `key`, in place of what was there. -/
def put (key : String) (value : Value) : Members → Members
  | [] => [(key, value)]
  | (k, v) :: ms => if k = key then (key, value) :: ms else (k, v) :: put key value ms

/-- The change of the last of a list. -/
def changeLast? {α : Type} (change : α → Option α) : List α → Option (List α)
  | [] => none
  | [a] => (change a).map ([·])
  | a :: as => (changeLast? change as).map (a :: ·)

/-- **Changes the table at the end of a way**, making tables of origin `made` where they are
missing. -/
def update? (made : Origin) (change : Origin → Members → Option Members) :
    List String → Origin → Members → Option Members
  | [], origin, ms => change origin ms
  | key :: way, _, ms => do
    let value ← match ms.lookup key with
      | none => return ms ++ [(key, .table made (← update? made change way made []))]
      | some (.table origin inner) =>
        if made.mayEnter origin then .table origin <$> update? made change way origin inner
        else none
      | some (.tables elements) =>
        .tables <$> changeLast? (update? made change way .header) elements
      | some _ => none
    return put key value ms

/-- **One member more.** A dotted key adds to a table of dotted keys only, and a plain key to any
other; what is there already stays as it is. -/
def assign? (path : List String) (value : Value) (origin : Origin) (ms : Members) :
    Option Members := do
  let key ← path.getLast?
  let way := path.dropLast
  let add (origin : Origin) (ms : Members) : Option Members :=
    if (origin = .dotted) ≠ (way ≠ []) ∨ (ms.lookup key).isSome then none
    else some (ms ++ [(key, value)])
  update? .dotted add way origin ms

/-- **A table with a header of its own**, where there is none yet but by headers below it. -/
def openTable? (path : List String) (ms : Members) : Option Members := do
  let key ← path.getLast?
  let add (_ : Origin) (ms : Members) : Option Members :=
    match ms.lookup key with
    | none => some (ms ++ [(key, .table .header [])])
    | some (.table .implied inner) => some (put key (.table .header inner) ms)
    | some _ => none
  update? .implied add path.dropLast .header ms

/-- **One table more in an array of tables.** -/
def openElement? (path : List String) (ms : Members) : Option Members := do
  let key ← path.getLast?
  let add (_ : Origin) (ms : Members) : Option Members :=
    match ms.lookup key with
    | none => some (ms ++ [(key, .tables [[]])])
    | some (.tables elements) => some (put key (.tables (elements ++ [[]])) ms)
    | some _ => none
  update? .implied add path.dropLast .header ms

end Members

end ApiAvailability.Toml
