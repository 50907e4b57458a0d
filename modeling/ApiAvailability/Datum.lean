/-!
# Datum — what a typed reader asks of a data format

A value of a data format is read as a text, a number, a list or a record, or refused. The readers of
this module work for every format, so that a type has one reader however it is written down. They
read in a monad `m`, in which a format may keep account of what reading costs.

- `Datum.required`, `Datum.defaulted`, `Datum.optional` — the three ways in which a record has a
  field
-/

namespace ApiAvailability

/-- **The questions that a typed reader asks** of a value. Each fails when the value is not of the
kind asked for. -/
class Datum (δ : Type) (m : outParam (Type → Type)) where
  /-- The value as a text. -/
  text? : δ → m String
  /-- The value as a whole number. -/
  integer? : δ → m Int
  /-- The value as a number from zero on. -/
  natural? : δ → m Nat
  /-- The value as a list. -/
  items? : δ → m (List δ)
  /-- The value as a record with the given field names: what it has for each, in that order. A
  field that is given twice makes it no record; fields of other names are passed over. -/
  fields? : List String → δ → m (List (Option δ))
  /-- The value, or `none` when it stands for the absence of one. -/
  given? : δ → m (Option δ)

namespace Datum

variable {δ α : Type} {m : Type → Type} [Monad m] [MonadExcept Unit m] [Datum δ m]

omit [Monad m] [Datum δ m] in
/-- A field that has to be given. -/
def required (read : δ → m α) : Option δ → m α
  | none => throw ()
  | some d => read d

/-- A field that stands for `dflt` when it is not given. -/
def defaulted (dflt : α) (read : δ → m α) : Option δ → m α
  | none => pure dflt
  | some d => read d

/-- A field that may be missing or stand for an absent value. -/
def optional (read : δ → m α) : Option δ → m (Option α)
  | none => pure none
  | some d => do
    match ← given? d with
    | none => return none
    | some d => return some (← read d)

/-- A list of readable items. -/
def list? (read : δ → m α) (d : δ) : m (List α) := do
  (← items? d).mapM read

/-- A number of thirty-two bits with a sign. -/
def int32? (d : δ) : m Int32 := do
  let i ← integer? d
  if Int32.minValue.toInt ≤ i ∧ i ≤ Int32.maxValue.toInt then return Int32.ofInt i else throw ()

/-- A number of sixty-four bits without a sign. -/
def uint64? (d : δ) : m UInt64 := do
  let n ← natural? d
  if n < UInt64.size then return UInt64.ofNat n else throw ()

end Datum

/-- The value of the only pair with key `name` among `pairs`: `some none` when there is no such
pair, `none` when there are several. -/
def atMostOne? {κ ν : Type} [BEq κ] (name : κ) (pairs : List (κ × ν)) : Option (Option ν) :=
  match pairs.filter (·.1 == name) with
  | [] => some none
  | [(_, v)] => some (some v)
  | _ => none

end ApiAvailability
