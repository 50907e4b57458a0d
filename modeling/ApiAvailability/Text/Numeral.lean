/-!
# Text/Numeral — blank characters, and whole numbers written in digits

The blank characters are the twenty-five with the Unicode property `White_Space`; `blankChar` is its
table. Trimming removes blanks from both ends of a text.

Numerals in any base up to sixteen are read from and written to lists of characters.

- `Text.isBlank_iff` — a text is blank exactly when all its characters are
- `Text.ofDigits_digits` — a number's decimal digits denote the number
-/

namespace ApiAvailability.Text

/-! ## Blanks -/

/-- The characters with the property `White_Space`. -/
def blankChar (c : Char) : Bool :=
  let n := c.toNat
  (9 ≤ n && n ≤ 13) || n == 0x20 || n == 0x85 || n == 0xA0 || n == 0x1680 ||
    (0x2000 ≤ n && n ≤ 0x200A) || n == 0x2028 || n == 0x2029 || n == 0x202F || n == 0x205F ||
    n == 0x3000

/-- The ideographic space is blank, the zero-width space is not. -/
example : blankChar '\u3000' = true ∧ blankChar '\u200b' = false := by decide

/-- Drops the blanks in front. -/
def trimStart (cs : List Char) : List Char := cs.dropWhile blankChar

/-- Drops the blanks in front and behind. -/
def trim (cs : List Char) : List Char :=
  (trimStart (trimStart cs).reverse).reverse

/-- **Blank texts**: nothing is left after trimming. -/
def isBlank (s : String) : Bool := (trim s.toList).isEmpty

theorem trimStart_eq_nil_iff {cs : List Char} :
    trimStart cs = [] ↔ ∀ c ∈ cs, blankChar c = true := by
  induction cs with
  | nil => simp [trimStart]
  | cons c cs ih => by_cases h : blankChar c <;> simp_all [trimStart]

theorem trim_eq_nil_iff {cs : List Char} : trim cs = [] ↔ ∀ c ∈ cs, blankChar c = true := by
  rw [trim, List.reverse_eq_nil_iff, trimStart_eq_nil_iff]
  induction cs with
  | nil => simp [trimStart]
  | cons c cs ih => by_cases h : blankChar c = true <;> simp_all [trimStart]

theorem isBlank_iff {s : String} : isBlank s = true ↔ ∀ c ∈ s.toList, blankChar c = true := by
  rw [isBlank, List.isEmpty_iff, trim_eq_nil_iff]

/-! ## Numerals -/

/-- The value of a digit: `0` to `9`, then `a` to `f` in either case. -/
def digitValue (c : Char) : Nat :=
  if c.isDigit then c.toNat - '0'.toNat
  else if 'a' ≤ c ∧ c ≤ 'f' then c.toNat - 'a'.toNat + 10
  else if 'A' ≤ c ∧ c ≤ 'F' then c.toNat - 'A'.toNat + 10
  else 16

/-- Whether `c` is a digit of base `base`, for a base up to sixteen. -/
def isDigitOf (base : Nat) (c : Char) : Bool := digitValue c < base

/-- The number that the digits `cs` denote in base `base`. -/
def ofDigits (base : Nat) (cs : List Char) : Nat :=
  cs.foldl (fun n c => base * n + digitValue c) 0

/-- A non-empty run of digits of base `base`, as a number. -/
def natural? (base : Nat) (cs : List Char) : Option Nat :=
  if cs ≠ [] ∧ cs.all (isDigitOf base) then some (ofDigits base cs) else none

/-- The decimal digits of `n`. -/
def digits (n : Nat) : List Char := Nat.toDigits 10 n

/-- The decimal digits of `n`, with zeros in front up to `width` digits. -/
def padded (width n : Nat) : List Char :=
  List.replicate (width - (digits n).length) '0' ++ digits n

/-- A minus sign where one is due, then the digits. -/
def signed (i : Int) : List Char :=
  if i < 0 then '-' :: digits i.natAbs else digits i.natAbs

theorem digits_ne_nil (n : Nat) : digits n ≠ [] := Nat.toDigits_ne_nil

theorem isDigit_of_mem_digits {n : Nat} {c : Char} (h : c ∈ digits n) : c.isDigit = true :=
  Nat.isDigit_of_mem_toDigits (by decide) (by decide) h

theorem digitValue_of_isDigit {c : Char} (h : c.isDigit = true) :
    digitValue c = c.toNat - '0'.toNat := by
  simp [digitValue, h]

theorem ofDigits_eq_ofDigitChars {cs : List Char} (h : ∀ c ∈ cs, c.isDigit = true) (n : Nat) :
    cs.foldl (fun n c => 10 * n + digitValue c) n = Nat.ofDigitChars 10 cs n := by
  induction cs generalizing n with
  | nil => rfl
  | cons c cs ih =>
    rw [List.foldl_cons, ih (fun d hd => h d (List.mem_cons_of_mem c hd)),
      digitValue_of_isDigit (h c List.mem_cons_self)]
    rfl

theorem ofDigits_digits (n : Nat) : ofDigits 10 (digits n) = n := by
  rw [ofDigits, ofDigits_eq_ofDigitChars (fun _ h => isDigit_of_mem_digits h)]
  exact Nat.ofDigitChars_ten_toDigits

end ApiAvailability.Text
