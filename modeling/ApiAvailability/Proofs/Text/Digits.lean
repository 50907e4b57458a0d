import ApiAvailability.Text.Numeral
import Mathlib.Algebra.Group.Nat.Defs

/-!
# Proofs/Text/Digits — numbers that are written with zeros in front

The digits of `padded width n` tell `n` (`ofDigits_padded`), and there are `width` of them unless `n`
has more (`length_padded`).  A run of digits ends where something else begins
(`takeWhile_digits`, `dropWhile_digits`).
-/

namespace ApiAvailability.Text

variable {ds rest : List Char} {width n : Nat}

/-! ## The number of digits -/

/-- No zero stands in front of the digits of a number, unless it is the only digit. -/
theorem head?_digits_ne_zero (h : 10 ≤ n) : (digits n).head? ≠ some '0' := by
  induction n using Nat.strongRecOn with
  | ind n ih =>
    have hsplit : digits n = digits (n / 10) ++ [(n % 10).digitChar] :=
      Nat.toDigits_of_base_le (by decide) h
    have hhead : (digits n).head? = (digits (n / 10)).head? := by
      rw [hsplit, List.head?_append, List.head?_eq_some_head (digits_ne_nil (n / 10)),
        Option.some_or]
    rw [hhead]
    by_cases hten : 10 ≤ n / 10
    · exact ih (n / 10) (by omega) hten
    · rw [digits, Nat.toDigits_of_lt_base (by omega), List.head?_cons, ne_eq, Option.some.injEq,
        Nat.digitChar_eq_zero]
      omega

theorem length_digits_le_iff (h : 0 < width) : (digits n).length ≤ width ↔ n < 10 ^ width :=
  Nat.length_toDigits_le_iff (by decide) h

/-! ## Zeros in front -/

theorem isDigit_of_mem_padded {c : Char} (h : c ∈ padded width n) : c.isDigit = true := by
  rcases List.mem_append.mp h with hzero | hdigit
  · rw [List.eq_of_mem_replicate hzero]
    decide
  · exact isDigit_of_mem_digits hdigit

theorem padded_ne_nil : padded width n ≠ [] :=
  List.append_ne_nil_of_right_ne_nil _ (digits_ne_nil n)

/-- **There are as many digits as were asked for**, if the number has not more. -/
theorem length_padded (hwidth : 0 < width) (h : n < 10 ^ width) :
    (padded width n).length = width := by
  have hle := (length_digits_le_iff hwidth).mpr h
  rw [padded, List.length_append, List.length_replicate]
  omega

/-- Digits in front count as many times ten as there are digits behind them. -/
theorem ofDigits_append (h : ∀ c ∈ ds ++ rest, c.isDigit = true) :
    ofDigits 10 (ds ++ rest) = 10 ^ rest.length * ofDigits 10 ds + ofDigits 10 rest := by
  have hfront (c : Char) (hc : c ∈ ds) := h c (List.mem_append_left rest hc)
  have hback (c : Char) (hc : c ∈ rest) := h c (List.mem_append_right ds hc)
  unfold ofDigits
  rw [ofDigits_eq_ofDigitChars h, ofDigits_eq_ofDigitChars hfront, ofDigits_eq_ofDigitChars hback,
    Nat.ofDigitChars_append, Nat.ofDigitChars_eq_ofDigitChars_zero]

/-- Zeros in front tell nothing. -/
theorem ofDigits_zeros (k : Nat) : ofDigits 10 (List.replicate k '0') = 0 := by
  have hzeros : ∀ c ∈ List.replicate k '0', c.isDigit = true := by
    intro c hc
    rw [List.eq_of_mem_replicate hc]
    decide
  rw [ofDigits, ofDigits_eq_ofDigitChars hzeros, Nat.ofDigitChars_replicate_zero, Nat.mul_zero]

/-- **The digits tell the number**, with zeros in front as well. -/
theorem ofDigits_padded (width n : Nat) : ofDigits 10 (padded width n) = n := by
  have h : ∀ c ∈ padded width n, c.isDigit = true := fun _ => isDigit_of_mem_padded
  rw [padded] at h ⊢
  rw [ofDigits_append h, ofDigits_zeros, Nat.mul_zero, Nat.zero_add, ofDigits_digits]

/-! ## Where digits end -/

/-- **Something that is no digit comes next**, or nothing. -/
def NoDigitNext (rest : List Char) : Prop := ∀ c ∈ rest.head?, c.isDigit = false

/-- A number ends where its digits do. -/
theorem takeWhile_digits (hds : ∀ c ∈ ds, c.isDigit = true) (hrest : NoDigitNext rest) :
    (ds ++ rest).takeWhile Char.isDigit = ds := by
  rw [List.takeWhile_append_of_pos hds]
  cases rest with
  | nil => exact List.append_nil ds
  | cons c rest =>
    rw [List.takeWhile_cons_of_neg (by simp [hrest c rfl]), List.append_nil]

theorem dropWhile_digits (hds : ∀ c ∈ ds, c.isDigit = true) (hrest : NoDigitNext rest) :
    (ds ++ rest).dropWhile Char.isDigit = rest := by
  rw [List.dropWhile_append_of_pos hds]
  cases rest with
  | nil => rfl
  | cons c rest => rw [List.dropWhile_cons_of_neg (by simp [hrest c rfl])]

end ApiAvailability.Text
