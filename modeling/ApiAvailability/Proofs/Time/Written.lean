import ApiAvailability.Proofs.Text.Digits
import ApiAvailability.Proofs.Time.Calendar
import ApiAvailability.Time.Reader
import ApiAvailability.Time.Timestamp
import Mathlib.Data.List.TakeWhile

/-!
# Proofs/Time/Written — timestamps read back as they were written

Each reader takes from the front of a text what was written there, and leaves the rest.  So every
timestamp that can be told reads back from its text: leap seconds, any fraction of a second, and
years with a sign (`Timestamp.ofText?_toText`).
-/

namespace ApiAvailability.Time

open ApiAvailability.Text

variable {rest : List Char} {width n : Nat}

/-! ## Numbers -/

/-- A number in a field is read up to the end of the field. -/
theorem readNumber_padded (hwidth : 0 < width) (h : n < 10 ^ width) (rest : List Char) :
    readNumber width (padded width n ++ rest) = some (n, rest) := by
  have hall : (padded width n).takeWhile Char.isDigit = padded width n :=
    List.takeWhile_eq_self_iff.mpr fun _ => isDigit_of_mem_padded
  rw [readNumber, List.take_left' (length_padded hwidth h), hall]
  rw [if_neg padded_ne_nil, ofDigits_padded, List.drop_left]

/-- A number is read up to the end of its digits. -/
theorem readDigits_padded (width n : Nat) (hrest : NoDigitNext rest) :
    readDigits (padded width n ++ rest) = some (n, rest) := by
  rw [readDigits, readNumber, List.take_length,
    takeWhile_digits (fun _ => isDigit_of_mem_padded) hrest]
  rw [if_neg padded_ne_nil, ofDigits_padded, List.drop_left]

theorem not_blankChar_of_isDigit {c : Char} (h : c.isDigit = true) : blankChar c = false := by
  simp only [Char.isDigit, Bool.and_eq_true, decide_eq_true_eq] at h
  have h₁ : 48 ≤ c.toNat := UInt32.le_iff_toNat_le.mp h.1
  have h₂ : c.toNat ≤ 57 := UInt32.le_iff_toNat_le.mp h.2
  simp only [blankChar, Bool.or_eq_false_iff, Bool.and_eq_false_iff, decide_eq_false_iff_not,
    beq_eq_false_iff_ne]
  omega

/-- Nothing is dropped in front of a number. -/
theorem trimStart_padded (width n : Nat) (rest : List Char) :
    trimStart (padded width n ++ rest) = padded width n ++ rest := by
  obtain ⟨c, cs, hcs⟩ := List.exists_cons_of_ne_nil (@padded_ne_nil width n)
  have hc : c.isDigit = true := isDigit_of_mem_padded (hcs ▸ List.mem_cons_self)
  rw [hcs, List.cons_append, trimStart,
    List.dropWhile_cons_of_neg (by simp [not_blankChar_of_isDigit hc])]

theorem readTwo_padded (h : n < 100) (rest : List Char) :
    readTwo (padded 2 n ++ rest) = some (n, rest) := by
  rw [readTwo, trimStart_padded, readNumber_padded (by decide) h]

/-- Two digits are read behind their mark. -/
theorem readAfter_padded {mark : Char} (hmark : blankChar mark = false) (h : n < 100)
    (rest : List Char) : readAfter mark (mark :: (padded 2 n ++ rest)) = some (n, rest) := by
  rw [readAfter, trimStart, List.dropWhile_cons_of_neg (by simp [hmark])]
  dsimp only
  rw [if_pos rfl, readTwo_padded h]

/-! ## Dates -/

theorem readYear_padded {year : Nat} (h : year < 10 ^ 4) (rest : List Char) :
    readYear (padded 4 year ++ rest) = some ((year : Int), rest) := by
  obtain ⟨c, cs, hcs⟩ := List.exists_cons_of_ne_nil (@padded_ne_nil 4 year)
  have hc : c.isDigit = true := isDigit_of_mem_padded (hcs ▸ List.mem_cons_self)
  have hnumber := readNumber_padded (by decide) h rest
  rw [readYear, trimStart_padded]
  rw [hcs, List.cons_append] at hnumber ⊢
  split
  · rename_i hminus
    obtain ⟨rfl, -⟩ := List.cons.inj hminus
    contradiction
  · rename_i hplus
    obtain ⟨rfl, -⟩ := List.cons.inj hplus
    contradiction
  · rw [hnumber]
    rfl

/-- A year is read back, be it one of four digits or one with a sign. -/
theorem readYear_render (year : Int) (hrest : NoDigitNext rest) :
    readYear (renderYear year ++ rest) = some (year, rest) := by
  have hdigits := readDigits_padded 4 year.natAbs hrest
  rw [renderYear]
  split
  · rw [readYear_padded (by omega)]
    have hyear : (year.natAbs : Int) = year := by omega
    rw [hyear]
  split
  · have hyear : -(year.natAbs : Int) = year := by omega
    have hsign (cs : List Char) :
        readYear ('-' :: cs) = (readDigits cs).map fun read => (-(read.1 : Int), read.2) := rfl
    rw [List.cons_append, hsign, hdigits, Option.map_some]
    exact congrArg (fun y => some (y, rest)) hyear
  · have hyear : (year.natAbs : Int) = year := by omega
    have hsign (cs : List Char) :
        readYear ('+' :: cs) = (readDigits cs).map fun read => ((read.1 : Int), read.2) := rfl
    rw [List.cons_append, hsign, hdigits, Option.map_some]
    exact congrArg (fun y => some (y, rest)) hyear

/-- **A date reads back.** -/
theorem readDate_render {d : Date} (h : d.isReal = true) (rest : List Char) :
    readDate (renderYear d.year ++ '-' :: (padded 2 d.month ++ '-' :: (padded 2 d.day ++ rest))) =
      some (d, rest) := by
  have hsmall : d.month < 100 ∧ d.day < 100 := by
    simp only [Date.isReal, Bool.and_eq_true, decide_eq_true_eq] at h
    have hdays : Date.daysInMonth d.year d.month ≤ 31 := by
      unfold Date.daysInMonth
      split
      · split <;> omega
      · split <;> omega
    omega
  have hdash : NoDigitNext ('-' :: (padded 2 d.month ++ '-' :: (padded 2 d.day ++ rest))) := by
    rintro c hc
    obtain rfl := Option.some.inj hc
    decide
  rw [readDate, readYear_render d.year hdash]
  simp only [bind, Option.bind, readAfter_padded (by decide : blankChar '-' = false) hsmall.1,
    readAfter_padded (by decide : blankChar '-' = false) hsmall.2]
  exact if_pos h

/-! ## Times of day -/

/-- The digits of a fraction, filled up with zeros to nine, are its nanoseconds. -/
theorem readFraction_padded (hwidth : 0 < width) (hnine : width ≤ 9) (h : n < 10 ^ width)
    (hrest : NoDigitNext rest) :
    readFraction ('.' :: (padded width n ++ rest)) = some (n * 10 ^ (9 - width), rest) := by
  have hall : ∀ c ∈ padded width n ++ List.replicate (9 - width) '0', c.isDigit = true := by
    intro c hc
    rcases List.mem_append.mp hc with hdigit | hzero
    · exact isDigit_of_mem_padded hdigit
    · rw [List.eq_of_mem_replicate hzero]
      decide
  have htake : (padded width n ++ List.replicate 9 '0').take 9 =
      padded width n ++ List.replicate (9 - width) '0' := by
    rw [List.take_append, length_padded hwidth h, List.take_of_length_le, List.take_replicate]
    · congr 2
      omega
    · rw [length_padded hwidth h]
      exact hnine
  rw [readFraction, takeWhile_digits (fun _ => isDigit_of_mem_padded) hrest]
  rw [if_neg padded_ne_nil, htake, ofDigits_append hall, ofDigits_padded, ofDigits_zeros,
    List.length_replicate, Nat.add_zero, Nat.mul_comm, List.drop_left]

/-- A fraction of a second is read back, or that there is none. -/
theorem readFraction_render {nanos : Nat} (h : nanos < nanosPerSecond) (rest : List Char) :
    readFraction (renderFraction nanos ++ 'Z' :: rest) = some (nanos, 'Z' :: rest) := by
  rw [nanosPerSecond] at h
  have hzone : NoDigitNext ('Z' :: rest) := by
    rintro c hc
    obtain rfl := Option.some.inj hc
    decide
  rw [renderFraction]
  split
  · rename_i hzero
    rw [hzero]
    rfl
  split
  · rw [List.cons_append, readFraction_padded (by decide) (by decide) (by omega) hzone]
    congr 2
    omega
  split
  · rw [List.cons_append, readFraction_padded (by decide) (by decide) (by omega) hzone]
    congr 2
    omega
  · rw [List.cons_append, readFraction_padded (by decide) (by decide) (by omega) hzone]
    congr 2
    omega

/-- **A time of day reads back**, also within a leap second. -/
theorem readTime_render (t : Timestamp) (rest : List Char) :
    let leap := nanosPerSecond ≤ t.nanos
    readTime (padded 2 (t.second / 3600) ++ ':' :: (padded 2 (t.second / 60 % 60) ++
      ':' :: (padded 2 (t.second % 60 + if leap then 1 else 0) ++
        (renderFraction (t.nanos - if leap then nanosPerSecond else 0) ++ 'Z' :: rest)))) =
      some ((t.second, t.nanos), 'Z' :: rest) := by
  intro leap
  have hsecond := t.second_lt
  have hnanos := t.nanos_lt
  have hsecond' : t.second % 60 + (if leap then 1 else 0) < 100 := by
    split <;> omega
  have hnanos' : t.nanos - (if leap then nanosPerSecond else 0) < nanosPerSecond := by
    split <;> omega
  rw [readTime, readTwo_padded (by omega)]
  simp only [bind, Option.bind, readAfter_padded (by decide : blankChar ':' = false)
    (by omega : t.second / 60 % 60 < 100),
    readAfter_padded (by decide : blankChar ':' = false) hsecond', readFraction_render hnanos']
  have hclock : t.second / 3600 < 24 ∧ t.second / 60 % 60 < 60 ∧
      t.second % 60 + (if leap then 1 else 0) ≤ 60 := by
    split <;> omega
  rw [if_pos hclock]
  by_cases hleap : leap
  · -- a leap second is the sixtieth of a minute whose last second is the fifty-ninth
    have hlast : t.second % 60 = 59 := by omega
    have hstart : t.second / 3600 * 3600 + t.second / 60 % 60 * 60 + 59 = t.second := by omega
    have hrest : t.nanos - nanosPerSecond + nanosPerSecond = t.nanos := by omega
    rw [if_pos hleap, if_pos hleap, if_pos (by omega), hstart, hrest]
  · have hstart : t.second / 3600 * 3600 + t.second / 60 % 60 * 60 + t.second % 60 = t.second := by
      omega
    rw [if_neg hleap, if_neg hleap, if_neg (by omega), Nat.add_zero, Nat.sub_zero, hstart]

namespace Timestamp

/-- **Every timestamp reads back from its text.** -/
theorem ofText?_toText (t : Timestamp) : ofText? t.toText = some t := by
  have htime := readTime_render t []
  have hdate := readDate_render (Date.isReal_ofDays t.day)
  have hlocal : ofLocal? (Date.ofDays t.day) t.second t.nanos 0 = some t := by
    have hsecond := t.second_lt
    have hday : t.day + ((t.second : Int) - 0) / 86400 = t.day := by omega
    have hclock : (((t.second : Int) - 0) % 86400).toNat = t.second := by omega
    rw [ofLocal?, Date.toDays_ofDays, if_pos t.day_mem, hday, hclock, ofParts?_self]
  have hzone : readZone (trimStart ['Z']) = some (0, []) := rfl
  rw [ofText?, toText, String.toList_ofList, render]
  simp only [List.append_assoc, List.cons_append, hdate, bind, Option.bind, skipSeparator, htime,
    hzone]
  exact hlocal

end Timestamp

end ApiAvailability.Time
