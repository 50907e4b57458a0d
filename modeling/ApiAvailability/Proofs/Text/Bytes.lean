import Mathlib.Data.String.Basic

/-!
# Proofs/Text/Bytes — texts are in the order of their bytes

UTF-8 keeps the order of characters: where two of them differ, so do their bytes, and the bytes of
the lesser one are less at the first place that differs, whatever comes behind them
(`utf8EncodeChar_append_lt`).  So the order of texts is the order of their bytes (`bytes_le_iff`).
-/

namespace ApiAvailability.Text

/-- **The bytes of a text.** -/
def bytes (s : String) : List UInt8 := s.toUTF8.data.toList

theorem bytes_eq (s : String) : bytes s = s.toList.flatMap String.utf8EncodeChar := by
  rw [bytes, String.toUTF8_eq_toByteArray, ← String.utf8Encode_toList, List.utf8Encode,
    List.toList_data_toByteArray]

/-- **The lesser character has the lesser bytes**, and what comes behind makes no difference. -/
theorem utf8EncodeChar_append_lt {a b : Char} (h : a < b) (s t : List UInt8) :
    String.utf8EncodeChar a ++ s < String.utf8EncodeChar b ++ t := by
  have hlt : a.val.toNat < b.val.toNat := h
  have hmax : b.val.toNat < 0x110000 := by
    rcases b.valid with hb | ⟨-, hb⟩
    · exact Nat.lt_trans hb (by decide)
    · exact hb
  unfold String.utf8EncodeChar
  dsimp only
  generalize a.val.toNat = m at *
  generalize b.val.toNat = n at *
  -- one to four bytes on either side: the first ones tell how many there are
  split_ifs <;>
    simp (disch := omega) only [List.cons_append, List.nil_append, List.cons_lt_cons_iff,
      UInt8.lt_iff_toNat_lt, ← UInt8.toNat_inj, UInt8.toNat_ofNat', Nat.mod_eq_of_lt] <;>
    omega

theorem flatMap_utf8EncodeChar_lt {s t : List Char} (h : s < t) :
    s.flatMap String.utf8EncodeChar < t.flatMap String.utf8EncodeChar := by
  induction s generalizing t with
  | nil =>
    cases t with
    | nil => exact absurd h (List.not_lt_nil _)
    | cons b t =>
      obtain ⟨byte, rest, hb⟩ := List.exists_cons_of_ne_nil (String.utf8EncodeChar_ne_nil (c := b))
      rw [List.flatMap_nil, List.flatMap_cons, hb, List.cons_append]
      exact List.nil_lt_cons byte _
  | cons a s ih =>
    cases t with
    | nil => exact absurd h (List.not_lt_nil _)
    | cons b t =>
      rw [List.flatMap_cons, List.flatMap_cons]
      rcases List.cons_lt_cons_iff.mp h with hab | ⟨rfl, hst⟩
      · exact utf8EncodeChar_append_lt hab _ _
      · exact List.append_left_lt (ih hst)

/-- **Texts are in the order of their bytes.** -/
theorem bytes_le_iff {s t : String} : bytes s ≤ bytes t ↔ s ≤ t := by
  rw [bytes_eq, bytes_eq, String.le_iff_toList_le]
  refine ⟨fun h => not_lt.mp fun hlt => h (flatMap_utf8EncodeChar_lt hlt), fun h => ?_⟩
  rcases lt_or_eq_of_le h with h | h
  · exact List.lt_asymm (flatMap_utf8EncodeChar_lt h)
  · rw [h]
    exact List.le_refl _

end ApiAvailability.Text
