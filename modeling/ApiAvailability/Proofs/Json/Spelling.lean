import ApiAvailability.Json.Reader
import ApiAvailability.Proofs.Json.Lexemes

/-!
# Proofs/Json/Spelling — a value is read back from its lexemes, and so from its text

Wherever a value may begin, its lexemes lead the reader to the place behind it, with the value
handed to the innermost unfinished one (`Reading.isRead_of_exact`).  With the lexemes of its text an
exact value is read back from what is printed for it (`Value.ofText?_toText`).
-/

namespace ApiAvailability.Json

open Value

namespace Reading

variable {ts : List Token} {frames : List Frame}

/-- A lexeme leads the reader on. -/
theorem run_of_step {r r' : Reading} {t : Token} (h : r.step t = some r') (ts : List Token) :
    r.run (t :: ts) = r'.run ts := by
  rw [run_cons, h, Option.bind_some]

/-- **A value is read** where it is due: its lexemes lead to the place behind it. -/
def IsRead (v : Value) : Prop :=
  ∀ frames ts, run ⟨.value, frames⟩ (v.tokens ++ ts) = (deliver v frames).bind (run · ts)

/-- Where the first item of an array or its end is due, a value may begin as well. -/
theorem run_firstItem {v : Value} (h : IsRead v) (frames : List Frame) (ts : List Token) :
    run ⟨.firstItem, frames⟩ (v.tokens ++ ts) = (deliver v frames).bind (run · ts) := by
  rw [← h frames ts]
  obtain ⟨t, us, htokens, hclose⟩ : ∃ t us, v.tokens = t :: us ∧ t ≠ .closeArray := by
    rcases v with _ | _ | _ | _ | _ | (_ | _) | (_ | _) <;> exact ⟨_, _, rfl, nofun⟩
  have hstep : step ⟨.firstItem, frames⟩ t = step ⟨.value, frames⟩ t := by
    cases t <;> first | rfl | contradiction
  rw [htokens, List.cons_append, run_cons, run_cons, hstep]

theorem run_itemTokens {vs : List Value} (h : ∀ v ∈ vs, IsRead v) (items : List Value)
    (frames : List Frame) (ts : List Token) :
    run ⟨.next, .array items :: frames⟩ (itemTokens vs ++ ts) =
      run ⟨.next, .array (vs.reverse ++ items) :: frames⟩ ts := by
  induction vs generalizing items with
  | nil => rfl
  | cons v vs ih =>
    have hcomma : step ⟨.next, .array items :: frames⟩ .comma =
      some ⟨.value, .array items :: frames⟩ := rfl
    rw [itemTokens, List.cons_append, List.append_assoc, run_of_step hcomma,
      h v List.mem_cons_self, deliver, Option.bind_some, ih fun u hu => h u (List.mem_cons_of_mem v hu),
      List.reverse_cons, List.append_assoc, List.singleton_append]

/-- A member's name, its colon and its value. -/
theorem run_member {v : Value} (h : IsRead v) {phase : Phase}
    (hphase : phase = .firstMember ∨ phase = .name) (name : Text) (members : List (Text × Value))
    (frames : List Frame) (ts : List Token) :
    run ⟨phase, .object members :: frames⟩ (.text name :: .colon :: (v.tokens ++ ts)) =
      run ⟨.next, .object ((name, v) :: members) :: frames⟩ ts := by
  have hname : step ⟨phase, .object members :: frames⟩ (.text name) =
      some ⟨.colon, .member name :: .object members :: frames⟩ := by
    rcases hphase with rfl | rfl <;> rfl
  have hcolon : step ⟨.colon, .member name :: .object members :: frames⟩ .colon =
      some ⟨.value, .member name :: .object members :: frames⟩ := rfl
  rw [run_of_step hname, run_of_step hcolon, h, deliver, Option.bind_some]

theorem run_memberTokens {ms : List (Text × Value)} (h : ∀ m ∈ ms, IsRead m.2)
    (members : List (Text × Value)) (frames : List Frame) (ts : List Token) :
    run ⟨.next, .object members :: frames⟩ (memberTokens ms ++ ts) =
      run ⟨.next, .object (ms.reverse ++ members) :: frames⟩ ts := by
  induction ms generalizing members with
  | nil => rfl
  | cons m ms ih =>
    have hcomma : step ⟨.next, .object members :: frames⟩ .comma =
      some ⟨.name, .object members :: frames⟩ := rfl
    rw [memberTokens]
    simp only [List.cons_append, List.append_assoc]
    rw [run_of_step hcomma, run_member (h m List.mem_cons_self) (.inr rfl),
      ih fun n hn => h n (List.mem_cons_of_mem m hn), List.reverse_cons, List.append_assoc,
      List.singleton_append]

/-- **Exact values are read from their lexemes.** -/
theorem isRead_of_exact {v : Value} (h : v.Exact) : IsRead v := by
  induction h with
  | null => exact fun frames ts => rfl
  | bool b => exact fun frames ts => rfl
  | integer i => exact fun frames ts => rfl
  | text t => exact fun frames ts => rfl
  | @array vs h ih =>
    intro frames ts
    cases vs with
    | nil => rfl
    | cons v vs =>
      have hopen : step ⟨.value, frames⟩ .openArray =
        some ⟨.firstItem, .array [] :: frames⟩ := rfl
      have hclose : step ⟨.next, .array (vs.reverse ++ [v]) :: frames⟩ .closeArray =
          deliver (.array (v :: vs)) frames := by
        have hend : step ⟨.next, .array (vs.reverse ++ [v]) :: frames⟩ .closeArray =
          deliver (.array (vs.reverse ++ [v]).reverse) frames := rfl
        rw [hend, List.reverse_append, List.reverse_reverse, List.reverse_singleton,
          List.singleton_append]
      rw [tokens]
      simp only [List.cons_append, List.append_assoc, List.nil_append]
      rw [run_of_step hopen, run_firstItem (ih v List.mem_cons_self), deliver, Option.bind_some,
        run_itemTokens fun u hu => ih u (List.mem_cons_of_mem v hu), run_cons, hclose]
  | @object ms h ih =>
    intro frames ts
    cases ms with
    | nil => rfl
    | cons m ms =>
      have hopen : step ⟨.value, frames⟩ .openObject =
        some ⟨.firstMember, .object [] :: frames⟩ := rfl
      have hclose : step ⟨.next, .object (ms.reverse ++ [m]) :: frames⟩ .closeObject =
          deliver (.object (m :: ms)) frames := by
        have hend : step ⟨.next, .object (ms.reverse ++ [m]) :: frames⟩ .closeObject =
          deliver (.object (ms.reverse ++ [m]).reverse) frames := rfl
        rw [hend, List.reverse_append, List.reverse_reverse, List.reverse_singleton,
          List.singleton_append]
      rw [tokens]
      simp only [List.cons_append, List.append_assoc, List.nil_append]
      rw [run_of_step hopen, run_member (ih m List.mem_cons_self) (.inl rfl),
        run_memberTokens fun n hn => ih n (List.mem_cons_of_mem m hn), run_cons, hclose]

end Reading

namespace Value

/-- **An exact value is read back from its text.** -/
theorem ofText?_toText {v : Value} (h : v.Exact) : ofText? v.toText = some v := by
  have hread := Reading.isRead_of_exact h [] []
  rw [List.append_nil] at hread
  rw [ofText?, toText, String.toList_ofList, Token.scan?_render h, Option.bind_some, ofTokens?,
    Reading.start, hread]
  rfl

/-- And so it is from the bytes of its text. -/
theorem ofBytes?_toText {v : Value} (h : v.Exact) : ofBytes? v.toText.toUTF8 = some v := by
  rw [ofBytes?_toUTF8, ofText?_toText h]

end Value

end ApiAvailability.Json
