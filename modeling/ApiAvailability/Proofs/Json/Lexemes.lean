import ApiAvailability.Json.Printer
import ApiAvailability.Json.Token
import ApiAvailability.Proofs.Text.Digits

/-!
# Proofs/Json/Lexemes — the text of a value is made of the value's lexemes

`Value.tokens` are the lexemes that spell a value.  Scanning the text that is printed for the value
finds just these, whatever follows it (`Scan.isSpelt_of_exact`), provided that no number in it has a
fraction or an exponent (`Value.Exact`): the text of such a number is kept as somebody wrote it.

The machine that scans ends a word or a number only when something else begins, so each step says
which lexemes come out in the end (`Scan.lexemes?`), not in which state the machine is.
-/

namespace ApiAvailability.Json

/-! ## The lexemes of a value -/

namespace Value

mutual

/-- **The lexemes that spell a value.** -/
def tokens : Value → List Token
  | null => [.null]
  | bool b => [.bool b]
  | integer i => [.integer i]
  | real w => [.real w]
  | text t => [.text t]
  | array [] => [.openArray, .closeArray]
  | array (v :: vs) => .openArray :: (tokens v ++ (itemTokens vs ++ [.closeArray]))
  | object [] => [.openObject, .closeObject]
  | object ((name, v) :: ms) =>
    .openObject :: .text name :: .colon :: (tokens v ++ (memberTokens ms ++ [.closeObject]))

/-- The lexemes of the items after the first. -/
def itemTokens : List Value → List Token
  | [] => []
  | v :: vs => .comma :: (tokens v ++ itemTokens vs)

/-- The lexemes of the members after the first. -/
def memberTokens : List (Text × Value) → List Token
  | [] => []
  | (name, v) :: ms => .comma :: .text name :: .colon :: (tokens v ++ memberTokens ms)

end

/-- **A value is exact** if no number in it is written with a fraction or an exponent. -/
inductive Exact : Value → Prop
  | null : Exact .null
  | bool (b : Bool) : Exact (.bool b)
  | integer (i : Int) : Exact (.integer i)
  | text (t : Text) : Exact (.text t)
  | array {vs : List Value} (h : ∀ v ∈ vs, Exact v) : Exact (.array vs)
  | object {ms : List (Text × Value)} (h : ∀ m ∈ ms, Exact m.2) : Exact (.object ms)

end Value

namespace Scan

variable {found : List Token} {seen : List Point} {rest : List Char} {c : Char} {t : Token}

/-- **The lexemes that come out in the end**, if a text follows. -/
def lexemes? (s : Scan) (cs : List Char) : Option (List Token) := (s.run cs).bind finish?

theorem lexemes?_nil (s : Scan) : s.lexemes? [] = s.finish? := rfl

/-- Characters are scanned one by one. -/
theorem lexemes?_cons (s : Scan) (c : Char) (cs : List Char) :
    s.lexemes? (c :: cs) = (s.step c).bind (lexemes? · cs) := by
  rw [lexemes?, run_cons, Option.bind_assoc]
  rfl

theorem lexemes?_of_step {s s' : Scan} (h : s.step c = some s') (cs : List Char) :
    s.lexemes? (c :: cs) = s'.lexemes? cs := by
  rw [lexemes?_cons, h, Option.bind_some]

/-! ## Blanks and marks -/

/-- A blank between lexemes is skipped. -/
theorem lexemes?_blank (h : isBlank c = true) (cs : List Char) :
    lexemes? ⟨.between, found⟩ (c :: cs) = lexemes? ⟨.between, found⟩ cs := by
  have hstep : step ⟨.between, found⟩ c = some ⟨.between, found⟩ := if_pos h
  exact lexemes?_of_step hstep cs

/-- A new line with its indent is skipped. -/
theorem lexemes?_newline (depth : Nat) (cs : List Char) :
    lexemes? ⟨.between, found⟩ (newline depth ++ cs) = lexemes? ⟨.between, found⟩ cs := by
  rw [newline, List.cons_append, lexemes?_blank rfl]
  induction 2 * depth with
  | zero => rfl
  | succ n ih => rw [List.replicate_succ, List.cons_append, lexemes?_blank rfl, ih]

/-- A mark between lexemes is a lexeme. -/
theorem lexemes?_mark (h : Token.ofMark? c = some t) (cs : List Char) :
    lexemes? ⟨.between, found⟩ (c :: cs) = lexemes? ⟨.between, t :: found⟩ cs := by
  have hstep : step ⟨.between, found⟩ c = some ⟨.between, t :: found⟩ := by
    unfold Token.ofMark? at h
    split at h
    · obtain rfl := Option.some.inj h; rfl
    · obtain rfl := Option.some.inj h; rfl
    · obtain rfl := Option.some.inj h; rfl
    · obtain rfl := Option.some.inj h; rfl
    · obtain rfl := Option.some.inj h; rfl
    · obtain rfl := Option.some.inj h; rfl
    · contradiction
  exact lexemes?_of_step hstep cs

/-! ## Texts -/

theorem isDigitOf_hexDigit : ∀ n < 16, Text.isDigitOf 16 (hexDigit n) = true := by decide

theorem digitValue_hexDigit : ∀ n < 16, Text.digitValue (hexDigit n) = n := by decide

/-- A control character is read from the number of its code unit. -/
theorem lexemes?_codeUnit (h : c.toNat < 0x20) (cs : List Char) :
    lexemes? ⟨.quoted seen, found⟩
        ('\\' :: 'u' :: '0' :: '0' :: hexDigit (c.toNat / 16) :: hexDigit (c.toNat % 16) :: cs) =
      lexemes? ⟨.quoted (.scalar c :: seen), found⟩ cs := by
  have hhigh : c.toNat / 16 < 16 := by omega
  have hlow : c.toNat % 16 < 16 := by omega
  have hvalue : Text.ofDigits 16 ['0', '0', hexDigit (c.toNat / 16), hexDigit (c.toNat % 16)] =
      c.toNat := by
    have hzero : Text.digitValue '0' = 0 := rfl
    simp only [Text.ofDigits, List.foldl_cons, List.foldl_nil, hzero, digitValue_hexDigit _ hhigh,
      digitValue_hexDigit _ hlow]
    omega
  have hpoint : Point.ofCodeUnit c.toNat = .scalar c := by
    rw [Point.ofCodeUnit, if_neg (by omega), Char.ofNat_toNat]
  have hzeros (ds : List Char) : lexemes? ⟨.quoted seen, found⟩ ('\\' :: 'u' :: '0' :: '0' :: ds) =
      lexemes? ⟨.codeUnit seen ['0', '0'], found⟩ ds := rfl
  have hthird : step ⟨.codeUnit seen ['0', '0'], found⟩ (hexDigit (c.toNat / 16)) =
      some ⟨.codeUnit seen ['0', '0', hexDigit (c.toNat / 16)], found⟩ :=
    if_pos (isDigitOf_hexDigit _ hhigh)
  have hfourth : step ⟨.codeUnit seen ['0', '0', hexDigit (c.toNat / 16)], found⟩
      (hexDigit (c.toNat % 16)) = some ⟨.quoted (.scalar c :: seen), found⟩ := by
    rw [step]
    simp only
    rw [if_pos (isDigitOf_hexDigit _ hlow), if_neg (by simp), List.cons_append, List.cons_append,
      List.cons_append, List.nil_append, hvalue, hpoint]
  rw [hzeros, lexemes?_of_step hthird, lexemes?_of_step hfourth]

/-- What is written for a character inside a literal is read as that character. -/
theorem lexemes?_escape (c : Char) (cs : List Char) :
    lexemes? ⟨.quoted seen, found⟩ (escape c ++ cs) =
      lexemes? ⟨.quoted (.scalar c :: seen), found⟩ cs := by
  unfold escape
  -- seven characters have an escape of one letter
  iterate 7
    split
    · rename_i h
      subst h
      rfl
  split
  · exact lexemes?_codeUnit ‹_› cs
  · rename_i hquote hbackslash _ _ _ _ _ hcontrol
    have hstep : step ⟨.quoted seen, found⟩ c = some ⟨.quoted (.scalar c :: seen), found⟩ := by
      rw [step]
      simp only
      rw [if_neg hquote, if_neg hbackslash, if_neg hcontrol]
    exact lexemes?_of_step hstep cs

/-- **A literal is read as the text that it was written for.** -/
theorem lexemes?_quote (t : Text) (cs : List Char) :
    lexemes? ⟨.between, found⟩ (quote t ++ cs) = lexemes? ⟨.between, .text t :: found⟩ cs := by
  cases t with
  | none => rfl
  | some s =>
    have hopen (ds : List Char) : lexemes? ⟨.between, found⟩ ('"' :: ds) =
        lexemes? ⟨.quoted [], found⟩ ds := rfl
    have hbody (chars : List Char) (seen : List Point) (ds : List Char) :
        lexemes? ⟨.quoted seen, found⟩ (chars.flatMap escape ++ ds) =
          lexemes? ⟨.quoted ((chars.map .scalar).reverse ++ seen), found⟩ ds := by
      induction chars generalizing seen with
      | nil => rfl
      | cons c chars ih =>
        rw [List.flatMap_cons, List.append_assoc, lexemes?_escape, ih]
        simp
    have hclose (ps : List Point) (ds : List Char) :
        lexemes? ⟨.quoted ps, found⟩ ('"' :: ds) =
          lexemes? ⟨.between, .text ((Point.chars? ps.reverse).map String.ofList) :: found⟩ ds := rfl
    rw [quote]
    simp only [List.cons_append, List.append_assoc, List.nil_append]
    rw [hopen, hbody, hclose, List.append_nil, List.reverse_reverse, Point.chars?_map_scalar,
      Option.map_some, String.ofList_toList]

/-! ## Words and numbers -/

/-- **Something else begins**, or nothing comes next: neither a word nor a number goes on. -/
def Apart (rest : List Char) : Prop :=
  ∀ c ∈ rest.head?, isNumeric c = false ∧ c.isLower = false

theorem apart_cons (h : isNumeric c = false ∧ c.isLower = false) (cs : List Char) :
    Apart (c :: cs) := by
  intro d hd
  exact Option.some.inj hd ▸ h

/-- Where a word ends, its lexeme is there. -/
theorem lexemes?_word {word : List Char} (hword : Token.ofWord? word.reverse = some t)
    (hrest : Apart rest) :
    lexemes? ⟨.word word, found⟩ rest = lexemes? ⟨.between, t :: found⟩ rest := by
  cases rest with
  | nil => simp [lexemes?_nil, finish?, hword]
  | cons c cs =>
    have hc := (hrest c rfl).2
    have hstep : step ⟨.word word, found⟩ c = step ⟨.between, t :: found⟩ c := by
      simp [step, hc, hword]
    rw [lexemes?_cons, lexemes?_cons, hstep]

/-- Where a number ends, its lexeme is there. -/
theorem lexemes?_number {number : List Char} (hnumber : Token.ofNumber? number.reverse = some t)
    (hrest : Apart rest) :
    lexemes? ⟨.number number, found⟩ rest = lexemes? ⟨.between, t :: found⟩ rest := by
  cases rest with
  | nil => simp [lexemes?_nil, finish?, hnumber]
  | cons c cs =>
    have hc := (hrest c rfl).1
    have hstep : step ⟨.number number, found⟩ c = step ⟨.between, t :: found⟩ c := by
      simp [step, hc, hnumber]
    rw [lexemes?_cons, lexemes?_cons, hstep]

/-- Digits of a number are gathered. -/
theorem lexemes?_digits {ds : List Char} (hds : ∀ c ∈ ds, c.isDigit = true) (number : List Char) :
    lexemes? ⟨.number number, found⟩ (ds ++ rest) =
      lexemes? ⟨.number (ds.reverse ++ number), found⟩ rest := by
  induction ds generalizing number with
  | nil => rfl
  | cons d ds ih =>
    have hd : isNumeric d = true := by simp [isNumeric, hds d List.mem_cons_self]
    have hstep : step ⟨.number number, found⟩ d = some ⟨.number (d :: number), found⟩ := if_pos hd
    rw [List.cons_append, lexemes?_of_step hstep, ih fun c hc => hds c (List.mem_cons_of_mem d hc)]
    simp

end Scan

namespace Token

/-- Digits without a zero in front are a whole number, with a minus sign only if it is not zero. -/
theorem ofUnsigned?_digits {negative : Bool} {n : Nat} (h : negative = true → n ≠ 0) :
    ofUnsigned? negative (Text.digits n) =
      some (.integer (if negative then -(n : Int) else n)) := by
  have hdigits : ∀ c ∈ Text.digits n, c.isDigit = true := fun _ => Text.isDigit_of_mem_digits
  have hwhole : (Text.digits n).takeWhile Char.isDigit = Text.digits n := by
    simpa using Text.takeWhile_digits hdigits (fun c hc => nomatch hc : Text.NoDigitNext [])
  have htail : (Text.digits n).dropWhile Char.isDigit = [] := by
    simpa using Text.dropWhile_digits hdigits (fun c hc => nomatch hc : Text.NoDigitNext [])
  have hvalid : ¬ (Text.digits n = [] ∨
      ((Text.digits n).length ≠ 1 ∧ (Text.digits n).head? = some '0')) := by
    rintro (hnil | ⟨hlength, hzero⟩)
    · exact Text.digits_ne_nil n hnil
    · by_cases hten : 10 ≤ n
      · exact Text.head?_digits_ne_zero hten hzero
      · exact hlength (by rw [Text.digits, Nat.toDigits_of_lt_base (by omega)]; rfl)
  rw [ofUnsigned?]
  simp only [hwhole, htail, if_neg hvalid, if_true, Text.ofDigits_digits]
  cases negative with
  | false => rfl
  | true => simp [h rfl]

/-- **A whole number is the lexeme of its own text.** -/
theorem ofNumber?_signed (i : Int) : ofNumber? (Text.signed i) = some (.integer i) := by
  rw [Text.signed]
  split
  · have hunsigned := @ofUnsigned?_digits true i.natAbs fun _ => by omega
    have hi : -(i.natAbs : Int) = i := by omega
    rw [ofNumber?, hunsigned, if_pos rfl, hi]
  · have hunsigned := @ofUnsigned?_digits false i.natAbs nofun
    have hi : (i.natAbs : Int) = i := by omega
    rw [ofNumber?.eq_2, hunsigned, if_neg Bool.false_ne_true, hi]
    intro cs hcs
    have hminus : '-' ∈ Text.digits i.natAbs := hcs ▸ List.mem_cons_self
    exact absurd (Text.isDigit_of_mem_digits hminus) (by decide)

end Token

namespace Scan

variable {found : List Token} {rest : List Char}

/-- **A whole number is read as it was written.** -/
theorem lexemes?_signed (i : Int) (hrest : Apart rest) :
    lexemes? ⟨.between, found⟩ (Text.signed i ++ rest) =
      lexemes? ⟨.between, .integer i :: found⟩ rest := by
  -- the first character begins the number, all others are digits
  obtain ⟨c, ds, hsigned, hbegin, hds⟩ : ∃ c ds, Text.signed i = c :: ds ∧
      step ⟨.between, found⟩ c = some ⟨.number [c], found⟩ ∧ ∀ d ∈ ds, d.isDigit = true := by
    rw [Text.signed]
    split
    · exact ⟨_, _, rfl, rfl, fun _ => Text.isDigit_of_mem_digits⟩
    · obtain ⟨c, ds, hcs⟩ := List.exists_cons_of_ne_nil (Text.digits_ne_nil i.natAbs)
      have hdigits : ∀ d ∈ c :: ds, d.isDigit = true := fun d hd =>
        Text.isDigit_of_mem_digits (hcs ▸ hd)
      refine ⟨c, ds, hcs, ?_, fun d hd => hdigits d (List.mem_cons_of_mem c hd)⟩
      have hc := hdigits c List.mem_cons_self
      have hblank : isBlank c = false := by
        simp only [isBlank, Bool.or_eq_false_iff, decide_eq_false_iff_not]
        refine ⟨⟨⟨?_, ?_⟩, ?_⟩, ?_⟩ <;> (rintro rfl; contradiction)
      have hquote : c ≠ '"' := by
        rintro rfl
        contradiction
      simp [step, begin, hblank, hquote, hc]
  have hnumber : Token.ofNumber? (ds.reverse ++ [c]).reverse = some (.integer i) := by
    rw [List.reverse_append, List.reverse_reverse, List.reverse_singleton, List.singleton_append,
      ← hsigned, Token.ofNumber?_signed]
  rw [hsigned, List.cons_append, lexemes?_of_step hbegin, lexemes?_digits hds,
    lexemes?_number hnumber hrest]

/-! ## Values -/

/-- **A value is spelt by its lexemes**: these are found in its text, however deep it stands. -/
def IsSpelt (v : Value) : Prop :=
  ∀ depth found rest, Apart rest → lexemes? ⟨.between, found⟩ (v.render depth ++ rest) =
    lexemes? ⟨.between, v.tokens.reverse ++ found⟩ rest

theorem apart_newline (depth : Nat) (cs : List Char) : Apart (newline depth ++ cs) :=
  apart_cons (by decide) _

theorem apart_renderItems (depth : Nat) (vs : List Value) (hrest : Apart rest) :
    Apart (Value.renderItems depth vs ++ rest) := by
  cases vs with
  | nil => exact hrest
  | cons v vs => exact apart_cons (by decide) _

theorem apart_renderMembers (depth : Nat) (ms : List (Text × Value)) (hrest : Apart rest) :
    Apart (Value.renderMembers depth ms ++ rest) := by
  cases ms with
  | nil => exact hrest
  | cons m ms => exact apart_cons (by decide) _

/-- **The items of a list are scanned**, if each of them is spelt. -/
theorem lexemes?_renderItems {vs : List Value} (h : ∀ v ∈ vs, IsSpelt v) (depth : Nat)
    (hrest : Apart rest) :
    lexemes? ⟨.between, found⟩ (Value.renderItems depth vs ++ rest) =
      lexemes? ⟨.between, (Value.itemTokens vs).reverse ++ found⟩ rest := by
  induction vs generalizing found with
  | nil => rfl
  | cons v vs ih =>
    rw [Value.renderItems, Value.itemTokens]
    simp only [List.cons_append, List.append_assoc]
    rw [lexemes?_mark rfl, lexemes?_newline,
      h v List.mem_cons_self _ _ _ (apart_renderItems depth vs hrest),
      ih fun u hu => h u (List.mem_cons_of_mem v hu)]
    simp

/-- **The members of a record are scanned**, if the value of each is spelt. -/
theorem lexemes?_renderMembers {ms : List (Text × Value)} (h : ∀ m ∈ ms, IsSpelt m.2)
    (depth : Nat) (hrest : Apart rest) :
    lexemes? ⟨.between, found⟩ (Value.renderMembers depth ms ++ rest) =
      lexemes? ⟨.between, (Value.memberTokens ms).reverse ++ found⟩ rest := by
  induction ms generalizing found with
  | nil => rfl
  | cons m ms ih =>
    rw [Value.renderMembers, Value.memberTokens]
    simp only [List.cons_append, List.append_assoc, List.nil_append]
    rw [lexemes?_mark rfl, lexemes?_newline, lexemes?_quote, lexemes?_mark rfl, lexemes?_blank rfl,
      h m List.mem_cons_self _ _ _ (apart_renderMembers depth ms hrest),
      ih fun n hn => h n (List.mem_cons_of_mem m hn)]
    simp

/-- **Exact values are spelt by their lexemes.** -/
theorem isSpelt_of_exact {v : Value} (h : v.Exact) : IsSpelt v := by
  induction h with
  | null =>
    intro depth found rest hrest
    have hword : Token.ofWord? ['l', 'l', 'u', 'n'].reverse = some .null := rfl
    exact lexemes?_word hword hrest
  | bool b =>
    intro depth found rest hrest
    cases b with
    | true =>
      have hword : Token.ofWord? ['e', 'u', 'r', 't'].reverse = some (.bool true) := rfl
      exact lexemes?_word hword hrest
    | false =>
      have hword : Token.ofWord? ['e', 's', 'l', 'a', 'f'].reverse = some (.bool false) := rfl
      exact lexemes?_word hword hrest
  | integer i => exact fun depth found rest hrest => lexemes?_signed i hrest
  | text t => exact fun depth found rest _ => lexemes?_quote t rest
  | @array vs h ih =>
    intro depth found rest hrest
    cases vs with
    | nil => rfl
    | cons v vs =>
      have hend := apart_newline depth (']' :: rest)
      rw [Value.render, Value.tokens]
      simp only [List.cons_append, List.append_assoc, List.nil_append]
      rw [lexemes?_mark rfl, lexemes?_newline,
        ih v List.mem_cons_self _ _ _ (apart_renderItems _ vs hend),
        lexemes?_renderItems (fun u hu => ih u (List.mem_cons_of_mem v hu)) _ hend,
        lexemes?_newline, lexemes?_mark rfl]
      simp
  | @object ms h ih =>
    intro depth found rest hrest
    cases ms with
    | nil => rfl
    | cons m ms =>
      have hend := apart_newline depth ('\x7d' :: rest)
      rw [Value.render, Value.tokens]
      simp only [List.cons_append, List.append_assoc, List.nil_append]
      rw [lexemes?_mark rfl, lexemes?_newline, lexemes?_quote, lexemes?_mark rfl,
        lexemes?_blank rfl, ih m List.mem_cons_self _ _ _ (apart_renderMembers _ ms hend),
        lexemes?_renderMembers (fun n hn => ih n (List.mem_cons_of_mem m hn)) _ hend,
        lexemes?_newline, lexemes?_mark rfl]
      simp

end Scan

/-- **The lexemes of a text** that is printed for an exact value. -/
theorem Token.scan?_render {v : Value} (h : v.Exact) : scan? (v.render 0) = some v.tokens := by
  have hspelt := Scan.isSpelt_of_exact h 0 [] [] nofun
  rw [List.append_nil, List.append_nil] at hspelt
  have hscan : scan? (v.render 0) = Scan.lexemes? ⟨.between, []⟩ (v.render 0) := rfl
  rw [hscan, hspelt, Scan.lexemes?_nil, Scan.finish?, List.reverse_reverse]

end ApiAvailability.Json
