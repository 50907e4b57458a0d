import ApiAvailability.Json.Reader
import ApiAvailability.Proofs.Json.Spelling

/-!
# Proofs/Json/Record — values that denote, and records made of them

A value **denotes** what a reader reads in it, if it can be printed and read back as well
(`Denotes`).  The rules of this module put such values together: texts, numbers, lists, and records,
whose fields may be left out (`Value.fields?_ofFields`).
-/

namespace ApiAvailability.Json

open Value

variable {α β γ : Type}

/-- **A value denotes `x`** for a reader that reads `x` in it, provided that the value is read back
from its text. -/
structure Denotes (read : Value → Option α) (v : Value) (x : α) : Prop where
  exact : v.Exact
  read_eq : read v = some x

theorem mapM_congr {f g : α → Option β} {xs : List α} (h : ∀ x ∈ xs, f x = g x) :
    xs.mapM f = xs.mapM g := by
  induction xs with
  | nil => rfl
  | cons x xs ih =>
    rw [List.mapM_cons, List.mapM_cons, h x List.mem_cons_self,
      ih fun y hy => h y (List.mem_cons_of_mem x hy)]

/-- What is written item by item is read item by item. -/
theorem mapM_map_eq_some {read : β → Option α} {write : α → β} (h : ∀ x, read (write x) = some x)
    (xs : List α) : (xs.map write).mapM read = some xs := by
  have hread : xs.mapM (read ∘ write) = xs.mapM fun x => pure x := mapM_congr fun x _ => h x
  rw [List.mapM_map, hread, List.mapM_pure, List.map_id']
  rfl

@[simp] theorem Value.exact_string (s : String) : (string s).Exact := .text _

namespace Denotes

variable {read : Value → Option α} {v : Value} {x : α}

/-- **What a value denotes is read from the bytes of its text.** -/
theorem of_bytes (h : Denotes read v x) : (ofBytes? v.toText.toUTF8).bind read = some x := by
  rw [ofBytes?_toText h.exact, Option.bind_some, h.read_eq]

theorem string (s : String) : Denotes text? (.string s) s := ⟨exact_string s, rfl⟩

/-- A name is read as what it names. -/
theorem choice {ofName? : String → Option α} {name : String} (h : ofName? name = some x) :
    Denotes (fun v => v.choice?.bind ofName?) (.string name) x := ⟨exact_string name, h⟩

/-- A number is read back. -/
theorem int32 (i : Int32) : Denotes Datum.int32? (.integer i.toInt) i := by
  refine ⟨.integer _, ?_⟩
  have hrange : Int32.minValue.toInt ≤ i.toInt ∧ i.toInt ≤ Int32.maxValue.toInt :=
    ⟨i.minValue_le_toInt, i.toInt_le⟩
  have hread : Datum.int32? (Value.integer i.toInt) =
      if Int32.minValue.toInt ≤ i.toInt ∧ i.toInt ≤ Int32.maxValue.toInt
        then some (Int32.ofInt i.toInt) else none := rfl
  rw [hread, if_pos hrange, Int32.ofInt_toInt]

/-- A list is read back, if each of its items is. -/
theorem list {write : α → Value} (h : ∀ x, Denotes read (write x) x) (xs : List α) :
    Denotes (Datum.list? read) (.array (xs.map write)) xs := by
  refine ⟨.array fun v hv => ?_, ?_⟩
  · obtain ⟨x, -, rfl⟩ := List.mem_map.mp hv
    exact (h x).exact
  · have hitems : Datum.list? read (.array (xs.map write)) = (xs.map write).mapM read := rfl
    rw [hitems, mapM_map_eq_some fun x => (h x).read_eq]

end Denotes

/-! ## Records -/

namespace Value

/-- The members of a record: the fields that it has. -/
def given (names : List String) (slots : List (Option Value)) : List (String × Value) :=
  (names.zip slots).filterMap fun (name, slot) => slot.map (name, ·)

/-- **A record some of whose fields may be left out.** -/
def ofFields (names : List String) (slots : List (Option Value)) : Value :=
  .record (given names slots)

variable {name : String} {names : List String} {slot : Option Value} {slots : List (Option Value)}

/-- A name that is none of the fields' names is not given. -/
theorem filter_given (h : name ∉ names) : (given names slots).filter (·.1 == name) = [] := by
  rw [List.filter_eq_nil_iff]
  intro m hm
  obtain ⟨⟨n, s⟩, hzip, hmap⟩ := List.mem_filterMap.mp hm
  obtain ⟨v, -, rfl⟩ := Option.map_eq_some_iff.mp hmap
  have hne : n ≠ name := fun he => h (he ▸ (List.of_mem_zip hzip).1)
  simpa using hne

/-- The first name of a record has its own slot. -/
theorem atMostOne?_given_self (h : name ∉ names) :
    atMostOne? name (given (name :: names) (slot :: slots)) = some slot := by
  cases slot with
  | none =>
    have hgiven : given (name :: names) (none :: slots) = given names slots := rfl
    rw [hgiven, atMostOne?, filter_given h]
  | some v =>
    have hgiven : given (name :: names) (some v :: slots) = (name, v) :: given names slots := rfl
    simp [hgiven, atMostOne?, filter_given h]

/-- The other names have theirs. -/
theorem atMostOne?_given_of_ne {n : String} (h : n ≠ name) :
    atMostOne? n (given (name :: names) (slot :: slots)) = atMostOne? n (given names slots) := by
  cases slot with
  | none => rfl
  | some v =>
    have hgiven : given (name :: names) (some v :: slots) = (name, v) :: given names slots := rfl
    simp [hgiven, atMostOne?, h.symm]

/-- **Each name of a record finds its own slot**, if no name is given twice. -/
theorem mapM_atMostOne?_given (hnames : names.Nodup) (hlength : names.length = slots.length) :
    names.mapM (atMostOne? · (given names slots)) = some slots := by
  induction names generalizing slots with
  | nil =>
    obtain rfl := List.eq_nil_of_length_eq_zero hlength.symm
    rfl
  | cons name names ih =>
    obtain ⟨slot, slots, rfl⟩ := List.exists_cons_of_length_eq_add_one hlength.symm
    obtain ⟨hname, hnames⟩ := List.nodup_cons.mp hnames
    have hrest : names.mapM (atMostOne? · (given (name :: names) (slot :: slots))) =
        names.mapM (atMostOne? · (given names slots)) :=
      mapM_congr fun n hn => atMostOne?_given_of_ne fun he => hname (he ▸ hn)
    rw [List.mapM_cons, atMostOne?_given_self hname, hrest, ih hnames (Nat.succ.inj hlength)]
    rfl

/-- A text that may be left out is read as the text that there is, if any. -/
@[simp] theorem optional_string (s : Option String) :
    Datum.optional text? (s.map string) = some s := by
  cases s <;> rfl

theorem members?_record (ms : List (String × Value)) : (record ms).members? = some ms := by
  rw [record, members?, mapM_map_eq_some]
  exact fun _ => rfl

theorem exact_record {ms : List (String × Value)} (h : ∀ m ∈ ms, m.2.Exact) :
    (record ms).Exact := by
  refine .object fun m hm => ?_
  obtain ⟨m, hmem, rfl⟩ := List.mem_map.mp hm
  exact h m hmem

theorem exact_ofFields (h : ∀ slot ∈ slots, ∀ v ∈ slot, v.Exact) :
    (ofFields names slots).Exact := by
  refine exact_record fun m hm => ?_
  obtain ⟨⟨n, s⟩, hzip, hmap⟩ := List.mem_filterMap.mp hm
  obtain ⟨v, hv, rfl⟩ := Option.map_eq_some_iff.mp hmap
  exact h s (List.of_mem_zip hzip).2 v hv

/-- **A record is read field by field.** -/
theorem fields?_ofFields (hnames : names.Nodup) (hlength : names.length = slots.length) :
    (ofFields names slots).fields? names = some slots := by
  have hfields : (ofFields names slots).fields? names =
      (ofFields names slots).members?.bind fun ms => names.mapM (atMostOne? · ms) := rfl
  rw [hfields, ofFields, members?_record, Option.bind_some, mapM_atMostOne?_given hnames hlength]

end Value

end ApiAvailability.Json
