import ApiAvailability.Proofs.Effects
import ApiAvailability.Proofs.Operator.Record
import ApiAvailability.Store.Interface

/-!
# Proofs/Operator/Transition — a condition keeps the time of its latest turn

A write of a condition **turns** the entry of its type if it says another status than the entry, or
if there is no entry.  The entry's time is that of the write, and otherwise stays.  So after any
writes it is the time of the first of the writes that have said the present status ever since
(`Follows.dates`), which is what the writes up to the latest turn tell, and none of those before.
-/

namespace ApiAvailability

/-! ## Writes one after the other -/

/-- **A write of a condition**, with the entry of its type that was found there. -/
structure Writing where
  found : Option OperatorCondition
  condition : OperatorCondition

namespace Writing

/-- The entry that a write leaves. -/
def entry (w : Writing) : OperatorCondition := w.found.elim w.condition (·.supersede w.condition)

/-- Whether a write says another status than the entry that was found, or none was. -/
def Turns (w : Writing) : Prop := w.found.map (·.status) ≠ some w.condition.status

variable {w : Writing}

@[simp] theorem status_entry (w : Writing) : w.entry.status = w.condition.status := by
  rcases w with ⟨_ | old, c⟩ <;> rfl

theorem time_entry_of_turns (h : w.Turns) :
    w.entry.lastTransitionTime = w.condition.lastTransitionTime := by
  rcases w with ⟨_ | old, c⟩
  · rfl
  · exact if_neg fun he => h (congrArg some he)

/-- A write that does not turn an entry finds one, and leaves its time. -/
theorem time_entry_of_not_turns (h : ¬ w.Turns) :
    some w.entry.lastTransitionTime = w.found.map (·.lastTransitionTime) := by
  rcases w with ⟨_ | old, c⟩
  · exact (h nofun).elim
  · have hstatus : old.status = c.status := Option.some.inj (Decidable.not_not.mp h)
    exact congrArg some (if_pos hstatus)

end Writing

/-- **Writes of one type, one after the other**, from an entry to another: each finds what the one
before it left. -/
inductive Follows : Option OperatorCondition → List Writing → Option OperatorCondition → Prop
  | none (old : Option OperatorCondition) : Follows old [] old
  | one {old new : Option OperatorCondition} {ws : List Writing} (c : OperatorCondition)
      (rest : Follows (some (Writing.mk old c).entry) ws new) : Follows old (⟨old, c⟩ :: ws) new

/-- **The earliest write since which the status is the same**, among those before and after it. -/
structure Settles (ws before : List Writing) (w : Writing) (after : List Writing) : Prop where
  eq : ws = before ++ w :: after
  same : ∀ w' ∈ after, w'.condition.status = w.condition.status
  earliest : ∀ before' w' after', ws = before' ++ w' :: after' →
    (∀ w'' ∈ after', w''.condition.status = w'.condition.status) → before.length ≤ before'.length

/-- **An entry's time is that of its latest turn**: of the earliest write since which the status is
the same, if any write was a turn, and otherwise the time of the first entry. -/
structure Dates (old : Option OperatorCondition) (ws : List Writing)
    (new : Option OperatorCondition) : Prop where
  turned : (∃ w ∈ ws, w.Turns) → ∃ before w after, Settles ws before w after ∧
    new.map (·.lastTransitionTime) = some w.condition.lastTransitionTime
  kept : (∀ w ∈ ws, ¬ w.Turns) →
    new.map (·.lastTransitionTime) = old.map (·.lastTransitionTime)

namespace Follows

variable {old mid new : Option OperatorCondition} {ws ws' : List Writing}

theorem trans (h : Follows old ws mid) (h' : Follows mid ws' new) :
    Follows old (ws ++ ws') new := by
  induction h with
  | none old => exact h'
  | one c rest ih => exact .one c (ih h')

/-- No write turns an entry if and only if all of them say its status. -/
theorem not_turns_iff (h : Follows old ws new) : (∀ w ∈ ws, ¬ w.Turns) ↔
    ∀ w ∈ ws, old.map (·.status) = some w.condition.status := by
  induction h with
  | none old => simp
  | @one old new ws c rest ih =>
    rw [List.forall_mem_cons, List.forall_mem_cons, ih]
    refine Iff.trans (and_congr_left' Decidable.not_not) (and_congr_right fun hc => ?_)
    rw [Option.map_some, Writing.status_entry, hc]

theorem time_of_not_turns (h : Follows old ws new) (hkept : ∀ w ∈ ws, ¬ w.Turns) :
    new.map (·.lastTransitionTime) = old.map (·.lastTransitionTime) := by
  induction h with
  | none old => rfl
  | one c rest ih =>
    obtain ⟨hfirst, hrest⟩ := List.forall_mem_cons.mp hkept
    exact (ih hrest).trans (Writing.time_entry_of_not_turns hfirst)

/-- **The time of an entry after any writes.** -/
theorem dates (h : Follows old ws new) : Dates old ws new := by
  refine ⟨fun hturned => ?_, h.time_of_not_turns⟩
  induction h with
  | none old =>
    obtain ⟨w, hw, -⟩ := hturned
    exact absurd hw List.not_mem_nil
  | @one old new ws c rest ih =>
    by_cases hrest : ∀ w ∈ ws, ¬ w.Turns
    · -- the first write is the latest turn
      have hfirst : (Writing.mk old c).Turns := by
        obtain ⟨w, hw, hturns⟩ := hturned
        rcases List.mem_cons.mp hw with rfl | hw
        · exact hturns
        · exact absurd hturns (hrest w hw)
      have hsame := rest.not_turns_iff.mp hrest
      refine ⟨[], ⟨old, c⟩, ws, ⟨rfl, fun w hw => ?_, fun _ _ _ _ _ => Nat.zero_le _⟩, ?_⟩
      · exact (Option.some.inj ((hsame w hw).symm.trans (by simp)))
      · rw [rest.time_of_not_turns hrest]
        exact congrArg some (Writing.time_entry_of_turns hfirst)
    · obtain ⟨before, w, after, hsettles, htime⟩ := ih (by simpa using hrest)
      refine ⟨⟨old, c⟩ :: before, w, after, ⟨congrArg _ hsettles.eq, hsettles.same, ?_⟩, htime⟩
      rintro (_ | ⟨first, before'⟩) w' after' heq hsame
      · -- if all said the status of the first write, none after it would be a turn
        obtain ⟨rfl, rfl⟩ := List.cons.inj heq
        refine absurd (rest.not_turns_iff.mpr fun w hw => ?_) hrest
        simp [hsame w hw]
      · obtain ⟨rfl, hws⟩ := List.cons.inj heq
        exact Nat.succ_le_succ (hsettles.earliest before' w' after' hws hsame)

end Follows

/-- **Steps that write one type of conditions**, or leave the entry of that type, as long as an
invariant holds. -/
theorem Steps.follows {σ : Type} {step : σ → List Writing → σ → Prop} {inv : σ → Prop}
    {entry : σ → Option OperatorCondition} {s s' : σ} {ws : List Writing}
    (hstep : ∀ s ws s', step s ws s' → inv s → inv s' ∧ Follows (entry s) ws (entry s'))
    (h : Steps step s ws s') (hinv : inv s) : Follows (entry s) ws (entry s') := by
  induction h with
  | none s => exact .none _
  | one h rest ih =>
    obtain ⟨hinv', hfirst⟩ := hstep _ _ _ h hinv
    exact hfirst.trans (ih hinv')

/-! ## Records in stores -/

namespace OperatorState

/-- A condition that is written leaves an entry. -/
theorem follows_setCondition (s : OperatorState) (c : OperatorCondition) :
    Follows (s.status.condition? c.type) [⟨s.status.condition? c.type, c⟩]
      ((s.setCondition c).status.condition? c.type) := by
  have hentry := s.status.condition?_setCondition c
  change (s.setCondition c).status.condition? c.type = _ at hentry
  rw [hentry]
  exact .one c (.none _)

/-- And it leaves the entries of other types. -/
theorem condition?_setCondition_of_ne {type : String} {c : OperatorCondition} (h : c.type ≠ type)
    (s : OperatorState) : (s.setCondition c).status.condition? type = s.status.condition? type :=
  upsert_find?_of_ne (OperatorCondition.type_supersede · c) h s.status.conditions

end OperatorState

namespace StatusStore

variable {σ : Type} {store : StatusStore (StateM σ)} {inv : σ → Prop} {record : σ → OperatorState}
  {type : String} {w w' : σ} {ws : List Writing}

/-- **A store holds a record**, which a write changes or leaves, as its answer tells. -/
structure Holds (store : StatusStore (StateM σ)) (inv : σ → Prop) (record : σ → OperatorState) :
    Prop where
  written : ∀ {c w w'}, store.upsert c w = (.ok (), w') → inv w →
    inv w' ∧ record w' = (record w).setCondition c
  refused : ∀ {c e w w'}, store.upsert c w = (.error e, w') → inv w →
    inv w' ∧ record w' = record w

/-- **Writes to a store**, labelled with those of one type that succeed. -/
inductive Upserting (store : StatusStore (StateM σ)) (record : σ → OperatorState) (type : String) :
    σ → List Writing → σ → Prop
  | written {c : OperatorCondition} {w w' : σ} (hc : c.type = type)
      (h : store.upsert c w = (.ok (), w')) :
      Upserting store record type w [⟨(record w).status.condition? type, c⟩] w'
  | other {c : OperatorCondition} {w w' : σ} (hc : c.type ≠ type)
      (h : store.upsert c w = (.ok (), w')) : Upserting store record type w [] w'
  | refused {c : OperatorCondition} {e : StoreError} {w w' : σ}
      (h : store.upsert c w = (.error e, w')) : Upserting store record type w [] w'

/-- **Any writes to a store.** -/
theorem Holds.follows (h : store.Holds inv record)
    (hsteps : Steps (store.Upserting record type) w ws w') (hw : inv w) :
    Follows ((record w).status.condition? type) ws ((record w').status.condition? type) := by
  refine @Steps.follows _ _ inv (fun w => (record w).status.condition? type) _ _ _
    (fun w ws w' hstep hw => ?_) hsteps hw
  cases hstep with
  | written hc hupsert =>
    obtain ⟨hw', hrecord⟩ := h.written hupsert hw
    subst hc
    exact ⟨hw', hrecord ▸ (record w).follows_setCondition _⟩
  | other hc hupsert =>
    obtain ⟨hw', hrecord⟩ := h.written hupsert hw
    refine ⟨hw', ?_⟩
    rw [hrecord, OperatorState.condition?_setCondition_of_ne hc]
    exact .none _
  | refused hupsert =>
    obtain ⟨hw', hrecord⟩ := h.refused hupsert hw
    rw [hrecord]
    exact ⟨hw', .none _⟩

end StatusStore

/-- **A write changes nothing but a time** if and only if it says what the first entry of its type
says. -/
theorem OperatorStatus.isChangedBy_eq_false {s : OperatorStatus} {c : OperatorCondition} :
    s.isChangedBy c = false ↔ ∃ old, s.condition? c.type = some old ∧ old.type = c.type ∧
      old.status = c.status ∧ old.reason = c.reason ∧ old.message = c.message := by
  rw [isChangedBy]
  cases s.condition? c.type with
  | none => simp
  | some old => simp [OperatorCondition.sameState_iff]

end ApiAvailability
