import ApiAvailability.Proofs.Operator.Record

/-!
# Proofs/Operator/Edits — writes to a record that is shared

Others write to the operator's record too, so what matters of an `Edit` is as much what it leaves
alone.  `Amends` says so of a list that entries are written to: nothing moves, and of the entries
that were there only the first of a named key may have changed.

* `upsert_amends`, `Amends.trans` — one write, and one after another;
* `amends_conditions`, `amends_versions` — any number of edits of a record;
* `condition?_foldl_edit`, `version?_foldl_edit` — the last word on a key is what is looked up;
* `edit_comm_lookup` — edits of different keys may change places.
-/

namespace ApiAvailability

/-! ## What writes leave of a list -/

section Lists

variable {α : Type} {key : α → String} {merge : α → α → α} {entry : α}

/-- **What writes under the keys `named` leave of a list.** -/
structure Amends (key : α → String) (named : List String) (xs ys : List α) : Prop where
  /-- Entries stay in their places, and new ones come behind them, one for a key that was missing. -/
  keys : ∃ fresh, ys.map key = xs.map key ++ fresh ∧ fresh.Nodup ∧
    ∀ k ∈ fresh, k ∈ named ∧ k ∉ xs.map key
  /-- An entry whose key is not named, or that is not the first of its key, stays as it is. -/
  kept : ∀ i x, xs[i]? = some x → key x ∉ named ∨ key x ∈ (xs.take i).map key → ys[i]? = some x
  /-- Entries of which none has a key that is named are the same. -/
  others : ∀ p : α → Bool, (∀ x, key x ∈ named → p x = false) → ys.filter p = xs.filter p

namespace Amends

variable {named named' : List String} {xs ys zs : List α}

theorem refl (xs : List α) : Amends key [] xs xs where
  keys := ⟨[], by rw [List.append_nil], List.nodup_nil, fun k hk => absurd hk List.not_mem_nil⟩
  kept _ _ h _ := h
  others _ _ := rfl

/-- The keys in front of an entry that was there are the keys that were in front of it. -/
theorem map_take (h : Amends key named xs ys) {i : Nat} (hi : i < xs.length) :
    (ys.take i).map key = (xs.take i).map key := by
  obtain ⟨fresh, hkeys, -, -⟩ := h.keys
  have hlength : i ≤ (xs.map key).length := by
    rw [List.length_map]
    omega
  rw [List.map_take, hkeys, List.take_append_of_le_length hlength, List.map_take]

/-- **Writes after writes.** -/
theorem trans (h : Amends key named xs ys) (h' : Amends key named' ys zs) :
    Amends key (named ++ named') xs zs where
  keys := by
    obtain ⟨fresh, hkeys, hnodup, hfresh⟩ := h.keys
    obtain ⟨fresh', hkeys', hnodup', hfresh'⟩ := h'.keys
    refine ⟨fresh ++ fresh', by rw [hkeys', hkeys, List.append_assoc], ?_, ?_⟩
    · refine List.nodup_append.mpr ⟨hnodup, hnodup', ?_⟩
      rintro k hk _ hk' rfl
      exact (hfresh' k hk').2 (hkeys ▸ List.mem_append_right _ hk)
    · intro k hk
      rcases List.mem_append.mp hk with hk | hk
      · exact ⟨List.mem_append_left _ (hfresh k hk).1, (hfresh k hk).2⟩
      · refine ⟨List.mem_append_right _ (hfresh' k hk).1, fun hold => ?_⟩
        exact (hfresh' k hk).2 (hkeys ▸ List.mem_append_left _ hold)
  kept i x hx hspared := by
    obtain ⟨hi, -⟩ := List.getElem?_eq_some_iff.mp hx
    -- the keys in front of the entry are the same for the later writes as for the first ones
    refine h'.kept i x (h.kept i x hx ?_) ?_
    · exact hspared.imp_left fun hn hk => hn (List.mem_append_left _ hk)
    · rw [h.map_take hi]
      exact hspared.imp_left fun hn hk => hn (List.mem_append_right _ hk)
  others p hp := by
    rw [h'.others p fun x hx => hp x (List.mem_append_right _ hx),
      h.others p fun x hx => hp x (List.mem_append_left _ hx)]

/-- Keys that were different from each other still are. -/
theorem nodup (h : Amends key named xs ys) (hxs : (xs.map key).Nodup) : (ys.map key).Nodup := by
  obtain ⟨fresh, hkeys, hnodup, hfresh⟩ := h.keys
  rw [hkeys]
  refine List.nodup_append.mpr ⟨hxs, hnodup, ?_⟩
  rintro k hk _ hk' rfl
  exact (hfresh k hk').2 hk

/-- What is found under a key that is not named. -/
theorem find?_eq (h : Amends key named xs ys) {k : String} (hk : k ∉ named) :
    ys.find? (key · == k) = xs.find? (key · == k) := by
  have hother (x : α) (hx : key x ∈ named) : (key x == k) = false := by
    simpa using fun he : key x = k => hk (he ▸ hx)
  rw [← List.head?_filter, h.others _ hother, List.head?_filter]

end Amends

/-! ## One write -/

/-- A write leaves alone what its key has no part in. -/
theorem filter_upsert (hmerge : ∀ old, key (merge old entry) = key entry) {p : α → Bool}
    (hp : ∀ x, key x = key entry → p x = false) (xs : List α) :
    (upsert key merge entry xs).filter p = xs.filter p := by
  induction xs with
  | nil => simp [upsert, hp entry rfl]
  | cons x xs ih =>
    rw [upsert]
    split
    · rename_i hx
      rw [List.filter_cons_of_neg (by simp [hp _ (hmerge x)]),
        List.filter_cons_of_neg (by simp [hp x hx])]
    · rw [List.filter_cons, List.filter_cons, ih]

theorem map_key_upsert (hmerge : ∀ old, key (merge old entry) = key entry) (xs : List α) :
    (upsert key merge entry xs).map key =
      xs.map key ++ if key entry ∈ xs.map key then [] else [key entry] := by
  induction xs with
  | nil => rfl
  | cons x xs ih =>
    rw [upsert]
    split
    · rename_i hx
      simp [hmerge, hx]
    · rename_i hx
      have hmem : key entry ∈ (x :: xs).map key ↔ key entry ∈ xs.map key := by
        rw [List.map_cons, List.mem_cons, or_iff_right (Ne.symm hx)]
      rw [List.map_cons, ih, List.map_cons, List.cons_append]
      simp only [← List.map_cons, hmem]

theorem getElem?_upsert {xs : List α} {i : Nat} {x : α} (hx : xs[i]? = some x)
    (hspared : key x ≠ key entry ∨ key x ∈ (xs.take i).map key) :
    (upsert key merge entry xs)[i]? = some x := by
  induction xs generalizing i with
  | nil => simp at hx
  | cons y ys ih =>
    rw [upsert]
    cases i with
    | zero =>
      -- in front of the first entry there is none of its key, so its key is another one
      obtain rfl : y = x := Option.some.inj hx
      rw [if_neg (hspared.resolve_right List.not_mem_nil)]
      rfl
    | succ i =>
      rw [List.getElem?_cons_succ] at hx
      split
      · exact hx
      · rename_i hy
        rw [List.getElem?_cons_succ]
        refine ih hx ?_
        rcases hspared with hne | hmem
        · exact .inl hne
        · rw [List.take_succ_cons, List.map_cons, List.mem_cons] at hmem
          exact hmem.imp_left fun he hx' => hy (he.symm.trans hx')

/-- **One write.** -/
theorem upsert_amends (hmerge : ∀ old, key (merge old entry) = key entry) (xs : List α) :
    Amends key [key entry] xs (upsert key merge entry xs) where
  keys := by
    refine ⟨_, map_key_upsert hmerge xs, ?_, ?_⟩
    · split
      · exact List.nodup_nil
      · exact List.nodup_cons.mpr ⟨List.not_mem_nil, List.nodup_nil⟩
    · intro k hk
      split at hk
      · exact absurd hk List.not_mem_nil
      · obtain rfl := List.mem_singleton.mp hk
        exact ⟨hk, ‹_›⟩
  kept _ _ hx hspared :=
    getElem?_upsert hx (hspared.imp_left fun hn he => hn (List.mem_singleton.mpr he))
  others p hp := filter_upsert hmerge (fun x hx => hp x (List.mem_singleton.mpr hx)) xs

/-- Writes of different keys come to the same under every key. -/
theorem find?_upsert_comm {other : α} (hmerge : ∀ old new, key (merge old new) = key new)
    (hne : key entry ≠ key other) (k : String) (xs : List α) :
    (upsert key merge other (upsert key merge entry xs)).find? (key · == k) =
      (upsert key merge entry (upsert key merge other xs)).find? (key · == k) := by
  have hentry := (hmerge · entry)
  have hother := (hmerge · other)
  by_cases hk : key entry = k
  · subst hk
    rw [upsert_find?_of_ne hother hne.symm, upsert_find? hentry, upsert_find? hentry,
      upsert_find?_of_ne hother hne.symm]
  · rw [upsert_find?_of_ne hentry hk]
    by_cases hk' : key other = k
    · subst hk'
      rw [upsert_find? hother, upsert_find? hother, upsert_find?_of_ne hentry hne]
    · rw [upsert_find?_of_ne hother hk', upsert_find?_of_ne hother hk', upsert_find?_of_ne hentry hk]

end Lists

/-! ## Edits of a record -/

/-- **An edit** of the operator's record. -/
inductive Edit where
  /-- A condition is written. -/
  | condition (c : OperatorCondition)
  /-- The version of a component is written. -/
  | version (name version : String)

namespace Edit

/-- The type of the condition that an edit writes. -/
def type? : Edit → Option String
  | condition c => some c.type
  | version .. => none

/-- The name of the component whose version an edit writes. -/
def name? : Edit → Option String
  | condition _ => none
  | version name _ => some name

/-- What an edit names: a type of conditions, or a component. -/
def key : Edit → String ⊕ String
  | condition c => .inl c.type
  | version name _ => .inr name

end Edit

namespace OperatorState

variable {s : OperatorState} {es : List Edit}

/-- The record after an edit. -/
def edit (s : OperatorState) : Edit → OperatorState
  | .condition c => s.setCondition c
  | .version name version => s.setVersion name version

/-- No edit concerns whether the operator is to act. -/
theorem managementState_foldl_edit (es : List Edit) (s : OperatorState) :
    (es.foldl edit s).managementState = s.managementState := by
  induction es generalizing s with
  | nil => rfl
  | cons e es ih =>
    rw [List.foldl_cons, ih]
    cases e <;> rfl

/-- **What edits leave of the conditions.** -/
theorem amends_conditions (es : List Edit) (s : OperatorState) :
    Amends (·.type) (es.filterMap Edit.type?) s.status.conditions
      (es.foldl edit s).status.conditions := by
  induction es generalizing s with
  | nil => exact .refl _
  | cons e es ih =>
    have hrest := ih (s.edit e)
    cases e with
    | condition c => exact (upsert_amends (OperatorCondition.type_supersede · c) _).trans hrest
    | version name version => exact hrest

/-- **What edits leave of the versions.** -/
theorem amends_versions (es : List Edit) (s : OperatorState) :
    Amends (·.name) (es.filterMap Edit.name?) s.status.versions
      (es.foldl edit s).status.versions := by
  induction es generalizing s with
  | nil => exact .refl _
  | cons e es ih =>
    have hrest := ih (s.edit e)
    cases e with
    | condition c => exact hrest
    | version name version =>
      have hone := @upsert_amends _ ComponentVersion.name (fun _ new => new) ⟨name, version⟩
        (fun _ => rfl) s.status.versions
      exact hone.trans hrest

/-- **The last condition of a type is the one that is looked up**, its time apart. -/
theorem condition?_foldl_edit (before : List Edit) (c : OperatorCondition) {after : List Edit}
    (hlast : c.type ∉ after.filterMap Edit.type?) (s : OperatorState) :
    ∃ found, ((before ++ .condition c :: after).foldl edit s).status.condition? c.type = some found ∧
      found.sameState c = true := by
  rw [List.foldl_append, List.foldl_cons]
  let mid := before.foldl edit s
  have hafter : ((after.foldl edit (mid.setCondition c)).status.condition? c.type) =
      (mid.setCondition c).status.condition? c.type := (amends_conditions after _).find?_eq hlast
  have hwritten := mid.status.condition?_setCondition c
  refine ⟨_, hafter.trans hwritten, ?_⟩
  cases mid.status.condition? c.type <;>
    simp [OperatorCondition.sameState, OperatorCondition.supersede]

/-- **The last version of a component is the one that is looked up.** -/
theorem version?_foldl_edit (before : List Edit) (name version : String) {after : List Edit}
    (hlast : name ∉ after.filterMap Edit.name?) (s : OperatorState) :
    ((before ++ .version name version :: after).foldl edit s).status.version? name =
      some version := by
  rw [List.foldl_append, List.foldl_cons]
  let mid := before.foldl edit s
  have hafter : (after.foldl edit (mid.setVersion name version)).status.version? name =
      (mid.setVersion name version).status.version? name :=
    congrArg (Option.map ComponentVersion.version) ((amends_versions after _).find?_eq hlast)
  exact hafter.trans (mid.status.version?_setVersion name version)

/-- **Edits of different keys may change places**, as far as anything can be looked up. -/
theorem edit_comm_lookup {a b : Edit} (h : a.key ≠ b.key) (s : OperatorState) :
    (∀ type, ((s.edit a).edit b).status.condition? type =
      ((s.edit b).edit a).status.condition? type) ∧
    ∀ name, ((s.edit a).edit b).status.version? name =
      ((s.edit b).edit a).status.version? name := by
  cases a with
  | condition c =>
    cases b with
    | condition c' =>
      have hne : c.type ≠ c'.type := fun he => h (congrArg Sum.inl he)
      exact ⟨fun type => find?_upsert_comm OperatorCondition.type_supersede hne type _,
        fun _ => rfl⟩
    | version name version => exact ⟨fun _ => rfl, fun _ => rfl⟩
  | version name version =>
    cases b with
    | condition c => exact ⟨fun _ => rfl, fun _ => rfl⟩
    | version name' version' =>
      have hne : name ≠ name' := fun he => h (congrArg Sum.inr he)
      refine ⟨fun _ => rfl, fun k => congrArg (Option.map ComponentVersion.version) ?_⟩
      exact @find?_upsert_comm _ ComponentVersion.name (fun _ new => new) ⟨name, version⟩
        ⟨name', version'⟩ (fun _ _ => rfl) hne k s.status.versions

end OperatorState

end ApiAvailability
