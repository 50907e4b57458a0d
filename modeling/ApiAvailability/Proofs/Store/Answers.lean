import ApiAvailability.Store.Memory

/-!
# Proofs/Store/Answers — what a registry in memory answers, and what a call leaves behind

A call does three things to a registry in memory: the reactors hear of it, it is noted, and a
`create` that no reactor answers may add an object.  `hear` is the first two, so that

* `get_eq`, `create_eq` — a call is its answer, `hear`, and for `create` at most one new object;
* `get_congr`, `create_congr` — under reactors without memory the answer depends on what they say
  and on the object of that one name only.
-/

namespace ApiAvailability

/-! ## Reactors without memory -/

/-- A reactor **without memory**: it says the same, whatever it was asked about before. -/
def Reactor.Stateless (r : Reactor) : Prop :=
  ∀ asked asked' a, r.react asked a = r.react asked' a

theorem Reactor.stateless_ofFunction (f : Action → Reaction) : (ofFunction f).Stateless :=
  fun _ _ _ => rfl

theorem Reactor.Stateless.ask {r : Reactor} (h : r.Stateless) (a : Action) :
    (r.ask a).2.Stateless := h

/-- Asking about one call changes nothing in what is said to another. -/
theorem askAll_fst_askAll {rs : List Reactor} (h : ∀ r ∈ rs, r.Stateless) (a b : Action) :
    (askAll a (askAll b rs).2).1 = (askAll a rs).1 := by
  induction rs with
  | nil => rfl
  | cons r rs ih =>
    have hr : r.Stateless := h r List.mem_cons_self
    have ih := ih fun r' h' => h r' (List.mem_cons_of_mem r h')
    have ha : (r.ask b).2.react (r.ask b).2.asked a = r.react r.asked a := hr _ _ a
    rcases hb : r.react r.asked b with _ | answer <;>
      rcases hs : r.react r.asked a with _ | answer' <;>
        simp_all [askAll, Reactor.ask]

/-- Asked in turn, reactors without state are left without state. -/
theorem stateless_askAll {rs : List Reactor} (h : ∀ r ∈ rs, r.Stateless) (b : Action) :
    ∀ r ∈ (askAll b rs).2, r.Stateless := by
  induction rs with
  | nil => exact h
  | cons r rs ih =>
    have hr : r.Stateless := h r List.mem_cons_self
    have hrs : ∀ r' ∈ rs, r'.Stateless := fun r' h' => h r' (List.mem_cons_of_mem r h')
    have ih := ih hrs
    rcases hb : r.react r.asked b with _ | answer
    · simp only [askAll, Reactor.ask, hb, List.forall_mem_cons]
      exact ⟨hr.ask b, ih⟩
    · simp only [askAll, Reactor.ask, hb, List.forall_mem_cons]
      exact ⟨hr.ask b, hrs⟩

namespace Cluster

variable {c c' : Cluster}

/-! ## Hearing of calls -/

/-- What the reactors say to a call. -/
def reaction (c : Cluster) (a : Action) : Reaction := (c.react a).1

/-- **The registry after calls were put to it**, as far as the objects are not concerned. -/
def hear (c : Cluster) (as : List Action) : Cluster := as.foldl (fun c a => (c.react a).2) c

/-- The registry with other objects. -/
def withObjects (c : Cluster) (os : Std.ExtTreeMap String ApiService compare) : Cluster :=
  { c with objects := os }

@[simp] theorem objects_withObjects (os : Std.ExtTreeMap String ApiService compare) :
    (c.withObjects os).objects = os := rfl

@[simp] theorem actions_withObjects (os : Std.ExtTreeMap String ApiService compare) :
    (c.withObjects os).actions = c.actions := rfl

@[simp] theorem withObjects_withObjects (os os' : Std.ExtTreeMap String ApiService compare) :
    (c.withObjects os).withObjects os' = c.withObjects os' := rfl

@[simp] theorem withObjects_self : c.withObjects c.objects = c := rfl

theorem hear_nil : c.hear [] = c := rfl

theorem hear_singleton (a : Action) : c.hear [a] = (c.react a).2 := rfl

/-- Calls are heard one after the other. -/
theorem hear_append (as bs : List Action) : c.hear (as ++ bs) = (c.hear as).hear bs :=
  List.foldl_append

/-- What is heard does not depend on what is held. -/
theorem hear_withObjects (os : Std.ExtTreeMap String ApiService compare) (as : List Action) :
    (c.withObjects os).hear as = (c.hear as).withObjects os := by
  induction as generalizing c with
  | nil => rfl
  | cons a as ih => exact @ih (c.react a).2

/-- Hearing a call changes no object. -/
@[simp] theorem objects_hear (as : List Action) : (c.hear as).objects = c.objects := by
  induction as generalizing c with
  | nil => rfl
  | cons a as ih => exact ih

@[simp] theorem withObjects_hear (as : List Action) :
    (c.hear as).withObjects c.objects = c.hear as := by
  rw [← objects_hear as, withObjects_self]

/-- Every call that is heard is in the log, in order. -/
@[simp] theorem toList_actions_hear (as : List Action) :
    (c.hear as).actions.toList = c.actions.toList ++ as := by
  induction as generalizing c with
  | nil => rw [hear_nil, List.append_nil]
  | cons a as ih =>
    have h : (c.hear (a :: as)).actions.toList = (c.react a).2.actions.toList ++ as := ih
    rw [h, actions_react, Array.toList_push, List.append_assoc, List.singleton_append]

theorem exists_object {name : String} (h : name ∈ c.objects) : ∃ o, c.objects[name]? = some o :=
  Option.isSome_iff_exists.mp (Std.ExtTreeMap.mem_iff_isSome_getElem?.mp h)

/-! ## Registries whose reactors have no memory -/

/-- No reactor of the registry has a memory. -/
def Stateless (c : Cluster) : Prop := ∀ r ∈ c.reactors, r.Stateless

theorem Stateless.withObjects (h : c.Stateless) (os : Std.ExtTreeMap String ApiService compare) :
    (c.withObjects os).Stateless := h

theorem Stateless.hear (h : c.Stateless) (as : List Action) : (c.hear as).Stateless := by
  induction as generalizing c with
  | nil => exact h
  | cons a as ih => exact ih (stateless_askAll h a)

/-- What is said does not depend on the calls made before. -/
theorem Stateless.reaction_hear (h : c.Stateless) (as : List Action) :
    (c.hear as).reaction = c.reaction := by
  induction as generalizing c with
  | nil => rfl
  | cons a as ih =>
    have hc : (c.react a).2.Stateless := stateless_askAll h a
    exact (ih hc).trans (funext fun b => askAll_fst_askAll h b a)

/-! ## The two calls -/

/-- What getting an object answers: what a reactor says, or what is held. -/
theorem get_fst (name : String) :
    (c.get name).1 = (c.reaction (.get name)).getD
      (c.objects[name]?.elim (.error (.notFound resourceName name)) .ok) := by
  rw [get, reaction]
  rcases h : c.react (.get name) with ⟨_ | answer, c'⟩
  · have hc : c'.objects = c.objects := congrArg (fun p => p.2.objects) h.symm
    simp only [hc, Option.getD_none]
    cases c.objects[name]? <;> rfl
  · rfl

/-- What creating an object answers: what a reactor says, or whether the name is free. -/
theorem create_fst (o : ApiService) :
    (c.create o).1 = (c.reaction (.create o)).getD
      (if o.name ∈ c.objects then .error (.alreadyExists resourceName o.name) else .ok o) := by
  rw [create, reaction]
  rcases h : c.react (.create o) with ⟨_ | answer, c'⟩
  · have hc : c'.objects = c.objects := congrArg (fun p => p.2.objects) h.symm
    simp only [hc, Option.getD_none]
    split <;> rfl
  · rfl

/-- **Reading** answers, and is heard of. -/
theorem get_eq (name : String) : c.get name = ((c.get name).1, c.hear [.get name]) := by
  refine Prod.ext rfl ?_
  rw [hear_singleton]
  rw [get]
  rcases h : c.react (.get name) with ⟨_ | answer, c'⟩
  · cases hc : c'.objects[name]? <;> simp [hc]
  · rfl

/-- Whether creating an object adds it. -/
def admits (c : Cluster) (o : ApiService) : Bool :=
  (c.reaction (.create o)).isNone && decide (o.name ∉ c.objects)

/-- The objects after creating one. -/
def including (c : Cluster) (o : ApiService) : Std.ExtTreeMap String ApiService compare :=
  if c.admits o then c.objects.insert o.name o else c.objects

/-- **Creating** answers, is heard of, and adds the object if it is admitted. -/
theorem create_eq (o : ApiService) :
    c.create o = ((c.create o).1, (c.hear [.create o]).withObjects (c.including o)) := by
  refine Prod.ext rfl ?_
  rw [hear_singleton]
  rw [create, including, admits, reaction]
  rcases h : c.react (.create o) with ⟨_ | answer, c'⟩ <;>
    have hc : c'.objects = c.objects := congrArg (fun p => p.2.objects) h.symm <;>
    have hself : c'.withObjects c.objects = c' := by rw [← hc, withObjects_self]
  · by_cases hm : o.name ∈ c.objects
    · simp [hm, hc, hself]
    · simp [hm, hc, withObjects]
  · simp [hself]

/-! ## Other conditions -/

theorem reactors_setConditions {name : String} (cs : List ServiceCondition) :
    (c.setConditions name cs).2.reactors = c.reactors := by
  rw [setConditions]
  split <;> rfl

theorem actions_setConditions {name : String} (cs : List ServiceCondition) :
    (c.setConditions name cs).2.actions = c.actions := by
  rw [setConditions]
  split <;> rfl

theorem fst_setConditions (c : Cluster) (name : String) (cs : List ServiceCondition) :
    (c.setConditions name cs).1 = c.objects[name]?.isSome := by
  rw [setConditions]
  cases c.objects[name]? <;> rfl

/-- Replacing the conditions of an object changes that object alone. -/
theorem getElem?_setConditions (c : Cluster) (name : String) (cs : List ServiceCondition)
    (name' : String) : (c.setConditions name cs).2.objects[name']? =
      if name = name' then c.objects[name']?.map (·.withConditions cs) else c.objects[name']? := by
  rw [setConditions]
  by_cases hname : name = name'
  · subst name'
    cases ho : c.objects[name]? with
    | none => simp [ho]
    | some o => simp
  · rw [if_neg hname]
    cases c.objects[name]? with
    | none => rfl
    | some o => simp [Std.ExtTreeMap.getElem?_insert, hname]

/-! ## Registries that agree on a name -/

/-- Two registries **agree on a name**: their reactors say the same, and they hold the same object
under the name. -/
structure AgreeOn (name : String) (c c' : Cluster) : Prop where
  reaction : c.reaction = c'.reaction
  object : c.objects[name]? = c'.objects[name]?

theorem AgreeOn.mem_iff {name : String} (h : AgreeOn name c c') :
    name ∈ c.objects ↔ name ∈ c'.objects := by
  rw [Std.ExtTreeMap.mem_iff_isSome_getElem?, Std.ExtTreeMap.mem_iff_isSome_getElem?, h.object]

/-- Getting an object is answered alike where the registries agree on its name. -/
theorem get_congr {name : String} (h : AgreeOn name c c') : (c.get name).1 = (c'.get name).1 := by
  rw [get_fst, get_fst, h.reaction, h.object]

/-- Creating an object is answered alike where the registries agree on its name. -/
theorem create_congr {o : ApiService} (h : AgreeOn o.name c c') :
    (c.create o).1 = (c'.create o).1 := by
  rw [create_fst, create_fst, h.reaction]
  simp only [h.mem_iff]

/-- Whether an object is taken depends on its name alone. -/
theorem admits_congr {o : ApiService} (h : AgreeOn o.name c c') : c.admits o = c'.admits o := by
  unfold admits
  rw [h.reaction]
  simp only [h.mem_iff]

/-- What has been heard does not matter, where reactors have no state. -/
theorem Stateless.agreeOn_hear (h : c.Stateless) (as : List Action) (name : String) :
    AgreeOn name (c.hear as) c :=
  ⟨h.reaction_hear as, by rw [objects_hear]⟩

end Cluster

end ApiAvailability
