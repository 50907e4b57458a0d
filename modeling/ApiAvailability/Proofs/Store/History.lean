import ApiAvailability.Proofs.Store.Directory
import Mathlib.Logic.Function.Basic

/-!
# Proofs/Store/History — a registry in memory is what its history makes of it

A registry in memory stands in for a real one where failures are to be provoked, so all that is said
of a pass on it rests on what it does.  That is told by a plain map from names to objects
(`Holding`), which knows neither reactors nor notes: what a call does to the map (`Holding.after`),
and what it is answered (`Holding.answer`).

* `Cluster.Holds.call` — one call on the registry is one on the map;
* `Cluster.told_by_history` — so any calls are, whatever objects and reactors it was given.
-/

namespace ApiAvailability

/-! ## Calls -/

/-- **A call on a registry in memory**: one that every registry takes, or the conditions of an object
are replaced from outside. -/
inductive ClusterCall where
  | action (a : Action)
  | setConditions (name : String) (cs : List ServiceCondition)

/-- What a call answers: an object or why there is none, or whether there is such an object. -/
inductive ClusterAnswer where
  | object (r : Except StoreError ApiService)
  | found (b : Bool)

namespace ClusterAnswer

/-- Whether the answer is a failure. -/
def fails : ClusterAnswer → Bool
  | object r => !r.isOk
  | found b => !b

end ClusterAnswer

namespace ClusterCall

/-- The action of a call that is noted. -/
def action? : ClusterCall → Option Action
  | action a => some a
  | setConditions _ _ => none

/-- Whether a call reads. -/
def reads : ClusterCall → Bool
  | action (.get _) => true
  | _ => false

/-- The call on a registry in memory. -/
def onCluster : ClusterCall → StateM Cluster ClusterAnswer
  | action a => do return .object (← a.on Cluster.registry)
  | setConditions name cs => fun c => (.found (c.setConditions name cs).1, (c.setConditions name cs).2)

/-- Calls one after the other. -/
def allOnCluster (calls : List ClusterCall) : StateM Cluster (List ClusterAnswer) :=
  calls.mapM onCluster

end ClusterCall

/-! ## The plain map -/

/-- **What is held under each name.** -/
abbrev Holding := String → Option ApiService

namespace Holding

/-- What is held of some objects: of several with one name the last. -/
def ofObjects (os : List ApiService) : Holding := fun name => os.reverse.find? (·.name = name)

/-- What is answered from what is held. -/
def own (h : Holding) : Action → Except StoreError ApiService
  | .get name => (h name).elim (.error (.notFound resourceName name)) .ok
  | .create o =>
    if (h o.name).isSome then .error (.alreadyExists resourceName o.name) else .ok o

/-- **What a call is answered** where reactors answer as `reply` does. -/
def answer (reply : Action → Reaction) (h : Holding) : ClusterCall → ClusterAnswer
  | .action a => .object ((reply a).getD (h.own a))
  | .setConditions name _ => .found (h name).isSome

/-- **What is held after a call** where reactors answer as `reply` does. -/
def after (reply : Action → Reaction) (h : Holding) : ClusterCall → Holding
  | .action (.get _) => h
  | .action (.create o) =>
    if reply (.create o) = none ∧ h o.name = none then Function.update h o.name (some o) else h
  | .setConditions name cs => Function.update h name ((h name).map (·.withConditions cs))

/-- **What is held after some calls**, one after the other. -/
def afterAll (reply : Action → Reaction) (h : Holding) (calls : List ClusterCall) : Holding :=
  calls.foldl (after reply) h

/-- **A call is idle**: it reads, a reactor answers it, or it fails. -/
def Idle (reply : Action → Reaction) (h : Holding) (call : ClusterCall) : Prop :=
  call.reads = true ∨ (call.action?.bind reply).isSome = true ∨ (h.answer reply call).fails = true

/-- **Every object is held under its own name.** -/
def Named (h : Holding) : Prop := ∀ name o, h name = some o → o.name = name

variable {reply : Action → Reaction} {h : Holding}

/-- **A call that is idle changes nothing.** -/
theorem Idle.after_eq {call : ClusterCall} (hidle : h.Idle reply call) : h.after reply call = h := by
  cases call with
  | action a =>
    cases a with
    | get name => rfl
    | create o =>
      refine if_neg ?_
      rintro ⟨hreply, hnone⟩
      simp [Idle, ClusterCall.reads, ClusterCall.action?, answer, own, hreply, hnone,
        ClusterAnswer.fails, Except.isOk, Except.toBool] at hidle
  | setConditions name cs =>
    have hnone : h name = none := by
      simpa [Idle, ClusterCall.reads, ClusterCall.action?, answer, ClusterAnswer.fails] using hidle
    rw [after, hnone, Option.map_none, Function.update_eq_self_iff, hnone]

theorem named_ofObjects (os : List ApiService) : (ofObjects os).Named := fun name o ho => by
  simpa using List.find?_some ho

theorem Named.update (hnamed : h.Named) {name : String} {found : Option ApiService}
    (hfound : ∀ o, found = some o → o.name = name) : Named (Function.update h name found) := by
  intro name' o ho
  by_cases hname : name' = name
  · subst name'
    rw [Function.update_self] at ho
    exact hfound o ho
  · rw [Function.update_of_ne hname] at ho
    exact hnamed name' o ho

/-- A call leaves every object under its own name. -/
theorem Named.after (hnamed : h.Named) (call : ClusterCall) : (h.after reply call).Named := by
  cases call with
  | action a =>
    cases a with
    | get name => exact hnamed
    | create o =>
      rw [Holding.after]
      split
      · exact hnamed.update fun o' ho' => congrArg ApiService.name (Option.some.inj ho').symm
      · exact hnamed
  | setConditions name cs =>
    refine hnamed.update fun o' ho' => ?_
    obtain ⟨o, ho, rfl⟩ := Option.map_eq_some_iff.mp ho'
    exact hnamed name o ho

theorem Named.afterAll (hnamed : h.Named) (calls : List ClusterCall) :
    (h.afterAll reply calls).Named := by
  induction calls generalizing h with
  | nil => exact hnamed
  | cons call calls ih => exact ih (hnamed.after call)

end Holding

/-! ## One call -/

namespace Cluster

variable {reply : Action → Reaction} {h : Holding} {c : Cluster}

/-- **A registry holds what a plain map does**, and its reactors answer as `reply` does, whatever
they heard before. -/
structure Holds (c : Cluster) (reply : Action → Reaction) (h : Holding) : Prop where
  stateless : c.Stateless
  reaction : c.reaction = reply
  objects : ∀ name, c.objects[name]? = h name

/-- Hearing of a call changes nothing of that. -/
theorem Holds.hear (hc : c.Holds reply h) (as : List Action) : (c.hear as).Holds reply h where
  stateless := hc.stateless.hear as
  reaction := (hc.stateless.reaction_hear as).trans hc.reaction
  objects name := by rw [objects_hear, hc.objects]

theorem Holds.mem_iff (hc : c.Holds reply h) {name : String} : name ∈ c.objects ↔ h name ≠ none := by
  rw [Std.ExtTreeMap.mem_iff_isSome_getElem?, hc.objects, Option.isSome_iff_ne_none]

/-- What the registry adds is what the map does. -/
theorem Holds.including (hc : c.Holds reply h) (o : ApiService) (name : String) :
    (c.including o)[name]? = h.after reply (.action (.create o)) name := by
  rw [Cluster.including, admits, hc.reaction, Holding.after]
  have hadmits : ((reply (.create o)).isNone && decide (o.name ∉ c.objects)) = true ↔
      reply (.create o) = none ∧ h o.name = none := by
    simp [hc.mem_iff]
  by_cases hadmitted : reply (.create o) = none ∧ h o.name = none
  · rw [if_pos (hadmits.mpr hadmitted), if_pos hadmitted, Std.ExtTreeMap.getElem?_insert]
    by_cases hname : name = o.name
    · subst name
      simp
    · rw [if_neg (by simpa using Ne.symm hname), Function.update_of_ne hname, hc.objects]
  · rw [if_neg (mt hadmits.mp hadmitted), if_neg hadmitted, hc.objects]

/-- **One call** on the registry is answered as it is on the map, and noted if it is an action. -/
theorem Holds.call (hc : c.Holds reply h) (call : ClusterCall) :
    (call.onCluster c).1 = h.answer reply call ∧
      (call.onCluster c).2.Holds reply (h.after reply call) ∧
        (call.onCluster c).2.actions.toList = c.actions.toList ++ call.action?.toList := by
  cases call with
  | action a =>
    cases a with
    | get name =>
      have hcall : (ClusterCall.action (.get name)).onCluster c =
        (.object (c.get name).1, (c.get name).2) := rfl
      rw [hcall, get_eq, get_fst, hc.reaction, hc.objects]
      exact ⟨rfl, hc.hear _, toList_actions_hear _⟩
    | create o =>
      have hcall : (ClusterCall.action (.create o)).onCluster c =
        (.object (c.create o).1, (c.create o).2) := rfl
      rw [hcall, create_eq, create_fst, hc.reaction]
      refine ⟨?_, ⟨?_, ?_, hc.including o⟩, toList_actions_hear _⟩
      · simp only [Holding.answer, Holding.own, hc.mem_iff, Option.isSome_iff_ne_none]
      · exact (hc.hear _).stateless.withObjects _
      · exact (hc.hear _).reaction
  | setConditions name cs =>
    have hreactors : (c.setConditions name cs).2.reactors = c.reactors := reactors_setConditions cs
    refine ⟨?_, ⟨?_, ?_, fun name' => ?_⟩, ?_⟩
    · exact congrArg ClusterAnswer.found ((c.fst_setConditions name cs).trans (by rw [hc.objects]))
    · rw [Stateless]
      exact hreactors ▸ hc.stateless
    · rw [← hc.reaction]
      exact funext fun a => congrArg (fun rs => (askAll a rs).1) hreactors
    · refine (c.getElem?_setConditions name cs name').trans ?_
      rw [hc.objects, Holding.after]
      by_cases hname : name = name'
      · subst name'
        rw [if_pos rfl, Function.update_self]
      · rw [if_neg hname, Function.update_of_ne (Ne.symm hname)]
    · exact (congrArg Array.toList (actions_setConditions cs)).trans (List.append_nil _).symm

/-! ## Any calls -/

/-- **Any calls** on the registry are answered as they are on the map, each on what is held by then. -/
theorem Holds.calls (hc : c.Holds reply h) (calls : List ClusterCall) :
    let run := ClusterCall.allOnCluster calls c
    run.1 = calls.mapIdx (fun n call => (h.afterAll reply (calls.take n)).answer reply call) ∧
      run.2.Holds reply (h.afterAll reply calls) ∧
        run.2.actions.toList = c.actions.toList ++ calls.filterMap ClusterCall.action? := by
  induction calls generalizing c h with
  | nil => exact ⟨rfl, hc, (List.append_nil _).symm⟩
  | cons call calls ih =>
    obtain ⟨hanswer, hafter, hactions⟩ := hc.call call
    obtain ⟨hanswers, hend, hrest⟩ := ih hafter
    rw [ClusterCall.allOnCluster] at hanswers hend hrest
    simp only [ClusterCall.allOnCluster, mapM_cons_apply]
    refine ⟨?_, hend, ?_⟩
    · rw [hanswer, hanswers, List.mapIdx_cons]
      rfl
    · rw [hrest, hactions, List.append_assoc]
      cases call <;> rfl

/-- **A registry that is given objects**, and then one reactor without memory after the other. -/
def furnished (os : List ApiService) (fs : List (Action → Reaction)) : Cluster :=
  fs.foldl (fun c f => c.prepend (.ofFunction f)) (.ofObjects os)

/-- What the newest of some reactors says that says anything, where they are listed as they came. -/
def newest (fs : List (Action → Reaction)) (a : Action) : Reaction := fs.reverse.findSome? (· a)

theorem askAll_fst (a : Action) (rs : List Reactor) :
    (askAll a rs).1 = rs.findSome? fun r => r.react r.asked a := by
  induction rs with
  | nil => rfl
  | cons r rs ih =>
    rw [askAll, Reactor.ask, List.findSome?_cons]
    cases r.react r.asked a with
    | none => exact ih
    | some answer => rfl

theorem foldl_prepend (fs : List (Action → Reaction)) (c : Cluster) :
    fs.foldl (fun c f => c.prepend (.ofFunction f)) c =
      { c with reactors := fs.reverse.map .ofFunction ++ c.reactors } := by
  induction fs generalizing c with
  | nil => rfl
  | cons f fs ih => rw [List.foldl_cons, ih]; simp [prepend]

theorem getElem?_foldl_insert (os : List ApiService)
    (objects : Std.ExtTreeMap String ApiService compare) (name : String) :
    (os.foldl (fun objects o => objects.insert o.name o) objects)[name]? =
      (os.reverse.find? (·.name = name)).or objects[name]? := by
  induction os generalizing objects with
  | nil => rfl
  | cons o os ih =>
    rw [List.foldl_cons, ih, List.reverse_cons, List.find?_append, Option.or_assoc,
      Std.ExtTreeMap.getElem?_insert]
    by_cases hname : o.name = name
    · simp [hname]
    · simp [hname]

theorem holds_furnished (os : List ApiService) (fs : List (Action → Reaction)) :
    (furnished os fs).Holds (newest fs) (.ofObjects os) := by
  have hfurnished : furnished os fs =
      { ofObjects os with reactors := fs.reverse.map .ofFunction } := by
    rw [furnished, foldl_prepend]
    simp [ofObjects]
  rw [hfurnished]
  refine ⟨?_, ?_, fun name => ?_⟩
  · exact List.forall_mem_map.mpr fun f _ => Reactor.stateless_ofFunction f
  · funext a
    refine (askAll_fst a _).trans ?_
    rw [List.findSome?_map]
    rfl
  · exact (getElem?_foldl_insert os ∅ name).trans (by simp [Holding.ofObjects])

/-- **A registry in memory is told by its history**, whatever objects and reactors it was given and
whatever was called since:
* its notes are the actions among the calls, each once and in order, whoever answered;
* a call was answered by the newest reactor that says anything to it, and where there is none from
  what was held by then;
* what it holds follows call by call from the first objects, and a call that only reads, that a
  reactor answers or that fails changes nothing;
* every object is held under its own name. -/
theorem told_by_history (os : List ApiService) (fs : List (Action → Reaction))
    (calls : List ClusterCall) :
    let reply := newest fs
    let held (n : Nat) : Holding := (Holding.ofObjects os).afterAll reply (calls.take n)
    let run := ClusterCall.allOnCluster calls (furnished os fs)
    run.2.actions.toList = calls.filterMap ClusterCall.action? ∧
      run.1 = calls.mapIdx (fun n call => (held n).answer reply call) ∧
      (∀ name, run.2.objects[name]? = held calls.length name) ∧
      (∀ n call, calls[n]? = some call → (held n).Idle reply call → held (n + 1) = held n) ∧
      ∀ name (o : ApiService), run.2.objects[name]? = some o → o.name = name := by
  intro reply held run
  obtain ⟨hanswers, hend, hactions⟩ := (holds_furnished os fs).calls calls
  have hheld : held calls.length = (Holding.ofObjects os).afterAll reply calls := by
    simp [held]
  refine ⟨?_, hanswers, fun name => ?_, fun n call hcall hidle => ?_, fun name o ho => ?_⟩
  · rw [hactions, furnished, foldl_prepend]
    rfl
  · rw [hheld]
    exact hend.objects name
  · have hnext : held (n + 1) = (held n).after reply call := by
      simp only [held, Holding.afterAll, List.take_add_one, hcall, List.foldl_append]
      rfl
    rw [hnext, hidle.after_eq]
  · rw [hend.objects name] at ho
    exact (Holding.named_ofObjects os).afterAll calls name o ho

/-- What reactors may say, the older one that nothing can be created, the newer one that one name is
down. -/
def troubles : List (Action → Reaction) :=
  [fun a => if a.verb = "create" then some (.error (.backend "full")) else none,
    fun a => if a.name = "v1.build" then some (.error (.backend "down")) else none]

/-- Two objects cannot be created, for different reasons, and a third reports that it is serving. -/
theorem told_by_history_troubles :
    let service : ServiceReference := ⟨"default", "apps"⟩
    let object (group : String) := (Desired.new group "v1" service).toObject
    let serves : List ServiceCondition := [⟨"Available", .true, none, none⟩]
    let run := ClusterCall.allOnCluster
      [.action (.create (object "build")), .action (.create (object "oauth")),
        .setConditions "v1.apps" serves, .action (.get "v1.apps")]
      (furnished [object "apps"] troubles)
    run.1 = [.object (.error (.backend "down")), .object (.error (.backend "full")), .found true,
        .object (.ok ((object "apps").withConditions serves))] ∧
      run.2.actions.toList =
        [.create (object "build"), .create (object "oauth"), .get "v1.apps"] ∧
      run.2.objects["v1.build"]? = none := by
  intro service object serves run
  obtain ⟨hactions, hanswers, hobjects, -, -⟩ := told_by_history [object "apps"] troubles
    [.action (.create (object "build")), .action (.create (object "oauth")),
      .setConditions "v1.apps" serves, .action (.get "v1.apps")]
  exact ⟨hanswers.trans (by rfl), hactions, (hobjects "v1.build").trans (by rfl)⟩

end Cluster

end ApiAvailability
