import ApiAvailability.Proofs.Pass.Verdict

/-!
# Proofs/Pass/Order — the order in which services are declared

Entries of different names meet their fates apart from each other, so a pass over a list in another
order calls, tells and adds the same, in another order, and its sorted verdict says the same
(`sync_perm`).  Only the list of failures inside of a verdict may differ, where two lines are equal.
-/

namespace ApiAvailability

open Rehearsal

/-! ## What depends on the order -/

namespace Cluster

variable {c : Cluster} {ds ds' : List Desired} (h : ds.Perm ds')

include h

/-- **The objects after the work do not depend on the order.** -/
theorem filled_perm (hd : (ds.map (·.name)).Nodup) : c.filled ds = c.filled ds' := by
  have hd' : (ds'.map (·.name)).Nodup := (h.map _).nodup_iff.mp hd
  refine Std.ExtTreeMap.ext_getElem? fun name => ?_
  by_cases hmem : ∃ d ∈ ds, d.name = name
  · obtain ⟨d, hds, rfl⟩ := hmem
    rw [filled, filled, getElem?_fill_of_mem hd hds, getElem?_fill_of_mem hd' (h.mem_iff.mp hds)]
  · have hne : ∀ d ∈ ds, d.name ≠ name := fun d hds he => hmem ⟨d, hds, he⟩
    have hne' : ∀ d ∈ ds', d.name ≠ name := fun d hds => hne d (h.mem_iff.mpr hds)
    rw [filled, filled, getElem?_fill_of_forall_ne hne, getElem?_fill_of_forall_ne hne']

theorem ensureEvents_perm : (c.ensureEvents ds).Perm (c.ensureEvents ds') :=
  h.flatMap_right _

/-- The calls of a pass come in another order. -/
theorem actions_worked_perm :
    (c.worked ds).actions.toList.Perm (c.worked ds').actions.toList := by
  have hensure : (c.ensureCalls ds).Perm (c.ensureCalls ds') := h.flatMap_right _
  have hfetch : (c.fetchCalls ds).Perm (c.fetchCalls ds') := (h.filter _).map _
  unfold worked
  rw [actions_withObjects, actions_withObjects, toList_actions_hear, toList_actions_hear]
  exact (hensure.append hfetch).append_left _

/-- **The verdicts state the same lines.** -/
theorem stating_perm (c : Cluster) (hd : (ds.map (·.name)).Nodup) : ∃ lines,
    Verdict.Stating lines (aggregate (c.observations ds)) ∧
      Verdict.Stating lines (aggregate (c.observations ds')) := by
  refine ⟨_, c.aggregate_observations, ?_⟩
  have hlines := h.filterMap (Desired.line? c (c.filled ds))
  rw [sort_eq_of_perm hlines, filled_perm h hd]
  exact c.aggregate_observations

end Cluster

/-- Whether two passes come to **the same answer**: the same failure, the same reason to do nothing,
or verdicts with the same status, reason and message. -/
def SameAnswer : Except PassError PassOutcome → Except PassError PassOutcome → Prop
  | .error e, .error e' => e = e'
  | .ok (.skipped reason), .ok (.skipped reason') => reason = reason'
  | .ok (.reconciled v), .ok (.reconciled v') =>
    v.status = v'.status ∧ v.reason = v'.reason ∧ v.message = v'.message
  | _, _ => False

theorem SameAnswer.refl (p : Except PassError PassOutcome) : SameAnswer p p := by
  rcases p with e | reason | v
  · rfl
  · rfl
  · exact ⟨rfl, rfl, rfl⟩

/-! ## A pass over a list in another order -/

section Pass

variable {s : Stage} {r : Reconciler (StateM World)} {w : World} {ds ds' : List Desired}

namespace Rehearsal.Stage

/-- Verdicts that state the same lines are written to the same record. -/
theorem reported_congr {lines : List String} {v v' : Verdict} (h : v.Stating lines)
    (h' : v'.Stating lines) (now : Time.Timestamp) (state : OperatorState) :
    s.reported now v state = s.reported now v' state := by
  rw [reported, reported, h.isAvailable_eq h', h.toCondition_eq h']

theorem told_perm {before : Array Event} {es es' : List Event} (h : es.Perm es') :
    (s.told before es).toList.Perm (s.told before es').toList := by
  unfold told
  split
  · exact .refl _
  · rw [Array.toList_appendList, Array.toList_appendList]
    exact h.append_left _

/-- What is desired decides neither whether a pass gets to work nor how it ends otherwise. -/
theorem opening_desiring (hs : s.backend = .memory) (ds : List Desired) :
    s.opening (w.desiring ds) (s.assembled.status.read (w.desiring ds)).1 =
      (s.opening w (s.assembled.status.read w).1).map fun _ => ds := by
  have hread : (s.assembled.status.read (w.desiring ds)).1 = (s.assembled.status.read w).1 := by
    rw [read_memory hs, read_memory hs]
    rfl
  have hanswer : s.answer (w.desiring ds) = s.answer w := rfl
  have hprovider : (w.desiring ds).providerFailure = w.providerFailure := rfl
  rw [hread]
  unfold opening
  rw [hanswer, hprovider]
  rcases (s.assembled.status.read w).1 with e | state
  · rfl
  dsimp only
  cases state.managementState.skip? with
  | some reason => rfl
  | none =>
    rcases s.answer w with e | _ | _
    · rfl
    · rfl
    · cases w.providerFailure <;> rfl

end Rehearsal.Stage

/-- **The order of declaration does not matter.**  Over the desired services in another order a pass
comes to the same answer and leaves the same objects, the same record and the same versions; it
tells the same events and makes the same calls, in another order. -/
theorem sync_perm (hs : s.backend = .memory) (hr : s.reconciler = .ok r)
    (hc : w.cluster.Stateless) (hd : (w.desired.map (·.name)).Nodup) (h : w.desired.Perm ds)
    (now : Time.Timestamp) :
    let p := r.sync now w
    let p' := r.sync now (w.desiring ds)
    SameAnswer p.1 p'.1 ∧ p.2.cluster.objects = p'.2.cluster.objects ∧
      p.2.status.state = p'.2.status.state ∧ p.2.versions = p'.2.versions ∧
      p.2.events.toList.Perm p'.2.events.toList ∧
      p.2.cluster.actions.toList.Perm p'.2.cluster.actions.toList := by
  obtain rfl := Stage.eq_assembled hr
  have hopening := Stage.opening_desiring (w := w) hs ds
  dsimp only
  rcases hw : s.opening w (s.assembled.status.read w).1 with ending | ds₀
  · rw [hw] at hopening
    obtain ⟨n, checked, stopping, -, hsync⟩ := Stage.sync_of_opening_error now hw
    obtain ⟨n', checked', stopping', -, hsync'⟩ := Stage.sync_of_opening_error now hopening
    rw [hsync, hsync']
    exact ⟨.refl ending, rfl, rfl, rfl, .refl _, .refl _⟩
  · obtain rfl : w.desired = ds₀ := (Stage.opening_eq_ok_iff.mp hw).2.2.2
    rw [hw] at hopening
    have hd' : (ds.map (·.name)).Nodup := (h.map _).nodup_iff.mp hd
    have hpass := sync_memory hs hc hd hw now
    have hpass' := sync_memory hs (w := w.desiring ds) hc hd' hopening now
    obtain ⟨lines, hv, hv'⟩ := Cluster.stating_perm h w.cluster hd
    have hwrite : (w.desiring ds).writeError? = w.writeError? := rfl
    have hresult := hpass.result
    have hresult' := hpass'.result
    have hstate' := hpass'.state
    have hversions' := hpass'.versions
    rw [hwrite] at hresult' hstate' hversions'
    refine ⟨?_, ?_, ?_, ?_, ?_, ?_⟩
    · rw [hresult, hresult']
      cases w.writeError? with
      | some e => exact .refl _
      | none => exact ⟨hv.status.trans hv'.status.symm, hv.reason.trans hv'.reason.symm,
          hv.message.trans hv'.message.symm⟩
    · rw [hpass.cluster, hpass'.cluster]
      exact Cluster.filled_perm h hd
    · rw [hpass.state, hstate', Stage.reported_congr hv hv']
      rfl
    · rw [hpass.versions, hversions', hv.isAvailable_eq hv']
      rfl
    · rw [hpass.events, hpass'.events]
      exact s.told_perm (Cluster.ensureEvents_perm h)
    · rw [hpass.cluster, hpass'.cluster]
      exact Cluster.actions_worked_perm h

/-- The troubled world over its services in another order. -/
theorem sync_perm_troubled :
    let p := Stage.complete.assembled.sync (World.time 0) World.troubled
    let p' := Stage.complete.assembled.sync (World.time 0)
      (World.troubled.desiring [World.sample "apps", World.sample "route", World.sample "build"])
    SameAnswer p.1 p'.1 ∧ p.2.cluster.objects = p'.2.cluster.objects ∧
      p.2.status.state = p'.2.status.state ∧ p.2.versions = p'.2.versions ∧
      p.2.events.toList.Perm p'.2.events.toList ∧
      p.2.cluster.actions.toList.Perm p'.2.cluster.actions.toList := by
  have hperm : World.troubled.desired.Perm
      [World.sample "apps", World.sample "route", World.sample "build"] := by
    decide +kernel
  exact sync_perm rfl (Stage.complete.reconciler_of_without rfl) World.stateless_troubled
    World.nodup_troubled hperm (World.time 0)

end Pass

end ApiAvailability
