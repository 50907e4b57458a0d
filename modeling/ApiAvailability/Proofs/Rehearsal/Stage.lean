import ApiAvailability.Proofs.Pass.Course
import ApiAvailability.Proofs.Store.Answers
import ApiAvailability.Rehearsal.World

/-!
# Proofs/Rehearsal/Stage — what a pass does to a world, outside of the objects

The reconciler of a stage, and the two ends of its pass: a pass that ends early uses up scripts and
nothing else (`meets_of_opening`), any other comes to the work on objects with scripts used up
(`reaches_of_opening`), and the report writes one condition and perhaps one version
(`report_memory`).
-/

namespace ApiAvailability.Rehearsal

namespace World

/-- What the next reading of the record in memory fails with, if it fails. -/
def readError? (w : World) : Option StoreError := w.reads.head?.join.or w.status.readFailure

/-- What the next writing of a condition in memory fails with, if it fails. -/
def writeError? (w : World) : Option StoreError := w.writes.head?.join.or w.status.writeFailure

/-- The same world with other desired services. -/
def desiring (w : World) (ds : List Desired) : World := { w with desired := ds }

/-- **The world once a pass has begun**: one entry of the script of reads is used up, and perhaps
checks of the precondition. -/
def begun (w : World) (checks : List Check) (checked : Nat) (stopping : Bool) : World :=
  { w with reads := w.reads.tail, checks, checked, stopping }

section Begun

variable (w : World) (checks : List Check) (checked : Nat) (stopping : Bool)

@[simp] theorem cluster_begun : (w.begun checks checked stopping).cluster = w.cluster := rfl

@[simp] theorem status_begun : (w.begun checks checked stopping).status = w.status := rfl

@[simp] theorem writeError?_begun :
    (w.begun checks checked stopping).writeError? = w.writeError? := rfl

end Begun

end World

namespace Stage

variable {s : Stage} {r : Reconciler (StateM World)} {w : World}

/-- The reconciler that a stage makes when nothing that is needed is missing. -/
def assembled (s : Stage) : Reconciler (StateM World) where
  registry := s.registry
  provider := World.provide
  precondition := (s.part .precondition World.check).getD (pure (.ok true))
  status := s.status
  recordVersion := s.recordVersion
  recordEvent := (s.part .events World.recordEvent).getD fun _ => pure ()
  component := s.component
  operandVersion := s.operandVersion

/-- A collaborator that is given is the one that was meant. -/
theorem part_eq_some {α : Type} {role : Role} {a b : α} (h : s.part role a = some b) : b = a := by
  rw [part] at h
  split at h
  · contradiction
  · exact (Option.some.inj h).symm

/-- **A stage whose reconciler can be built makes the assembled one.** -/
theorem eq_assembled (h : s.reconciler = .ok r) : r = s.assembled := by
  have need {α : Type} {what : String} {role : Role} {a b : α}
      (h : Parts.need what (s.part role a) = .ok b) : b = a := by
    cases hp : s.part role a with
    | none => simp [hp, Parts.need] at h
    | some c =>
      rw [hp] at h
      exact (Except.ok.inj h).symm.trans (part_eq_some hp)
  rw [reconciler, Reconciler.build] at h
  simp only [bind, Except.bind] at h
  split at h <;> try contradiction
  split at h <;> try contradiction
  split at h <;> try contradiction
  split at h <;> try contradiction
  rename_i _ registry hreg _ provider hprov _ status hstat _ recordVersion hver
  obtain rfl := need hreg
  obtain rfl := need hprov
  obtain rfl := need hstat
  obtain rfl := need hver
  exact (Except.ok.inj h).symm

/-- A stage that lacks nothing makes a reconciler. -/
theorem reconciler_of_without (h : s.without = []) : s.reconciler = .ok s.assembled := by
  unfold reconciler assembled part
  rw [h]
  rfl

/-- The events of a stage after more were told. -/
def told (s : Stage) (before : Array Event) (es : List Event) : Array Event :=
  if .events ∈ s.without then before else before ++ es

@[simp] theorem told_nil (before : Array Event) : s.told before [] = before := by
  rw [told]
  split
  · rfl
  · exact Array.ext' (by simp)

/-- Events are told one after the other. -/
theorem told_append (before : Array Event) (es es' : List Event) :
    s.told before (es ++ es') = s.told (s.told before es) es' := by
  unfold told
  split
  · rfl
  · exact Array.ext' (by simp)

/-- **The world after work on objects**: its registry is another, and more events were told. -/
def moved (s : Stage) (w : World) (c : Cluster) (es : List Event) : World :=
  { w with cluster := c, events := s.told w.events es }

@[simp] theorem cluster_moved (c : Cluster) (es : List Event) : (s.moved w c es).cluster = c := rfl

@[simp] theorem writeError?_moved (c : Cluster) (es : List Event) :
    (s.moved w c es).writeError? = w.writeError? := rfl

/-- Where the registry moves twice, the last place counts, and the events of both are told. -/
@[simp] theorem moved_moved (c c' : Cluster) (es es' : List Event) :
    s.moved (s.moved w c es) c' es' = s.moved w c' (es ++ es') := by
  simp only [moved, told_append]

/-- Recording an event changes nothing else. -/
theorem recordEvent_assembled (e : Event) (w : World) :
    s.assembled.recordEvent e w = ((), s.moved w w.cluster [e]) := by
  unfold assembled part moved told
  by_cases h : .events ∈ s.without
  · simp [h, pure_apply]
  · simp [h, World.recordEvent]

/-! ## The first half of a pass -/

/-- The status store of a stage, before the scripts. -/
def store (s : Stage) : StatusStore (StateM World) :=
  match s.backend with
  | .memory => MemoryStatus.store.lift World.onStatus
  | .files _ file => file.store system

/-- Reading a record changes nothing. -/
theorem snd_load (file : StatusFile) (w : World) : (file.load system w).2 = w := by
  have hread : system.read file.path w = (w.tree.read file.path, w) := rfl
  rw [StatusFile.load, bind_apply, hread]
  rcases w.tree.read file.path with e | bytes
  · cases e <;> rfl
  · dsimp only
    cases (Json.Value.ofBytes? bytes).bind OperatorState.ofJson? <;> rfl

/-- Reading the record changes nothing. -/
theorem snd_read_store (w : World) : (s.store.read w).2 = w := by
  rw [store]
  split
  · rfl
  · exact snd_load _ w

/-- Reading the record uses up one entry of the script. -/
theorem snd_read (w : World) :
    (s.assembled.status.read w).2 = { w with reads := w.reads.tail } := by
  change ((World.scripted s.store).read w).2 = _
  rw [World.scripted]
  rcases h : w.reads with _ | ⟨_ | e, rest⟩
  · simp only [h, snd_read_store, List.tail_nil]
    rw [← h]
  · simp only [h, snd_read_store, List.tail_cons]
  · simp only [h, List.tail_cons]

/-- What the precondition is to say to the next check. -/
def answer (s : Stage) (w : World) : Except PassError Bool :=
  if .precondition ∈ s.without then .ok true else w.checks.head?.elim (.ok true) (·.result)

/-- Asking the precondition uses up at most one check. -/
theorem precondition_assembled (w : World) :
    ∃ n checked stopping, n ≤ 1 ∧ s.assembled.precondition w =
      (s.answer w, { w with checks := w.checks.drop n, checked, stopping }) := by
  rw [assembled, part, answer]
  by_cases h : .precondition ∈ s.without
  · exact ⟨0, w.checked, w.stopping, Nat.zero_le 1, by simp [h, pure_apply]⟩
  · rcases hc : w.checks with _ | ⟨c, rest⟩
    · exact ⟨1, w.checked + 1, w.stopping, Nat.le_refl 1, by simp [h, World.check, hc]⟩
    · exact ⟨1, w.checked + 1, w.stopping || c.stop, Nat.le_refl 1, by simp [h, World.check, hc]⟩

/-- Asked in its turn, the precondition leaves a world in which the pass has begun. -/
theorem precondition_begun (w : World) :
    ∃ n checked stopping, n ≤ 1 ∧ s.assembled.precondition { w with reads := w.reads.tail } =
      (s.answer w, w.begun (w.checks.drop n) checked stopping) :=
  precondition_assembled { w with reads := w.reads.tail }

/-- The provider hands on what is desired, if it does not fail. -/
theorem provider_assembled (w : World) : s.assembled.provider w =
    (w.providerFailure.elim (.ok w.desired) .error, w) := by
  change World.provide w = _
  rw [World.provide]
  cases w.providerFailure <;> rfl

theorem provider_begun (w : World) (checks : List Check) (checked : Nat) (stopping : Bool) :
    s.assembled.provider (w.begun checks checked stopping) =
      (w.providerFailure.elim (.ok w.desired) .error, w.begun checks checked stopping) :=
  provider_assembled (w.begun checks checked stopping)

/-- What the first half of a pass comes to, when reading the record answers `read`. -/
def opening (s : Stage) (w : World) (read : Except StoreError OperatorState) :
    Except (Except PassError PassOutcome) (List Desired) :=
  match read with
  | .error e => .error (.error (.statusReadFailed e))
  | .ok state =>
    match state.managementState.skip? with
    | some reason => .error (.ok (.skipped reason))
    | none =>
      match s.answer w with
      | .error e => .error (.error e.asPrecondition)
      | .ok false => .error (.ok (.skipped .preconditionNotMet))
      | .ok true => w.providerFailure.elim (.ok w.desired) fun e => .error (.error e.asProvider)

/-- A pass gets to work when the operator is to act, the precondition holds and the provider
answers, and then works on what the provider desires. -/
theorem opening_eq_ok_iff {read : Except StoreError OperatorState} {ds : List Desired} :
    s.opening w read = .ok ds ↔ (∃ state, read = .ok state ∧ state.managementState = .managed) ∧
      s.answer w = .ok true ∧ w.providerFailure = none ∧ w.desired = ds := by
  unfold opening
  rcases read with e | ⟨_ | _ | _, _⟩
  · simp
  · rcases s.answer w with e | _ | _ <;> cases w.providerFailure <;>
      simp [ManagementState.skip?]
  · simp [ManagementState.skip?]
  · simp [ManagementState.skip?]

/-- **A pass that ends early** uses up scripts, and changes nothing else. -/
theorem meets_of_opening (now : Time.Timestamp) {ending : Except PassError PassOutcome}
    (h : s.opening w (s.assembled.status.read w).1 = .error ending) :
    ∃ o n checked stopping, n ≤ 1 ∧ o.result = ending ∧
      s.assembled.Meets now w o (w.begun (w.checks.drop n) checked stopping) := by
  have hbegin : s.assembled.Reaches now w .read w := .begin
  rcases hread : (s.assembled.status.read w).1 with e | state
  · rw [hread] at h
    exact ⟨.unread e, 0, w.checked, w.stopping, Nat.zero_le 1, Except.error.inj h,
      .unread hbegin (Prod.ext hread (snd_read w))⟩
  have hstate : s.assembled.status.read w = (.ok state, { w with reads := w.reads.tail }) :=
    Prod.ext hread (snd_read w)
  rw [hread, opening] at h
  cases hskip : state.managementState.skip? with
  | some reason =>
    rw [hskip] at h
    exact ⟨.unmanaged reason, 0, w.checked, w.stopping, Nat.zero_le 1, Except.error.inj h,
      .unmanaged hbegin hstate hskip⟩
  | none =>
    rw [hskip] at h
    dsimp only at h
    have hmanaged := Reconciler.Reaches.managed hbegin hstate
      (ManagementState.skip?_eq_none.mp hskip)
    obtain ⟨n, checked, stopping, hn, hcheck⟩ := s.precondition_begun w
    rcases hanswer : s.answer w with e | _ | _
    · rw [hanswer] at h hcheck
      exact ⟨.unchecked e, n, checked, stopping, hn, Except.error.inj h,
        .unchecked hmanaged hcheck⟩
    · rw [hanswer] at h hcheck
      exact ⟨.unready, n, checked, stopping, hn, Except.error.inj h, .unready hmanaged hcheck⟩
    · rw [hanswer] at h hcheck
      have hprovide := s.provider_begun w (w.checks.drop n) checked stopping
      cases hfailure : w.providerFailure with
      | none =>
        rw [hfailure] at h
        contradiction
      | some e =>
        rw [hfailure] at h hprovide
        exact ⟨.unprovided e, n, checked, stopping, hn, Except.error.inj h,
          .unprovided (.ready hmanaged hcheck) hprovide⟩

/-- **A pass that is not opened** does nothing but its check. -/
theorem sync_of_opening_error (now : Time.Timestamp) {ending : Except PassError PassOutcome}
    (h : s.opening w (s.assembled.status.read w).1 = .error ending) :
    ∃ n checked stopping, n ≤ 1 ∧
      s.assembled.sync now w = (ending, w.begun (w.checks.drop n) checked stopping) := by
  obtain ⟨o, n, checked, stopping, hn, rfl, hmeets⟩ := meets_of_opening now h
  exact ⟨n, checked, stopping, hn, hmeets.sync_eq⟩

/-- **Any other pass** comes to the work on objects, with scripts used up. -/
theorem reaches_of_opening (now : Time.Timestamp) {ds : List Desired}
    (h : s.opening w (s.assembled.status.read w).1 = .ok ds) :
    ∃ n checked stopping, n ≤ 1 ∧
      s.assembled.Reaches now w (.work ds) (w.begun (w.checks.drop n) checked stopping) := by
  obtain ⟨⟨state, hread, hmanaged⟩, hanswer, hprovided, rfl⟩ := opening_eq_ok_iff.mp h
  obtain ⟨n, checked, stopping, hn, hcheck⟩ := s.precondition_begun w
  rw [hanswer] at hcheck
  have hprovide := s.provider_begun w (w.checks.drop n) checked stopping
  rw [hprovided] at hprovide
  have hreaches : s.assembled.Reaches now w .check { w with reads := w.reads.tail } :=
    .managed .begin (Prod.ext hread (snd_read w)) hmanaged
  exact ⟨n, checked, stopping, hn, .provided (.ready hreaches hcheck) hprovide⟩

/-- **A pass that is opened** observes what is desired and reports. -/
theorem sync_of_opening_ok (now : Time.Timestamp) {ds : List Desired}
    (h : s.opening w (s.assembled.status.read w).1 = .ok ds) :
    ∃ n checked stopping, n ≤ 1 ∧
      let observed := s.assembled.observe ds (w.begun (w.checks.drop n) checked stopping)
      s.assembled.sync now w = s.assembled.report now (aggregate observed.1) observed.2 := by
  obtain ⟨n, checked, stopping, hn, hreaches⟩ := reaches_of_opening now h
  exact ⟨n, checked, stopping, hn, hreaches.sync_eq⟩

/-! ## On a stage in memory -/

/-- **Nothing hinders the next pass** of a stage in memory: the operator is to act, the precondition
holds, and provider and record work. -/
structure Unhindered (s : Stage) (w : World) : Prop where
  managed : w.status.state.managementState = .managed
  ready : s.answer w = .ok true
  provided : w.providerFailure = none
  readable : w.readError? = none
  writable : w.writeError? = none

/-- The record after a verdict was written at time `now`. -/
def reported (s : Stage) (now : Time.Timestamp) (v : Verdict) (state : OperatorState) :
    OperatorState :=
  if v.isAvailable && s.versionsInStatus then
    (state.setCondition (v.toCondition now)).setVersion s.component s.operandVersion
  else state.setCondition (v.toCondition now)

/-- The condition that states a verdict, after the verdict was written. -/
theorem condition?_reported (now : Time.Timestamp) (v : Verdict) (state : OperatorState) :
    (s.reported now v state).status.condition? Verdict.conditionType =
      some ((state.status.condition? Verdict.conditionType).elim (v.toCondition now)
        (·.supersede (v.toCondition now))) := by
  have h := state.status.condition?_setCondition (v.toCondition now)
  rw [reported]
  split
  · exact h
  · exact h

/-- The world after a verdict was written at time `now`. -/
def settled (s : Stage) (now : Time.Timestamp) (v : Verdict) (w : World) : World :=
  { w with
    writes := w.writes.tail
    status := { w.status with
      state := s.reported now v w.status.state
      writes := w.status.writes + 1 }
    versions := if v.isAvailable && !s.versionsInStatus then
      w.versions.record s.component s.operandVersion else w.versions }

section Memory

variable (hs : s.backend = .memory)

include hs

theorem registry_memory : s.assembled.registry = Cluster.registry.lift World.onCluster := by
  change s.registry = _
  rw [registry, hs]

theorem status_memory :
    s.assembled.status = World.scripted (MemoryStatus.store.lift World.onStatus) := by
  change World.scripted s.store = _
  rw [store, hs]

/-- The record is read, if reading does not fail. -/
theorem read_memory (w : World) : (s.assembled.status.read w).1 =
    w.readError?.elim (.ok w.status.state) .error := by
  rw [status_memory hs]
  rcases w with ⟨_, ⟨_, _ | _, _, _⟩, _, _, _, _, _, _, _ | ⟨_ | _, _⟩, _, _, _, _⟩ <;> rfl

/-- Where nothing hinders it a pass is opened. -/
theorem Unhindered.opening (h : s.Unhindered w) :
    s.opening w (s.assembled.status.read w).1 = .ok w.desired := by
  refine opening_eq_ok_iff.mpr ⟨⟨w.status.state, ?_, h.managed⟩, h.ready, h.provided, rfl⟩
  rw [read_memory hs, h.readable]
  rfl

/-- A condition is written, if writing does not fail. -/
theorem upsert_memory (c : OperatorCondition) (w : World) : s.assembled.status.upsert c w =
    match w.writeError? with
    | some e => (.error e, { w with writes := w.writes.tail })
    | none => (.ok (), { w with
        writes := w.writes.tail
        status := { w.status with
          state := w.status.state.setCondition c
          writes := w.status.writes + 1 } }) := by
  rw [status_memory hs]
  rcases w with ⟨_, ⟨_, _, _ | _, _⟩, _, _, _, _, _, _, _, _ | ⟨_ | _, _⟩, _, _, _⟩ <;> rfl

/-- **The second half of a pass, behind the objects**: the verdict is written, or nothing is. -/
theorem report_memory (now : Time.Timestamp) (v : Verdict) (w : World) :
    s.assembled.report now v w =
    match w.writeError? with
    | some e => (.error (.statusWriteFailed e), { w with writes := w.writes.tail })
    | none => (.ok (.reconciled v), s.settled now v w) := by
  rw [Reconciler.report]
  rw [bind_apply, upsert_memory hs]
  cases w.writeError? with
  | some e => rfl
  | none =>
    have hrec : s.assembled.recordVersion = s.recordVersion := rfl
    dsimp only
    rw [settled, reported]
    by_cases hv : v.isAvailable = true
    · rw [if_pos hv, bind_apply, hrec]
      rw [recordVersion]
      rw [hs]
      by_cases hst : s.versionsInStatus = true
      · simp only [hv, hst]
        rfl
      · simp only [hv, hst]
        rfl
    · simp only [hv]
      rfl

end Memory

/-- **What a pass comes to** that got to work on a world `w` in memory: the work left the registry
`c` and told `es`, and the verdict is `v`. -/
structure Concludes (s : Stage) (now : Time.Timestamp) (v : Verdict) (c : Cluster)
    (es : List Event) (w : World) (result : Except PassError PassOutcome) (w' : World) : Prop where
  result : result = w.writeError?.elim (.ok (.reconciled v)) (.error <| .statusWriteFailed ·)
  cluster : w'.cluster = c
  events : w'.events = s.told w.events es
  state : w'.status.state =
    w.writeError?.elim (s.reported now v w.status.state) fun _ => w.status.state
  versions : w'.versions = if w.writeError?.isNone && v.isAvailable && !s.versionsInStatus then
    w.versions.record s.component s.operandVersion else w.versions

theorem concludes_report (hs : s.backend = .memory) (now : Time.Timestamp) (v : Verdict)
    (c : Cluster) (es : List Event) (w : World) (checks : List Check) (checked : Nat)
    (stopping : Bool) :
    let p := s.assembled.report now v (s.moved (w.begun checks checked stopping) c es)
    s.Concludes now v c es w p.1 p.2 := by
  dsimp only
  rw [report_memory hs, writeError?_moved, World.writeError?_begun]
  cases hw : w.writeError? with
  | some e => constructor <;> simp [hw, World.begun, moved]
  | none => constructor <;> simp [hw, World.begun, moved, settled]

/-! ## A sample -/

/-- A stage in memory that lacks nothing and records versions with the conditions. -/
def complete : Stage := ⟨.memory, true, "openshift-apiserver", "4.2.0", []⟩

end Stage

namespace World

/-- The service of a group that the sample world desires. -/
def sample (group : String) : Desired := .new group "v1" ⟨"openshift-apiserver", "api"⟩

/-- An object that reports that it is down. -/
def down : ApiService :=
  (sample "build").toObject.withConditions [⟨"Available", .false, none, some "down\nfor now"⟩]

/-- **A world with troubles**: of the services that it desires, calls about the first are denied,
the object of the second says that it is down, and there is none of the third. -/
def troubled : World where
  cluster :=
    let denied (a : Action) : Reaction :=
      if a.name = "v1.route" then some (.error (.backend "denied")) else none
    (Cluster.ofObjects [down]).prepend (.ofFunction denied)
  status := .ofState .initial
  versions := .empty
  tree := .empty
  events := #[]
  desired := [sample "route", sample "build", sample "apps"]
  providerFailure := none
  checks := []
  reads := []
  writes := []
  checked := 0
  stopping := false
  readings := 0

/-- A world without reactors, in which a service is desired twice. -/
def doubled : World :=
  { troubled with
    cluster := .ofObjects [down]
    desired := [sample "apps", sample "build", sample "apps"] }

theorem stateless_troubled : troubled.cluster.Stateless := by
  rintro r hr
  obtain rfl := List.mem_singleton.mp hr
  exact Reactor.stateless_ofFunction _

theorem nodup_troubled : (troubled.desired.map (·.name)).Nodup := by decide

theorem unhindered_troubled : Stage.complete.Unhindered troubled := ⟨rfl, rfl, rfl, rfl, rfl⟩

end World

end ApiAvailability.Rehearsal
