import ApiAvailability.Proofs.Pass.Fate
import ApiAvailability.Proofs.Pass.Growth

/-!
# Proofs/Rehearsal/Steady — worlds in which nothing changes but by passes

A pass leaves the settings of a world as they are and uses up scripts (`Stage.follows_sync`).  In a
world that is steady the scripts ask for the same at every pass, so that each pass gets as far as
the one before it (`Steady.opening_eq`, `Steady.writeError?_eq`).
-/

namespace ApiAvailability.Rehearsal

/-- **A world follows on another**: its settings are the same, and what its scripts say is what is
left of the other's after some reads and writes and at most one check. -/
structure World.Follows (w w' : World) : Prop where
  desired : w'.desired = w.desired
  providerFailure : w'.providerFailure = w.providerFailure
  managementState : w'.status.state.managementState = w.status.state.managementState
  readFailure : w'.status.readFailure = w.status.readFailure
  writeFailure : w'.status.writeFailure = w.status.writeFailure
  reads : ∃ n, w'.reads = w.reads.drop n
  writes : ∃ n, w'.writes = w.writes.drop n
  checks : ∃ n ≤ 1, w'.checks = w.checks.drop n

namespace Stage

variable {s : Stage} {w w' : World} {n : Nat}

/-- **A world is steady** for the next `n` passes: reading and writing the record never fails, or
always, and the precondition always says the same. -/
structure Steady (s : Stage) (n : Nat) (w : World) : Prop where
  reads : w.reads = []
  writes : w.writes = []
  answers : ∀ i ≤ n, s.answer { w with checks := w.checks.drop i } = s.answer w

/-- A world without scripts is steady. -/
theorem steady_of_eq_nil (hreads : w.reads = []) (hwrites : w.writes = [])
    (hchecks : w.checks = []) : s.Steady n w := by
  refine ⟨hreads, hwrites, fun i _ => ?_⟩
  unfold answer
  rw [hchecks, List.drop_nil]

namespace Steady

variable (h : s.Steady (n + 1) w) (hw' : w.Follows w')

include h hw'

theorem answer_eq : s.answer w' = s.answer w := by
  obtain ⟨i, hi, hchecks⟩ := hw'.checks
  rw [← h.answers i (Nat.le_add_left_of_le hi)]
  unfold answer
  rw [hchecks]

/-- A world stays steady, for one pass less. -/
theorem follows : s.Steady n w' := by
  obtain ⟨i, hreads⟩ := hw'.reads
  obtain ⟨j, hwrites⟩ := hw'.writes
  obtain ⟨k, hk, hchecks⟩ := hw'.checks
  refine ⟨by rw [hreads, h.reads, List.drop_nil], by rw [hwrites, h.writes, List.drop_nil], ?_⟩
  intro l hl
  rw [hchecks, List.drop_drop, h.answer_eq hw']
  exact h.answers (k + l) (by omega)

theorem readError?_eq : w'.readError? = w.readError? := by
  obtain ⟨i, hi⟩ := hw'.reads
  rw [World.readError?, World.readError?, hi, h.reads, hw'.readFailure, List.drop_nil]

theorem writeError?_eq : w'.writeError? = w.writeError? := by
  obtain ⟨i, hi⟩ := hw'.writes
  rw [World.writeError?, World.writeError?, hi, h.writes, hw'.writeFailure, List.drop_nil]

/-- In a steady world nothing comes to hinder a pass. -/
theorem unhindered (hw : s.Unhindered w) : s.Unhindered w' where
  managed := hw'.managementState.trans hw.managed
  ready := (h.answer_eq hw').trans hw.ready
  provided := hw'.providerFailure.trans hw.provided
  readable := (h.readError?_eq hw').trans hw.readable
  writable := (h.writeError?_eq hw').trans hw.writable

/-- **In a steady world each pass gets as far as the one before.** -/
theorem opening_eq (hs : s.backend = .memory) :
    s.opening w' (s.assembled.status.read w').1 = s.opening w (s.assembled.status.read w).1 := by
  rw [read_memory hs, read_memory hs, h.readError?_eq hw']
  unfold opening
  rw [h.answer_eq hw', hw'.providerFailure, hw'.desired]
  cases w.readError? with
  | some e => rfl
  | none =>
    dsimp only [Option.elim_none]
    rw [hw'.managementState]

end Steady

/-! ## What a pass leaves behind -/

section Memory

variable (hs : s.backend = .memory)

include hs

/-- The work on objects moves a world. -/
theorem observe_moved (ds : List Desired) (w : World) :
    ∃ c es, (s.assembled.observe ds w).2 = s.moved w c es := by
  let R (w w' : World) : Prop := ∃ c es, w' = s.moved w c es
  have hpreorder : IsPreorder World R := {
    refl := fun w => ⟨w.cluster, [], by rw [moved, told_nil]⟩
    trans := by
      rintro w _ _ ⟨c, es, rfl⟩ ⟨c', es', rfl⟩
      exact ⟨c', es ++ es', moved_moved c c' es es'⟩ }
  have hget (name : String) : Keeps R (s.assembled.registry.get name) := fun w =>
    ⟨_, _, congrArg Prod.snd (Desired.get_memory hs name w)⟩
  have hcreate (o : ApiService) : Keeps R (s.assembled.registry.create o) := fun w =>
    ⟨_, _, congrArg Prod.snd (Desired.create_memory hs o w)⟩
  have hrecord (e : Event) : Keeps R (s.assembled.recordEvent e) := fun w =>
    ⟨_, _, congrArg Prod.snd (recordEvent_assembled e w)⟩
  exact observe_keeps (fun d _ => Desired.ensure_keeps hget hrecord (hcreate d.toObject))
    (fun d => Desired.fetch_keeps hget) w

/-- **A pass leaves a world that follows on the one before.** -/
theorem follows_sync (now : Time.Timestamp) (w : World) :
    w.Follows (s.assembled.sync now w).2 := by
  have htail {α : Type} (xs : List α) : ∃ n, xs.tail = xs.drop n := ⟨1, List.drop_one.symm⟩
  rcases h : s.opening w (s.assembled.status.read w).1 with ending | ds
  · obtain ⟨n, checked, stopping, hn, hsync⟩ := sync_of_opening_error now h
    rw [hsync]
    exact ⟨rfl, rfl, rfl, rfl, rfl, htail _, ⟨0, rfl⟩, n, hn, rfl⟩
  · obtain ⟨n, checked, stopping, hn, hsync⟩ := sync_of_opening_ok now h
    obtain ⟨c, es, hmoved⟩ := observe_moved hs ds (w.begun (w.checks.drop n) checked stopping)
    rw [hsync, hmoved, report_memory hs]
    split
    · exact ⟨rfl, rfl, rfl, rfl, rfl, htail _, htail _, n, hn, rfl⟩
    · refine ⟨rfl, rfl, ?_, rfl, rfl, htail _, htail _, n, hn, rfl⟩
      rw [settled, reported]
      split <;> rfl

end Memory

end Stage

end ApiAvailability.Rehearsal
