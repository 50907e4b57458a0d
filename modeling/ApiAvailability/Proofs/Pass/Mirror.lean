import ApiAvailability.Pass.Reconciler
import ApiAvailability.Proofs.Effects

/-!
# Proofs/Pass/Mirror — a pass sees of a state what its collaborators show

If all that a reconciler calls does the same on a larger state, then so does its pass
(`Reconciler.Mirrors.sync`).  So a state may be given a part that a pass does not see, such as a
record of what the pass does.
-/

namespace ApiAvailability

variable {σ τ : Type} {view : τ → σ}

/-! ## The work on objects -/

section Work

variable {registry' : Registry (StateM τ)} {registry : Registry (StateM σ)}
  {record' : Event → StateM τ Unit} {record : Event → StateM σ Unit}
  (hget : ∀ name, Mirrors view (registry'.get name) (registry.get name))
  (hcreate : ∀ o, Mirrors view (registry'.create o) (registry.create o))
  (hrecord : ∀ e, Mirrors view (record' e) (record e))

namespace Desired

variable (d : Desired)

include hget hrecord in
/-- Looking for an object mirrors the other, if calls and events do. -/
theorem look_mirrors : Mirrors view (d.look registry' record') (d.look registry record) := by
  refine (hget d.name).bind fun answer => ?_
  cases answer with
  | ok o => exact .pure _
  | error e =>
    dsimp only
    split
    · exact .pure _
    · exact (hrecord _).bind fun _ => .pure _

include hcreate hrecord in
theorem make_mirrors : Mirrors view (d.make registry' record') (d.make registry record) := by
  refine (hcreate d.toObject).bind fun answer => ?_
  cases answer with
  | ok o => exact (hrecord _).bind fun _ => .pure _
  | error e =>
    dsimp only
    split
    · exact .pure _
    · exact (hrecord _).bind fun _ => .pure _

include hget hcreate hrecord in
theorem ensure_mirrors : Mirrors view (d.ensure registry' record') (d.ensure registry record) := by
  refine (look_mirrors hget hrecord d).bind fun found => ?_
  cases found with
  | some result => exact .pure result
  | none => exact make_mirrors hcreate hrecord d

include hget in
theorem fetch_mirrors : Mirrors view (d.fetch registry') (d.fetch registry) := by
  refine (hget d.name).bind fun answer => ?_
  cases answer <;> exact .pure _

end Desired

include hget hcreate hrecord in
/-- The work on some desired services mirrors the other, if calls and events do. -/
theorem observe_mirrors (ds : List Desired) :
    Mirrors view (observe registry' record' ds) (observe registry record ds) := by
  have hensure : Mirrors view (ensureAll registry' record' ds) (ensureAll registry record ds) :=
    .mapM (fun d => (d.ensure_mirrors hget hcreate hrecord).bind fun _ => .pure _) ds
  have hfetch (ds : List Desired) : Mirrors view (fetchAll registry' ds) (fetchAll registry ds) :=
    .mapM (fun d => (d.fetch_mirrors hget).bind fun _ => .pure _) ds
  exact hensure.bind fun ensured => (hfetch _).bind fun fetched => .pure _

end Work

/-! ## The pass -/

namespace Reconciler

/-- **A reconciler mirrors another** if all that it calls does, and it records the same. -/
structure Mirrors (view : τ → σ) (r' : Reconciler (StateM τ)) (r : Reconciler (StateM σ)) :
    Prop where
  get : ∀ name, ApiAvailability.Mirrors view (r'.registry.get name) (r.registry.get name)
  create : ∀ o, ApiAvailability.Mirrors view (r'.registry.create o) (r.registry.create o)
  provider : ApiAvailability.Mirrors view r'.provider r.provider
  precondition : ApiAvailability.Mirrors view r'.precondition r.precondition
  read : ApiAvailability.Mirrors view r'.status.read r.status.read
  upsert : ∀ c, ApiAvailability.Mirrors view (r'.status.upsert c) (r.status.upsert c)
  recordVersion : ∀ component version,
    ApiAvailability.Mirrors view (r'.recordVersion component version)
      (r.recordVersion component version)
  recordEvent : ∀ e, ApiAvailability.Mirrors view (r'.recordEvent e) (r.recordEvent e)
  component : r'.component = r.component
  operandVersion : r'.operandVersion = r.operandVersion

namespace Mirrors

variable {r' : Reconciler (StateM τ)} {r : Reconciler (StateM σ)} (h : r'.Mirrors view r)

include h

theorem report (now : Time.Timestamp) (v : Verdict) :
    ApiAvailability.Mirrors view (r'.report now v) (r.report now v) := by
  refine (h.upsert _).bind fun written => ?_
  cases written with
  | error e => exact .pure _
  | ok u =>
    dsimp only
    rw [h.component, h.operandVersion]
    split
    · exact (h.recordVersion _ _).bind fun _ => .pure _
    · exact .pure _

/-- **A pass of a reconciler mirrors the pass of the other.** -/
theorem sync (now : Time.Timestamp) :
    ApiAvailability.Mirrors view (r'.sync now) (r.sync now) := by
  refine h.read.bind fun read => ?_
  rcases read with e | state
  · exact .pure _
  dsimp only
  cases state.managementState.skip? with
  | some reason => exact .pure _
  | none =>
    refine h.precondition.bind fun check => ?_
    rcases check with e | _ | _
    · exact .pure _
    · exact .pure _
    refine h.provider.bind fun provided => ?_
    rcases provided with e | ds
    · exact .pure _
    · exact (observe_mirrors h.get h.create h.recordEvent ds).bind fun os =>
        h.report now (aggregate os)

end Mirrors

end Reconciler

end ApiAvailability
