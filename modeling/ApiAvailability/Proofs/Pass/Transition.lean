import ApiAvailability.Proofs.Operator.Transition
import ApiAvailability.Proofs.Pass.Repeat
import ApiAvailability.Proofs.Pass.Untouched
import ApiAvailability.Proofs.Store.StatusFile

/-!
# Proofs/Pass/Transition — a verdict keeps the time of its latest turn

A reconciler whose other parts leave the condition alone that passes write (`Reconciler.Writes`)
writes it with its verdicts, and in no other way (`Reconciler.Writes.sync`).  So the condition's time
is the reading of the clock in the pass that turned it last, whatever passes come to in between, in
memory and in the operator's file (`dates_latest_turn`).
-/

namespace ApiAvailability

open Files Rehearsal

variable {σ : Type}

/-! ## Reconcilers that write a condition -/

/-- The entry of a record that passes write their verdicts to. -/
def OperatorState.verdict? (state : OperatorState) : Option OperatorCondition :=
  state.status.condition? Verdict.conditionType

/-- **The entry of verdicts stands**, and an invariant with it. -/
def Standing (inv : σ → Prop) (record : σ → OperatorState) (w w' : σ) : Prop :=
  inv w → inv w' ∧ (record w').verdict? = (record w).verdict?

instance (inv : σ → Prop) (record : σ → OperatorState) : IsPreorder σ (Standing inv record) where
  refl _ hw := ⟨hw, rfl⟩
  trans _ _ _ h h' hw := ⟨(h' (h hw).1).1, (h' (h hw).1).2.trans (h hw).2⟩

/-- **What a pass at a certain time writes** where it finds an entry: its verdict, if it comes to
one. -/
def Writing.ofPass (now : Time.Timestamp) (found : Option OperatorCondition) :
    Except PassError PassOutcome → List Writing
  | .ok (.reconciled v) => [⟨found, v.toCondition now⟩]
  | _ => []

theorem Writing.ofPass_of_endsEarly {now : Time.Timestamp} {found : Option OperatorCondition}
    {result : Except PassError PassOutcome} (h : EndsEarly result) :
    ofPass now found result = [] := by
  rcases result with e | _ | v
  · rfl
  · rfl
  · exact h.elim

namespace Reconciler

variable {r : Reconciler (StateM σ)} {inv : σ → Prop} {record : σ → OperatorState}
  {now : Time.Timestamp} {w w' : σ} {ws : List Writing}

/-- **A reconciler writes its verdicts to a record**: its store holds that record, and all other
parts let the entry of verdicts stand. -/
structure Writes (r : Reconciler (StateM σ)) (inv : σ → Prop) (record : σ → OperatorState) :
    Prop where
  status : r.status.Holds inv record
  working : r.Working (Standing inv record)
  create : ∀ w ds, (r.provider w).1 = .ok ds →
    ∀ d ∈ ds, Keeps (Standing inv record) (r.registry.create d.toObject)
  recordVersion : ∀ component version,
    Keeps (Standing inv record) (r.recordVersion component version)

/-- **A pass writes its verdict, or lets the entry stand.** -/
theorem Writes.sync (h : r.Writes inv record) (hw : inv w) : inv (r.sync now w).2 ∧
    Follows (record w).verdict? (Writing.ofPass now (record w).verdict? (r.sync now w).1)
      (record (r.sync now w).2).verdict? := by
  have hwrite {v : Verdict} {w₁ : σ} (hreaches : r.Reaches now w (.write v) w₁) :
      Standing inv record w w₁ :=
    h.working.write (fun w₁ ds _ => h.create w₁ ds) hreaches
  rcases course r now w with ⟨o, w', hmeets⟩ | ⟨v, w', hconclude⟩
  · rw [hmeets.sync_eq]
    have hstands : Standing inv record w w' ∧
        Writing.ofPass now (record w).verdict? o.result = [] := by
      by_cases ho : o.IsEarly
      · exact ⟨h.working.meets hmeets ho,
          Writing.ofPass_of_endsEarly (Obstacle.endsEarly_result.mpr ho)⟩
      · cases hmeets with
        | unwritten hreaches hupsert =>
          refine ⟨fun hw => ?_, rfl⟩
          obtain ⟨hinv₁, hentry₁⟩ := hwrite hreaches hw
          obtain ⟨hinv, hrecord⟩ := h.status.refused hupsert hinv₁
          exact ⟨hinv, hrecord ▸ hentry₁⟩
        | _ => exact absurd trivial ho
    obtain ⟨hinv, hentry⟩ := hstands.1 hw
    rw [hstands.2, hentry]
    exact ⟨hinv, .none _⟩
  · rw [hconclude.sync_eq_concluded]
    cases hconclude with
    | @written _ w₁ _ hreaches hupsert =>
      obtain ⟨hinv₁, hentry₁⟩ := hwrite hreaches hw
      obtain ⟨hinv₂, hrecord⟩ := h.status.written hupsert hinv₁
      have hconcluded : Standing inv record w' (r.concluded v w') := by
        rw [concluded]
        split
        · exact h.recordVersion _ _ w'
        · exact refl w'
      obtain ⟨hinv, hentry⟩ := hconcluded hinv₂
      rw [hentry, ← hentry₁, hrecord]
      exact ⟨hinv, (record w₁).follows_setCondition (v.toCondition now)⟩

/-- **What happens to the entry of verdicts**: a pass, which is labelled with what it writes, or
anything else that lets the entry stand. -/
inductive Dating (r : Reconciler (StateM σ)) (inv : σ → Prop) (record : σ → OperatorState) :
    σ → List Writing → σ → Prop
  | pass (now : Time.Timestamp) (w : σ) : Dating r inv record w
      (Writing.ofPass now (record w).verdict? (r.sync now w).1) (r.sync now w).2
  | other {w w' : σ} (h : Standing inv record w w') : Dating r inv record w [] w'

/-- **Any run of passes.** -/
theorem Writes.follows (h : r.Writes inv record) (hsteps : Steps (r.Dating inv record) w ws w')
    (hw : inv w) : Follows (record w).verdict? ws (record w').verdict? := by
  refine @Steps.follows _ _ inv (fun w => (record w).verdict?) _ _ _
    (fun w ws w' hstep hw => ?_) hsteps hw
  cases hstep with
  | pass now w => exact h.sync hw
  | other hstands =>
    obtain ⟨hinv, hentry⟩ := hstands hw
    rw [hentry]
    exact ⟨hinv, .none _⟩

end Reconciler

/-! ## With stores in memory -/

/-- The operator's record in a world. -/
def Rehearsal.World.record (w : World) : OperatorState := w.status.state

/-- **A reconciler on a stage in memory writes its verdicts to the record.** -/
theorem Rehearsal.Stage.writes_assembled {s : Stage} (hs : s.backend = .memory) :
    s.assembled.Writes (fun _ => True) World.record := by
  let inv (_ : World) : Prop := True
  have hstands {w w' : World} (h : w'.record.verdict? = w.record.verdict?) :
      Standing inv World.record w w' := fun _ => ⟨trivial, h⟩
  have hstatus {w w' : World} (h : w'.status = w.status) : w'.record = w.record :=
    congrArg MemoryStatus.state h
  have hget (name : String) : Keeps (Standing inv World.record) (s.registry.get name) := by
    intro w
    rw [registry, hs]
    exact hstands rfl
  refine ⟨⟨?_, ?_⟩, ?_, ?_, ?_⟩
  · intro c w w' hupsert _
    exact ⟨trivial, (status_of_upsert_ok hs hupsert).1⟩
  · intro c e w w' hupsert _
    exact ⟨trivial, hstatus (status_of_upsert_error hs hupsert).1⟩
  · exact working_assembled (fun w w' h => hstands (congrArg _ (hstatus h.status))) hget
  · intro _ ds _ d _ w
    change Standing inv World.record w (s.registry.create d.toObject w).2
    rw [registry, hs]
    exact hstands rfl
  · intro component version w
    refine hstands ?_
    rw [recordVersion_memory hs]
    split <;> rfl

/-! ## On the operator's file -/

namespace StatusFile

variable {s : StatusFile} {t t' : Tree} {home : Place}

/-- The record that the file holds, and the initial one if it cannot be read. -/
def record (s : StatusFile) (t : Tree) : OperatorState :=
  (s.load Tree.system t).1.toOption.getD .initial

/-- **The file is found** if it is there: no directory is missing on the way to it, and the system
takes its path. -/
structure IsFound (s : StatusFile) (home : Place) (t : Tree) : Prop where
  home_eq : t.home = home
  read : ∀ content, t.lookup (s.path.place home) = some (.file content) →
    t.read s.path = .ok content

theorem record_of_read {content : ByteArray} (h : t.read s.path = .ok content) :
    s.record t = ((Json.Value.ofBytes? content).bind OperatorState.ofJson?).getD .initial := by
  have hread : Tree.system.read s.path t = (.ok content, t) := Prod.ext h rfl
  rw [record, load, bind_apply, hread]
  dsimp only
  cases (Json.Value.ofBytes? content).bind OperatorState.ofJson? <;> rfl

theorem record_of_read_error {e : FileError} (h : t.read s.path = .error e) :
    s.record t = .initial := by
  have hread : Tree.system.read s.path t = (.error e, t) := Prod.ext h rfl
  rw [record, load, bind_apply, hread]
  cases e <;> rfl

/-- Records are the same in files that read the same. -/
theorem record_congr (h : ∀ content, t'.read s.path = .ok content ↔ t.read s.path = .ok content) :
    s.record t' = s.record t := by
  cases hread : t.read s.path with
  | ok content => rw [record_of_read hread, record_of_read ((h content).mpr hread)]
  | error e =>
    cases hread' : t'.read s.path with
    | ok content =>
      rw [(h content).mp hread'] at hread
      contradiction
    | error e' => rw [record_of_read_error hread, record_of_read_error hread']

/-- **A file is as before**: it is found, and holds the record that it held. -/
def Same (s : StatusFile) (home : Place) (t t' : Tree) : Prop :=
  s.IsFound home t → s.IsFound home t' ∧ s.record t' = s.record t

instance (s : StatusFile) (home : Place) : IsPreorder Tree (s.Same home) where
  refl _ ht := ⟨ht, rfl⟩
  trans _ _ _ h h' ht := ⟨(h' (h ht).1).1, (h' (h ht).1).2.trans (h ht).2⟩

theorem Same.standing (h : s.Same home t t') : Standing (s.IsFound home) s.record t t' :=
  fun ht => ⟨(h ht).1, congrArg OperatorState.verdict? (h ht).2⟩

section Same

variable {own : List Place} {may : Place → Node → Prop} (hown : s.path.place home ∉ own)
  (hmay : ∀ content, ¬ may (s.path.place home) (.file content))

include hown hmay

/-- **A file that is not written to is as before**, where no directory goes. -/
theorem same_of_extends (hextends : Tree.Extends home own may t t') (hpaves : t.Paves t') :
    s.Same home t t' := by
  intro hfound
  obtain ⟨hhome, hgrows⟩ := hextends hfound.home_eq
  have hlookup (content : ByteArray) : t'.lookup (s.path.place home) = some (.file content) ↔
      t.lookup (s.path.place home) = some (.file content) :=
    Tree.lookup_file_iff_of_grows hgrows hown (hmay content)
  have hread (content : ByteArray) (h : t.read s.path = .ok content) :
      t'.read s.path = .ok content := by
    have hthere := (Tree.read_eq_ok h).2
    rw [hfound.home_eq] at hthere
    refine hpaves.read h ?_
    rw [hfound.home_eq]
    exact (hlookup content).mpr hthere
  refine ⟨⟨hhome, fun content h => hread content
    (hfound.read content ((hlookup content).mp h))⟩, ?_⟩
  refine record_congr fun content => ⟨fun h => ?_, hread content⟩
  have hthere := (Tree.read_eq_ok h).2
  rw [hhome] at hthere
  exact hfound.read content ((hlookup content).mp hthere)

theorem keeping_same (hdirectory : ∀ q, may q .directory) :
    Tree.system.Keeping home own may (s.Same home) := by
  have hextends : Tree.system.Keeping home own may (Tree.Extends home own may) :=
    Tree.keeping_system hdirectory
  have hpaves := Tree.keeping_paves home own may
  have hboth {α : Type} {x : StateM Tree α} (h : Keeps (Tree.Extends home own may) x)
      (h' : Keeps Tree.Paves x) : Keeps (s.Same home) x :=
    fun t => same_of_extends hown hmay (h t) (h' t)
  exact {
    read := fun p => hboth (hextends.read p) (hpaves.read p)
    isDirectory := fun p => hboth (hextends.isDirectory p) (hpaves.isDirectory p)
    makeDir := fun p => hboth (hextends.makeDir p) (hpaves.makeDir p)
    createNew := fun p content h => hboth (hextends.createNew p content h)
      (hpaves.createNew p content h)
    write := fun p content h => hboth (hextends.write p content h) (hpaves.write p content h)
    rename := fun p p' h h' => hboth (hextends.rename p p' h h') (hpaves.rename p p' h h') }

end Same

/-- **A change of the record that succeeds** is a change of what the file held. -/
theorem record_of_update {change : OperatorState → OperatorState}
    (h : s.update Tree.system change t = (.ok (), t')) (hhome : t.home = home) :
    s.IsFound home t' ∧ s.record t' = change (s.record t) := by
  have hhome' : t'.home = home := by
    have hpaves : t.Paves t' := (s.update_keeps
      (Tree.keeping_paves t.home (s.places t.home) fun _ _ => True) (fun _ hq => hq) change).of_eq h
    exact hpaves.home.trans hhome
  obtain ⟨state, hload, hsave⟩ := update_eq_ok h
  have hread : t'.read s.path = .ok (document (change state)).toUTF8 := read_of_save hsave
  refine ⟨⟨hhome', fun content hcontent => ?_⟩, ?_⟩
  · have hthere := (Tree.read_eq_ok hread).2
    rw [hhome', hcontent] at hthere
    rw [hread, Node.file.inj (Option.some.inj hthere)]
  · rw [record_of_read hread, document, (change state).denotes.of_bytes, record, hload]
    rfl

end StatusFile

namespace App

variable {c : Config} {dir : Files.Path} {app : App (StateM Tree)}

/-- **The operator writes its verdicts to its file.** -/
theorem writes_reconciler (h : App.new Tree.system (fun _ => pure ()) c dir = .ok app)
    (home : Place) :
    app.reconciler.Writes (app.statusFile.IsFound home) app.statusFile.record := by
  let file : StatusFile := ⟨dir.join statusName⟩
  have hfile : app.statusFile = file := congrArg App.statusFile (Except.ok.inj h).symm
  let own := [file.temporary.place home]
  let may := Directory.IsNewIn ⟨dir.join objectsName⟩ home c.desired
  have hown : file.path.place home ∉ own := not_mem_temporary dir home
  have hmay (content : ByteArray) : ¬ may (file.path.place home) (.file content) :=
    not_isNewIn dir home c.desired content
  have hfs : Tree.system.Keeping home own may (file.Same home) :=
    StatusFile.keeping_same hown hmay fun _ => .inl rfl
  have hrefused (change : OperatorState → OperatorState) :
      Spares (file.Same home) (file.update Tree.system change) :=
    file.update_spares hfs List.mem_cons_self Tree.rename_spares change
  have hstanding : Tree.system.Keeping home own may (Standing (file.IsFound home) file.record) :=
    hfs.mono fun t t' h => h.standing
  rw [hfile]
  refine ⟨⟨?_, ?_⟩, working h hstanding,
    fun t ds => create_keeps h hstanding t ds (refl t), ?_⟩
  · rw [reconciler_eq h]
    exact fun hupsert hfound => StatusFile.record_of_update hupsert hfound.home_eq
  · rw [reconciler_eq h]
    exact fun hupsert hfound => hrefused _ _ _ _ hupsert hfound
  · rw [reconciler_eq h]
    intro component version t hfound
    change StatusFile.IsFound file home (file.setVersion Tree.system component version t).2 ∧
      (file.record (file.setVersion Tree.system component version t).2).verdict? =
        (file.record t).verdict?
    rw [StatusFile.setVersion, bind_apply]
    rcases hupdate : file.update Tree.system (·.setVersion component version) t with ⟨e | u, t'⟩
    · exact (hrefused _ e t t' hupdate).standing hfound
    · obtain ⟨hfound', hrecord⟩ := StatusFile.record_of_update hupdate hfound.home_eq
      have hverdict := congrArg OperatorState.verdict? hrecord
      exact ⟨hfound', hverdict⟩

end App

/-! ## Runs -/

/-- **A condition's time is that of its latest turn.**  Over any run of passes of a reconciler in
memory, and of the operator on its file if that is found, in which nobody else touches the entry of
verdicts: if some pass writes another status than is stored, or none is stored, the time is the
reading of the clock in the earliest pass since which all verdicts have had the same status, and
otherwise it is the time of the first entry.  The same goes for the entry of every type over any
writes to the store, and a write says that it changes nothing if and only if the first entry of its
type says the same.

`IsFound` leaves out files that are there and that the system does not find by their path: behind
two dots that follow a missing directory or a file, as with the directory `x/..` where `x` is
missing, and by a path that it refuses for its length.  A file that is missing counts as found, and
so does one that cannot be decoded. -/
theorem dates_latest_turn :
    (∀ {s : Stage} {r : Reconciler (StateM World)}, s.backend = .memory → s.reconciler = .ok r →
      ∀ {w w' : World} {ws : List Writing},
      (Steps (r.Dating (fun _ => True) World.record) w ws w' →
        Dates w.record.verdict? ws w'.record.verdict?) ∧
      ∀ type, Steps (r.status.Upserting World.record type) w ws w' →
        Dates (w.record.status.condition? type) ws (w'.record.status.condition? type)) ∧
    (∀ {c : Config} {dir : Files.Path} {app : App (StateM Tree)},
      App.new Tree.system (fun _ => pure ()) c dir = .ok app →
      let file := app.statusFile
      ∀ {home : Place} {t t' : Tree} {ws : List Writing}, file.IsFound home t →
      (Steps (app.reconciler.Dating (file.IsFound home) file.record) t ws t' →
        Dates (file.record t).verdict? ws (file.record t').verdict?) ∧
      ∀ type, Steps (app.reconciler.status.Upserting file.record type) t ws t' →
        Dates ((file.record t).status.condition? type) ws
          ((file.record t').status.condition? type)) ∧
    ∀ (status : OperatorStatus) (c : OperatorCondition), status.isChangedBy c = false ↔
      ∃ old, status.condition? c.type = some old ∧ old.type = c.type ∧ old.status = c.status ∧
        old.reason = c.reason ∧ old.message = c.message := by
  refine ⟨?_, ?_, fun status c => OperatorStatus.isChangedBy_eq_false⟩
  · intro s r hs hr w w' ws
    obtain rfl := Stage.eq_assembled hr
    have hwrites := Stage.writes_assembled hs
    exact ⟨fun hsteps => (hwrites.follows hsteps trivial).dates,
      fun type hsteps => (hwrites.status.follows hsteps trivial).dates⟩
  · intro c dir app happ file home t t' ws hfound
    have hwrites := App.writes_reconciler happ home
    exact ⟨fun hsteps => (hwrites.follows hsteps hfound).dates,
      fun type hsteps => (hwrites.status.follows hsteps hfound).dates⟩

/-- A world with nothing to do, in which the last verdict was negative. -/
def Rehearsal.World.recovering : World :=
  { World.empty with
    status := .ofState ⟨.managed,
      ⟨[⟨Verdict.conditionType, .false, none, none, World.time 0⟩], []⟩⟩ }

/-- Of two positive verdicts after a negative one the first gives the time, and one write of another
condition gives its own. -/
theorem dates_latest_turn_recovering :
    let r := Stage.complete.assembled
    (let w := (r.sync (World.time 1) .recovering).2
     (r.sync (World.time 2) w).2.record.verdict?.map (·.lastTransitionTime) =
       some (World.time 1)) ∧
    (let degraded : OperatorCondition := ⟨"Degraded", .true, none, none, World.time 3⟩
     let w := (r.status.upsert degraded .recovering).2
     Dates none [⟨none, degraded⟩] (w.record.status.condition? "Degraded")) ∧
    ∃ app, App.new Tree.system (fun _ => pure ()) Config.single ⟨"/var"⟩ = .ok app ∧
      let synced := app.reconciler.sync (World.time 1) Tree.littered
      Dates none (Writing.ofPass (World.time 1) none synced.1)
        (app.statusFile.record synced.2).verdict? := by
  obtain ⟨hmemory, hoperator, -⟩ := dates_latest_turn
  have hs : Stage.complete.backend = .memory := rfl
  have hr := Stage.complete.reconciler_of_without rfl
  refine ⟨?_, ?_, ?_⟩
  · intro w
    let r := Stage.complete.assembled
    have hsteady : Stage.complete.Steady 1 World.recovering := Stage.steady_of_eq_nil rfl rfl rfl
    have hunhindered : Stage.complete.Unhindered World.recovering := ⟨rfl, rfl, rfl, rfl, rfl⟩
    have hstateless : World.recovering.cluster.Stateless := fun _ h => absurd h List.not_mem_nil
    have hnodup : (World.recovering.desired.map (·.name)).Nodup := List.nodup_nil
    have hfirst : (r.sync (World.time 1) .recovering).1 = .ok (.reconciled (aggregate [])) :=
      (sync_memory hs hstateless hnodup (hunhindered.opening hs) _).result
    have hsecond : (r.sync (World.time 2) w).1 = .ok (.reconciled (aggregate [])) :=
      (sync_again hs hstateless hnodup hsteady (World.time 1) (World.time 2)).2.1.trans hfirst
    have hpass (now : Time.Timestamp) (w : World) {ws : List Writing} {w' : World}
        (rest : Steps (r.Dating (fun _ => True) World.record) (r.sync now w).2 ws w') :
        Steps (r.Dating (fun _ => True) World.record) w
          (Writing.ofPass now w.record.verdict? (r.sync now w).1 ++ ws) w' :=
      .one (.pass now w) rest
    have hsteps := hpass (World.time 1) .recovering (hpass (World.time 2) w (.none _))
    rw [hfirst, hsecond] at hsteps
    have hdates := (hmemory hs hr).1 hsteps
    have hpositive : (aggregate []).status = .true := of_decide_eq_true (isAvailable_aggregate [])
    have hturns : (Writing.mk World.recovering.record.verdict?
        ((aggregate []).toCondition (World.time 1))).Turns := by
      rw [Writing.Turns, Verdict.toCondition, hpositive]
      decide
    obtain ⟨before, c, after, hsettles, htime⟩ := hdates.turned ⟨_, List.mem_cons_self, hturns⟩
    have hbefore : before = [] := by
      have hearliest := hsettles.earliest [] _ _ rfl fun w'' hw'' => by
        rw [List.mem_singleton.mp hw'']
        rfl
      exact List.length_eq_zero_iff.mp (Nat.le_zero.mp hearliest)
    obtain ⟨rfl, -⟩ := List.cons.inj (hbefore ▸ hsettles.eq)
    exact htime
  · intro degraded w
    have hwritten : Stage.complete.assembled.status.upsert degraded .recovering = (.ok (), w) := rfl
    exact (hmemory hs hr).2 "Degraded" (.one (.written rfl hwritten) (.none w))
  · obtain ⟨app, happ⟩ : ∃ app,
        App.new Tree.system (fun _ => pure ()) Config.single ⟨"/var"⟩ = .ok app := ⟨_, rfl⟩
    have hfile : app.statusFile.path = ⟨"/var/status.json"⟩ := by
      have hnew := congrArg (·.statusFile.path) (Except.ok.inj happ).symm
      exact hnew.trans (by decide +kernel)
    have hread : Tree.littered.read app.statusFile.path = .error .notFound := by
      rw [hfile]
      rfl
    have hfound : app.statusFile.IsFound [] Tree.littered := by
      refine ⟨rfl, fun content hcontent => ?_⟩
      have hnone : Tree.littered.lookup (Path.place [] ⟨"/var/status.json"⟩) = none := by
        decide +kernel
      rw [hfile, hnone] at hcontent
      contradiction
    have hdates := (hoperator happ hfound).1 (.one (.pass (World.time 1) _) (.none _))
    rw [List.append_nil, StatusFile.record_of_read_error hread] at hdates
    exact ⟨app, happ, hdates⟩

end ApiAvailability
