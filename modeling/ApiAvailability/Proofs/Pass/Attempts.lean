import ApiAvailability.Proofs.Heard
import ApiAvailability.Proofs.Observation.Lines
import ApiAvailability.Proofs.Pass.Due
import ApiAvailability.Proofs.Pass.Independence
import ApiAvailability.Proofs.Pass.Listening

/-!
# Proofs/Pass/Attempts — what becomes of each entry, whatever the registry answers

A registry may answer as it likes: with regard to all calls so far, in contradiction to itself, with
objects of another name.  Still a pass makes one attempt for each entry, also where entries have one
name.  An attempt is the calls that are made for the entry and what they were answered; it ends with
reading the object back, exactly if it could be made sure of (`Attempt.isSome_answer?`).

From what each job tells, as far as it has come (`Ensuring.telling`, `fetch_telling`), attempts
are put together that account for all that is heard and all that is observed (`exists_account`,
`exists_account_of_mem`); and a verdict is positive exactly if each of them found an API service that
is serving (`Attempt.Account.isAvailable_iff`).
-/

namespace ApiAvailability

/-! ## Attempts -/

/-- **What is heard of making sure of an object**, for each way it can go. -/
inductive Fate.Heard (d : Desired) : Fate → List Note → Prop
  | found (o : ApiService) : Heard d found [.call (.get d.name) (.ok o)]
  | unreadable {e : StoreError} (he : e.isNotFound = false) : Heard d (unreadable e)
      [.call (.get d.name) (.error e), .event ⟨.warning, "ApiServiceGetFailed",
        "Failed to read APIService " ++ d.name ++ ": " ++ e.message⟩]
  | created {e : StoreError} (he : e.isNotFound = true) (o : ApiService) : Heard d created
      [.call (.get d.name) (.error e), .call (.create d.toObject) (.ok o),
        .event ⟨.normal, "ApiServiceCreated",
          "Created APIService " ++ d.name ++ " because it was missing"⟩]
  | preceded {e e' : StoreError} (he : e.isNotFound = true) (he' : e'.isAlreadyExists = true) :
      Heard d preceded [.call (.get d.name) (.error e), .call (.create d.toObject) (.error e')]
  | refused {e e' : StoreError} (he : e.isNotFound = true) (he' : e'.isAlreadyExists = false) :
      Heard d (refused e')
        [.call (.get d.name) (.error e), .call (.create d.toObject) (.error e'),
          .event ⟨.warning, "ApiServiceCreateFailed",
            "Failed to create APIService " ++ d.name ++ ": " ++ e'.message⟩]

/-- **An attempt** to learn whether the API service of an entry is available. -/
structure Attempt where
  entry : Desired
  /-- How making sure of the object went. -/
  fate : Fate
  /-- What was heard meanwhile. -/
  ensuring : List Note
  heard : fate.Heard entry ensuring
  /-- What reading the object back was answered, if it was read back. -/
  answer? : Option (Except StoreError ApiService)
  /-- It is read back exactly if it could be made sure of. -/
  isSome_answer? : answer?.isSome = fate.failure?.isNone

/-- **What the answer to reading an object back means.** -/
def Outcome.ofAnswer : Except StoreError ApiService → Outcome
  | .error e => fetchFailed e.message
  | .ok o =>
    match o.availableCondition? with
    | none => unavailable "no Available condition reported"
    | some c => if c.status = .true then available else unavailable (c.message.getD "")

theorem Outcome.ofFetched_map (answer : Except StoreError ApiService) :
    ofFetched (answer.map .ofObject) = ofAnswer answer := by
  rcases answer with e | o
  · rfl
  · change ofFetched (.ok (.ofObject o)) = _
    rw [Health.ofObject, ofAnswer]
    cases o.availableCondition? with
    | none => rfl
    | some c =>
      by_cases hc : c.status = .true
      · simp only [hc, if_true, ofFetched]
      · simp only [hc, if_false, ofFetched]

theorem Outcome.ofAnswer_eq_available_iff {answer : Except StoreError ApiService} :
    ofAnswer answer = available ↔ ∃ o c, answer = .ok o ∧ o.availableCondition? = some c ∧
      c.status = .true := by
  rcases answer with e | o
  · simp [ofAnswer]
  · cases h : o.availableCondition? with
    | none => simp [ofAnswer, h]
    | some c => by_cases hc : c.status = .true <;> simp [ofAnswer, h, hc]

namespace Attempt

/-- What is heard of reading the object back. -/
def reading (a : Attempt) : List Note := a.answer?.toList.map (.call (.get a.entry.name))

/-- The observation that is made if the object could not be made sure of. -/
def givenUp? (a : Attempt) : Option Observation :=
  a.fate.failure?.map fun e => ⟨a.entry.name, .ensureFailed e.message⟩

/-- The observation that is made if the object was read back. -/
def readBack? (a : Attempt) : Option Observation :=
  a.answer?.map fun answer => ⟨a.entry.name, .ofAnswer answer⟩

/-- **The attempt found an API service that is serving**: reading the object back was answered with
one whose first condition of type `Available` is true. -/
def Serves (a : Attempt) : Prop :=
  ∃ o c, a.answer? = some (.ok o) ∧ o.availableCondition? = some c ∧ c.status = .true

/-- **Attempts account for what is observed**: there is one for each entry, in order, and what came
of them is observed, first of those that were given up, then of the others. -/
structure Account (as : List Attempt) (ds : List Desired) (os : List Observation) : Prop where
  entries : as.map entry = ds
  observations : os = as.filterMap givenUp? ++ as.filterMap readBack?

/-- An attempt is given up, or its object is read back. -/
theorem failed_or_answered (a : Attempt) : (∃ e, a.fate.failure? = some e ∧ a.answer? = none) ∨
    ∃ answer, a.fate.failure? = none ∧ a.answer? = some answer := by
  have hone := a.isSome_answer?
  cases hfailure : a.fate.failure? with
  | some e =>
    rw [hfailure] at hone
    have hnone : a.answer?.isNone = true := Option.isSome_eq_false_iff.mp hone
    exact .inl ⟨e, rfl, Option.isNone_iff_eq_none.mp hnone⟩
  | none =>
    rw [hfailure] at hone
    obtain ⟨answer, hanswer⟩ := Option.isSome_iff_exists.mp hone
    exact .inr ⟨answer, rfl, hanswer⟩

theorem length_observations (as : List Attempt) :
    (as.filterMap givenUp? ++ as.filterMap readBack?).length = as.length := by
  induction as with
  | nil => rfl
  | cons a as ih =>
    rw [List.length_append] at ih ⊢
    rw [List.length_cons, ← ih]
    obtain ⟨e, hfailure, hanswer⟩ | ⟨answer, hfailure, hanswer⟩ := a.failed_or_answered
    · simp only [List.filterMap_cons, givenUp?, readBack?, hfailure, hanswer, Option.map_some,
        Option.map_none, List.length_cons]
      omega
    · simp only [List.filterMap_cons, givenUp?, readBack?, hfailure, hanswer, Option.map_some,
        Option.map_none, List.length_cons]
      omega

/-- What is observed of an attempt is good exactly if it found an API service that is serving. -/
theorem serves_iff (a : Attempt) : a.Serves ↔
    (∀ o ∈ a.givenUp?, o.outcome = .available) ∧ ∀ o ∈ a.readBack?, o.outcome = .available := by
  obtain ⟨e, hfailure, hanswer⟩ | ⟨answer, hfailure, hanswer⟩ := a.failed_or_answered
  · simp [Serves, givenUp?, hfailure, hanswer]
  · simp [Serves, givenUp?, readBack?, hfailure, hanswer, Outcome.ofAnswer_eq_available_iff]

namespace Account

variable {as : List Attempt} {ds : List Desired} {os : List Observation} (h : Account as ds os)

include h

/-- There is one observation for each entry. -/
theorem length_eq : os.length = ds.length := by
  rw [h.observations, length_observations, ← h.entries, List.length_map]

/-- **A verdict is positive** exactly if every attempt found an API service that is serving. -/
theorem isAvailable_iff : (aggregate os).isAvailable = true ↔ ∀ a ∈ as, a.Serves := by
  have hgood (o : Observation) : o.line? = none ↔ o.outcome = .available := by
    simp [Observation.line?, Failure.ofObservation?]
  rw [isAvailable_aggregate, List.isEmpty_iff, List.filterMap_eq_nil_iff, h.observations]
  simp only [hgood, List.mem_append, List.mem_filterMap, serves_iff, Option.mem_def]
  constructor
  · intro hall a ha
    exact ⟨fun o ho => hall o (.inl ⟨a, ha, ho⟩), fun o ho => hall o (.inr ⟨a, ha, ho⟩)⟩
  · rintro hall o (⟨a, ha, ho⟩ | ⟨a, ha, ho⟩)
    · exact (hall a ha).1 o ho
    · exact (hall a ha).2 o ho

end Account

end Attempt

/-! ## Calls made for attempts -/

variable {σ : Type} (registry : Registry (StateM σ)) (record : Event → StateM σ Unit)

/-- **What a job has told** of making sure of its object, as far as it has come. -/
inductive EnsureJob.Tells : EnsureJob → List Note → Prop
  | look (d : Desired) : Tells (.due (.look d)) []
  | make {d : Desired} {e : StoreError} (he : e.isNotFound = true) :
      Tells (.due (.make d)) [.call (.get d.name) (.error e)]
  | done {d : Desired} {f : Fate} {notes : List Note} (h : f.Heard d notes) :
      Tells (.done (d, f.result)) notes

/-- What a job has told of reading its object back. -/
inductive FetchTells : Job Desired (Desired × Except StoreError Health) → List Note → Prop
  | due (d : Desired) : FetchTells (.due d) []
  | done (d : Desired) (answer : Except StoreError ApiService) :
      FetchTells (.done (d, answer.map .ofObject)) [.call (.get d.name) answer]

/-- **One call of making sure** adds to what its job has told. -/
theorem Ensuring.telling :
    Job.Telling (Ensuring.work registry.heard (heardEvents record)) EnsureJob.Tells := by
  intro t notes w log h
  cases h with
  | look d =>
    rw [work, bind_apply, Desired.look, bind_apply, Registry.heard_get]
    rcases (registry.get d.name w).1 with e | o
    · by_cases he : e.isNotFound = true
      · refine ⟨[.call (.get d.name) (.error e)], ?_, ?_⟩
        · simp only [he, if_true, pure_apply]
        · simp only [he, if_true, pure_apply]
          exact .make he
      · refine ⟨[.call (.get d.name) (.error e), .event (.getFailed d e)], ?_, ?_⟩
        · simp [he, bind_apply, pure_apply, heardEvents_apply]
        · simp only [he]
          exact .done (.unreadable (Bool.eq_false_iff.mpr he))
    · exact ⟨[.call (.get d.name) (.ok o)], rfl, .done (.found o)⟩
  | @make d e he =>
    rw [work, bind_apply, Desired.make, bind_apply, Registry.heard_create]
    rcases (registry.create d.toObject w).1 with e' | o
    · by_cases he' : e'.isAlreadyExists = true
      · refine ⟨[.call (.create d.toObject) (.error e')], ?_, ?_⟩
        · simp only [he', if_true, pure_apply]
        · simp only [he', if_true, pure_apply]
          exact .done (.preceded he he')
      · refine ⟨[.call (.create d.toObject) (.error e'), .event (.createFailed d e')], ?_, ?_⟩
        · simp [he', bind_apply, pure_apply, heardEvents_apply]
        · simp only [he']
          exact .done (.refused he (Bool.eq_false_iff.mpr he'))
    · refine ⟨[.call (.create d.toObject) (.ok o), .event (.created d)], ?_, ?_⟩
      · simp [bind_apply, pure_apply, heardEvents_apply]
      · exact .done (.created he o)

theorem fetch_telling : Job.Telling (fetchWork registry.heard) FetchTells := by
  intro d notes w log h
  cases h with
  | due d =>
    rw [fetchWork, bind_apply, Desired.fetch, bind_apply, Registry.heard_get]
    rcases (registry.get d.name w).1 with e | o
    · exact ⟨[.call (.get d.name) (.error e)], rfl, .done d (.error e)⟩
    · exact ⟨[.call (.get d.name) (.ok o)], rfl, .done d (.ok o)⟩

/-- **Making sure in turns**: for each entry it went one way, and that is what is heard. -/
theorem ensureInTurns_tells {schedule : List Nat} {ds : List Desired} {w : σ} {log : List Note}
    {ensured : List (Desired × Except StoreError Ensured)} {t : σ × List Note}
    (h : ensureInTurns registry.heard (heardEvents record) schedule ds (w, log) =
      (some ensured, t)) :
    ∃ qs : List ((Desired × Except StoreError Ensured) × List Note), qs.map Prod.fst = ensured ∧
      ensured.map Prod.fst = ds ∧ (∀ q ∈ qs, EnsureJob.Tells (.done q.1) q.2) ∧
      ∃ new, t.2 = log ++ new ∧ Interleaves (qs.map Prod.snd) new := by
  have hentries := ensureInTurns_entries h
  rw [ensureInTurns_apply] at h
  obtain ⟨hresults, rfl⟩ := Prod.mk.inj h
  obtain ⟨qs, hqs, htells, hnew⟩ := Job.exists_told (Ensuring.telling registry record)
    (List.forall_mem_map.mpr fun d _ => .look d) hresults
  exact ⟨qs, hqs, hentries, htells, hnew⟩

/-- **Reading back in turns**: each object is read back, and that is what is heard. -/
theorem fetchInTurns_tells {schedule : List Nat} {ds : List Desired} {w : σ} {log : List Note}
    {fetched : List (Desired × Except StoreError Health)} {t : σ × List Note}
    (h : fetchInTurns registry.heard schedule ds (w, log) = (some fetched, t)) :
    ∃ qs : List ((Desired × Except StoreError Health) × List Note), qs.map Prod.fst = fetched ∧
      fetched.map Prod.fst = ds ∧ (∀ q ∈ qs, FetchTells (.done q.1) q.2) ∧
      ∃ new, t.2 = log ++ new ∧ Interleaves (qs.map Prod.snd) new := by
  have hentries := fetchInTurns_entries h
  rw [fetchInTurns_apply] at h
  obtain ⟨hresults, rfl⟩ := Prod.mk.inj h
  obtain ⟨qs, hqs, htells, hnew⟩ := Job.exists_told (fetch_telling registry)
    (List.forall_mem_map.mpr fun d _ => .due d) hresults
  exact ⟨qs, hqs, hentries, htells, hnew⟩

/-- Making sure entry by entry. -/
theorem ensureAll_tells (ds : List Desired) (w : σ) (log : List Note) :
    let p := ensureAll registry.heard (heardEvents record) ds (w, log)
    ∃ qs : List ((Desired × Except StoreError Ensured) × List Note), qs.map Prod.fst = p.1 ∧
      (∀ q ∈ qs, EnsureJob.Tells (.done q.1) q.2) ∧ p.2.2 = log ++ qs.flatMap Prod.snd :=
  Job.exists_told_alone (Ensuring.telling registry record)
    (List.forall_mem_map.mpr fun d _ => .look d) (mapM_alone_look _ _ ds (w, log))

/-- Reading back entry by entry. -/
theorem fetchAll_tells (ds : List Desired) (w : σ) (log : List Note) :
    let p := fetchAll registry.heard ds (w, log)
    ∃ qs : List ((Desired × Except StoreError Health) × List Note), qs.map Prod.fst = p.1 ∧
      (∀ q ∈ qs, FetchTells (.done q.1) q.2) ∧ p.2.2 = log ++ qs.flatMap Prod.snd :=
  Job.exists_told_alone (fetch_telling registry)
    (List.forall_mem_map.mpr fun d _ => .due d) (mapM_alone_fetch _ ds (w, log))

/-! ## Attempts from calls -/

theorem Fate.isSome_ready? (d : Desired) (f : Fate) :
    (ready? (d, f.result)).isSome = f.failure?.isNone := by
  rw [f.ready?_result d]
  cases f.failure?.isNone <;> rfl

theorem eq_of_ready? {d d' : Desired} {result : Except StoreError Ensured}
    (h : ready? (d, result) = some d') : d' = d := by
  cases result with
  | error e => contradiction
  | ok how => exact (Option.some.inj h).symm

section One

variable {d : Desired} {result : Except StoreError Ensured} {notes notes' : List Note}

/-- An entry whose object could not be made sure of was attempted, and given up. -/
theorem exists_attempt_of_failed (h : EnsureJob.Tells (.done (d, result)) notes)
    (hready : ready? (d, result) = none) :
    ∃ a : Attempt, a.entry = d ∧ a.ensuring = notes ∧ a.reading = [] ∧
      a.givenUp? = Observation.ofEnsured? (d, result) ∧ a.readBack? = none := by
  cases h with
  | @done d f notes h =>
    have hanswer : (none : Option (Except StoreError ApiService)).isSome = f.failure?.isNone := by
      rw [← f.isSome_ready? d, hready]
      rfl
    exact ⟨⟨d, f, notes, h, none, hanswer⟩, rfl, rfl, rfl, (f.ofEnsured?_result d).symm, rfl⟩

/-- An entry whose object was read back was attempted, and not given up. -/
theorem exists_attempt_of_ready {r : Except StoreError Health}
    (h : EnsureJob.Tells (.done (d, result)) notes) (hready : ready? (d, result) = some d)
    (hr : FetchTells (.done (d, r)) notes') :
    ∃ a : Attempt, a.entry = d ∧ a.ensuring = notes ∧ a.reading = notes' ∧
      a.givenUp? = Observation.ofEnsured? (d, result) ∧
      a.readBack? = some ⟨d.name, .ofFetched r⟩ := by
  cases h with
  | @done d f notes h =>
    cases hr with
    | done d answer =>
      have hanswer : (some answer).isSome = f.failure?.isNone := by
        rw [← f.isSome_ready? d, hready]
        rfl
      refine ⟨⟨d, f, notes, h, some answer, hanswer⟩, rfl, rfl, rfl, ?_, ?_⟩
      · exact (f.ofEnsured?_result d).symm
      · rw [Outcome.ofFetched_map]
        rfl

end One

/-- **What was told of entries makes attempts**, if those were read back that could be made sure
of. -/
theorem exists_attempts {ps : List ((Desired × Except StoreError Ensured) × List Note)}
    {qs : List ((Desired × Except StoreError Health) × List Note)}
    (hps : ∀ p ∈ ps, EnsureJob.Tells (.done p.1) p.2) (hqs : ∀ q ∈ qs, FetchTells (.done q.1) q.2)
    (hready : qs.map (·.1.1) = ps.filterMap fun p => ready? p.1) :
    ∃ as : List Attempt, as.map Attempt.entry = ps.map (·.1.1) ∧
      as.map Attempt.ensuring = ps.map Prod.snd ∧
      as.flatMap Attempt.reading = qs.flatMap Prod.snd ∧
      as.filterMap Attempt.givenUp? = (ps.filterMap fun p => Observation.ofEnsured? p.1) ∧
      as.filterMap Attempt.readBack? = qs.map fun q => ⟨q.1.1.name, .ofFetched q.1.2⟩ := by
  induction ps generalizing qs with
  | nil =>
    obtain rfl : qs = [] := List.map_eq_nil_iff.mp hready
    exact ⟨[], rfl, rfl, rfl, rfl, rfl⟩
  | cons p ps ih =>
    obtain ⟨⟨d, result⟩, notes⟩ := p
    obtain ⟨hp, hps'⟩ := List.forall_mem_cons.mp hps
    rcases hone : ready? (d, result) with _ | d'
    · simp only [List.filterMap_cons, hone] at hready
      obtain ⟨a, rfl, rfl, hreading, hgivenUp, hreadBack⟩ := exists_attempt_of_failed hp hone
      obtain ⟨as, hentries, hensuring, hreadings, hgivenUps, hreadBacks⟩ := ih hps' hqs hready
      refine ⟨a :: as, ?_, ?_, ?_, ?_, ?_⟩
      · rw [List.map_cons, List.map_cons, hentries]
      · rw [List.map_cons, List.map_cons, hensuring]
      · rw [List.flatMap_cons, hreading, List.nil_append, hreadings]
      · rw [List.filterMap_cons, List.filterMap_cons, hgivenUp, hgivenUps]
      · rw [List.filterMap_cons_none hreadBack, hreadBacks]
    · obtain rfl := eq_of_ready? hone
      simp only [List.filterMap_cons, hone] at hready
      obtain ⟨⟨⟨d', r⟩, notes'⟩, qs', rfl, rfl, hready'⟩ := List.map_eq_cons_iff.mp hready
      obtain ⟨hq, hqs'⟩ := List.forall_mem_cons.mp hqs
      obtain ⟨a, hentry, rfl, rfl, hgivenUp, hreadBack⟩ := exists_attempt_of_ready hp hone hq
      obtain ⟨as, hentries, hensuring, hreadings, hgivenUps, hreadBacks⟩ := ih hps' hqs' hready'
      refine ⟨a :: as, ?_, ?_, ?_, ?_, ?_⟩
      · rw [List.map_cons, List.map_cons, hentries, hentry]
      · rw [List.map_cons, List.map_cons, hensuring]
      · rw [List.flatMap_cons, List.flatMap_cons, hreadings]
      · rw [List.filterMap_cons, List.filterMap_cons, hgivenUp, hgivenUps]
      · rw [List.filterMap_cons_some hreadBack, List.map_cons, hreadBacks]

/-- **Attempts account for work on objects** of which it was told how it went. -/
theorem exists_account_of_tells {ds : List Desired}
    {ensured : List (Desired × Except StoreError Ensured)}
    {fetched : List (Desired × Except StoreError Health)}
    {ps : List ((Desired × Except StoreError Ensured) × List Note)}
    {qs : List ((Desired × Except StoreError Health) × List Note)}
    (hensured : ps.map Prod.fst = ensured) (hps : ∀ p ∈ ps, EnsureJob.Tells (.done p.1) p.2)
    (hentries : ensured.map Prod.fst = ds)
    (hfetched : qs.map Prod.fst = fetched) (hqs : ∀ q ∈ qs, FetchTells (.done q.1) q.2)
    (hready : fetched.map Prod.fst = ensured.filterMap ready?) :
    ∃ as, Attempt.Account as ds (ensured.filterMap Observation.ofEnsured? ++
        fetched.map fun (d, r) => ⟨d.name, .ofFetched r⟩) ∧
      as.map Attempt.ensuring = ps.map Prod.snd ∧
      as.flatMap Attempt.reading = qs.flatMap Prod.snd := by
  subst hensured hfetched hentries
  rw [List.map_map, List.filterMap_map] at hready
  obtain ⟨as, hentries, hensuring, hreading, hgivenUp, hreadBack⟩ :=
    exists_attempts hps hqs hready
  refine ⟨as, ⟨?_, ?_⟩, hensuring, hreading⟩
  · rw [hentries, List.map_map]
    rfl
  · rw [hgivenUp, hreadBack, List.filterMap_map, List.map_map]
    rfl

/-! ## Whatever the registry answers -/

theorem observe_apply (ds : List Desired) (w : σ) : observe registry record ds w =
    let p := ensureAll registry record ds w
    let q := fetchAll registry (p.1.filterMap ready?) p.2
    (p.1.filterMap Observation.ofEnsured? ++ q.1.map fun (d, r) => ⟨d.name, .ofFetched r⟩, q.2) :=
  rfl

/-- **Attempts account for work entry by entry**, and for all that is heard of it. -/
theorem exists_account (ds : List Desired) (w : σ) :
    ∃ as, Attempt.Account as ds (observe registry record ds w).1 ∧
      transcript registry record ds w =
        as.flatMap Attempt.ensuring ++ as.flatMap Attempt.reading := by
  have hsame : (observe registry.heard (heardEvents record) ds (w, [])).1 =
      (observe registry record ds w).1 :=
    congrArg Prod.fst (observe_heard registry record ds (w, []))
  rw [← hsame, transcript, observe_apply]
  let p := ensureAll registry.heard (heardEvents record) ds (w, [])
  obtain ⟨ps, hps, hensured, hfirst⟩ := ensureAll_tells registry record ds w []
  obtain ⟨qs, hqs, hread, hsecond⟩ :=
    fetchAll_tells registry (p.1.filterMap ready?) p.2.1 p.2.2
  obtain ⟨as, haccount, hensuring, hreading⟩ :=
    exists_account_of_tells hps hensured (map_fst_mapM ..) hqs hread (map_fst_mapM ..)
  refine ⟨as, haccount, hsecond.trans ?_⟩
  rw [hreading, List.flatMap_def (f := Attempt.ensuring), hensuring, ← List.flatMap_def]
  exact congrArg (· ++ _) (hfirst.trans (List.nil_append _))

/-- **Attempts account for work in turns** that comes to an end, and for all that is heard of it. -/
theorem exists_account_of_mem {first second : List Nat} {ds : List Desired} {w : σ}
    {os : List Observation} (h : os ∈ (observeInTurns registry record first second ds w).1) :
    ∃ as, Attempt.Account as ds os ∧
      ∃ notes notes', transcriptInTurns registry record first second ds w = notes ++ notes' ∧
        Interleaves (as.map Attempt.ensuring) notes ∧
        notes'.Perm (as.flatMap Attempt.reading) := by
  have hsame := observeInTurns_heard registry record first second ds (w, [])
  rw [← hsame] at h
  obtain ⟨ensured, ⟨w₁, log⟩, fetched, t₂, hfirst, hsecond, hall⟩ :=
    eq_of_mem_observeInTurns registry.heard (heardEvents record) h
  obtain ⟨ps, hps, hentries, hensured, notes, hnotes, hinterleaves⟩ :=
    ensureInTurns_tells registry record hfirst
  obtain ⟨qs, hqs, hready, hread, notes', hnotes', hinterleaves'⟩ :=
    fetchInTurns_tells registry hsecond
  obtain ⟨as, haccount, hensuring, hreading⟩ :=
    exists_account_of_tells hps hensured hentries hqs hread hready
  rw [hall] at h
  obtain rfl := Option.some.inj h
  refine ⟨as, haccount, notes, notes', ?_, hensuring ▸ hinterleaves, ?_⟩
  · have hlog : log = notes := hnotes
    rw [transcriptInTurns, hall, hnotes', hlog]
  · rw [hreading, List.flatMap_def]
    exact hinterleaves'.perm

/-- A pass that converges came to work on objects, and what it observed there was all good. -/
theorem exists_positive {r : Reconciler (StateM σ)} {now : Time.Timestamp} {w : σ}
    (h : isConverged (r.sync now w).1 = true) :
    ∃ ds w', r.Reaches now w (.work ds) w' ∧ (aggregate (r.observe ds w').1).isAvailable = true := by
  rcases hsync : (r.sync now w).1 with e | reason | v
  · rw [hsync] at h
    contradiction
  · rw [hsync] at h
    contradiction
  · obtain ⟨ds, w', hwork, rfl⟩ := Reconciler.exists_work hsync
    rw [hsync] at h
    exact ⟨ds, w', hwork, h⟩

/-- **One observation for each entry, whatever the registry answers**, and however often a name is
desired.  Attempts account for what is observed, entry by entry and under any interleaving that
comes to an end, which is any with turns enough; and for all that is called and told meanwhile.  If
a pass converges, then in that very pass every attempt found an API service that is serving. -/
theorem observe_attempts (r : Reconciler (StateM σ)) (now : Time.Timestamp) (w : σ) :
    (∀ ds w', (r.observe ds w').1.length = ds.length ∧
      ∃ as, Attempt.Account as ds (r.observe ds w').1 ∧
        transcript r.registry r.recordEvent ds w' =
          as.flatMap Attempt.ensuring ++ as.flatMap Attempt.reading) ∧
    (∀ ds w' first second,
      let p := observeInTurns r.registry r.recordEvent first second ds w'
      ((∀ i < ds.length, 2 ≤ first.count i ∧ 1 ≤ second.count i) → p.1.isSome) ∧
      ∀ os ∈ p.1, os.length = ds.length ∧
        ∃ as, Attempt.Account as ds os ∧
          (∃ notes notes',
            transcriptInTurns r.registry r.recordEvent first second ds w' = notes ++ notes' ∧
            Interleaves (as.map Attempt.ensuring) notes ∧
            notes'.Perm (as.flatMap Attempt.reading)) ∧
          ((aggregate os).isAvailable = true → ∀ a ∈ as, a.Serves)) ∧
    (isConverged (r.sync now w).1 = true →
      ∃ ds w' as, r.Reaches now w (.work ds) w' ∧ Attempt.Account as ds (r.observe ds w').1 ∧
        transcript r.registry r.recordEvent ds w' =
          as.flatMap Attempt.ensuring ++ as.flatMap Attempt.reading ∧
        ∀ a ∈ as, a.Serves) := by
  refine ⟨fun ds w' => ?_, fun ds w' first second => ⟨fun hturns => ?_, fun os hos => ?_⟩,
    fun hconverged => ?_⟩
  · obtain ⟨as, haccount, hheard⟩ := exists_account r.registry r.recordEvent ds w'
    exact ⟨haccount.length_eq, as, haccount, hheard⟩
  · exact isSome_observeInTurns _ _ (fun i hi => (hturns i hi).1) (fun i hi => (hturns i hi).2) w'
  · obtain ⟨as, haccount, hheard⟩ := exists_account_of_mem r.registry r.recordEvent hos
    exact ⟨haccount.length_eq, as, haccount, hheard, haccount.isAvailable_iff.mp⟩
  · obtain ⟨ds, w', hwork, hpositive⟩ := exists_positive hconverged
    obtain ⟨as, haccount, hheard⟩ := exists_account r.registry r.recordEvent ds w'
    exact ⟨ds, w', as, hwork, haccount, hheard, haccount.isAvailable_iff.mp hpositive⟩

/-- A registry that answers by the number of calls so far: it finds no object at first, will not
have one created, and then finds the same one under whatever name. -/
def Registry.fickle : Registry (StateM Nat) where
  get name n := (if n = 0 then .error (.notFound "apiservices" name) else .ok serving, n + 1)
  create o n := (.error (.alreadyExists "apiservices" o.name), n + 1)
where
  serving : ApiService :=
    (Rehearsal.World.sample "build").toObject.withConditions [⟨"Available", .true, none, none⟩]

/-- A reconciler on that registry, which desires a service twice. -/
def Reconciler.fickle : Reconciler (StateM Nat) where
  registry := .fickle
  provider := pure (.ok [Rehearsal.World.sample "apps", Rehearsal.World.sample "apps"])
  precondition := pure (.ok true)
  status := ⟨pure (.ok .initial), fun _ => pure (.ok ())⟩
  recordVersion _ _ := pure ()
  recordEvent _ := pure ()
  component := "openshift-apiserver"
  operandVersion := "4.2.0"

/-- A pass may converge on a registry that makes no sense. -/
theorem observe_attempts_fickle :
    let r := Reconciler.fickle
    isConverged (r.sync (Rehearsal.World.time 0) 0).1 = true ∧
      ∃ ds w' as, r.Reaches (Rehearsal.World.time 0) 0 (.work ds) w' ∧
        Attempt.Account as ds (r.observe ds w').1 ∧
        transcript r.registry r.recordEvent ds w' =
          as.flatMap Attempt.ensuring ++ as.flatMap Attempt.reading ∧
        ∀ a ∈ as, a.Serves := by
  have hconverged :
      isConverged (Reconciler.fickle.sync (Rehearsal.World.time 0) 0).1 = true := by
    decide +kernel
  exact ⟨hconverged, (observe_attempts _ _ _).2.2 hconverged⟩

end ApiAvailability
