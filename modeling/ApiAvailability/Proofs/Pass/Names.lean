import ApiAvailability.App
import ApiAvailability.Proofs.Config.Faults
import ApiAvailability.Proofs.Pass.Course
import ApiAvailability.Proofs.Store.Confined
import ApiAvailability.Rehearsal.World

/-!
# Proofs/Pass/Names — accepted entries whose names are refused

A configuration is checked for its texts, and a directory checks the names that are made of them.
The second check is stricter: a name that starts with a dot or holds a separator would lead out of
the directory, and of an accepted entry nothing of the kind is demanded.  An entry that is let
through so (`Desired.IsPlain` fails of it) is refused in every pass.

What a verdict complains of is an answer of the registry, or what is said of an object that was read
back (`exists_of_complaint`).  A directory that accepts a name never answers that it is refused
(`Directory.Fails.message_ne`), so of a plain name a verdict does not say it.

* `Config.names_refused` — the law;
* `Config.exists_refused` — a configuration that is accepted, with a name that is not.
-/

namespace ApiAvailability

open Files

/-! ## What is said of an entry -/

section Observe

variable {σ : Type} {registry : Registry (StateM σ)} {record : Event → StateM σ Unit}
  {d : Desired} {ds : List Desired} {o : Observation} {e : StoreError} {w : σ}

namespace Desired

variable (registry record d w)

/-- What looking for an object answers. -/
theorem look_fst : (d.look registry record w).1 =
    match (registry.get d.name w).1 with
    | .ok _ => some (.ok .alreadyExisted)
    | .error e => if e.isNotFound then none else some (.error e) := by
  rw [look, bind_apply]
  rcases (registry.get d.name w).1 with e | o
  · by_cases he : e.isNotFound = true
    · simp only [he, if_true, pure_apply]
    · simp only [he, if_false, bind_apply, pure_apply, Bool.false_eq_true]
  · rfl

/-- What making an object answers. -/
theorem make_fst : (d.make registry record w).1 =
    match (registry.create d.toObject w).1 with
    | .ok _ => .ok .created
    | .error e => if e.isAlreadyExists then .ok .alreadyExisted else .error e := by
  rw [make, bind_apply]
  rcases (registry.create d.toObject w).1 with e | o
  · by_cases he : e.isAlreadyExists = true
    · simp only [he, if_true, pure_apply]
    · simp only [he, if_false, bind_apply, pure_apply, Bool.false_eq_true]
  · rfl

variable {registry record d w}

/-- An object that cannot be looked for cannot be made sure of. -/
theorem ensure_of_unreadable (hget : (registry.get d.name w).1 = .error e)
    (he : e.isNotFound = false) : (d.ensure registry record w).1 = .error e := by
  have hlook : (d.look registry record w).1 = some (.error e) := by
    rw [look_fst, hget]
    simp only [he, if_false, Bool.false_eq_true]
  rw [ensure, bind_apply, hlook]
  rfl

/-- What looking for an object complains of is the answer to getting it. -/
theorem get_of_look (h : (d.look registry record w).1 = some (.error e)) :
    (registry.get d.name w).1 = .error e := by
  rw [look_fst] at h
  split at h
  · cases h
  next e' hget =>
    split at h
    · contradiction
    · obtain rfl : e' = e := Except.error.inj (Option.some.inj h)
      exact hget

/-- What creating an object complains of is the answer to that. -/
theorem create_of_make (h : (d.make registry record w).1 = .error e) :
    (registry.create d.toObject w).1 = .error e := by
  rw [make_fst] at h
  split at h
  · contradiction
  next e' hcreate =>
    split at h
    · contradiction
    · obtain rfl : e' = e := Except.error.inj h
      exact hcreate

/-- Making sure of an object fails with an answer of the registry. -/
theorem ensure_eq_error (h : (d.ensure registry record w).1 = .error e) :
    ∃ w', (registry.get d.name w').1 = .error e ∨ (registry.create d.toObject w').1 = .error e := by
  rw [ensure, bind_apply] at h
  rcases hlook : d.look registry record w with ⟨_ | result, w₁⟩
  · rw [hlook] at h
    exact ⟨w₁, .inr (create_of_make h)⟩
  · rw [hlook] at h
    obtain rfl : result = .error e := h
    exact ⟨w, .inl (get_of_look (congrArg Prod.fst hlook))⟩

/-- Reading an object back fails with an answer of the registry. -/
theorem fetch_eq_error (h : (d.fetch registry w).1 = .error e) :
    (registry.get d.name w).1 = .error e := by
  rw [fetch, bind_apply] at h
  rcases hget : (registry.get d.name w).1 with e' | o
  · rw [hget] at h
    obtain rfl : e' = e := Except.error.inj h
    rfl
  · rw [hget] at h
    contradiction

end Desired

/-- What is observed of an object that cannot be looked for. -/
theorem mem_observe_of_unreadable (hd : d ∈ ds) (he : e.isNotFound = false)
    (hget : ∀ w, (registry.get d.name w).1 = .error e) (w : σ) :
    ⟨d.name, .ensureFailed e.message⟩ ∈ (observe registry record ds w).1 := by
  obtain ⟨w', hmem⟩ :=
    exists_mem_mapM (fun d : Desired => do return (d, ← d.ensure registry record)) hd w
  have hfail : (d.ensure registry record w').1 = .error e := d.ensure_of_unreadable (hget w') he
  refine List.mem_append_left _ (List.mem_filterMap.mpr ⟨_, hmem, ?_⟩)
  rw [bind_apply, hfail]
  rfl

/-- **Where a complaint comes from**: an answer to getting or creating the object, or the object that
was read back. -/
theorem exists_of_complaint {text : String} (h : o ∈ (observe registry record ds w).1)
    (htext : o.outcome.complaint? = some text) : (∃ words, text = "not available: " ++ words) ∨
      ∃ (d : Desired) (e : StoreError) (w' : σ), d.name = o.name ∧ text = e.message ∧
        ((registry.get d.name w').1 = .error e ∨ (registry.create d.toObject w').1 = .error e) := by
  rcases List.mem_append.mp h with h | h
  · obtain ⟨⟨d, result⟩, hmem, hsome⟩ := List.mem_filterMap.mp h
    obtain ⟨d, -, w', hresult⟩ := exists_of_mem_mapM hmem
    rw [bind_apply] at hresult
    obtain ⟨rfl, rfl⟩ := Prod.mk.inj hresult
    rcases hensure : (d.ensure registry record w').1 with e | how
    · rw [hensure] at hsome
      obtain rfl := Option.some.inj hsome
      obtain ⟨w'', hanswer⟩ := d.ensure_eq_error hensure
      exact .inr ⟨d, e, w'', rfl, (Option.some.inj htext).symm, hanswer⟩
    · rw [hensure] at hsome
      contradiction
  · obtain ⟨⟨d, result⟩, hmem, rfl⟩ := List.mem_map.mp h
    obtain ⟨d, -, w', hresult⟩ := exists_of_mem_mapM hmem
    rw [bind_apply] at hresult
    obtain ⟨rfl, rfl⟩ := Prod.mk.inj hresult
    rcases hfetch : (d.fetch registry w').1 with e | _ | words
    · rw [hfetch] at htext
      exact .inr ⟨d, e, w', rfl, (Option.some.inj htext).symm, .inl (d.fetch_eq_error hfetch)⟩
    · rw [hfetch] at htext
      contradiction
    · rw [hfetch] at htext
      exact .inl ⟨words, (Option.some.inj htext).symm⟩

end Observe

/-! ## What a directory answers -/

/-- **How a directory fails** with an object whose name it accepts. -/
inductive Directory.Fails (name : String) : StoreError → Prop
  | missing : Fails name (.notFound resourceName name)
  | taken : Fails name (.alreadyExists resourceName name)
  | system (reason : String) : Fails name (.io name reason)
  | document : Fails name (.serialization name malformed)

namespace Directory

variable {σ : Type} {fs : FileSystem (StateM σ)} {d : Directory} {e : StoreError} {w : σ}

/-- Getting an object of a name that is accepted fails in one of the ways there are. -/
theorem fails_of_get {name : String} (hname : accepts name = true)
    (h : (d.get fs name w).1 = .error e) : Fails name e := by
  rw [get, pathOf, if_pos hname] at h
  dsimp only at h
  rw [bind_apply] at h
  generalize (fs.read (d.path.join (fileName name)) w).1 = answer at h
  rcases answer with e' | bytes
  · cases e' <;> obtain rfl := Except.error.inj h <;> constructor
  · dsimp only at h
    rcases hobject : (Json.Value.ofBytes? bytes).bind ApiService.ofJson? with _ | o
    · rw [hobject] at h
      obtain rfl := Except.error.inj h
      exact .document
    · rw [hobject] at h
      cases h

/-- Creating an object of a name that is accepted fails in one of the ways there are. -/
theorem fails_of_create {o : ApiService} (hname : accepts o.name = true)
    (h : (d.create fs o w).1 = .error e) : Fails o.name e := by
  rw [create, pathOf, if_pos hname] at h
  dsimp only at h
  rw [bind_apply] at h
  rcases hmade : fs.makeDirs d.path w with ⟨e' | u, w₁⟩
  · rw [hmade] at h
    obtain rfl := Except.error.inj h
    exact .system _
  · rw [hmade] at h
    dsimp only at h
    rw [bind_apply] at h
    generalize (fs.createNew (d.path.join (fileName o.name)) (document o).toUTF8 w₁).1 = answer at h
    rcases answer with e' | u
    · cases e' <;> obtain rfl := Except.error.inj h <;> constructor
    · cases h

/-! ### First letters -/

theorem head?_append {c : Char} {text rest : String} (h : text.toList.head? = some c) :
    (text ++ rest).toList.head? = some c := by
  rw [String.toList_append, List.head?_append, h, Option.some_or]

/-- A text keeps its first letter on one line. -/
theorem head?_oneLine {c : Char} {text : String} (h : text.toList.head? = some c)
    (hc : ¬ (c = '\r' ∨ c = '\n')) : (oneLine text).toList.head? = some c := by
  rw [oneLine, String.toList_map, List.head?_map, h, Option.map_some, if_neg hc]

/-- A text that begins otherwise is not what is said of a refused name. -/
theorem ne_refusal {c : Char} {text : String} (h : text.toList.head? = some c) (hc : c ≠ 'i')
    (hbreak : ¬ (c = '\r' ∨ c = '\n')) (name : String) :
    oneLine text ≠ oneLine (refusal name).message := by
  have hinvalid : "invalid ".toList.head? = some 'i' := by decide +kernel
  have hrefusal : (refusal name).message.toList.head? = some 'i' :=
    head?_append (head?_append (head?_append (head?_append hinvalid)))
  intro heq
  have hhead := head?_oneLine h hbreak
  rw [heq, head?_oneLine hrefusal (by decide)] at hhead
  exact hc (Option.some.inj hhead).symm

/-- **Who is not refused is not told so.** -/
theorem Fails.message_ne {name : String} (h : Fails name e) (other : String) :
    oneLine e.message ≠ oneLine (refusal other).message := by
  have hresource : resourceName.toList.head? = some 'a' := by decide +kernel
  have hsystem : "storage I/O failed for ".toList.head? = some 's' := by decide +kernel
  have hdocument : "failed to serialize ".toList.head? = some 'f' := by decide +kernel
  cases h with
  | missing | taken =>
    exact ne_refusal (head?_append (head?_append (head?_append hresource))) (by decide) (by decide) _
  | system reason =>
    exact ne_refusal (head?_append (head?_append (head?_append hsystem))) (by decide) (by decide) _
  | document =>
    exact ne_refusal (head?_append (head?_append (head?_append hdocument))) (by decide) (by decide) _

end Directory

/-! ## Names -/

/-- **A plain name** of a desired API service: nothing in its version or its group leads elsewhere. -/
structure Desired.IsPlain (d : Desired) : Prop where
  undotted : d.spec.version.toList.head? ≠ some '.'
  version : ∀ c ∈ d.spec.version.toList, c ≠ '/' ∧ c ≠ '\\'
  group : ∀ c ∈ d.spec.group.toList, c ≠ '/' ∧ c ≠ '\\'

namespace Config

variable {c : Config} {d : Desired}

/-- The name of what an accepted configuration desires is plain exactly if a directory accepts it. -/
theorem Valid.accepts_iff (h : c.Valid) (hd : d ∈ c.desired) :
    Directory.accepts d.name = true ↔ d.IsPlain := by
  obtain ⟨e, he, rfl⟩ := List.mem_map.mp hd
  have hversion : e.version.toList ≠ [] := fun hnil =>
    h.entries e he (.inr fun c hc => by rw [hnil] at hc; contradiction)
  have hname : (e.toDesired c.service).name.toList = e.version.toList ++ '.' :: e.group.toList := by
    rw [Entry.name_toDesired, Entry.name, identity, String.toList_append, String.toList_append,
      List.append_assoc]
    rfl
  have hhead : (e.version.toList ++ '.' :: e.group.toList).head? = e.version.toList.head? :=
    List.head?_append_of_ne_nil _ hversion
  have hmem {c : Char} (hc : c ≠ '.') : c ∈ e.version.toList ++ '.' :: e.group.toList ↔
      c ∈ e.version.toList ∨ c ∈ e.group.toList := by
    rw [List.mem_append, List.mem_cons, or_iff_right hc]
  rw [← Bool.not_eq_false, Directory.accepts_eq_false_iff, ← String.toList_eq_nil_iff, hname, hhead,
    hmem (by decide), hmem (by decide), or_iff_right (List.append_ne_nil_of_left_ne_nil hversion _)]
  simp only [not_or]
  constructor
  · rintro ⟨hdot, ⟨hslash, hslash'⟩, hback, hback'⟩
    exact ⟨hdot, fun c hc => ⟨fun heq => hslash (heq ▸ hc), fun heq => hback (heq ▸ hc)⟩,
      fun c hc => ⟨fun heq => hslash' (heq ▸ hc), fun heq => hback' (heq ▸ hc)⟩⟩
  · rintro ⟨hdot, hversion', hgroup⟩
    exact ⟨hdot, ⟨fun hc => (hversion' _ hc).1 rfl, fun hc => (hgroup _ hc).1 rfl⟩,
      fun hc => (hversion' _ hc).2 rfl, fun hc => (hgroup _ hc).2 rfl⟩

/-- **What a directory makes of an accepted entry.** -/
theorem Valid.pathOf (h : c.Valid) (hd : d ∈ c.desired) (objects : Directory) :
    (d.IsPlain → ∃ path, objects.pathOf d.name = .ok path) ∧
      (¬ d.IsPlain → objects.pathOf d.name = .error (Directory.refusal d.name)) := by
  rw [← h.accepts_iff hd]
  exact ⟨fun hplain => ⟨_, if_pos hplain⟩, fun hrefused =>
    objects.pathOf_of_refused (Bool.eq_false_iff.mpr hrefused)⟩

end Config

/-! ## Passes -/

namespace App

variable {σ : Type} {fs : FileSystem (StateM σ)} {recordEvent : Event → StateM σ Unit} {c : Config}
  {dir : Path} {app : App (StateM σ)} {now : Time.Timestamp} {w : σ} {v : Verdict} {d : Desired}

/-- The verdict of an operator is over what it observed of all that is desired. -/
theorem exists_observe (h : App.new fs recordEvent c dir = .ok app)
    (hsync : (app.reconciler.sync now w).1 = .ok (.reconciled v)) : ∃ w', v = aggregate
      (observe (Directory.registry fs ⟨dir.join objectsName⟩) recordEvent c.desired w').1 := by
  obtain rfl := Except.ok.inj h
  obtain ⟨ds, w', hwork, rfl⟩ := Reconciler.exists_work hsync
  cases hwork with
  | provided _ hprovide =>
    obtain rfl : c.desired = ds := Except.ok.inj (congrArg Prod.fst hprovide)
    exact ⟨w', rfl⟩

/-- A name that is not plain is refused in every verdict. -/
theorem mem_failures_of_refused (hname : Directory.accepts d.name = false)
    (h : App.new fs recordEvent c dir = .ok app) (hd : d ∈ c.desired)
    (hsync : (app.reconciler.sync now w).1 = .ok (.reconciled v)) :
    ⟨d.name, oneLine (Directory.refusal d.name).message⟩ ∈ v.failures := by
  obtain ⟨w', rfl⟩ := exists_observe h hsync
  let objects : Directory := ⟨dir.join objectsName⟩
  have hget (w : σ) :
      (objects.get fs d.name w).1 = .error (Directory.refusal d.name) := by
    rw [Directory.get, objects.pathOf_of_refused hname]
    rfl
  exact mem_failures.mpr ⟨_, mem_observe_of_unreadable hd rfl hget w', _, rfl, rfl⟩

/-- **A name that a directory accepts is never said to be refused.** -/
theorem not_mem_failures_of_accepts (hname : Directory.accepts d.name = true)
    (h : App.new fs recordEvent c dir = .ok app)
    (hsync : (app.reconciler.sync now w).1 = .ok (.reconciled v)) (name : String) :
    ⟨d.name, oneLine (Directory.refusal name).message⟩ ∉ v.failures := by
  obtain ⟨w', rfl⟩ := exists_observe h hsync
  intro hmem
  obtain ⟨o, ho, text, htext, heq⟩ := mem_failures.mp hmem
  obtain ⟨hname', hcause⟩ := Failure.mk.inj heq
  rcases exists_of_complaint ho htext with ⟨words, rfl⟩ | ⟨d', e, w'', hd', rfl, hanswer⟩
  · have hhead : "not available: ".toList.head? = some 'n' := by decide +kernel
    exact Directory.ne_refusal (Directory.head?_append hhead) (by decide) (by decide) _ hcause.symm
  · rw [hname', ← hd'] at hname
    have hfails : Directory.Fails d'.name e := by
      rcases hanswer with hget | hcreate
      · exact Directory.fails_of_get hname hget
      · exact Directory.fails_of_create (o := d'.toObject) hname hcreate
    exact hfails.message_ne _ hcause.symm

/-- **A pass finds all available** only where all names are accepted. -/
theorem accepts_of_available (h : App.new fs recordEvent c dir = .ok app) (hd : d ∈ c.desired)
    (hsync : (app.sync now w).1 = .ok true) : Directory.accepts d.name = true := by
  rw [sync, bind_apply] at hsync
  rcases hpass : (app.reconciler.sync now w).1 with e | reason | v
  · rw [hpass] at hsync
    cases hsync
  · rw [hpass] at hsync
    cases hsync
  · rw [hpass] at hsync
    have havailable : v.isAvailable = true := Except.ok.inj hsync
    by_contra hname
    have hmem := mem_failures_of_refused (Bool.eq_false_iff.mpr hname) h hd hpass
    obtain ⟨w', rfl⟩ := exists_observe h hpass
    have hsome := List.ne_nil_of_mem hmem
    rw [Verdict.isAvailable, aggregate_status, if_neg hsome] at havailable
    contradiction

end App

/-! ## The law -/

namespace Config

/-- **Which accepted entries are refused.**  Of what an accepted configuration desires, a directory
accepts the plain names, and it refuses the others.  So whatever the files are like, every verdict of
the operator tells that these are refused, and of no other that it is; and no pass finds all
available, unless all names are plain. -/
theorem names_refused {c : Config} (h : c.validate = .ok ()) :
    (∀ d ∈ c.desired, ∀ objects : Directory,
      (d.IsPlain → ∃ path, objects.pathOf d.name = .ok path) ∧
        (¬ d.IsPlain → objects.pathOf d.name = .error (Directory.refusal d.name))) ∧
    ∀ {σ : Type} (fs : FileSystem (StateM σ)) (recordEvent : Event → StateM σ Unit) (dir : Path)
      (app : App (StateM σ)), App.new fs recordEvent c dir = .ok app →
      ∀ (now : Time.Timestamp) (w : σ),
        (∀ v, (app.reconciler.sync now w).1 = .ok (.reconciled v) → ∀ d ∈ c.desired,
          (¬ d.IsPlain → ⟨d.name, oneLine (Directory.refusal d.name).message⟩ ∈ v.failures) ∧
          (d.IsPlain → ∀ name, ⟨d.name, oneLine (Directory.refusal name).message⟩ ∉ v.failures)) ∧
        ((app.sync now w).1 = .ok true → ∀ d ∈ c.desired, d.IsPlain) := by
  have hvalid := validate_eq_ok_iff.mp h
  refine ⟨fun d hd objects => hvalid.pathOf hd objects, fun fs recordEvent dir app happ now w =>
    ⟨fun v hsync d hd => ⟨fun hplain => ?_, fun hplain => ?_⟩, fun hsync d hd => ?_⟩⟩
  · rw [← hvalid.accepts_iff hd] at hplain
    exact App.mem_failures_of_refused (Bool.eq_false_iff.mpr hplain) happ hd hsync
  · exact App.not_mem_failures_of_accepts ((hvalid.accepts_iff hd).mpr hplain) happ hsync
  · exact (hvalid.accepts_iff hd).mp (App.accepts_of_available happ hd hsync)

end Config

/-- Files of which none is found, and all can be made. -/
def Files.FileSystem.willing : FileSystem (StateM Unit) where
  read _ := pure (.error .notFound)
  isDirectory _ := pure true
  makeDir _ := pure (.ok ())
  createNew _ _ := pure (.ok ())
  write _ _ := pure (.ok ())
  rename _ _ := pure (.ok ())

/-- Where no call is refused, all directories can be made. -/
theorem Files.FileSystem.makeDirs_willing (p : Path) : willing.makeDirs p () = (.ok (), ()) := by
  rw [makeDirs]
  cases p.ancestors with
  | nil => rfl
  | cons q above =>
    rw [makeDirsIn]
    split <;> rfl

/-- Where no call is refused, every record can be changed. -/
theorem StatusFile.update_willing (s : StatusFile) (change : OperatorState → OperatorState) :
    s.update .willing change () = (.ok (), ()) := by
  have hmade : s.makeParent .willing () = (.ok (), ()) := by
    rw [makeParent]
    cases s.path.parent? with
    | none => rfl
    | some dir => exact FileSystem.makeDirs_willing dir
  have hload : s.load .willing () = (.ok .initial, ()) := rfl
  have hsave (state : OperatorState) : s.save .willing state () = (.ok (), ()) := by
    rw [save, bind_apply, hmade]
    rfl
  rw [update, bind_apply, hload]
  exact hsave _

/-- An operator on such files comes to a verdict. -/
theorem App.exists_reconciled {c : Config} {dir : Path} {app : App (StateM Unit)}
    (h : App.new .willing (fun _ => pure ()) c dir = .ok app) (now : Time.Timestamp) :
    ∃ v, (app.reconciler.sync now ()).1 = .ok (.reconciled v) := by
  have hbegin : app.reconciler.Reaches now () .read () := .begin
  obtain rfl := Except.ok.inj h
  have hprovided := ((hbegin.managed rfl rfl).ready rfl).provided rfl
  have hconclude := (hprovided.observed rfl).written (StatusFile.update_willing _ _)
  exact ⟨_, congrArg Prod.fst hconclude.sync_eq_concluded⟩

namespace Config

/-- A configuration of two services, the second of a group with a backslash. -/
def backslashed : Config := sample "build\\openshift" "v1"

def plainOne : Desired := Entry.toDesired ⟨"b.c", "a", none, none⟩ backslashed.service

def backslashedOne : Desired :=
  Entry.toDesired ⟨"build\\openshift", "v1", none, none⟩ backslashed.service

theorem desired_backslashed : backslashed.desired = [plainOne, backslashedOne] := rfl

theorem validate_backslashed : backslashed.validate = .ok () := by decide +kernel

/-- A pass tells of a name with a backslash that it is refused, and not of the one beside it. -/
theorem names_refused_backslashed :
    backslashed.validate = .ok () ∧
    ∃ app, App.new .willing (fun _ => pure ()) backslashed ⟨"/var"⟩ = .ok app ∧
      ∃ v, (app.reconciler.sync (Rehearsal.World.time 0) ()).1 = .ok (.reconciled v) ∧
        ⟨"v1.build\\openshift", "invalid apiservices.apiregistration.k8s.io name " ++
          "\"v1.build\\openshift\""⟩ ∈ v.failures ∧
        ∀ name, ⟨"a.b.c", oneLine (Directory.refusal name).message⟩ ∉ v.failures := by
  obtain ⟨app, happ⟩ : ∃ app,
      App.new .willing (fun _ => pure ()) backslashed ⟨"/var"⟩ = .ok app := ⟨_, rfl⟩
  obtain ⟨v, hsync⟩ := App.exists_reconciled happ (Rehearsal.World.time 0)
  obtain ⟨-, hpasses⟩ := names_refused validate_backslashed
  obtain ⟨hverdicts, -⟩ := hpasses _ _ _ _ happ (Rehearsal.World.time 0) ()
  refine ⟨validate_backslashed, app, happ, v, hsync, ?_, ?_⟩
  · have hunplain : ¬ backslashedOne.IsPlain := fun h => (h.group '\\' (by decide +kernel)).2 rfl
    have hname : backslashedOne.name = "v1.build\\openshift" := by decide +kernel
    have hcause : oneLine (Directory.refusal "v1.build\\openshift").message =
        "invalid apiservices.apiregistration.k8s.io name " ++ "\"v1.build\\openshift\"" := by
      decide +kernel
    have hd : backslashedOne ∈ backslashed.desired := by simp [desired_backslashed]
    have hrefused := (hverdicts v hsync backslashedOne hd).1 hunplain
    rwa [hname, hcause] at hrefused
  · have hd : plainOne ∈ backslashed.desired := by simp [desired_backslashed]
    have hplain : plainOne.IsPlain :=
      ((validate_eq_ok_iff.mp validate_backslashed).accepts_iff hd).mp (by decide +kernel)
    have hname : plainOne.name = "a.b.c" := by decide +kernel
    have haccepted := (hverdicts v hsync plainOne hd).2 hplain
    rwa [hname] at haccepted

/-- **An accepted configuration may hold an entry that every directory refuses**: each verdict tells
so, and no pass finds all available. -/
theorem exists_refused : backslashed.validate = .ok () ∧ ∃ d ∈ backslashed.desired,
    (∀ (objects : Directory) path, objects.pathOf d.name ≠ .ok path) ∧
    ∀ {σ : Type} (fs : FileSystem (StateM σ)) (recordEvent : Event → StateM σ Unit) (dir : Path)
      (app : App (StateM σ)), App.new fs recordEvent backslashed dir = .ok app → ∀ now w,
        (∀ v, (app.reconciler.sync now w).1 = .ok (.reconciled v) →
          ⟨d.name, oneLine (Directory.refusal d.name).message⟩ ∈ v.failures) ∧
        (app.sync now w).1 ≠ .ok true := by
  have hname : Directory.accepts backslashedOne.name = false := by decide +kernel
  have hd : backslashedOne ∈ backslashed.desired := by simp [desired_backslashed]
  refine ⟨validate_backslashed, backslashedOne, hd, fun objects path hpath => ?_,
    fun fs recordEvent dir app happ now w => ⟨fun v hsync => ?_, fun hsync => ?_⟩⟩
  · rw [objects.pathOf_of_refused hname] at hpath
    contradiction
  · exact App.mem_failures_of_refused hname happ hd hsync
  · rw [App.accepts_of_available happ hd hsync] at hname
    contradiction

end Config

end ApiAvailability
