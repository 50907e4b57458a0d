import ApiAvailability.App
import ApiAvailability.Proofs.Files.Frame
import ApiAvailability.Proofs.Pass.Fate

/-!
# Proofs/Pass/Addition — passes add objects, and do nothing else to them

Whatever the desired services, the record, the scripts and the reactors are: an object that is
there stays as it is, and one that is new is that of a desired service.

* `Stage.sync_growing_memory`, `Stage.sync_growing_files`, `App.sync_growing` — one pass, with
  stores in memory, with stores on files, and of the operator on its files;
* `passes_only_add` — any number of passes.
-/

namespace ApiAvailability

open Files Rehearsal

/-! ## What a reconciler of a stage keeps -/

namespace Rehearsal

/-- **Two worlds are alike** in all that stores hold: only scripts, calls and events may differ. -/
structure World.Alike (w w' : World) : Prop where
  desired : w'.desired = w.desired
  objects : w'.cluster.objects = w.cluster.objects
  status : w'.status = w.status
  versions : w'.versions = w.versions
  tree : w'.tree = w.tree

namespace Stage

variable {s : Stage} {R : World → World → Prop}

/-- Up to its verdict a pass of a stage keeps a relation that its registry keeps, if the relation
looks at what stores hold only. -/
theorem working_assembled (hR : ∀ w w', w.Alike w' → R w w')
    (hget : ∀ name, Keeps R (s.registry.get name)) : s.assembled.Working R where
  get := hget
  provider := by
    intro w
    rw [provider_assembled]
    exact hR _ _ ⟨rfl, rfl, rfl, rfl, rfl⟩
  precondition := by
    intro w
    obtain ⟨n, checked, stopping, -, h⟩ := precondition_assembled (s := s) w
    rw [h]
    exact hR _ _ ⟨rfl, rfl, rfl, rfl, rfl⟩
  read := by
    intro w
    rw [snd_read]
    exact hR _ _ ⟨rfl, rfl, rfl, rfl, rfl⟩
  recordEvent e := by
    intro w
    rw [recordEvent_assembled]
    exact hR _ _ ⟨rfl, rfl, rfl, rfl, rfl⟩

variable [IsPreorder World R]

/-- A write that a script answers changes nothing that stores hold, and any other is one of the
store. -/
theorem upsert_scripted (hR : ∀ w w', w.Alike w' → R w w') (c : OperatorCondition) (w : World) :
    (∃ e, (s.assembled.status.upsert c w).1 = .error e ∧ R w (s.assembled.status.upsert c w).2) ∨
    ∃ w₁, R w w₁ ∧ s.assembled.status.upsert c w = s.store.upsert c w₁ := by
  have hstatus : s.assembled.status = World.scripted s.store := rfl
  have hscript (writes : List (Option StoreError)) : R w { w with writes } :=
    hR _ _ ⟨rfl, rfl, rfl, rfl, rfl⟩
  rw [hstatus, World.scripted]
  rcases hw : w.writes with _ | ⟨_ | e, rest⟩
  · exact .inr ⟨w, refl w, by simp only [hw]⟩
  · exact .inr ⟨_, hscript rest, by simp only [hw]⟩
  · exact .inl ⟨e, by simp only [hw], by simp only [hw]; exact hscript rest⟩

/-- A reconciler of a stage keeps a relation that its stores keep, if the relation looks at what
stores hold only. -/
theorem keeping_assembled (hR : ∀ w w', w.Alike w' → R w w')
    (hget : ∀ name, Keeps R (s.registry.get name)) (hupsert : ∀ c, Keeps R (s.store.upsert c))
    (hversion : ∀ component version, Keeps R (s.recordVersion component version)) :
    s.assembled.Keeping R where
  toWorking := working_assembled hR hget
  upsert c := by
    intro w
    rcases upsert_scripted (s := s) hR c w with ⟨e, -, h⟩ | ⟨w₁, hw₁, h⟩
    · exact h
    · rw [h]
      exact IsTrans.trans _ _ _ hw₁ (hupsert c w₁)
  recordVersion := hversion

/-- What the store spares, a stage spares. -/
theorem upsert_spares (hR : ∀ w w', w.Alike w' → R w w')
    (hupsert : ∀ c, Spares R (s.store.upsert c)) (c : OperatorCondition) :
    Spares R (s.assembled.status.upsert c) := by
  intro e w w' hw'
  rcases upsert_scripted (s := s) hR c w with ⟨_, -, h⟩ | ⟨w₁, hw₁, h⟩
  · rwa [hw'] at h
  · exact IsTrans.trans _ _ _ hw₁ (hupsert c e w₁ w' (h.symm.trans hw'))

/-- What the provider of a stage hands on is what is desired. -/
theorem eq_of_provider_eq_ok {w : World} {ds : List Desired}
    (h : (s.assembled.provider w).1 = .ok ds) : w.desired = ds := by
  rw [provider_assembled] at h
  cases hf : w.providerFailure with
  | some e => rw [hf] at h; contradiction
  | none => rw [hf] at h; exact Except.ok.inj h

/-! ## With stores in memory -/

/-- The object of a name in the registry of a world. -/
def objectsOf (w : World) (name : String) : Option ApiService := w.cluster.objects[name]?

/-- Whether an object under a name is one of some desired services. -/
def IsOneOf (ds : List Desired) (name : String) (o : ApiService) : Prop :=
  ∃ d ∈ ds, name = d.name ∧ o = d.toObject

/-- Creating an object on a registry in memory adds it, or nothing. -/
theorem grows_create {may : String → ApiService → Prop} (c : Cluster) {o : ApiService}
    (hmay : may o.name o) :
    Grows may (c.objects[·]?) (fun name => (c.create o).2.objects[name]?) := by
  rcases c.objects_create o with h | ⟨hnew, h⟩
  · rw [h]
    exact .refl may _
  · rw [h]
    refine .of_one (k := o.name) (a := o) ?_ ?_ hmay ?_
    · simpa using hnew
    · exact Std.ExtTreeMap.getElem?_insert_self
    · intro name hname
      rw [Std.ExtTreeMap.getElem?_insert, if_neg (by simpa using hname.symm)]

/-- **One pass, with stores in memory.** -/
theorem sync_growing_memory (hs : s.backend = .memory) (now : Time.Timestamp) (w : World) :
    Growing (fun _ => True) objectsOf (IsOneOf w.desired) w (s.assembled.sync now w).2 := by
  let R := Growing (fun w' => w'.desired = w.desired) objectsOf (IsOneOf w.desired)
  have hR (w₁ w₂ : World) (hd : w₂.desired = w₁.desired)
      (ho : w₂.cluster.objects = w₁.cluster.objects) (_ : w₂.tree = w₁.tree) : R w₁ w₂ :=
    .of_eq hd.trans (funext fun name => congrArg (·[name]?) ho)
  have hget (name : String) : Keeps R (s.registry.get name) := by
    intro w₁
    rw [registry, hs]
    exact hR _ _ rfl (w₁.cluster.get_objects name) rfl
  have hupsert (c : OperatorCondition) : Keeps R (s.store.upsert c) := by
    intro w₁
    rw [store, hs]
    exact hR _ _ rfl rfl rfl
  have hversion (component version : String) : Keeps R (s.recordVersion component version) := by
    intro w₁
    rw [recordVersion, hs]
    split
    · exact hR _ _ rfl rfl rfl
    · exact hR _ _ rfl rfl rfl
  have hcreate (d : Desired) (hd : d ∈ w.desired) : Keeps R (s.registry.create d.toObject) := by
    intro w₁ hw₁
    rw [registry, hs]
    exact ⟨hw₁, grows_create w₁.cluster ⟨d, hd, rfl, rfl⟩⟩
  have hsync : R w (s.assembled.sync now w).2 := by
    have halike (w₁ w₂ : World) (h : w₁.Alike w₂) := hR w₁ w₂ h.desired h.objects h.tree
    refine (keeping_assembled halike hget hupsert hversion).sync ?_ now
    intro w' ds hw' hds d hd
    rw [← eq_of_provider_eq_ok hds, (hw' rfl).1] at hd
    exact hcreate d hd
  exact fun _ => ⟨trivial, (hsync rfl).2⟩

/-! ## With stores on files -/

/-- What an action on the tree keeps of the tree, it keeps of a world, with all that does not
depend on the tree. -/
theorem keeps_onTree {α : Type} {x : StateM Tree α} {inv : World → Prop} {home : Place}
    {own : List Place} {may : Place → Node → Prop} (hinv : ∀ w tree, inv w → inv { w with tree })
    (hx : Keeps (Tree.Extends home own may) x) :
    Keeps (Growing (fun w => inv w ∧ w.tree.home = home) (fun w => w.tree.outside own) may)
      (World.onTree x) := by
  rintro w ⟨hw, hhome⟩
  obtain ⟨hhome', hgrows⟩ := hx w.tree hhome
  exact ⟨⟨hinv w _ hw, hhome'⟩, hgrows⟩

/-- The files of a world keep what a tree keeps. -/
theorem keeping_system {inv : World → Prop} {home : Place} {own : List Place}
    {may : Place → Node → Prop} (hinv : ∀ w tree, inv w → inv { w with tree })
    (hmay : ∀ q, may q .directory) :
    system.Keeping home own may (Growing (fun w => inv w ∧ w.tree.home = home)
      (fun w => w.tree.outside own) may) where
  read p := keeps_onTree (x := Tree.system.read p) hinv (Tree.read_keeps p)
  isDirectory p := keeps_onTree (x := Tree.system.isDirectory p) hinv (Tree.isDirectory_keeps p)
  makeDir p := keeps_onTree (x := Tree.system.makeDir p) hinv (Tree.makeDir_keeps (hmay _))
  createNew p content h :=
    keeps_onTree (x := Tree.system.createNew p content) hinv (Tree.createNew_keeps h)
  write p content h :=
    keeps_onTree (x := Tree.system.write p content) hinv (Tree.write_keeps h content)
  rename p p' h h' :=
    keeps_onTree (x := Tree.system.rename p p') hinv (Tree.rename_keeps h h')

section Files

variable {objects : Directory} {file : StatusFile} (hs : s.backend = .files objects file)
  {home : Place} {own : List Place} {may : Place → Node → Prop}
  (hfs : system.Keeping home own may R)

include hs hfs

/-- Up to its verdict a pass with stores on files keeps what the files keep. -/
theorem working_files (hR : ∀ w w', w.Alike w' → R w w') : s.assembled.Working R := by
  refine working_assembled hR fun name => ?_
  rw [registry, hs]
  exact objects.get_keeps hfs name

/-- A pass with stores on files keeps what the files keep, the record's included, and recording a
version elsewhere. -/
theorem keeping_files (hR : ∀ w w', w.Alike w' → R w w')
    (hown : ∀ q ∈ file.places home, q ∈ own)
    (hversion : ∀ component version, Keeps R (World.recordVersion component version)) :
    s.assembled.Keeping R := by
  have hupdate (change : OperatorState → OperatorState) : Keeps R (file.update system change) :=
    file.update_keeps hfs hown change
  refine keeping_assembled hR (working_files hs hfs hR).get (fun c => ?_)
    fun component version => ?_
  · rw [store, hs]
    exact hupdate _
  · rw [recordVersion, hs]
    split
    · exact (hupdate _).bind fun _ => .pure _
    · exact hversion component version

/-- Creating an object in a file keeps what the files keep where its file may be new. -/
theorem create_files {o : ApiService} (hmay : may
    (objects.path.place home ++ [Directory.fileName o.name])
    (.file (Directory.document o).toUTF8)) : Keeps R (s.assembled.registry.create o) := by
  change Keeps R (s.registry.create o)
  rw [registry, hs]
  exact objects.create_keeps hfs hmay

end Files

/-- **One pass, with stores on files.** -/
theorem sync_growing_files {objects : Directory} {file : StatusFile}
    (hs : s.backend = .files objects file) (home : Place) (now : Time.Timestamp) (w : World) :
    Growing (fun w => w.tree.home = home) (fun w => w.tree.outside (file.places home))
      (objects.IsNewIn home w.desired) w (s.assembled.sync now w).2 := by
  intro hhome
  let R := Growing (fun w' : World => w'.desired = w.desired ∧ w'.tree.home = home)
    (fun w' => w'.tree.outside (file.places home)) (objects.IsNewIn home w.desired)
  have hR (w₁ w₂ : World) (h : w₁.Alike w₂) : R w₁ w₂ :=
    .of_eq (fun hw₁ => ⟨h.desired.trans hw₁.1, (congrArg Tree.home h.tree).trans hw₁.2⟩)
      (congrArg (Tree.outside · (file.places home)) h.tree)
  have hfs : system.Keeping home (file.places home) (objects.IsNewIn home w.desired) R :=
    keeping_system (fun _ _ h => h) fun q => .inl rfl
  have hsync : R w (s.assembled.sync now w).2 := by
    refine (keeping_files hs hfs hR (fun q hq => hq) fun _ _ _ => .of_eq id rfl).sync ?_ now
    intro w' ds hw' hds d hd
    rw [← eq_of_provider_eq_ok hds, (hw' ⟨rfl, hhome⟩).1.1] at hd
    exact create_files hs hfs (.inr ⟨d, hd, rfl, rfl⟩)
  exact ⟨(hsync ⟨rfl, hhome⟩).1.2, (hsync ⟨rfl, hhome⟩).2⟩

end Stage

end Rehearsal

/-! ## The operator on its files -/

namespace App

variable {c : Config} {dir : Files.Path} {app : App (StateM Tree)}

/-- Where the operator keeps objects, in the directory `dir` of all. -/
def objectsPlace (dir : Files.Path) (home : Place) : Place := (dir.join objectsName).place home

/-- Whether what is below a directory of objects is a directory or the file of a service that is
desired. -/
def IsNewFile (ds : List Desired) (q : Place) (n : Node) : Prop :=
  n = .directory ∨ ∃ d ∈ ds, q = [Directory.fileName d.name] ∧
    n = .file (Directory.document d.toObject).toUTF8

/-- The temporary file of the operator's record. -/
theorem temporary_eq (dir : Files.Path) :
    (StatusFile.mk (dir.join statusName)).temporary = dir.join "status.json.tmp" :=
  @Files.Path.withExtension_join "status" "json" dir "json.tmp" (by decide) (by decide)
    (by decide) (by decide) (by decide) (by decide)

/-- The places of the operator's record. -/
theorem places_eq (dir : Files.Path) (home : Place) :
    (StatusFile.mk (dir.join statusName)).places home =
      [dir.place home ++ ["status.json"], dir.place home ++ ["status.json.tmp"]] := by
  have hstatus : (dir.join statusName).place home = dir.place home ++ ["status.json"] :=
    Files.Path.place_join home dir (by decide) (by decide) (by decide) (by decide)
  have htemporary : (dir.join "status.json.tmp").place home = dir.place home ++ ["status.json.tmp"] :=
    Files.Path.place_join home dir (by decide) (by decide) (by decide) (by decide)
  rw [StatusFile.places, temporary_eq, hstatus, htemporary]

/-- The operator's record has its places outside of the directory of objects. -/
theorem not_mem_places (dir : Files.Path) (home q : Place) :
    objectsPlace dir home ++ q ∉ (StatusFile.mk (dir.join statusName)).places home := by
  have hobjects : objectsPlace dir home = dir.place home ++ [objectsName] :=
    Files.Path.place_join home dir (by decide) (by decide) (by decide) (by decide)
  rw [places_eq, hobjects, List.append_assoc]
  simp [objectsName]

/-- The file of the operator's record is not in the place of the temporary one. -/
theorem not_mem_temporary (dir : Files.Path) (home : Place) :
    (dir.join statusName).place home ∉
      [(StatusFile.mk (dir.join statusName)).temporary.place home] := by
  obtain ⟨hpath, htemporary⟩ :
      (dir.join statusName).place home = dir.place home ++ ["status.json"] ∧
      (StatusFile.mk (dir.join statusName)).temporary.place home =
        dir.place home ++ ["status.json.tmp"] := by
    simpa [StatusFile.places] using places_eq dir home
  simp [hpath, htemporary]

/-- The file of the operator's record is not the new file of an object. -/
theorem not_isNewIn (dir : Files.Path) (home : Place) (ds : List Desired) (content : ByteArray) :
    ¬ Directory.IsNewIn ⟨dir.join objectsName⟩ home ds ((dir.join statusName).place home)
      (.file content) := by
  rintro (hdirectory | ⟨d, -, hplace, -⟩)
  · cases hdirectory
  · have hmem : (dir.join statusName).place home ∈
        (StatusFile.mk (dir.join statusName)).places home := List.mem_cons_self
    rw [hplace] at hmem
    exact not_mem_places dir home _ hmem

/-- The reconciler of the operator. -/
theorem reconciler_eq (h : App.new Tree.system (fun _ => pure ()) c dir = .ok app) :
    app.reconciler = {
      registry := Directory.registry Tree.system ⟨dir.join objectsName⟩
      provider := pure (.ok c.desired)
      precondition := pure (.ok true)
      status := StatusFile.store Tree.system ⟨dir.join statusName⟩
      recordVersion := StatusFile.setVersion Tree.system ⟨dir.join statusName⟩
      recordEvent := fun _ => pure ()
      component := c.component
      operandVersion := c.operandVersion } :=
  congrArg App.reconciler (Except.ok.inj h).symm

/-- The file of the operator's record. -/
theorem statusFile_eq (h : App.new Tree.system (fun _ => pure ()) c dir = .ok app) :
    app.statusFile = ⟨dir.join statusName⟩ :=
  congrArg App.statusFile (Except.ok.inj h).symm

theorem system_eq (h : App.new Tree.system (fun _ => pure ()) c dir = .ok app) :
    app.system = Tree.system :=
  congrArg App.system (Except.ok.inj h).symm

/-- What is new in a tree, outside of the record's places, is new below the directory of objects. -/
theorem grows_below {home : Place} {ds : List Desired} {t t' : Tree}
    (h : Grows (Directory.IsNewIn ⟨dir.join objectsName⟩ home ds)
      (t.outside (StatusFile.places ⟨dir.join statusName⟩ home))
      (t'.outside (StatusFile.places ⟨dir.join statusName⟩ home))) :
    Grows (IsNewFile ds) (fun q => t.lookup (objectsPlace dir home ++ q))
      (fun q => t'.lookup (objectsPlace dir home ++ q)) := by
  have hview (t : Tree) : (fun q => t.outside (StatusFile.places ⟨dir.join statusName⟩ home)
      (objectsPlace dir home ++ q)) = fun q => t.lookup (objectsPlace dir home ++ q) := by
    funext q
    exact if_neg (not_mem_places dir home q)
  have hbelow := h.comp (objectsPlace dir home ++ ·)
  rw [hview, hview] at hbelow
  refine hbelow.mono ?_
  rintro q n (hn | ⟨d, hd, hq, hn⟩)
  · exact .inl hn
  · exact .inr ⟨d, hd, List.append_cancel_left hq, hn⟩

section Keeps

variable (h : App.new Tree.system (fun _ => pure ()) c dir = .ok app) {home : Place}
  {own : List Place} {may : Place → Node → Prop} {R : Tree → Tree → Prop} [IsPreorder Tree R]

include h

/-- Up to its verdict a pass of the operator keeps what its files keep. -/
theorem working (hfs : Tree.system.Keeping home own may R) : app.reconciler.Working R := by
  rw [reconciler_eq h]
  exact {
    get := Directory.get_keeps hfs ⟨dir.join objectsName⟩
    provider := .pure _
    precondition := .pure _
    read := StatusFile.load_keeps hfs ⟨dir.join statusName⟩
    recordEvent := fun e => .pure () }

/-- A pass of the operator keeps what its files keep, its record's included. -/
theorem keeping (hfs : Tree.system.Keeping home own may R)
    (hown : ∀ q ∈ (StatusFile.mk (dir.join statusName)).places home, q ∈ own) :
    app.reconciler.Keeping R where
  toWorking := working h hfs
  upsert c := by
    rw [reconciler_eq h]
    exact StatusFile.update_keeps hfs _ hown _
  recordVersion component version := by
    rw [reconciler_eq h]
    exact (StatusFile.update_keeps hfs _ hown _).bind fun _ => .pure _

/-- The operator creates the objects of services that are configured. -/
theorem create_keeps {t : Tree}
    (hfs : Tree.system.Keeping home own (Directory.IsNewIn ⟨dir.join objectsName⟩ home c.desired) R)
    (t' : Tree) (ds : List Desired) (_ : R t t') (hds : (app.reconciler.provider t').1 = .ok ds)
    (d : Desired) (hd : d ∈ ds) : Keeps R (app.reconciler.registry.create d.toObject) := by
  rw [reconciler_eq h] at hds ⊢
  obtain rfl : c.desired = ds := Except.ok.inj hds
  exact Directory.create_keeps hfs ⟨dir.join objectsName⟩ (.inr ⟨d, hd, rfl, rfl⟩)

end Keeps

/-- **One pass of the operator on its files.** -/
theorem sync_growing (h : App.new Tree.system (fun _ => pure ()) c dir = .ok app) (home : Place)
    (now : Time.Timestamp) (t : Tree) :
    Growing (fun t => t.home = home) (fun t q => t.lookup (objectsPlace dir home ++ q))
      (IsNewFile c.desired) t (app.reconciler.sync now t).2 := by
  intro hhome
  let own := (StatusFile.mk (dir.join statusName)).places home
  let may := Directory.IsNewIn ⟨dir.join objectsName⟩ home c.desired
  have hfs : Tree.system.Keeping home own may (Tree.Extends home own may) :=
    Tree.keeping_system fun q => .inl rfl
  have hkeeping := keeping h hfs fun q hq => hq
  obtain ⟨hhome', hgrows⟩ := hkeeping.sync (create_keeps h hfs) now hhome
  exact ⟨hhome', grows_below hgrows⟩

end App

/-! ## Runs -/

/-- **Passes add objects, and do nothing else to them.**  Over any run of passes, objects stay as
they are and new ones are those of services that were desired in one of the passes: in memory, on
files outside of the record's own, and below the directory that the operator keeps objects in.
Between passes all but these may change. -/
theorem passes_only_add :
    (∀ {s : Stage} {r : Reconciler (StateM World)} {w w' : World} {ws : List World},
      s.backend = .memory → s.reconciler = .ok r →
      Run r (fun w w' => w'.cluster.objects = w.cluster.objects) w ws w' →
      Grows (fun name o => ∃ w₁ ∈ ws, ∃ d ∈ w₁.desired, name = d.name ∧ o = d.toObject)
        (fun name => w.cluster.objects[name]?) (fun name => w'.cluster.objects[name]?)) ∧
    (∀ {s : Stage} {r : Reconciler (StateM World)} {objects : Directory} {file : StatusFile}
      {w w' : World} {ws : List World},
      s.backend = .files objects file → s.reconciler = .ok r →
      let own := file.places w.tree.home
      Run r (fun w w' => w'.tree.home = w.tree.home ∧ w'.tree.outside own = w.tree.outside own)
        w ws w' →
      Grows (fun q n => ∃ w₁ ∈ ws, objects.IsNewIn w.tree.home w₁.desired q n)
        (w.tree.outside own) (w'.tree.outside own)) ∧
    (∀ {c : Config} {dir : Files.Path} {app : App (StateM Tree)} {t t' : Tree} {ts : List Tree},
      App.new Tree.system (fun _ => pure ()) c dir = .ok app →
      let place := App.objectsPlace dir t.home
      Run app.reconciler (fun t t' => t'.home = t.home ∧
        ∀ q, t'.lookup (place ++ q) = t.lookup (place ++ q)) t ts t' →
      Grows (App.IsNewFile c.desired) (fun q => t.lookup (place ++ q))
        (fun q => t'.lookup (place ++ q))) := by
  refine ⟨?_, ?_, ?_⟩
  · intro s r w w' ws hs hr hrun
    obtain rfl := Stage.eq_assembled hr
    refine (hrun.grows (fun w w' h _ => ⟨trivial, ?_⟩) (Stage.sync_growing_memory hs) trivial).2
    exact funext fun name => congrArg (·[name]?) h
  · intro s r objects file w w' ws hs hr own hrun
    obtain rfl := Stage.eq_assembled hr
    have hsync (now : Time.Timestamp) (w₁ : World) := Stage.sync_growing_files hs w.tree.home now w₁
    exact (hrun.grows (fun w₁ w₂ h h₁ => ⟨h.1.trans h₁, h.2⟩) hsync rfl).2
  · intro c dir app t t' ts happ place hrun
    have hsync (now : Time.Timestamp) (t₁ : Tree) := App.sync_growing happ t.home now t₁
    have hgrows := (hrun.grows (fun t₁ t₂ h h₁ => ⟨h.1.trans h₁, funext h.2⟩) hsync rfl).2
    exact hgrows.mono fun q n ⟨t₁, _, h⟩ => h

/-- The directory `/var/apiservices` with a file that holds no object. -/
def Files.Tree.littered : Tree :=
  Tree.empty.install ⟨"/var/apiservices/v1.build.json"⟩ (.file "no JSON".toUTF8)

/-- A stage on the files of the operator in `/var`. -/
def Rehearsal.Stage.onFiles : Stage :=
  ⟨.files ⟨⟨"/var/apiservices"⟩⟩ ⟨⟨"/var/status.json"⟩⟩, true, "openshift-apiserver", "4.2.0", []⟩

/-- A configuration with one entry. -/
def Config.single : Config where
  component := "openshift-apiserver"
  operandVersion := "4.2.0"
  targetNamespace := "openshift-apiserver"
  serviceName := "api"
  syncIntervalSecs := 30
  maxConsecutiveErrors := 10
  apiServices := [⟨"build", "v1", none, none⟩]

/-- An object that reports trouble stays, also when it is desired no more; and so does a file that
holds no object. -/
theorem passes_only_add_littered :
    (let w := (Stage.complete.assembled.sync (World.time 0) World.troubled).2
     (Stage.complete.assembled.sync (World.time 1) (w.desiring [])).2.cluster.objects["v1.build"]? =
      some World.down) ∧
    (let w := { World.troubled with tree := Tree.littered }
     (Stage.onFiles.assembled.sync (World.time 0) w).2.tree.lookup
      ["var", "apiservices", "v1.build.json"] = some (.file "no JSON".toUTF8)) ∧
    ∃ app, App.new Tree.system (fun _ => pure ()) Config.single ⟨"/var"⟩ = .ok app ∧
      (app.reconciler.sync (World.time 0) Tree.littered).2.lookup
        ["var", "apiservices", "v1.build.json"] = some (.file "no JSON".toUTF8) := by
  obtain ⟨hmemory, hfiles, hoperator⟩ := passes_only_add
  refine ⟨?_, ?_, ?_⟩
  · have hrun (r : Reconciler (StateM World)) :
        Run r (fun w w' => w'.cluster.objects = w.cluster.objects) World.troubled
          [World.troubled, (r.sync (World.time 0) World.troubled).2.desiring []]
          (r.sync (World.time 1) ((r.sync (World.time 0) World.troubled).2.desiring [])).2 :=
      .pass (by rfl) _ (.pass (by rfl) _ (.rest (by rfl)))
    have hbefore : World.troubled.cluster.objects["v1.build"]? = some World.down := by
      decide +kernel
    have hgrows := hmemory (s := .complete) rfl (Stage.reconciler_of_without rfl) (hrun _)
    exact hgrows.kept "v1.build" _ hbefore
  · have hrun (r : Reconciler (StateM World)) (w : World) (own : List Place) :
        Run r (fun w w' => w'.tree.home = w.tree.home ∧ w'.tree.outside own = w.tree.outside own)
          w [w] (r.sync (World.time 0) w).2 :=
      .pass ⟨rfl, rfl⟩ _ (.rest ⟨rfl, rfl⟩)
    have hgrows := hfiles (s := .onFiles) rfl (Stage.reconciler_of_without rfl)
      (hrun _ { World.troubled with tree := Tree.littered } _)
    refine (Tree.outside_eq_some_iff.mp (hgrows.kept _ _ ?_)).2
    exact Tree.outside_eq_some_iff.mpr ⟨by decide +kernel, by decide +kernel⟩
  · have hrun (r : Reconciler (StateM Tree)) (place : Place) :
        Run r (fun t t' => t'.home = t.home ∧ ∀ q, t'.lookup (place ++ q) = t.lookup (place ++ q))
          Tree.littered [Tree.littered] (r.sync (World.time 0) Tree.littered).2 :=
      .pass ⟨rfl, fun _ => rfl⟩ _ (.rest ⟨rfl, fun _ => rfl⟩)
    have hplace : App.objectsPlace ⟨"/var"⟩ Tree.littered.home = ["var", "apiservices"] := by
      decide +kernel
    obtain ⟨app, happ⟩ : ∃ app,
        App.new Tree.system (fun _ => pure ()) Config.single ⟨"/var"⟩ = .ok app := ⟨_, rfl⟩
    have hgrows := hoperator happ (hrun _ _)
    rw [hplace] at hgrows
    exact ⟨app, happ, hgrows.kept ["v1.build.json"] _ (by decide +kernel)⟩

end ApiAvailability
