import ApiAvailability.Proofs.ApiService.Written
import ApiAvailability.Proofs.Files.Reach
import ApiAvailability.Proofs.Store.Answers

/-!
# Proofs/Store/Directory — a registry of files is a registry in memory

A directory that was empty to begin with has, after any calls of its registry, one file for each
object that was created, and no other (`Directory.Stores`).  So every call is answered as a registry
in memory answers it (`Directory.refines_memory`), whether the directory was there at first or was
made with the first object.
-/

namespace ApiAvailability

open Files Json

/-! ## Calls -/

/-- The call on a registry. -/
def Action.on {m : Type → Type} (r : Registry m) : Action → m (Except StoreError ApiService)
  | get name => r.get name
  | create o => r.create o

/-- Calls on a registry, one after the other. -/
def Action.allOn {m : Type → Type} [Monad m] (r : Registry m) (calls : List Action) :
    m (List (Except StoreError ApiService)) := calls.mapM (·.on r)

namespace Directory

variable {d : Directory} {t t' : Tree} {name : String} {o : ApiService}
  {objects : Std.ExtTreeMap String ApiService compare}

/-! ## Names -/

/-- **An object may have the name**: the registry accepts it, and the file's name and path are
legal. -/
structure CanHold (d : Directory) (name : String) : Prop where
  accepted : accepts name = true
  nul : '\x00' ∉ name.toList
  short : name.utf8ByteSize ≤ 250
  room : (d.path.join (fileName name)).text.utf8ByteSize < Tree.maxPathBytes

theorem CanHold.isName (h : d.CanHold name) : IsName (fileName name) := isName_fileName h.accepted

theorem CanHold.length_le (h : d.CanHold name) :
    (fileName name).utf8ByteSize ≤ Tree.maxNameBytes := by
  have hshort := h.short
  have hext : ".json".utf8ByteSize = 5 := rfl
  rw [fileName, String.utf8ByteSize_append, Tree.maxNameBytes]
  omega

theorem CanHold.pathOf_eq (h : d.CanHold name) :
    d.pathOf name = .ok (d.path.join (fileName name)) := if_pos h.accepted

/-- No character zero is in the path of an object's file, below a directory that is there. -/
theorem not_mem_nul_join (h : accepts name = true) (hnul : '\x00' ∉ name.toList)
    (hd : t.Leads d.path) : '\x00' ∉ (d.path.join (fileName name)).text.toList := by
  rw [Path.join_eq d.path (isName_fileName h).separator, Path.stem, fileName]
  split <;> simp [hd.not_mem_nul, hnul]

/-- The path of an object's file is legal. -/
theorem CanHold.refusal?_eq_none (h : d.CanHold name) (hd : t.Leads d.path) :
    Tree.refusal? (d.path.join (fileName name)) = none := by
  refine Tree.refusal?_eq_none (not_mem_nul_join h.accepted h.nul hd) ?_ h.room
  rw [Path.join_eq d.path h.isName.separator]
  simp [h.isName.empty]

theorem CanHold.locate (h : d.CanHold name) (hd : t.Leads d.path) :
    t.locate (d.path.join (fileName name)) =
      .ok (.entry (d.path.place t.home ++ [fileName name]) false) :=
  hd.reaches.locate_join h.isName h.length_le (h.refusal?_eq_none hd)

/-! ## What a directory holds -/

/-- **The directory holds some objects**: a file for each, in which it is read, and nothing else. -/
structure Stores (d : Directory) (t : Tree)
    (objects : Std.ExtTreeMap String ApiService compare) : Prop where
  held : ∀ name o, objects[name]? = some o → ∃ content,
    t.lookup (d.path.place t.home ++ [fileName name]) = some (.file content) ∧
      (Value.ofBytes? content).bind ApiService.ofJson? = some o
  only : ∀ file n, t.lookup (d.path.place t.home ++ [file]) = some n →
    ∃ name ∈ objects, file = fileName name

/-- **A directory can be used**: it is there or can be made, and then it is empty. -/
structure IsReady (d : Directory) (t : Tree) : Prop where
  made : (Tree.system.makeDirs d.path t).1 = .ok ()
  empty : ∀ file, (Tree.system.makeDirs d.path t).2.lookup (d.path.place t.home ++ [file]) = none

/-- A directory in which there is nothing holds no objects. -/
theorem stores_empty (h : ∀ file, t.lookup (d.path.place t.home ++ [file]) = none) :
    d.Stores t ∅ := by
  refine ⟨fun name o ho => ?_, fun file n hn => ?_⟩
  · rw [Std.ExtTreeMap.getElem?_empty] at ho
    contradiction
  · rw [h file] at hn
    contradiction

theorem IsReady.exists_made (h : d.IsReady t) : ∃ t', Tree.system.makeDirs d.path t = (.ok (), t') ∧
    t'.Leads d.path ∧ d.Stores t' ∅ := by
  rcases hmade : Tree.system.makeDirs d.path t with ⟨answer, t'⟩
  have hanswer := h.made
  have hempty := h.empty
  rw [hmade] at hanswer hempty
  obtain rfl : answer = .ok () := hanswer
  have hhome : t'.home = t.home := ((Tree.makeDirs_paves d.path).of_eq hmade).home
  exact ⟨t', rfl, Tree.leads_of_makeDirs hmade, stores_empty (hhome ▸ hempty)⟩

/-- A directory that can be used holds no objects, and does not before it is made. -/
theorem IsReady.stores (h : d.IsReady t) : d.Stores t ∅ := by
  refine stores_empty fun file => Option.eq_none_iff_forall_ne_some.mpr fun n hn => ?_
  have hkept := Tree.lookup_makeDirs d.path hn
  rw [h.empty file] at hkept
  contradiction

/-! ## Calls on files -/

/-- What a registry that holds some objects answers. -/
def answer (objects : Std.ExtTreeMap String ApiService compare) :
    Action → Except StoreError ApiService
  | .get name => (objects[name]?).elim (.error (.notFound resourceName name)) .ok
  | .create o =>
    if o.name ∈ objects then .error (.alreadyExists resourceName o.name) else .ok o

/-- The objects that a registry holds after a call. -/
def after (objects : Std.ExtTreeMap String ApiService compare) :
    Action → Std.ExtTreeMap String ApiService compare
  | .get _ => objects
  | .create o => if o.name ∈ objects then objects else objects.insert o.name o

/-- The file of a name is there if its object is. -/
theorem Stores.lookup_eq_none (h : d.Stores t objects) (hname : name ∉ objects) :
    t.lookup (d.path.place t.home ++ [fileName name]) = none := by
  refine Option.eq_none_iff_forall_ne_some.mpr fun n hn => ?_
  obtain ⟨name', hname', he⟩ := h.only _ n hn
  exact hname (fileName_inj he ▸ hname')

theorem Stores.exists_lookup (h : d.Stores t objects) (hname : name ∈ objects) :
    ∃ content, t.lookup (d.path.place t.home ++ [fileName name]) = some (.file content) ∧
      (Value.ofBytes? content).bind ApiService.ofJson? = some objects[name] :=
  h.held name objects[name] (Std.ExtTreeMap.getElem?_eq_some_getElem hname)

/-- **One file more**, the document of an object, in which the object is read. -/
theorem Stores.put (h : d.Stores t objects) (o : ApiService) :
    d.Stores (t.put (d.path.place t.home ++ [fileName o.name]) (.file (document o).toUTF8))
      (objects.insert o.name o) := by
  have hne {file : String} (he : fileName o.name ≠ file) :
      d.path.place t.home ++ [fileName o.name] ≠ d.path.place t.home ++ [file] := by simpa using he
  refine ⟨fun name o' ho' => ?_, fun file n hn => ?_⟩
  · rw [Std.ExtTreeMap.getElem?_insert] at ho'
    split at ho'
    · obtain rfl : o.name = name := Std.LawfulEqCmp.eq_of_compare ‹_›
      obtain rfl := Option.some.inj ho'
      exact ⟨_, Tree.lookup_put_self (by simp), o.denotes.of_bytes⟩
    · rename_i hname
      obtain ⟨content, hcontent, hread⟩ := h.held name o' ho'
      refine ⟨content, (Tree.lookup_put_of_ne (hne fun he => hname ?_)).trans hcontent, hread⟩
      exact Std.LawfulEqCmp.compare_eq_iff_eq.mpr (fileName_inj he)
  · by_cases he : fileName o.name = file
    · exact ⟨o.name, Std.ExtTreeMap.mem_insert_self, he.symm⟩
    · have hbefore := (Tree.lookup_put_of_ne (hne he)).symm.trans hn
      obtain ⟨name, hname, hfile⟩ := h.only file n hbefore
      exact ⟨name, Std.ExtTreeMap.mem_insert.mpr (.inr hname), hfile⟩

theorem get_of_stores (hd : t.Leads d.path) (h : d.Stores t objects) (hname : d.CanHold name) :
    d.get Tree.system name t = (answer objects (.get name), t) := by
  have hlocate := hname.locate hd
  have hread : Tree.system.read (d.path.join (fileName name)) t =
    (t.read (d.path.join (fileName name)), t) := rfl
  rw [get, hname.pathOf_eq, answer]
  simp only [bind_apply, hread]
  by_cases ho : name ∈ objects
  · obtain ⟨content, hcontent, hobject⟩ := h.exists_lookup ho
    rw [Tree.read_of_locate hlocate hcontent, Std.ExtTreeMap.getElem?_eq_some_getElem ho]
    simp only [hobject]
    rfl
  · rw [Tree.read_eq_notFound hlocate (h.lookup_eq_none ho), Std.ExtTreeMap.getElem?_eq_none ho]
    rfl

/-- Before the directory is made there is no object. -/
theorem get_of_isReady (h : d.IsReady t) (hname : d.CanHold name) :
    d.get Tree.system name t = (answer ∅ (.get name), t) := by
  obtain ⟨t', hmade, hleads, -⟩ := h.exists_made
  have hempty := h.empty (fileName name)
  rw [hmade] at hempty
  have hread := Tree.read_of_makeDirs hmade hname.isName hname.length_le
    (hname.refusal?_eq_none hleads) hempty
  have hsystem : Tree.system.read (d.path.join (fileName name)) t =
    (t.read (d.path.join (fileName name)), t) := rfl
  rw [get, hname.pathOf_eq]
  simp only [bind_apply, hsystem, hread]
  rfl

/-- **An object is created** in a directory that is made first if it is missing. -/
theorem create_of_stores (hmade : Tree.system.makeDirs d.path t = (.ok (), t'))
    (h : d.Stores t' objects) (hname : d.CanHold o.name) :
    ∃ t'', d.create Tree.system o t = (answer objects (.create o), t'') ∧ t''.Leads d.path ∧
      d.Stores t'' (after objects (.create o)) := by
  have hleads : t'.Leads d.path := Tree.leads_of_makeDirs hmade
  have hlocate := hname.locate hleads
  rw [create, hname.pathOf_eq, answer, after]
  simp only [bind_apply, hmade]
  by_cases ho : o.name ∈ objects
  · obtain ⟨content, hcontent, -⟩ := h.exists_lookup ho
    have hexists := Tree.createNew_eq_fileExists hlocate hcontent (document o).toUTF8
    rw [Tree.system_createNew hexists, if_pos ho, if_pos ho]
    exact ⟨t', rfl, hleads, h⟩
  · have hmissing := h.lookup_eq_none ho
    have hcreated := Tree.createNew_of_locate hlocate hmissing (document o).toUTF8
    have hfree : t'.lookup (d.path.place t'.home ++ [fileName o.name]) ≠ some .directory := by
      simp [hmissing]
    rw [Tree.system_createNew hcreated, if_neg ho, if_neg ho]
    exact ⟨_, rfl, (Tree.paves_put hfree).leads hleads, h.put o⟩

/-! ## The files and the memory -/

/-- **A registry without reactors** answers for its objects, and notes the call. -/
theorem call_of_reactors {c : Cluster} (h : c.reactors = []) (call : Action) :
    call.on Cluster.registry c =
      (answer c.objects call,
        { c with objects := after c.objects call, actions := c.actions.push call }) := by
  obtain ⟨objects, reactors, actions⟩ := c
  obtain rfl : reactors = [] := h
  cases call with
  | get name =>
    have hcall : (Action.get name).on Cluster.registry = (Cluster.get · name) := rfl
    cases ho : objects[name]? <;> simp [hcall, Cluster.get, Cluster.react, askAll, answer, after, ho]
  | create o =>
    have hcall : (Action.create o).on Cluster.registry = (Cluster.create · o) := rfl
    by_cases ho : o.name ∈ objects <;>
      simp [hcall, Cluster.create, Cluster.react, askAll, answer, after, ho]

/-- **Files and memory agree** on the objects, which are none as long as the directory is missing. -/
structure Agrees (d : Directory) (t : Tree) (c : Cluster) : Prop where
  reactors : c.reactors = []
  stores : d.Stores t c.objects
  usable : t.Leads d.path ∨ (d.IsReady t ∧ c.objects = ∅)

/-- **One call** is answered alike, and leaves both in agreement. -/
theorem Agrees.call {c : Cluster} (h : d.Agrees t c) {call : Action} (hname : d.CanHold call.name) :
    let onFiles := call.on (d.registry Tree.system) t
    let inMemory := call.on Cluster.registry c
    onFiles.1 = inMemory.1 ∧ d.Agrees onFiles.2 inMemory.2 := by
  intro onFiles inMemory
  have hmemory : inMemory = _ := call_of_reactors h.reactors call
  rw [hmemory]
  cases call with
  | get name =>
    have hget : onFiles = (answer c.objects (.get name), t) := by
      rcases h.usable with hleads | ⟨hready, hnone⟩
      · exact get_of_stores hleads h.stores hname
      · rw [hnone]
        exact get_of_isReady hready hname
    rw [hget]
    exact ⟨rfl, h.reactors, h.stores, h.usable⟩
  | create o =>
    obtain ⟨t', hmade, hstores⟩ : ∃ t', Tree.system.makeDirs d.path t = (.ok (), t') ∧
        d.Stores t' c.objects := by
      rcases h.usable with hleads | ⟨hready, hnone⟩
      · exact ⟨t, Tree.makeDirs_of_leads hleads, h.stores⟩
      · obtain ⟨t', hmade, -, hstores⟩ := hready.exists_made
        exact ⟨t', hmade, hnone ▸ hstores⟩
    obtain ⟨t'', hcreate, hleads, hstores'⟩ := create_of_stores hmade hstores hname
    have hcall : onFiles = _ := hcreate
    rw [hcall]
    exact ⟨rfl, h.reactors, hstores', .inl hleads⟩

/-- **Any calls** are answered alike. -/
theorem Agrees.calls {c : Cluster} (h : d.Agrees t c) {calls : List Action}
    (hnames : ∀ call ∈ calls, d.CanHold call.name) :
    let onFiles := Action.allOn (d.registry Tree.system) calls t
    let inMemory := Action.allOn Cluster.registry calls c
    onFiles.1 = inMemory.1 ∧ d.Agrees onFiles.2 inMemory.2 := by
  induction calls generalizing t c with
  | nil => exact ⟨rfl, h⟩
  | cons call calls ih =>
    obtain ⟨hanswer, hafter⟩ := h.call (hnames call List.mem_cons_self)
    obtain ⟨hanswers, hend⟩ :=
      ih hafter fun call' hcall' => hnames call' (List.mem_cons_of_mem call hcall')
    rw [Action.allOn, Action.allOn] at hanswers hend
    simp only [Action.allOn, mapM_cons_apply]
    exact ⟨by rw [hanswer, hanswers], hend⟩

/-- **A registry of files is a registry in memory**: on a directory that is missing or empty all
calls are answered alike, and the directory holds a file for each object that the memory holds, in
which the object is read, and nothing else. -/
theorem answers_as_memory (h : d.IsReady t) (calls : List Action)
    (hnames : ∀ call ∈ calls, d.CanHold call.name) :
    let onFiles := Action.allOn (d.registry Tree.system) calls t
    let inMemory := Action.allOn Cluster.registry calls (.ofObjects [])
    onFiles.1 = inMemory.1 ∧ d.Stores onFiles.2 inMemory.2.objects := by
  have hagrees : d.Agrees t (.ofObjects []) := ⟨rfl, h.stores, .inr ⟨h, rfl⟩⟩
  obtain ⟨hanswers, hend⟩ := hagrees.calls hnames
  exact ⟨hanswers, hend.stores⟩

/-- A directory where relative paths start. -/
def plain : Directory := ⟨⟨"objects"⟩⟩

theorem plain_isReady : plain.IsReady .empty := by
  have hname : IsName "objects" := ⟨by decide +kernel, by decide, by decide, by decide⟩
  have hmade := Tree.makeDirs_of_name hname (by decide) (by decide +kernel)
    (show Tree.empty.lookup [_] = none from rfl)
  have hplace : plain.path.place Tree.empty.home = ["objects"] := by decide +kernel
  refine ⟨congrArg Prod.fst hmade, fun file => ?_⟩
  have hafter : (Tree.system.makeDirs plain.path .empty).2 = _ := congrArg Prod.snd hmade
  rw [hafter, hplace, Tree.lookup_put_of_ne (by simp [Tree.empty])]
  simp [Tree.lookup, Tree.empty]

theorem plain_canHold : plain.CanHold "v1.apps" :=
  ⟨by decide +kernel, by decide +kernel, by decide +kernel, by decide +kernel⟩

/-- An object is created twice, and read. -/
theorem answers_as_memory_plain :
    let o := (Desired.new "apps" "v1" ⟨"default", "apps"⟩).toObject
    let calls : List Action := [.create o, .create o, .get "v1.apps"]
    let onFiles := Action.allOn (plain.registry Tree.system) calls .empty
    let inMemory := Action.allOn Cluster.registry calls (.ofObjects [])
    plain.IsReady .empty ∧ onFiles.1 = inMemory.1 ∧ plain.Stores onFiles.2 inMemory.2.objects := by
  intro o calls
  have hobject : o.name = "v1.apps" := by decide +kernel
  have hnames : ∀ call ∈ calls, plain.CanHold call.name := by
    simp [calls, Action.name, hobject, plain_canHold]
  clear_value calls
  exact ⟨plain_isReady, answers_as_memory plain_isReady calls hnames⟩

/-! ## A path without room -/

/-- **A directory's path may be so long that none is left for a file in it.** Then the system refuses
to look for an object that is not there, and to create it. -/
theorem calls_without_room (hmade : Tree.system.makeDirs d.path t = (.ok (), t))
    (haccepts : accepts o.name = true) (hnul : '\x00' ∉ o.name.toList)
    (hroom : Tree.maxPathBytes ≤ (d.path.join (fileName o.name)).text.utf8ByteSize) :
    let refused := .error (.io o.name FileError.nameTooLong.message)
    (Action.allOn (d.registry Tree.system) [.get o.name, .create o] t).1 = [refused, refused] := by
  have hname : IsName (fileName o.name) := isName_fileName haccepts
  have hrefusal : Tree.refusal? (d.path.join (fileName o.name)) = some .nameTooLong := by
    have hlegal := not_mem_nul_join haccepts hnul (Tree.leads_of_makeDirs hmade)
    rw [Tree.refusal?, if_neg (by simpa using hlegal), if_neg ?_, if_pos hroom]
    rw [Path.join_eq d.path hname.separator]
    simp [hname.empty]
  have hlocate : t.locate (d.path.join (fileName o.name)) = .error .nameTooLong := by
    rw [Tree.locate, hrefusal]
  have hpath : d.pathOf o.name = .ok (d.path.join (fileName o.name)) := if_pos haccepts
  have hget : (Action.get o.name).on (d.registry Tree.system) t =
      (.error (.io o.name FileError.nameTooLong.message), t) := by
    have hread : Tree.system.read (d.path.join (fileName o.name)) t = (.error .nameTooLong, t) := by
      simp only [Tree.system, Tree.read, hlocate]
      rfl
    change d.get Tree.system o.name t = _
    rw [get, hpath]
    simp only [bind_apply, hread]
    rfl
  have hcreate : (Action.create o).on (d.registry Tree.system) t =
      (.error (.io o.name FileError.nameTooLong.message), t) := by
    have hnew : Tree.system.createNew (d.path.join (fileName o.name)) (document o).toUTF8 t =
        (.error .nameTooLong, t) := by
      refine Tree.system_createNew ?_
      rw [Tree.createNew, hlocate]
    change d.create Tree.system o t = _
    rw [create, hpath]
    simp only [bind_apply, hmade, hnew]
    rfl
  simp only [Action.allOn, mapM_cons_apply, mapM_nil_apply, hget, hcreate]

/-- So many separators, a path to the root. -/
def separators (n : Nat) : String := .ofList (List.replicate n '/')

theorem utf8ByteSize_separators (n : Nat) : (separators n).utf8ByteSize = n := by
  induction n with
  | zero => rfl
  | succ n ih =>
    have hfirst : separators (n + 1) = "/" ++ separators n := by
      rw [separators, List.replicate_succ, String.ofList_cons]
      rfl
    have hone : "/".utf8ByteSize = 1 := rfl
    rw [hfirst, String.utf8ByteSize_append, ih, hone, Nat.add_comm]

theorem names_separators (n : Nat) : Tree.names ⟨separators n⟩ = [] := by
  have hsplit : (List.replicate n '/').splitOn '/' = List.replicate (n + 1) [] := by
    induction n with
    | zero => rfl
    | succ n ih =>
      rw [List.replicate_succ, List.splitOn_cons_eq_if_modifyHead, if_pos (by rfl), ih]
      rfl
  rw [Tree.names, Path.segments, separators, String.toList_ofList, hsplit]
  simp

/-- The root is there. -/
theorem leads_separators {n : Nat} (hn : 0 < n) (hlength : n < Tree.maxPathBytes) :
    t.Leads ⟨separators n⟩ := by
  refine .inr ?_
  have hrefusal : Tree.refusal? ⟨separators n⟩ = none := by
    refine Tree.refusal?_eq_none ?_ ?_ (by rwa [utf8ByteSize_separators])
    · simp [separators]
    · simp [separators, Nat.pos_iff_ne_zero.mp hn]
  rw [Tree.isDirectory, Tree.locate, hrefusal, names_separators]
  rfl

/-- **The root of an empty tree, in many separators**: a file in it cannot be looked for, so that a
missing object is not reported as missing, and none can be created. -/
theorem calls_separators {n : Nat} (hn : 0 < n) (hlength : n < Tree.maxPathBytes)
    (haccepts : accepts o.name = true) (hnul : '\x00' ∉ o.name.toList)
    (hroom : Tree.maxPathBytes ≤ n + o.name.utf8ByteSize) :
    let d : Directory := ⟨⟨separators n⟩⟩
    let calls : List Action := [.get o.name, .create o]
    d.IsReady .empty ∧ (Action.allOn (d.registry Tree.system) calls .empty).1 ≠
      (Action.allOn Cluster.registry calls (.ofObjects [])).1 := by
  intro d calls
  have hmade := Tree.makeDirs_of_leads (@leads_separators .empty n hn hlength)
  have hready : d.IsReady .empty := by
    refine ⟨by rw [hmade], fun file => ?_⟩
    rw [hmade]
    simp [Tree.lookup, Tree.empty]
  have hroom' : Tree.maxPathBytes ≤ (d.path.join (fileName o.name)).text.utf8ByteSize := by
    have hstem : n ≤ d.path.stem.utf8ByteSize := by
      rw [Path.stem]
      split
      · exact Nat.le_of_eq (utf8ByteSize_separators n).symm
      · rw [String.utf8ByteSize_append, utf8ByteSize_separators]
        exact Nat.le_add_right n _
    rw [Path.join_eq d.path (isName_fileName haccepts).separator, fileName,
      String.utf8ByteSize_append, String.utf8ByteSize_append]
    omega
  refine ⟨hready, ?_⟩
  rw [calls_without_room hmade haccepts hnul hroom']
  simp only [calls, Action.allOn, mapM_cons_apply, @call_of_reactors (.ofObjects []) rfl]
  intro he
  cases (List.cons.inj he).1

/-- **4095 separators are a legal path** to a directory that is there and empty, but there is no room
for the path of a file in it. -/
theorem answers_as_memory_without_room :
    let d : Directory := ⟨⟨separators 4095⟩⟩
    let o := (Desired.new "apps" "v1" ⟨"default", "apps"⟩).toObject
    let calls : List Action := [.get o.name, .create o]
    d.IsReady .empty ∧ accepts o.name = true ∧ '\x00' ∉ o.name.toList ∧
      o.name.utf8ByteSize ≤ 250 ∧ (Action.allOn (d.registry Tree.system) calls .empty).1 ≠
        (Action.allOn Cluster.registry calls (.ofObjects [])).1 := by
  intro d o calls
  have haccepts : accepts o.name = true := by decide +kernel
  have hnul : '\x00' ∉ o.name.toList := by decide +kernel
  have hroom : Tree.maxPathBytes ≤ 4095 + o.name.utf8ByteSize := by decide +kernel
  obtain ⟨hready, hdiffer⟩ := calls_separators (by decide) (by decide) haccepts hnul hroom
  exact ⟨hready, haccepts, hnul, by decide +kernel, hdiffer⟩

end Directory

end ApiAvailability
