import ApiAvailability.Config.Load
import ApiAvailability.Proofs.Effects
import ApiAvailability.Proofs.Observation.Lines
import ApiAvailability.Proofs.Text.Bytes
import Mathlib.Data.List.Forall2
import Mathlib.Data.List.Nodup

/-!
# Proofs/Config/Faults — which configurations are accepted, and what is said of others

A configuration is accepted exactly if it satisfies five demands (`Config.Valid`).  Of any other the
first one is named that it does not satisfy (`Config.FirstFault`), with the first entry or with all
identities that are to blame.

The identity of an entry does not determine its group and its version, as either may have a dot.
That identities differ, which is the last of the demands, is what tells the desired API services of
an accepted configuration apart (`Config.TellsApart`).
-/

namespace ApiAvailability

/-! ## Blank texts, and texts in order -/

/-- **A blank text**: all its characters have the property `White_Space`. -/
def Text.Blank (s : String) : Prop := ∀ c ∈ s.toList, Text.blankChar c = true

/-- Texts are in the order of their bytes. -/
theorem Text.bytes_lt_iff {s t : String} : Text.bytes s < Text.bytes t ↔ s < t := by
  rw [← not_le, ← Text.bytes_le_iff]
  exact Decidable.not_not.symm

/-- Lists in strictly ascending order that have the same members are the same. -/
theorem eq_of_ascending {names names' : List String} (h : names.Pairwise (· < ·))
    (h' : names'.Pairwise (· < ·)) (hmem : ∀ n, n ∈ names ↔ n ∈ names') : names = names' := by
  have hnodup {names : List String} (h : names.Pairwise (· < ·)) : names.Nodup :=
    h.imp fun hlt => hlt.ne
  have hperm : names.Perm names' :=
    (List.perm_ext_iff_of_nodup (hnodup h) (hnodup h')).mpr hmem
  exact hperm.eq_of_pairwise (fun _ _ _ _ hlt hlt' => (lt_asymm hlt hlt').elim) h h'

/-- No item is left twice. -/
theorem nodup_eraseDups {α : Type} [BEq α] [LawfulBEq α] : (as : List α) → as.eraseDups.Nodup
  | [] => List.nodup_nil
  | a :: as => by
    rw [List.eraseDups_cons, List.nodup_cons, List.mem_eraseDups]
    refine ⟨fun ha => ?_, nodup_eraseDups _⟩
    have hne := List.of_mem_filter ha
    simp at hne
termination_by as => as.length
decreasing_by exact Nat.lt_succ_of_le (List.length_filter_le _ as)

/-- **An entry lacks something**: its group or its version is blank. -/
def Entry.Lacks (e : Entry) : Prop := Text.Blank e.group ∨ Text.Blank e.version

theorem Entry.isBlank_iff {e : Entry} : e.isBlank = true ↔ e.Lacks := by
  rw [isBlank, Bool.or_eq_true, Text.isBlank_iff, Text.isBlank_iff]
  rfl

namespace Config

/-! ## Demands and faults -/

/-- The identities of the entries, version before group. -/
def identities (c : Config) : List String := c.apiServices.map fun e => e.version ++ "." ++ e.group

/-- **What a configuration has to satisfy.** -/
structure Valid (c : Config) : Prop where
  apiServices : c.apiServices ≠ []
  operandVersion : ¬ Text.Blank c.operandVersion
  interval : c.syncIntervalSecs ≠ 0
  entries : ∀ e ∈ c.apiServices, ¬ e.Lacks
  distinct : c.identities.Nodup

/-- **What is said of a configuration**: the first demand that it does not satisfy. -/
inductive FirstFault (c : Config) : String → Prop
  | apiServices (h : c.apiServices = []) : FirstFault c "api_services must not be empty"
  | operandVersion (h₁ : c.apiServices ≠ []) (h : Text.Blank c.operandVersion) :
      FirstFault c "operand_version must not be empty"
  | interval (h₁ : c.apiServices ≠ []) (h₂ : ¬ Text.Blank c.operandVersion)
      (h : c.syncIntervalSecs = 0) : FirstFault c "sync_interval_secs must be greater than zero"
  /-- Of the entries that lack something the first is named. -/
  | entry (h₁ : c.apiServices ≠ []) (h₂ : ¬ Text.Blank c.operandVersion)
      (h₃ : c.syncIntervalSecs ≠ 0) {before after : List Entry} {e : Entry}
      (hentries : c.apiServices = before ++ e :: after) (hbefore : ∀ e' ∈ before, ¬ e'.Lacks)
      (h : e.Lacks) : FirstFault c
        ("api service entry '" ++ (e.version ++ "." ++ e.group) ++ "' needs both group and version")
  /-- All identities that occur more than once are listed once, in the order of their bytes. -/
  | identities (h₁ : c.apiServices ≠ []) (h₂ : ¬ Text.Blank c.operandVersion)
      (h₃ : c.syncIntervalSecs ≠ 0) (h₄ : ∀ e ∈ c.apiServices, ¬ e.Lacks) {names : List String}
      (hmem : ∀ n, n ∈ names ↔ 2 ≤ c.identities.count n)
      (hascending : names.Pairwise fun m n => Text.bytes m < Text.bytes n) (h : names ≠ []) :
      FirstFault c ("duplicate api services: " ++ ", ".intercalate names)

variable {c : Config}

/-! ## Clashes -/

/-- A clash is told once. -/
theorem nodup_clashes (c : Config) : c.clashes.Nodup :=
  (List.mergeSort_perm _ _).nodup_iff.mpr (nodup_eraseDups _)

/-- The clashing identities are in ascending order, each once. -/
theorem clashes_ascending (c : Config) : c.clashes.Pairwise (· < ·) := by
  have hsorted : c.clashes.Pairwise (· ≤ ·) := pairwise_sort _
  exact (hsorted.and c.nodup_clashes).imp fun h => lt_of_le_of_ne h.1 h.2

/-- There are no clashes exactly if no identity is given twice. -/
theorem clashes_eq_nil_iff : c.clashes = [] ↔ c.identities.Nodup := by
  rw [List.eq_nil_iff_forall_not_mem, List.nodup_iff_count_le_one]
  simp only [mem_clashes_iff, not_le, Nat.lt_succ_iff]
  rfl

/-! ## The check -/

/-- **No fault is found in a configuration that satisfies all demands**, and in any other the first
one. -/
theorem violation?_spec (c : Config) :
    match c.violation? with
    | none => c.Valid
    | some v => c.FirstFault v.message := by
  by_cases h₁ : c.apiServices = []
  · rw [violation?, if_pos h₁]
    exact .apiServices h₁
  by_cases hblank : Text.isBlank c.operandVersion = true
  · rw [violation?, if_neg h₁, if_pos hblank]
    exact .operandVersion h₁ (Text.isBlank_iff.mp hblank)
  have h₂ : ¬ Text.Blank c.operandVersion := fun h => hblank (Text.isBlank_iff.mpr h)
  by_cases h₃ : c.syncIntervalSecs = 0
  · rw [violation?, if_neg h₁, if_neg hblank, if_pos h₃]
    exact .interval h₁ h₂ h₃
  rw [violation?, if_neg h₁, if_neg hblank, if_neg h₃]
  cases hfound : c.apiServices.find? Entry.isBlank with
  | some e =>
    obtain ⟨hlacks, before, after, hentries, hbefore⟩ := List.find?_eq_some_iff_append.mp hfound
    refine .entry h₁ h₂ h₃ hentries (fun e' he' hlacks' => ?_) (Entry.isBlank_iff.mp hlacks)
    have hnot := hbefore e' he'
    rw [Entry.isBlank_iff.mpr hlacks'] at hnot
    contradiction
  | none =>
    have h₄ : ∀ e ∈ c.apiServices, ¬ e.Lacks := fun e he hlacks =>
      List.find?_eq_none.mp hfound e he (Entry.isBlank_iff.mpr hlacks)
    by_cases hclashes : c.clashes = []
    · simp only [hclashes, if_true]
      exact ⟨h₁, h₂, h₃, h₄, clashes_eq_nil_iff.mp hclashes⟩
    · simp only [hclashes, if_false]
      exact .identities h₁ h₂ h₃ h₄ (fun _ => mem_clashes_iff)
        (c.clashes_ascending.imp Text.bytes_lt_iff.mpr) hclashes

/-- **The first fault is found.** -/
theorem exists_violation? {text : String} (h : c.FirstFault text) :
    ∃ v, c.violation? = some v ∧ v.message = text := by
  have hblank {s : String} (h : ¬ Text.Blank s) : ¬ Text.isBlank s = true :=
    fun hs => h (Text.isBlank_iff.mp hs)
  cases h with
  | apiServices h => exact ⟨.noApiServices, by rw [violation?, if_pos h], rfl⟩
  | operandVersion h₁ h =>
    exact ⟨.blankOperandVersion,
      by rw [violation?, if_neg h₁, if_pos (Text.isBlank_iff.mpr h)], rfl⟩
  | interval h₁ h₂ h =>
    exact ⟨.zeroInterval, by rw [violation?, if_neg h₁, if_neg (hblank h₂), if_pos h], rfl⟩
  | @entry h₁ h₂ h₃ before after e hentries hbefore h =>
    have hfound : c.apiServices.find? Entry.isBlank = some e := by
      refine List.find?_eq_some_iff_append.mpr
        ⟨Entry.isBlank_iff.mpr h, before, after, hentries, fun e' he' => ?_⟩
      rw [Bool.not_eq_true', ← Bool.not_eq_true]
      exact fun hlacks => hbefore e' he' (Entry.isBlank_iff.mp hlacks)
    exact ⟨.blankEntry e.name,
      by rw [violation?, if_neg h₁, if_neg (hblank h₂), if_neg h₃, hfound], rfl⟩
  | @identities h₁ h₂ h₃ h₄ names hmem hascending h =>
    have hnone : c.apiServices.find? Entry.isBlank = none :=
      List.find?_eq_none.mpr fun e he hlacks => h₄ e he (Entry.isBlank_iff.mp hlacks)
    obtain rfl : names = c.clashes :=
      eq_of_ascending (hascending.imp Text.bytes_lt_iff.mp) c.clashes_ascending
        fun n => (hmem n).trans mem_clashes_iff.symm
    exact ⟨.clashes c.clashes,
      by rw [violation?, if_neg h₁, if_neg (hblank h₂), if_neg h₃, hnone]; exact if_neg h, rfl⟩

/-- A configuration with a fault is not valid. -/
theorem FirstFault.not_valid {text : String} (h : c.FirstFault text) : ¬ c.Valid := by
  intro hvalid
  cases h with
  | apiServices h => exact hvalid.apiServices h
  | operandVersion _ h => exact hvalid.operandVersion h
  | interval _ _ h => exact hvalid.interval h
  | entry _ _ _ hentries _ h =>
    exact hvalid.entries _ (hentries ▸ List.mem_append_right _ List.mem_cons_self) h
  | identities _ _ _ _ hmem _ h =>
    obtain ⟨n, hn⟩ := List.exists_mem_of_ne_nil _ h
    have htwice := (hmem n).mp hn
    have honce := List.nodup_iff_count_le_one.mp hvalid.distinct n
    omega

/-- **A configuration is accepted exactly if it is valid.** -/
theorem validate_eq_ok_iff : c.validate = .ok () ↔ c.Valid := by
  have hspec := c.violation?_spec
  rw [validate]
  cases h : c.violation? with
  | none =>
    rw [h] at hspec
    exact iff_of_true rfl hspec
  | some v =>
    rw [h] at hspec
    exact iff_of_false nofun hspec.not_valid

/-- **A configuration is refused for its first fault.** -/
theorem validate_eq_error_iff {text : String} :
    c.validate.mapError Violation.message = .error text ↔ c.FirstFault text := by
  constructor
  · intro h
    have hspec := c.violation?_spec
    rw [validate] at h
    cases hv : c.violation? with
    | none =>
      rw [hv] at h
      contradiction
    | some v =>
      rw [hv] at h hspec
      obtain rfl : v.message = text := Except.error.inj h
      exact hspec
  · intro h
    obtain ⟨v, hv, rfl⟩ := exists_violation? h
    rw [validate, hv]
    rfl

/-! ## Configurations that are had -/

theorem valid_of_checked {c' : Config} (h : c'.checked = .ok c) : c.Valid := by
  rw [checked] at h
  split at h
  · next hvalid =>
    obtain rfl := Except.ok.inj h
    exact validate_eq_ok_iff.mp hvalid
  · contradiction

/-- What is read from a text is valid. -/
theorem valid_of_ofText {format : Format} {text : String} (h : ofText format text = .ok c) :
    c.Valid := by
  rw [ofText] at h
  split at h
  · contradiction
  · exact valid_of_checked h

/-- What is loaded from a file is valid. -/
theorem valid_of_load {σ : Type} {fs : Files.FileSystem (StateM σ)} {path : Files.Path} {s : σ}
    (h : (load fs path s).1 = .ok c) : c.Valid := by
  rw [load] at h
  cases hformat : Format.ofPath? path with
  | none =>
    rw [hformat] at h
    contradiction
  | some format =>
    rw [hformat] at h
    dsimp only at h
    rw [bind_apply] at h
    cases hread : (fs.read path s).1 with
    | error e =>
      rw [hread] at h
      contradiction
    | ok bytes =>
      rw [hread] at h
      dsimp only at h
      cases htext : String.fromUTF8? bytes with
      | none =>
        rw [htext] at h
        contradiction
      | some text =>
        rw [htext] at h
        exact valid_of_ofText h

/-- **The desired API services are told apart**: there is one for each entry, in order, and their
names, which their specs make up, are different. -/
structure TellsApart (c : Config) : Prop where
  entries : List.Forall₂ (fun e d => d.spec.group = e.group ∧ d.spec.version = e.version ∧
    d.name = d.spec.version ++ "." ++ d.spec.group) c.apiServices c.desired
  distinct : (c.desired.map Desired.name).Nodup

/-- A valid configuration tells the objects of its entries apart. -/
theorem Valid.tellsApart (h : c.Valid) : c.TellsApart where
  entries := by
    rw [desired, List.forall₂_map_right_iff, List.forall₂_same]
    exact fun e _ => ⟨rfl, rfl, rfl⟩
  distinct := by
    rw [map_name_desired]
    exact h.distinct

/-- **Which configurations are accepted.**  The check passes exactly those that satisfy all demands,
and of any other it says which is the first that is not satisfied.  So every configuration that is
had from a text or a file satisfies them, and tells its desired API services apart. -/
theorem validate_faults (c : Config) :
    (c.validate = .ok () ↔ c.Valid) ∧
    (∀ text, c.validate.mapError Violation.message = .error text ↔ c.FirstFault text) ∧
    (∀ format text, ofText format text = .ok c → c.Valid ∧ c.TellsApart) ∧
    ∀ {σ : Type} (fs : Files.FileSystem (StateM σ)) (path : Files.Path) (s : σ),
      (load fs path s).1 = .ok c → c.Valid ∧ c.TellsApart := by
  refine ⟨validate_eq_ok_iff, fun text => validate_eq_error_iff, fun format text h => ?_,
    fun fs path s h => ?_⟩
  · exact ⟨valid_of_ofText h, (valid_of_ofText h).tellsApart⟩
  · exact ⟨valid_of_load h, (valid_of_load h).tellsApart⟩

/-- A configuration with two entries, the second of a certain group and version. -/
def sample (group version : String) : Config where
  component := defaultComponent
  operandVersion := "4.2.0"
  targetNamespace := defaultTargetNamespace
  serviceName := defaultServiceName
  syncIntervalSecs := defaultSyncIntervalSecs
  maxConsecutiveErrors := defaultMaxConsecutiveErrors
  apiServices := [⟨"b.c", "a", none, none⟩, ⟨group, version, none, none⟩]

/-- A text that holds it. -/
def sampleText (group version : String) : String :=
  "operand_version = '4.2.0'\n[[api_services]]\ngroup = 'b.c'\nversion = 'a'\n" ++
    "[[api_services]]\ngroup = '" ++ group ++ "'\nversion = '" ++ version ++ "'\n"

/-- Group and version of two entries may differ where their identities do not. -/
theorem validate_faults_sample :
    ofText .toml (sampleText "d" "v1") = .ok (sample "d" "v1") ∧
    (sample "d" "v1").TellsApart ∧
    (sample "c" "a.b").FirstFault "duplicate api services: a.b.c" := by
  have htext : ofText .toml (sampleText "d" "v1") = .ok (sample "d" "v1") := by decide +kernel
  obtain ⟨-, -, htells, -⟩ := validate_faults (sample "d" "v1")
  obtain ⟨-, hfault, -⟩ := validate_faults (sample "c" "a.b")
  exact ⟨htext, (htells _ _ htext).2, (hfault _).mp (by decide +kernel)⟩

end Config

end ApiAvailability
