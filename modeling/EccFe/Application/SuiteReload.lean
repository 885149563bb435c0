/-
EccFe.Application.SuiteReload — the suites of the sim step and a reload.

A selection of CPU tests writes values that loading gives back, as long as the
path of the reference model has no outer blanks. A CoreMark selection does not:
its three numbers are integers in memory and texts once loaded, so the sim step
is stale for the next process (`reload_signature_iff`).
-/
import EccFe.Application.Reload

namespace EccFe.Application

open Python Engine Data
open Tools.RtlInputs

/-! ## 1. Stable values -/

theorem toStrList_textList (texts : List String) :
    toStrList (textList texts) = (texts.map strip).filter (· ≠ "") := by
  simp only [textList, toStrList, List.map_map]
  rfl

/-- A list of texts is read back as it is when no text has outer blanks or is empty. -/
theorem toStrList_textList_iff (texts : List String) :
    toStrList (textList texts) = texts ↔ ∀ text ∈ texts, strip text = text ∧ text ≠ "" := by
  rw [toStrList_textList]
  constructor
  · intro h text hmem
    rw [← h, List.mem_filter, List.mem_map] at hmem
    obtain ⟨⟨text', -, rfl⟩, hne⟩ := hmem
    exact ⟨strip_idem text', by simpa using hne⟩
  · intro h
    rw [List.map_congr_left fun text hmem => (h text hmem).1, List.map_id'', List.filter_eq_self]
    · exact fun text hmem => by simpa using (h text hmem).2
    · exact fun _ => rfl

/-- A list of texts is determined by its JSON. -/
theorem textList_inj {texts texts' : List String} (h : textList texts = textList texts') :
    texts = texts' := by
  simp only [textList, Json.arr.injEq] at h
  exact List.map_injective_iff.mpr (fun a b hab => by simpa using hab) h

theorem sortKeys_textList (texts : List String) : sortKeys (textList texts) = textList texts := by
  induction texts with
  | nil => rfl
  | cons text rest ih =>
    simp only [textList, sortKeys, Json.arr.injEq] at ih
    simp only [textList, List.map_cons, sortKeys, sortItems, ih]

/-- A suite selection is stable when its program names and run arguments are. -/
theorem stableUpdates_suiteSelection (buildAll : Bool) {names runArgs : List String}
    (hnames : toStrList (textList names) = names) (hargs : toStrList (textList runArgs) = runArgs) :
    StableUpdates (suiteSelection buildAll names runArgs) := by
  intro field value hget
  have hmem := Dict.mem_of_get hget
  simp only [suiteSelection, List.mem_cons, Prod.mk.injEq, List.not_mem_nil, or_false] at hmem
  rcases hmem with ⟨rfl, rfl⟩ | ⟨rfl, rfl⟩ | ⟨rfl, rfl⟩ | ⟨rfl, rfl⟩ | ⟨rfl, rfl⟩
  · rfl
  · rfl
  · rfl
  · exact congrArg textList hnames
  · exact congrArg textList hargs

theorem isSpace_of_isCaseChar {c : Char} (h : isCaseChar c = true) : isSpace c = false := by
  simp only [isCaseChar, isDigit, Bool.or_eq_true, Bool.and_eq_true, decide_eq_true_eq, beq_iff_eq,
    Char.le_def, UInt32.le_iff_toNat_le] at h
  have hval : c.val.toNat = c.toNat := rfl
  have hbounds : 33 ≤ c.toNat ∧ c.toNat < 0x85 := by
    rcases h with (((h | h) | h) | rfl) | rfl
    · exact ⟨le_trans (by decide) (hval ▸ h.1), lt_of_le_of_lt (hval ▸ h.2) (by decide)⟩
    · exact ⟨le_trans (by decide) (hval ▸ h.1), lt_of_le_of_lt (hval ▸ h.2) (by decide)⟩
    · exact ⟨le_trans (by decide) (hval ▸ h.1), lt_of_le_of_lt (hval ▸ h.2) (by decide)⟩
    · decide
    · decide
  simp only [isSpace, Bool.or_eq_false_iff, Bool.and_eq_false_iff, decide_eq_false_iff_not,
    beq_eq_false_iff_ne]
  omega

/-- A case name has no outer blanks. -/
theorem strip_caseName {name : String} (h : isCaseName name = true) : strip name = name ∧ name ≠ "" := by
  rw [isCaseName, Bool.and_eq_true] at h
  refine ⟨strip_of_forall fun c hc => isSpace_of_isCaseChar ?_, by simpa using h.1⟩
  exact List.all_eq_true.mp h.2 c hc

/-- The cases that are accepted have case names. -/
theorem isCaseName_of_validate {env : Env} {workspace : Workspace} {cases : List String}
    (h : validateCpuTestCases env workspace cases = .ok ()) : ∀ name ∈ cases, isCaseName name = true := by
  unfold validateCpuTestCases at h
  simp only at h
  split at h
  · cases h
  · rename_i hinvalid
    rw [not_not, List.filter_eq_nil_iff] at hinvalid
    intro name hmem
    simpa using hinvalid name hmem

/-- CPU test arguments are stable when the reference model's path has no outer blanks. -/
theorem defaultCpuTestsRunArgs_stable_iff (env : Env) (workspace : Workspace) :
    toStrList (textList (defaultCpuTestsRunArgs env workspace)) =
        defaultCpuTestsRunArgs env workspace ↔
      ∀ ref, referenceModel? env workspace = some ref → strip ref = ref := by
  have hne : ∀ ref, referenceModel? env workspace = some ref → ref ≠ "" := by
    intro ref h hempty
    rw [referenceModel?] at h
    split at h
    · cases h
    · obtain ⟨socRoot, -, rfl⟩ := Option.map_eq_some_iff.mp h
      simp [PurePath.absText] at hempty
  have hfixed : ∀ text ∈ ["--max-cycles", "50000000", "--diff", "--ref", "--diff-image-offset",
      "0x100", "--diff-reset-vector", "0x80000000"], strip text = text ∧ text ≠ "" := by decide
  rw [toStrList_textList_iff, defaultCpuTestsRunArgs]
  cases href : referenceModel? env workspace with
  | none =>
    simp only [difftestArgs, List.append_nil, reduceCtorEq, false_implies, implies_true, iff_true]
    exact fun text hmem => hfixed text (List.mem_append_left _ hmem)
  | some ref =>
    constructor
    · rintro h ref' ⟨rfl⟩
      exact (h ref (by simp [difftestArgs])).1
    · intro h text hmem
      by_cases htext : text = ref
      · rw [htext]
        exact ⟨h ref rfl, hne ref href⟩
      · have hlist : text ∈ ["--max-cycles", "50000000", "--diff", "--ref", "--diff-image-offset",
            "0x100", "--diff-reset-vector", "0x80000000"] := by
          simpa [difftestArgs, htext] using hmem
        exact hfixed text hlist

/-! ## 2. CoreMark -/

def coremarkSettingFields : List String :=
  ["sim_compile_preset", "sim_compile_opt_level", "sim_compile_march", "sim_compile_mabi",
    "sim_compile_extra_cflags", "sim_coremark_iterations", "sim_coremark_total_data_size",
    "sim_coremark_has_float", "sim_coremark_max_cycles", "sim_coremark_use_difftest"]

section

variable {env : Env} {workspace : Workspace} {settings updates : Dict}

/-- The settings and the number of iterations among them. -/
theorem coremarkSettings_fields (h : defaultCoremarkCompileSettings workspace = .ok settings) :
    Dict.keys settings = coremarkSettingFields ∧
      ∃ n, Dict.get settings "sim_coremark_iterations" = some (.int n) := by
  rw [defaultCoremarkCompileSettings, bind_eq_ok] at h
  obtain ⟨iterations, -, h⟩ := h
  rw [bind_eq_ok] at h
  obtain ⟨totalDataSize, -, h⟩ := h
  rw [bind_eq_ok] at h
  obtain ⟨maxCycles, -, h⟩ := h
  cases h
  exact ⟨rfl, iterations, rfl⟩

/-- An override of a field adds no field. -/
theorem keys_overrideText (options : RunOptions) (attr : String) {field : String}
    (hfield : field ∈ Dict.keys updates) :
    Dict.keys (overrideText options updates attr field) = Dict.keys updates := by
  simp only [overrideText]
  split
  · rfl
  · rw [Dict.keys_set, if_pos hfield]

theorem keys_overrideInt {options : RunOptions} {field : String} {default : Int} {result : Dict}
    (hfield : field ∈ Dict.keys updates)
    (h : overrideInt options updates field default = .ok result) :
    Dict.keys result = Dict.keys updates := by
  unfold overrideInt at h
  split at h
  · cases h
    rfl
  · obtain ⟨n, -, rfl⟩ := map_eq_ok.mp h
    rw [Dict.keys_set, if_pos hfield]

/-- The options replace values of the settings. -/
theorem keys_coremarkCompileUpdates {options : RunOptions}
    (h : coremarkCompileUpdates workspace options = .ok updates) :
    Dict.keys updates = coremarkSettingFields := by
  rw [coremarkCompileUpdates, bind_eq_ok] at h
  obtain ⟨settings, hsettings, h⟩ := h
  have hkeys := (coremarkSettings_fields hsettings).1
  have htexts : Dict.keys (["sim_compile_preset", "sim_compile_opt_level", "sim_compile_march",
      "sim_compile_mabi"].foldl (fun updates field => overrideText options updates field field)
        settings) = coremarkSettingFields := by
    have hfold : ∀ fields ⊆ coremarkSettingFields, ∀ d : Dict, Dict.keys d = coremarkSettingFields →
        Dict.keys (fields.foldl (fun updates field => overrideText options updates field field) d) =
          coremarkSettingFields := by
      intro fields
      induction fields with
      | nil => exact fun _ d hd => hd
      | cons field rest ih =>
        intro hsub d hd
        rw [List.foldl_cons]
        refine ih (fun f hf => hsub (List.mem_cons_of_mem _ hf)) _ ?_
        rw [keys_overrideText options field (hd ▸ hsub List.mem_cons_self), hd]
    exact hfold _ (by decide) settings hkeys
  generalize ["sim_compile_preset", "sim_compile_opt_level", "sim_compile_march",
    "sim_compile_mabi"].foldl (fun updates field => overrideText options updates field field)
      settings = texts at h htexts
  simp only at h
  have hflags : Dict.keys (if normalizeStrList (Dict.getD options "sim_compile_extra_cflag" (.arr [])) =
      [] then texts else texts.set "sim_compile_extra_cflags" (textList (normalizeStrList
        (Dict.getD options "sim_compile_extra_cflag" (.arr []))))) = coremarkSettingFields := by
    split
    · exact htexts
    · rw [Dict.keys_set, htexts]
      rfl
  rw [bind_eq_ok] at h
  obtain ⟨iterations, hiterations, h⟩ := h
  rw [bind_eq_ok] at h
  obtain ⟨dataSize, hdataSize, h⟩ := h
  rw [bind_eq_ok] at h
  obtain ⟨cycles, hcycles, h⟩ := h
  have h₁ := (keys_overrideInt (by rw [hflags]; decide) hiterations).trans hflags
  have h₂ := (keys_overrideInt (by rw [h₁]; decide) hdataSize).trans h₁
  have h₃ := (keys_overrideInt (by rw [h₂]; decide) hcycles).trans h₂
  simp only [pure, Except.pure, Except.ok.injEq] at h
  rw [← h]
  split
  · exact h₃
  · rw [Dict.keys_set, h₃]
    rfl

/-- A CoreMark selection: what it writes, with a number of iterations. -/
theorem coremarkUpdates_fields (h : coremarkUpdates env workspace = .ok updates) :
    Dict.keys updates = ["sim_all_tests", "sim_images", "sim_build_all_programs",
        "sim_program_names", "sim_run_args"] ++ coremarkSettingFields ∧
      ∃ n, Dict.get updates "sim_coremark_iterations" = some (.int n) := by
  rw [coremarkUpdates, bind_eq_ok] at h
  obtain ⟨_, -, h⟩ := h
  rw [bind_eq_ok] at h
  obtain ⟨_, -, h⟩ := h
  rw [bind_eq_ok] at h
  obtain ⟨runArgs, -, h⟩ := h
  rw [bind_eq_ok] at h
  obtain ⟨settings, hsettings, h⟩ := h
  obtain ⟨hkeys, n, hn⟩ := coremarkSettings_fields hsettings
  cases h
  refine ⟨?_, n, hn⟩
  rw [← hkeys, Dict.keys, List.map_append]
  rfl

end

/-! ## 3. The selection of a request -/

/-- The default suite found no program and leaves the parameters as they are. -/
def KeepsSelection (env : Env) (workspace : Workspace) (request : SimRequest) : Prop :=
  (strip request.suite = "" ∨ lower (strip request.suite) = "default") ∧
    defaultCpuTestCases env workspace = []

/-- A sim step is not stale after a reload: the suite is not CoreMark, and the path of
the reference model, if the run names one, has no outer blanks. -/
def ReloadStable (env : Env) (workspace : Workspace) (request : SimRequest) (stepName : String) :
    Prop :=
  stepName ≠ "sim" ∨ strip request.suite ≠ "coremark" ∧
    (KeepsSelection env workspace request ∨
      ∀ ref, referenceModel? env workspace = some ref → strip ref = ref)

section

variable {env : Env} {projectDir : AbsPath} {s₀ s : Session} {request : SimRequest}

theorem parametersPath_ne (hloaded : Loaded env projectDir s₀) :
    strip (Dict.textAt s₀.workspace "parameters_path") ≠ "" := by
  have hpath : Dict.textAt s₀.workspace "parameters_path" =
      PurePath.absText (parametersPath projectDir) := by
    rw [Dict.textAt, Dict.getD, hloaded.workspace, get_workspaceOf, if_neg (by decide)]
    rfl
  rw [hpath]
  exact strip_ne_empty (c := '/') (by simp [PurePath.absText]) (by decide)

/-- A loaded workspace has the fields of a selection. -/
theorem selectionFields_loaded (hloaded : Loaded env projectDir s₀) :
    simSelectionFields ⊆ Dict.keys s₀.workspace := by
  intro field hf
  rw [hloaded.workspace, Dict.mem_keys_iff, get_workspaceOf, if_pos (isSimField_selection field hf).2]
  exact ⟨_, rfl⟩

/-- What one suite update makes of a session just loaded. -/
theorem selected_of_loaded (hloaded : Loaded env projectDir s₀) {updates : Dict} {fields : List String}
    (hkeys : Dict.keys updates = fields) (hnodup : fields.Nodup) (hsub : fields ⊆ simSelectionFields) :
    Selected s₀ (updateWorkspaceParameters s₀ updates) updates :=
  Selected.update (parametersPath_ne hloaded) (hkeys ▸ hnodup) (hkeys ▸ hsub)
    (selectionFields_loaded hloaded)

/-- A selection of CPU tests. -/
structure CpuTestsSelection (env : Env) (workspace : Workspace) (updates : Dict) : Prop where
  cases : ∃ buildAll names, (∀ name ∈ names, isCaseName name = true) ∧
    updates = suiteSelection buildAll names (defaultCpuTestsRunArgs env workspace)

/-- The updates of a CPU tests run are a selection of cases. -/
theorem cpuTestsUpdates_selection {workspace : Workspace} {mode cases : Json} {updates : Dict}
    (h : cpuTestsUpdates env workspace mode cases = .ok updates) :
    CpuTestsSelection env workspace updates := by
  rw [cpuTestsUpdates, bind_eq_ok] at h
  obtain ⟨_, -, h⟩ := h
  simp only at h
  generalize lower (strip (if mode.truthy = true then mode.pyStr else "selected")) = modeText at h
  generalize (if modeText = "selected" ∧ normalizeStrList cases = [] then
    defaultCpuTestCases env workspace else normalizeStrList cases) = names at h
  split at h
  · cases h
  split at h
  · cases h
  split at h
  · rename_i hmode
    obtain ⟨_, hvalid, h⟩ := bind_eq_ok.mp h
    cases h
    refine ⟨⟨decide (modeText = "all"), names, isCaseName_of_validate hvalid, ?_⟩⟩
    rw [hmode, if_neg (by decide)]
  · rename_i hmodes _ hmode
    have hall : modeText = "all" := by tauto
    cases h
    rw [hall, if_pos rfl]
    exact ⟨⟨_, [], by simp, rfl⟩⟩

/-- A selection of CPU tests is saved as it is read. -/
theorem selected_cpuTests (hloaded : Loaded env projectDir s₀) {updates : Dict}
    (h : CpuTestsSelection env s₀.workspace updates) :
    Selected s₀ (updateWorkspaceParameters s₀ updates) updates := by
  obtain ⟨buildAll, names, -, rfl⟩ := h
  have hkeys : Dict.keys (suiteSelection buildAll names (defaultCpuTestsRunArgs env s₀.workspace)) =
      ["sim_all_tests", "sim_images", "sim_build_all_programs", "sim_program_names",
        "sim_run_args"] := rfl
  exact selected_of_loaded hloaded hkeys (by decide) (by decide)

/-- The second CoreMark update writes every field of the first. -/
theorem selected_coremark (hloaded : Loaded env projectDir s₀) {options : RunOptions}
    {earlier updates : Dict} (hearlier : coremarkCompileUpdates s₀.workspace options = .ok earlier)
    (hupdates : coremarkUpdates env (updateWorkspaceParameters s₀ earlier).workspace = .ok updates) :
    Selected s₀ (updateWorkspaceParameters (updateWorkspaceParameters s₀ earlier) updates) updates := by
  have hearlierKeys := keys_coremarkCompileUpdates hearlier
  have hkeys := (coremarkUpdates_fields hupdates).1
  have hfirst := selected_of_loaded hloaded hearlierKeys (by decide) (by decide)
  have hpath : strip (Dict.textAt (updateWorkspaceParameters s₀ earlier).workspace
      "parameters_path") ≠ "" := by
    rw [Dict.textAt, Dict.getD, hfirst.workspace, hfirst.get_of_not_sim (by decide), Option.none_or]
    exact parametersPath_ne hloaded
  have hsecond := Selected.update hpath (by rw [hkeys]; decide) (by rw [hkeys]; decide)
    (by rw [hfirst.keys]; exact selectionFields_loaded hloaded)
  refine hfirst.trans hsecond ?_
  rw [hearlierKeys, hkeys]
  exact List.subset_append_right _ _

/-- What a request that is not refused has selected. -/
inductive Outcome (env : Env) (s₀ : Session) (request : SimRequest) (updates : Dict) : Prop where
  | kept (h : KeepsSelection env s₀.workspace request) (hempty : updates = [])
  | coremark (hname : strip request.suite = "coremark") (n : Int)
      (hn : Dict.get updates "sim_coremark_iterations" = some (.int n))
  | cpuTests (hname : strip request.suite ≠ "coremark")
      (hkeeps : ¬KeepsSelection env s₀.workspace request)
      (h : CpuTestsSelection env s₀.workspace updates)

theorem ne_coremark_of_default
    (h : strip request.suite = "" ∨ lower (strip request.suite) = "default") :
    strip request.suite ≠ "coremark" := by
  intro hname
  rw [hname] at h
  revert h
  decide

/-- The default suite ends in one of the outcomes. -/
theorem defaultSuite_outcome (hloaded : Loaded env projectDir s₀)
    (hsuite : strip request.suite = "" ∨ lower (strip request.suite) = "default")
    (h : applyDefaultSimSmokeSuite env s₀ = .ok s) :
    ∃ updates, Selected s₀ s updates ∧ Outcome env s₀ request updates := by
  unfold applyDefaultSimSmokeSuite at h
  obtain ⟨_, -, h⟩ := bind_eq_ok.mp h
  simp only at h
  split at h
  · rename_i hcases
    cases h
    exact ⟨[], Selected.refl s₀, .kept ⟨hsuite, hcases⟩ rfl⟩
  · rename_i hcases
    obtain ⟨_, hvalid, h⟩ := bind_eq_ok.mp h
    cases h
    have hselection : CpuTestsSelection env s₀.workspace (suiteSelection false
        (defaultCpuTestCases env s₀.workspace) (defaultCpuTestsRunArgs env s₀.workspace)) :=
      ⟨⟨false, _, isCaseName_of_validate hvalid, rfl⟩⟩
    exact ⟨_, selected_cpuTests hloaded hselection, .cpuTests (ne_coremark_of_default hsuite)
      (fun hkeeps => hcases hkeeps.2) hselection⟩

/-- A named suite that is not refused: CPU tests or CoreMark. -/
theorem applySimTestSuite_cases {s₁ : Session} {suite : String} {mode cases : Json}
    (hsuite : strip suite ≠ "") (hdefault : lower (strip suite) ≠ "default")
    (h : applySimTestSuite env s₁ (strip suite) mode cases = .ok s) :
    strip suite ≠ "coremark" ∧ lower (strip suite) ≠ "coremark" ∧
        (∃ updates, cpuTestsUpdates env s₁.workspace mode cases = .ok updates ∧
          updateWorkspaceParameters s₁ updates = s) ∨
      strip suite = "coremark" ∧
        ∃ updates, coremarkUpdates env s₁.workspace = .ok updates ∧
          updateWorkspaceParameters s₁ updates = s := by
  simp only [applySimTestSuite, strip_idem] at h
  split at h
  · rename_i hname
    rcases hname with hempty | hname
    · exact absurd hempty hsuite
    · refine absurd ?_ hdefault
      rw [hname]
      decide
  split at h
  · rename_i hname
    have hall : ∀ name ∈ ["cpu_tests", "cpu-tests", "smoke"],
        name ≠ "coremark" ∧ lower name ≠ "coremark" := by decide
    exact .inl ⟨(hall _ hname).1, (hall _ hname).2, map_eq_ok.mp h⟩
  split at h
  · rename_i hname
    exact .inr ⟨hname, map_eq_ok.mp h⟩
  · cases h

/-- Each suite ends in one of the outcomes. -/
theorem selectSimSuite_outcome (hloaded : Loaded env projectDir s₀)
    (h : selectSimSuite env s₀ request = .ok s) :
    ∃ updates, Selected s₀ s updates ∧ Outcome env s₀ request updates := by
  unfold selectSimSuite at h
  simp only at h
  split at h
  · rename_i hnamed
    have hkeeps : ¬KeepsSelection env s₀.workspace request := by
      rintro ⟨hsuite | hsuite, -⟩
      · exact hnamed.1 hsuite
      · exact hnamed.2 hsuite
    split at h
    · rename_i hlower
      obtain ⟨compiled, hcompiled, h⟩ := bind_eq_ok.mp h
      obtain ⟨earlier, hearlier, rfl⟩ := map_eq_ok.mp hcompiled
      rcases applySimTestSuite_cases hnamed.1 hnamed.2 h with ⟨-, hne, -⟩ | ⟨hname, updates, hupdates, rfl⟩
      · exact absurd hlower hne
      · obtain ⟨n, hn⟩ := (coremarkUpdates_fields hupdates).2
        exact ⟨updates, selected_coremark hloaded hearlier hupdates, .coremark hname n hn⟩
    · rename_i hlower
      obtain ⟨_, ⟨rfl⟩, h⟩ := bind_eq_ok.mp h
      rcases applySimTestSuite_cases hnamed.1 hnamed.2 h with
        ⟨hname, -, updates, hupdates, rfl⟩ | ⟨hname, -⟩
      · have hselection := cpuTestsUpdates_selection hupdates
        exact ⟨updates, selected_cpuTests hloaded hselection, .cpuTests hname hkeeps hselection⟩
      · refine absurd ?_ hlower
        rw [hname]
        decide
  · rename_i hdefault
    refine defaultSuite_outcome hloaded ?_ h
    rwa [not_and_or, not_not, not_not] at hdefault

end

/-! ## 4. Main result -/

section

variable {env env' : Env} {directory : String} {loaded : Workspace} {parameters : Dict}
  {request : SimRequest} {s : Session}

/-- What is loaded is what the parameters say. -/
theorem loaded_of_loadWorkspace (hload : loadWorkspace env directory = .ok (some loaded))
    (hread : readJson env (parametersPath (env.host.resolveText directory)) = .ok parameters) :
    Loaded env (env.host.resolveText directory) ⟨loaded, parameters⟩ := by
  unfold loadWorkspace at hload
  simp only at hload
  split at hload
  · cases hload
  · rw [hread] at hload
    exact ⟨hread, by simpa [Except.map, eq_comm] using hload⟩

/-- What is saved is loaded again. -/
theorem loadWorkspace_saved (hload : loadWorkspace env directory = .ok (some loaded))
    (hsaved : Saved env env' (parametersPath (env.host.resolveText directory)) s.parameters) :
    loadWorkspace env' directory =
      .ok (some (workspaceOf env' (env.host.resolveText directory) s.parameters)) := by
  unfold loadWorkspace at hload
  simp only at hload
  split at hload
  · cases hload
  · rename_i hexists
    rw [loadWorkspace]
    simp only [resolveText_saved hsaved, hsaved.read]
    rw [if_neg (by simpa using hsaved.kept _ (by simpa using hexists))]
    rfl

/-- After a CoreMark selection the number of iterations is an integer in memory and a
text once loaded. -/
theorem reload_coremark_ne {projectDir : AbsPath} {s₀ : Session} {updates : Dict}
    (hinj : env'.CollisionFree) (hloaded : Loaded env projectDir s₀)
    (hselected : Selected s₀ s updates)
    (hsaved : Saved env env' (parametersPath projectDir) s.parameters) {n : Int}
    (hn : Dict.get updates "sim_coremark_iterations" = some (.int n)) (tool : String)
    (upstream : Option Dict) :
    expectedSignature env' s.workspace "sim" tool upstream ≠
      expectedSignature env' (workspaceOf env' projectDir s.parameters) "sim" tool upstream := by
  have hconverted : loadedField "sim_coremark_iterations" (some (.int n)) =
      .str (strip (Json.int n).pyStr) := rfl
  refine reload_ne hinj hloaded hselected hsaved hn ?_ tool upstream
  rw [hconverted]
  simp [sortKeys]

end

/-- A process that selects a suite and a process that loads the workspace afterwards
agree on every step signature but the sim step's after a CoreMark selection, or when
the reference model's path has outer blanks. -/
theorem reload_signature_iff {env env' : Env} {directory : String} {loaded : Workspace}
    {parameters : Dict} {request : SimRequest} {s : Session}
    (hload : loadWorkspace env directory = .ok (some loaded))
    (hread : readJson env (parametersPath (env.host.resolveText directory)) = .ok parameters)
    (hselect : selectSimSuite env ⟨loaded, parameters⟩ request = .ok s)
    (hsaved : Saved env env' (parametersPath (env.host.resolveText directory)) s.parameters)
    (hinj : env'.CollisionFree) :
    ∃ reloaded, loadWorkspace env' directory = .ok (some reloaded) ∧
      ∀ stepName tool upstream,
        expectedSignature env' s.workspace stepName tool upstream =
            expectedSignature env' reloaded stepName tool upstream ↔
          ReloadStable env loaded request stepName := by
  have hloaded := loaded_of_loadWorkspace hload hread
  obtain ⟨updates, hselected, houtcome⟩ := selectSimSuite_outcome hloaded hselect
  refine ⟨_, loadWorkspace_saved hload hsaved, fun stepName tool upstream => ?_⟩
  by_cases hstep : stepName = "sim"
  case neg =>
    exact iff_of_true (reload_same hloaded hselected hsaved (fun h => absurd h hstep) tool upstream)
      (.inl hstep)
  subst hstep
  cases houtcome with
  | kept hkeeps hempty =>
    subst hempty
    exact iff_of_true (reload_same hloaded hselected hsaved (fun _ _ _ h => by cases h) tool upstream)
      (.inr ⟨ne_coremark_of_default hkeeps.1, .inl hkeeps⟩)
  | coremark hname n hn =>
    refine iff_of_false (reload_coremark_ne hinj hloaded hselected hsaved hn tool upstream) ?_
    rintro (h | ⟨h, -⟩)
    · exact h rfl
    · exact h hname
  | cpuTests hname hkeeps h =>
    obtain ⟨buildAll, names, hnames, rfl⟩ := h
    have hstable := defaultCpuTestsRunArgs_stable_iff env loaded
    by_cases hargs : toStrList (textList (defaultCpuTestsRunArgs env loaded)) =
        defaultCpuTestsRunArgs env loaded
    · refine iff_of_true (reload_same hloaded hselected hsaved (fun _ => ?_) tool upstream)
        (.inr ⟨hname, .inr (hstable.mp hargs)⟩)
      refine stableUpdates_suiteSelection buildAll ?_ hargs
      exact (toStrList_textList_iff names).mpr fun name hmem => strip_caseName (hnames name hmem)
    · refine iff_of_false ?_ ?_
      · have hget : Dict.get (suiteSelection buildAll names (defaultCpuTestsRunArgs env loaded))
            "sim_run_args" = some (textList (defaultCpuTestsRunArgs env loaded)) := rfl
        have hconverted : loadedField "sim_run_args"
            (some (textList (defaultCpuTestsRunArgs env loaded))) =
            textList (toStrList (textList (defaultCpuTestsRunArgs env loaded))) := rfl
        refine reload_ne hinj hloaded hselected hsaved hget ?_ tool upstream
        rw [hconverted, sortKeys_textList, sortKeys_textList, sortKeys_textList, sortKeys_textList]
        exact fun heq => hargs (textList_inj heq).symm
      · rintro (h | ⟨-, h | h⟩)
        · exact h rfl
        · exact hkeeps h
        · exact hargs (hstable.mpr h)

/-! ## 5. A workspace on disk -/

def suitesParameters : Dict :=
  [("core_supported_test_suites", textList ["cpu-tests", "coremark"]),
    ("soc_supported_test_suites", textList ["cpu-tests", "coremark"])]

def jsonBytes (parameters : Dict) : List UInt8 := asciiText (dumps (.obj parameters))

def projectEnv : Env :=
  { Env.ofNodes [(["p"], .directory), (["p", "home"], .directory),
      (["p", "home", "parameters.json"], .file (jsonBytes suitesParameters) 0)] with
    jsonLoad := fun bytes =>
      if bytes = jsonBytes suitesParameters then some (.obj suitesParameters) else none }

/-- The project with other parameters written. -/
def savedEnv (parameters : Dict) : Env :=
  { projectEnv.write ["p", "home", "parameters.json"] (jsonBytes parameters) with
    jsonLoad := fun bytes =>
      if bytes = jsonBytes parameters then some (.obj parameters) else projectEnv.jsonLoad bytes }

def projectSession : Session :=
  ⟨workspaceOf projectEnv ["p"] suitesParameters, suitesParameters⟩

def suiteRequest (suite : String) : SimRequest := ⟨suite, .null, .null, []⟩

theorem projectEnv_read : readJson projectEnv (parametersPath ["p"]) = .ok suitesParameters := by
  rw [readJson, if_neg (by decide)]
  have hbytes : projectEnv.fs.readBytes (parametersPath ["p"]) = some (jsonBytes suitesParameters) := rfl
  rw [hbytes]
  simp [projectEnv]

theorem projectEnv_load :
    loadWorkspace projectEnv "/p" = .ok (some projectSession.workspace) := by
  have hresolve : projectEnv.host.resolveText "/p" = ["p"] := by decide
  simp only [loadWorkspace, hresolve, projectEnv_read]
  rw [if_neg (by decide)]
  rfl

theorem savedEnv_saved (parameters : Dict) :
    Saved projectEnv (savedEnv parameters) (parametersPath ["p"]) parameters where
  read := by
    have hbytes : (savedEnv parameters).fs.readBytes (parametersPath ["p"]) =
        some (jsonBytes parameters) := by
      rw [savedEnv, Env.fs, Env.write]
      rw [FileSystem.readBytes_write_eq _ _ (by decide)]
      rfl
    rw [readJson, if_neg (by simp [FileSystem.exists_of_readBytes hbytes]), hbytes]
    simp [savedEnv]
  realpath := rfl
  home := rfl
  cwd := rfl
  listDir := fun _ _ => rfl
  kept := fun q h => by
    rw [savedEnv, Env.fs, Env.write]
    rwa [FileSystem.exists_write]
  fresh := fun q h => by
    rw [savedEnv, Env.fs, Env.write] at h
    rw [FileSystem.exists_write] at h
    exact .inl h

theorem savedEnv_collisionFree (parameters : Dict) : (savedEnv parameters).CollisionFree :=
  Env.ofNodes_collisionFree []

theorem validate_project {workspace : Workspace} {suite : String}
    (hcontract : workspaceTestSuiteContract workspace = (true, ["cpu-tests", "coremark"]))
    (hsuite : suite ∈ ["cpu-tests", "coremark"]) :
    validateWorkspaceTestSuiteSupported workspace suite = .ok () := by
  rw [validateWorkspaceTestSuiteSupported, hcontract]
  exact if_neg fun h => h.2 hsuite

theorem validateCases_project {workspace : Workspace} {cases : List String}
    (hdir : resolveOptionalPath projectEnv (valueAt workspace "sim_programs_dir") = none)
    (hcases : cases.filter (fun name => !isCaseName name) = []) :
    validateCpuTestCases projectEnv workspace cases = .ok () := by
  simp only [validateCpuTestCases, hcases, hdir]
  exact if_neg (not_not.mpr rfl)

def smokeUpdates : Dict := suiteSelection false ["add"] ["--max-cycles", "50000000"]

theorem selectSimSuite_smoke : selectSimSuite projectEnv projectSession (suiteRequest "") =
    .ok (updateWorkspaceParameters projectSession smokeUpdates) := by
  have hcases : defaultCpuTestCases projectEnv projectSession.workspace = ["add"] := by
    decide +kernel
  have hargs : defaultCpuTestsRunArgs projectEnv projectSession.workspace =
      ["--max-cycles", "50000000"] := by decide +kernel
  simp only [selectSimSuite]
  rw [if_neg (by decide)]
  simp only [applyDefaultSimSmokeSuite, hcases, hargs]
  rw [validate_project (by decide +kernel) (by decide), if_neg (by decide),
    validateCases_project (by decide +kernel) (by decide)]
  rfl

/-- What the compile options of a CoreMark run come to. -/
def coremarkSettings : Dict :=
  [("sim_compile_preset", .str "balanced"), ("sim_compile_opt_level", .str "-O2"),
    ("sim_compile_march", .str "rv32im_zicsr"), ("sim_compile_mabi", .str "ilp32"),
    ("sim_compile_extra_cflags", .arr []), ("sim_coremark_iterations", .int 1),
    ("sim_coremark_total_data_size", .int 2000), ("sim_coremark_has_float", .bool false),
    ("sim_coremark_max_cycles", .int 200000000), ("sim_coremark_use_difftest", .bool false)]

/-- A CoreMark run of the project is accepted. -/
theorem selectSimSuite_coremark :
    ∃ s, selectSimSuite projectEnv projectSession (suiteRequest "coremark") = .ok s := by
  have hearlier : coremarkCompileUpdates projectSession.workspace [] = .ok coremarkSettings := by
    decide +kernel
  let compiled := updateWorkspaceParameters projectSession coremarkSettings
  have hcycles : positiveInt (valueAt compiled.workspace "sim_coremark_max_cycles")
      defaultCoremarkMaxCycles = .ok 200000000 := by decide +kernel
  have hsettings : defaultCoremarkCompileSettings compiled.workspace = .ok coremarkSettings := by
    decide +kernel
  have hupdates : ∃ updates, coremarkUpdates projectEnv compiled.workspace = .ok updates := by
    rw [coremarkUpdates, validate_project (by decide +kernel) (by decide),
      validateCases_project (by decide +kernel) (by decide), defaultCoremarkRunArgs, hcycles,
      hsettings]
    exact ⟨_, rfl⟩
  obtain ⟨updates, hupdates⟩ := hupdates
  refine ⟨updateWorkspaceParameters compiled updates, ?_⟩
  have hname : strip "coremark" = "coremark" := by decide
  have happlied : applySimTestSuite projectEnv compiled "coremark" .null .null =
      .ok (updateWorkspaceParameters compiled updates) := by
    delta applySimTestSuite
    dsimp only
    rw [hname, if_neg (by decide), if_neg (by decide), if_pos rfl, hupdates, Except.map]
  simp only [selectSimSuite, suiteRequest, hname]
  rw [if_pos (by decide), if_pos (by decide), hearlier]
  dsimp only [Except.map, bind, Except.bind]
  exact happlied

/-! A default run before and after the reload, at the project. -/

theorem reload_signature_iff_project :
    ∃ s, selectSimSuite projectEnv projectSession (suiteRequest "") = .ok s ∧
      ∃ reloaded, loadWorkspace (savedEnv s.parameters) "/p" = .ok (some reloaded) ∧
        ∀ stepName tool upstream,
          expectedSignature (savedEnv s.parameters) s.workspace stepName tool upstream =
              expectedSignature (savedEnv s.parameters) reloaded stepName tool upstream ↔
            ReloadStable projectEnv projectSession.workspace (suiteRequest "") stepName := by
  have hresolve : projectEnv.host.resolveText "/p" = ["p"] := by decide
  refine ⟨_, selectSimSuite_smoke, ?_⟩
  exact reload_signature_iff projectEnv_load (hresolve ▸ projectEnv_read) selectSimSuite_smoke
    (hresolve ▸ savedEnv_saved _) (savedEnv_collisionFree _)

/-- After a CoreMark run the sim step's signature differs from the one a reload gives. -/
theorem coremark_reload_stale :
    ¬∀ (env env' : Env) (directory : String) (loaded : Workspace) (parameters : Dict)
      (request : SimRequest) (s : Session),
      loadWorkspace env directory = .ok (some loaded) →
      readJson env (parametersPath (env.host.resolveText directory)) = .ok parameters →
      selectSimSuite env ⟨loaded, parameters⟩ request = .ok s →
      Saved env env' (parametersPath (env.host.resolveText directory)) s.parameters →
      env'.CollisionFree →
      ∃ reloaded, loadWorkspace env' directory = .ok (some reloaded) ∧
        ∀ stepName tool upstream,
          expectedSignature env' s.workspace stepName tool upstream =
            expectedSignature env' reloaded stepName tool upstream := by
  intro hall
  have hresolve : projectEnv.host.resolveText "/p" = ["p"] := by decide
  have hread : readJson projectEnv (parametersPath (projectEnv.host.resolveText "/p")) =
      .ok suitesParameters := hresolve ▸ projectEnv_read
  obtain ⟨s, hselect⟩ := selectSimSuite_coremark
  have hsaved : Saved projectEnv (savedEnv s.parameters)
      (parametersPath (projectEnv.host.resolveText "/p")) s.parameters :=
    hresolve ▸ savedEnv_saved s.parameters
  have hinj := savedEnv_collisionFree s.parameters
  have hloaded := loaded_of_loadWorkspace projectEnv_load hread
  obtain ⟨reloaded, hload, hsame⟩ := hall projectEnv (savedEnv s.parameters) "/p" _
    suitesParameters (suiteRequest "coremark") s projectEnv_load hread hselect hsaved hinj
  rw [loadWorkspace_saved projectEnv_load hsaved, Except.ok.injEq, Option.some.injEq] at hload
  rw [← hload] at hsame
  obtain ⟨updates, hselected, houtcome⟩ := selectSimSuite_outcome hloaded hselect
  have hname : strip (suiteRequest "coremark").suite = "coremark" := by decide
  cases houtcome with
  | kept hkeeps _ => exact ne_coremark_of_default hkeeps.1 hname
  | cpuTests hne _ _ => exact hne hname
  | coremark _ n hn =>
    exact reload_coremark_ne hinj hloaded hselected hsaved hn "verilator" none
      (hsame "sim" "verilator" none)

end EccFe.Application
