/-
EccFe.Application.Reload — a step signature before and after a reload.

Selecting a suite updates the workspace in memory and parameters.json alike; a
later process loads the workspace from that file, where every field is converted
again. The two dicts differ in the `sim_` fields whose value the conversion
changes, and only the sim step reads those (`reload_same`, `reload_ne`).
-/
import EccFe.Application.SimSuites
import EccFe.Engine.Signature

namespace EccFe.Application

open Python Engine Data
open Tools.RtlInputs

/-! ## 1. Workspaces that agree outside the sim fields -/

def isSimField (field : String) : Bool := startsWith field.toList "sim_"

/-- Same keys, and the same value under every key that is no sim field. -/
structure SameButSim (w w' : Workspace) : Prop where
  keys : Dict.keys w = Dict.keys w'
  get : ∀ field, isSimField field = false → Dict.get w field = Dict.get w' field

section

variable {env : Env} {w w' : Workspace}

theorem textAt_same (h : SameButSim w w') {field : String} (hf : isSimField field = false) :
    Dict.textAt w field = Dict.textAt w' field := by
  rw [Dict.textAt, Dict.textAt, Dict.getD, Dict.getD, h.get field hf]

theorem textOrEmptyAt_same (h : SameButSim w w') {field : String} (hf : isSimField field = false) :
    Dict.textOrEmptyAt w field = Dict.textOrEmptyAt w' field := by
  rw [Dict.textOrEmptyAt, Dict.textOrEmptyAt, Dict.getD, Dict.getD, h.get field hf]

theorem fieldPath_same (h : SameButSim w w') {field : String} (hf : isSimField field = false) :
    fieldPath? env w field = fieldPath? env w' field := by
  simp only [fieldPath?, textOrEmptyAt_same h hf]

/-- No fingerprinted path is a field of the simulation. -/
theorem isSimField_pathField {field : String} (hf : field ∈ fingerprintPathFields w) :
    isSimField field = false := by
  have hall : ∀ field ∈ fingerprintSourcePathFields ++ ["input_filelist"],
      isSimField field = false := by decide
  rw [fingerprintPathFields] at hf
  split at hf
  · exact hall field hf
  · exact hall field (List.mem_append_left _ hf)

/-- The workspace fingerprint covers no sim field. -/
theorem workspaceInputFingerprint_same (h : SameButSim w w') :
    workspaceInputFingerprint env w = workspaceInputFingerprint env w' := by
  have hfields : fingerprintPathFields w = fingerprintPathFields w' := by
    rw [fingerprintPathFields, fingerprintPathFields, textAt_same h (by decide)]
  have hitems : ∀ field ∈ fingerprintPathFields w',
      pathFieldItems env w field = pathFieldItems env w' field := by
    intro field hmem
    rw [pathFieldItems, pathFieldItems, normalizedPathText, normalizedPathText,
      inputContentSha256, inputContentSha256, fieldPath_same h (isSimField_pathField hmem)]
  have hall : ∀ field ∈ fingerprintTextFields, isSimField field = false := by decide
  have htexts : ∀ field ∈ fingerprintTextFields, textFieldItem w field = textFieldItem w' field := by
    intro field hmem
    rw [textFieldItem, textFieldItem, textOrEmptyAt_same h (hall field hmem)]
  rw [workspaceInputFingerprint, workspaceInputFingerprint, hfields, List.flatMap_congr hitems,
    List.map_congr_left htexts]

/-- The parameters of the fingerprint are not those of the simulation. -/
theorem workspaceParameters_same (h : SameButSim w w') :
    workspaceParameters env w = workspaceParameters env w' := by
  simp only [workspaceParameters, textAt_same h (show isSimField "parameters_path" = false by decide)]

end

/-! ## 2. The configuration -/

section

variable {w w' : Workspace} {parameters : Dict} {stepName : String}

theorem configurationFields_congr (h : Dict.keys w = Dict.keys w') :
    configurationFields (mergedParameters w parameters) stepName =
      configurationFields (mergedParameters w' parameters) stepName := by
  have hkeys : Dict.keys (mergedParameters w parameters) =
      Dict.keys (mergedParameters w' parameters) := Dict.keys_update_congr h _ _ rfl
  rw [configurationFields, configurationFields, hkeys]

theorem keys_configurationItems (merged : Dict) : ∀ fields : List String,
    Dict.keys (fields.filterMap (configurationItem merged)) =
      fields.filter fun field => (Dict.get merged field).isSome
  | [] => rfl
  | field :: rest => by
      have ih := keys_configurationItems merged rest
      rw [Dict.keys] at ih
      rw [List.filterMap_cons, List.filter_cons, configurationItem]
      cases hget : Dict.get merged field with
      | none => simpa [Dict.keys] using ih
      | some value => simpa [Dict.keys] using ih

theorem keys_configurationOf_nodup (merged : Dict) (stepName : String) :
    (Dict.keys (configurationOf merged stepName)).Nodup := by
  rw [configurationOf, keys_configurationItems]
  exact (List.nodup_dedup _).filter _

/-- A configured field is read from the merged parameters. -/
theorem get_configurationOf {merged : Dict} {field : String}
    (hf : field ∈ configurationFields merged stepName) :
    Dict.get (configurationOf merged stepName) field =
      (Dict.get merged field).map normalizeValue := by
  cases hget : Dict.get merged field with
  | none =>
    refine Dict.get_eq_none_of_not_mem _ _ ?_
    rw [configurationOf, keys_configurationItems]
    simp [hget]
  | some value =>
    refine Dict.get_of_mem (keys_configurationOf_nodup merged stepName) ?_
    rw [configurationOf, List.mem_filterMap]
    exact ⟨field, List.mem_dedup.mpr hf, by rw [configurationItem, hget]; rfl⟩

/-- No step but sim has a sim field in its configuration. -/
theorem not_isSimField_of_mem (hstep : stepName ≠ "sim") {merged : Dict} {field : String}
    (hf : field ∈ configurationFields merged stepName) : isSimField field = false := by
  rw [configurationFields, if_neg hstep] at hf
  unfold stepConfigFields at hf
  split at hf
  · revert field; decide
  · revert field; decide
  · revert field; decide
  · revert field; decide
  · simp at hf

/-- A field of the workspace comes before one of the parameters. -/
theorem get_merged (hnodup : (Dict.keys w).Nodup) (field : String) :
    Dict.get (mergedParameters w parameters) field =
      (Dict.get w field).or (Dict.get parameters field) :=
  Dict.get_update _ hnodup field

/-- A configuration depends on the values of its fields alone. -/
theorem stepConfiguration_congr (hkeys : Dict.keys w = Dict.keys w') (hnodup : (Dict.keys w).Nodup)
    (h : ∀ field ∈ configurationFields (mergedParameters w' parameters) stepName,
      Dict.get w field = Dict.get w' field) :
    stepConfiguration w parameters stepName = stepConfiguration w' parameters stepName := by
  rw [stepConfiguration, stepConfiguration, configurationOf, configurationOf,
    configurationFields_congr hkeys]
  refine List.filterMap_congr fun field hmem => ?_
  rw [configurationItem, configurationItem, get_merged hnodup, get_merged (hkeys ▸ hnodup),
    h field (List.mem_dedup.mp hmem)]

/-- The fields of the simulation are in its configuration. -/
theorem mem_configurationFields_sim {field : String} (hf : isSimField field = true)
    (hmem : field ∈ Dict.keys (mergedParameters w parameters)) :
    field ∈ configurationFields (mergedParameters w parameters) "sim" := by
  rw [configurationFields, if_pos rfl]
  refine List.mem_append_right _ ((List.mem_insertionSort _).mpr ?_)
  exact List.mem_filter.mpr ⟨hmem, hf⟩

end

/-! ## 3. Signatures -/

section

variable {env : Env} {w w' : Workspace} {stepName : String}

/-- Workspaces that agree on what a step reads give it one signature. -/
theorem expectedSignature_same (h : SameButSim w w') (hnodup : (Dict.keys w).Nodup)
    (hsim : stepName = "sim" → ∀ field, Dict.get w field = Dict.get w' field) (tool : String)
    (upstream : Option Dict) :
    expectedSignature env w stepName tool upstream =
      expectedSignature env w' stepName tool upstream := by
  have hconfig : stepConfiguration w (workspaceParameters env w) stepName =
      stepConfiguration w' (workspaceParameters env w') stepName := by
    rw [workspaceParameters_same h]
    refine stepConfiguration_congr h.keys hnodup fun field hmem => ?_
    by_cases hstep : stepName = "sim"
    · exact hsim hstep field
    · exact h.get field (not_isSimField_of_mem hstep hmem)
  rw [expectedSignature, expectedSignature, textAt_signature_build, textAt_signature_build, hconfig,
    provenanceInputs, provenanceInputs, workspaceInputFingerprint_same h, workspaceParameters_same h]

/-- The sim step sees a sim field of another value. -/
theorem expectedSignature_ne (hinj : env.CollisionFree) (h : SameButSim w w')
    (hnodup : (Dict.keys w).Nodup) {field : String} (hf : isSimField field = true) {v v' : Json}
    (hv : Dict.get w field = some v) (hv' : Dict.get w' field = some v')
    (hne : sortKeys (sortKeys v) ≠ sortKeys (sortKeys v')) (tool : String)
    (upstream : Option Dict) :
    expectedSignature env w "sim" tool upstream ≠ expectedSignature env w' "sim" tool upstream := by
  intro heq
  obtain ⟨-, hconfig, -⟩ := (expectedSignature_eq_iff hinj rfl w' w "sim" tool upstream).mp heq
  rw [workspaceParameters_same h] at hconfig
  have hget := get_of_sortKeys_eq (keys_configurationOf_nodup _ _) (keys_configurationOf_nodup _ _)
    hconfig field
  have hmem : ∀ {d : Workspace} {parameters : Dict} {value : Json}, (Dict.keys d).Nodup →
      Dict.get d field = some value →
      Dict.get (configurationOf (mergedParameters d parameters) "sim") field =
        some (normalizeValue value) := by
    intro d parameters value hd hvalue
    have hmerged : Dict.get (mergedParameters d parameters) field = some value := by
      rw [get_merged hd, hvalue, Option.some_or]
    have hkey : field ∈ Dict.keys (mergedParameters d parameters) := by
      by_contra hnot
      rw [Dict.get_eq_none_of_not_mem _ _ hnot] at hmerged
      cases hmerged
    rw [get_configurationOf (mem_configurationFields_sim hf hkey), hmerged]
    rfl
  rw [hmem hnodup hv, hmem (h.keys ▸ hnodup) hv'] at hget
  exact hne (by simpa [normalizeValue] using hget)

end

/-! ## 4. The saved parameters -/

/-- A machine after `parameters` was written to `path`: the same host, and no other file appeared. -/
structure Saved (env env' : Env) (path : AbsPath) (parameters : Dict) : Prop where
  read : readJson env' path = .ok parameters
  realpath : env'.fs.realpath = env.fs.realpath
  home : env'.host.home = env.host.home
  cwd : env'.host.cwd = env.host.cwd
  listDir : ∀ dir, dir ≠ AbsPath.parent path → env'.listDir dir = env.listDir dir
  kept : ∀ q, env.fs.exists? q = true → env'.fs.exists? q = true
  fresh : ∀ q, env'.fs.exists? q = true →
    env.fs.exists? q = true ∨ env.fs.realpath q = env.fs.realpath path

/-- Names of one place exist together. -/
theorem exists_congr {fs : FileSystem} {p q : AbsPath} (h : fs.realpath p = fs.realpath q) :
    fs.exists? p = fs.exists? q := by
  rw [FileSystem.exists?, FileSystem.exists?, FileSystem.node, FileSystem.node, h]

/-- A missing parameters file holds no field. -/
theorem exists_of_readJson {env : Env} {path : AbsPath} {parameters : Dict}
    (h : readJson env path = .ok parameters) (key : String) (hkey : Dict.textAt parameters key ≠ "") :
    env.fs.exists? path = true := by
  by_contra hmissing
  rw [readJson, if_pos (by simpa using hmissing)] at h
  cases h
  exact hkey rfl

section

variable {env env' : Env} {directory : String} {path : AbsPath} {before after : Dict}

theorem resolve_saved (h : Saved env env' path after) (p : PurePath) :
    env'.host.resolve p = env.host.resolve p := by
  rw [Host.resolve, Host.resolve, h.cwd]
  exact congrFun h.realpath _

/-- Saving the parameters moves no link. -/
theorem resolveText_saved (h : Saved env env' path after) (text : String) :
    env'.host.resolveText text = env.host.resolveText text := by
  have hexpand : env'.host.expanduser (.ofText text) = env.host.expanduser (.ofText text) := by
    simp only [Host.expanduser, h.home]
  rw [Host.resolveText, Host.resolveText, hexpand, resolve_saved h]

theorem pickFirst_saved (h : Saved env env' path after) {dir : AbsPath}
    (hdir : dir ≠ AbsPath.parent path) (suffixes : List String) :
    pickFirst env' dir suffixes = pickFirst env dir suffixes := by
  simp only [pickFirst, h.listDir dir hdir]

theorem inputFilelist_saved (h : Saved env env' path after) (hread : readJson env path = .ok before)
    {dir : AbsPath} (hdir : dir ≠ AbsPath.parent path)
    (hget : Dict.get after "input_filelist" = Dict.get before "input_filelist") :
    inputFilelist env' dir after = inputFilelist env dir before := by
  have htext : Dict.textAt after "input_filelist" = Dict.textAt before "input_filelist" := by
    rw [Dict.textAt, Dict.textAt, Dict.getD, Dict.getD, hget]
  simp only [inputFilelist, htext, resolve_saved h, pickFirst_saved h hdir]
  by_cases hnamed : strip (Dict.textAt before "input_filelist") = ""
  · simp [hnamed]
  · -- the file it names was there before, were it the parameters file itself
    have hexists : env'.fs.exists?
          (env.host.resolve (.ofText (strip (Dict.textAt before "input_filelist")))) =
        env.fs.exists?
          (env.host.resolve (.ofText (strip (Dict.textAt before "input_filelist")))) := by
      rw [Bool.eq_iff_iff]
      refine ⟨fun hnew => ?_, h.kept _⟩
      rcases h.fresh _ hnew with hold | hpath
      · exact hold
      · rw [exists_congr hpath]
        refine exists_of_readJson hread "input_filelist" fun hempty => hnamed ?_
        rw [hempty]
        rfl
    rw [hexists]

/-- The fields that are no parameters come from the directory alone. -/
theorem baseFields_saved {projectDir : AbsPath} (h : Saved env env' (parametersPath projectDir) after)
    (hread : readJson env (parametersPath projectDir) = .ok before)
    (hget : ∀ field ∈ ["Design", "Top module", "input_filelist"],
      Dict.get after field = Dict.get before field) :
    baseFields env' projectDir after = baseFields env projectDir before := by
  have horigin : projectDir ++ ["origin"] ≠ AbsPath.parent (parametersPath projectDir) := by
    rw [AbsPath.parent, parametersPath, List.dropLast_append_of_ne_nil (by simp)]
    simp
  have hdesign : Dict.getD after "Design" = Dict.getD before "Design" := by
    funext default
    rw [Dict.getD, Dict.getD, hget "Design" (by simp)]
  have htop : Dict.getD after "Top module" = Dict.getD before "Top module" := by
    funext default
    rw [Dict.getD, Dict.getD, hget "Top module" (by simp)]
  simp only [baseFields, hdesign, htop, pickFirst_saved h horigin,
    inputFilelist_saved h hread horigin (hget _ (by simp))]

end

/-! ## 5. A selection and its reload -/

/-- The fields that a suite selection may write. -/
def simSelectionFields : List String :=
  ["sim_all_tests", "sim_images", "sim_build_all_programs", "sim_program_names", "sim_run_args",
    "sim_compile_preset", "sim_compile_opt_level", "sim_compile_march", "sim_compile_mabi",
    "sim_compile_extra_cflags", "sim_coremark_iterations", "sim_coremark_total_data_size",
    "sim_coremark_has_float", "sim_coremark_max_cycles", "sim_coremark_use_difftest"]

/-- `s` is the session `s₀` with `updates` written over it. -/
structure Selected (s₀ s : Session) (updates : Dict) : Prop where
  fields : Dict.keys updates ⊆ simSelectionFields
  keys : Dict.keys s.workspace = Dict.keys s₀.workspace
  workspace : ∀ field,
    Dict.get s.workspace field = (Dict.get updates field).or (Dict.get s₀.workspace field)
  parameters : ∀ field,
    Dict.get s.parameters field = (Dict.get updates field).or (Dict.get s₀.parameters field)

/-- Loading an updated field from parameters.json gives the value in memory. -/
def StableUpdates (updates : Dict) : Prop :=
  ∀ field value, Dict.get updates field = some value → loadedField field (some value) = value

theorem isSimField_selection : ∀ field ∈ simSelectionFields,
    isSimField field = true ∧ field ∈ parameterFields := by decide

namespace Selected

variable {s₀ s : Session} {updates : Dict}

/-- A selection updates fields of the simulation only. -/
theorem get_of_not_sim (h : Selected s₀ s updates) {field : String} (hf : field ∉ simSelectionFields) :
    Dict.get updates field = none :=
  Dict.get_eq_none_of_not_mem _ _ fun hmem => hf (h.fields hmem)

theorem refl (s : Session) : Selected s s [] where
  fields := by simp [Dict.keys]
  keys := rfl
  workspace := fun field => by simp [Dict.get]
  parameters := fun field => by simp [Dict.get]

theorem update (hpath : strip (Dict.textAt s₀.workspace "parameters_path") ≠ "")
    (hnodup : (Dict.keys updates).Nodup) (hfields : Dict.keys updates ⊆ simSelectionFields)
    (hmem : simSelectionFields ⊆ Dict.keys s₀.workspace) :
    Selected s₀ (updateWorkspaceParameters s₀ updates) updates where
  fields := hfields
  keys := Dict.keys_update_of_subset _ _ fun _ hf => hmem (hfields hf)
  workspace := fun field => Dict.get_update _ hnodup field
  parameters := fun field => by
    rw [updateWorkspaceParameters, if_neg hpath]
    exact Dict.get_update _ hnodup field

/-- A later selection that writes every field of an earlier one replaces it. -/
theorem trans {s₁ : Session} {earlier : Dict} (h₁ : Selected s₀ s₁ earlier)
    (h₂ : Selected s₁ s updates) (hsub : Dict.keys earlier ⊆ Dict.keys updates) :
    Selected s₀ s updates := by
  have hor : ∀ field (value : Option Json), (Dict.get updates field).or
      ((Dict.get earlier field).or value) = (Dict.get updates field).or value := by
    intro field value
    cases hget : Dict.get updates field with
    | some v => simp
    | none =>
      have hnone : Dict.get earlier field = none := by
        refine Dict.get_eq_none_of_not_mem _ _ fun hmem => ?_
        obtain ⟨v, hv⟩ := Dict.mem_keys_iff.mp (hsub hmem)
        rw [hget] at hv
        cases hv
      rw [hnone, Option.none_or]
  refine ⟨h₂.fields, h₂.keys.trans h₁.keys, fun field => ?_, fun field => ?_⟩
  · rw [h₂.workspace, h₁.workspace, hor]
  · rw [h₂.parameters, h₁.parameters, hor]

end Selected

section

variable {env env' : Env} {projectDir : AbsPath} {updates : Dict} {s₀ s : Session}

/-- The session of a process that has just loaded the workspace. -/
structure Loaded (env : Env) (projectDir : AbsPath) (s : Session) : Prop where
  read : readJson env (parametersPath projectDir) = .ok s.parameters
  workspace : s.workspace = workspaceOf env projectDir s.parameters

/-- A field after the reload: an updated one is converted, the others are as in memory. -/
theorem get_reloaded (hloaded : Loaded env projectDir s₀) (hselected : Selected s₀ s updates)
    (hsaved : Saved env env' (parametersPath projectDir) s.parameters) (field : String) :
    Dict.get (workspaceOf env' projectDir s.parameters) field =
      match Dict.get updates field with
      | some value => some (loadedField field (some value))
      | none => Dict.get s.workspace field := by
  have hother : ∀ field ∉ simSelectionFields, Dict.get s.parameters field = Dict.get s₀.parameters field := by
    intro field hf
    rw [hselected.parameters, hselected.get_of_not_sim hf, Option.none_or]
  have hbase : baseFields env' projectDir s.parameters = baseFields env projectDir s₀.parameters :=
    baseFields_saved hsaved hloaded.read fun field hf => hother field (by revert field; decide)
  rw [get_workspaceOf, hselected.workspace, hselected.parameters, hloaded.workspace,
    get_workspaceOf, hbase]
  cases hget : Dict.get updates field with
  | some value =>
    have hmem := hselected.fields (Dict.mem_keys_iff.mpr ⟨value, hget⟩)
    rw [if_pos (isSimField_selection field hmem).2, Option.some_or]
  | none => rw [Option.none_or, Option.none_or]

/-- A reload changes no field outside the sim fields. -/
theorem sameButSim_reloaded (hloaded : Loaded env projectDir s₀) (hselected : Selected s₀ s updates)
    (hsaved : Saved env env' (parametersPath projectDir) s.parameters) :
    SameButSim s.workspace (workspaceOf env' projectDir s.parameters) where
  keys := by
    rw [hselected.keys, hloaded.workspace]
    exact keys_workspaceOf env projectDir s₀.parameters env' projectDir s.parameters
  get := fun field hsim => by
    have hnot : field ∉ simSelectionFields := fun hmem => by
      rw [(isSimField_selection field hmem).1] at hsim
      cases hsim
    rw [get_reloaded hloaded hselected hsaved, hselected.get_of_not_sim hnot]

theorem nodup_keys_selected (hloaded : Loaded env projectDir s₀) (hselected : Selected s₀ s updates) :
    (Dict.keys s.workspace).Nodup := by
  rw [hselected.keys, hloaded.workspace]
  exact nodup_keys_workspaceOf env projectDir s₀.parameters

/-- Stable updates: no step sees the reload. -/
theorem reload_same (hloaded : Loaded env projectDir s₀) (hselected : Selected s₀ s updates)
    (hsaved : Saved env env' (parametersPath projectDir) s.parameters) {stepName : String}
    (h : stepName = "sim" → StableUpdates updates) (tool : String) (upstream : Option Dict) :
    expectedSignature env' s.workspace stepName tool upstream =
      expectedSignature env' (workspaceOf env' projectDir s.parameters) stepName tool upstream := by
  refine expectedSignature_same (sameButSim_reloaded hloaded hselected hsaved)
    (nodup_keys_selected hloaded hselected) (fun hsim field => ?_) tool upstream
  rw [get_reloaded hloaded hselected hsaved, hselected.workspace]
  cases hget : Dict.get updates field with
  | none => rfl
  | some value => exact congrArg some (h hsim field value hget).symm

/-- An unstable update: the sim step sees the reload. -/
theorem reload_ne (hinj : env'.CollisionFree)
    (hloaded : Loaded env projectDir s₀) (hselected : Selected s₀ s updates)
    (hsaved : Saved env env' (parametersPath projectDir) s.parameters) {field : String}
    {value : Json} (hget : Dict.get updates field = some value)
    (hne : sortKeys (sortKeys value) ≠ sortKeys (sortKeys (loadedField field (some value))))
    (tool : String) (upstream : Option Dict) :
    expectedSignature env' s.workspace "sim" tool upstream ≠
      expectedSignature env' (workspaceOf env' projectDir s.parameters) "sim" tool upstream := by
  have hsim := (isSimField_selection field
    (hselected.fields (Dict.mem_keys_iff.mpr ⟨value, hget⟩))).1
  refine expectedSignature_ne hinj (sameButSim_reloaded hloaded hselected hsaved)
    (nodup_keys_selected hloaded hselected) hsim (v := value) ?_ ?_ hne tool upstream
  · rw [hselected.workspace, hget, Option.some_or]
  · rw [get_reloaded hloaded hselected hsaved, hget]

end

end EccFe.Application
