/-
EccFe.Application.RepairReload — the repair of the simulation defaults, twice.

A repair that has written its defaults should have nothing left to do once they
are loaded again. It does when three things hold of the workspace it started from
(`Settles`): the top module is the one the SoC names, which is saved under a key
the loader does not read; turning the SoC's difftest flag on does not call for the
other difftest source; and the sources, their difftest file renamed, do not become
replaceable by the SoC's own.
-/
import EccFe.Application.SimDefaults
import EccFe.Application.SuiteReload

namespace EccFe.Application

open Python Data Soc
open Tools.RtlInputs
open Tools.RtlOwnership (normalizeFrontendDesignKind)

/-! ## 1. The sources of two repairs -/

/-- The list that the adaptation starts from. -/
def baseSources (replaces : List String → List String → Bool) (existing default : List String) :
    List String :=
  if default ≠ [] ∧ replaces existing default = true then default
  else if existing = [] then default else existing

/-- The condition on the sources, for a first repair with difftest `first` and a
second one with `second`. -/
structure SourcesSettle (replaces : List String → List String → Bool)
    (existing default default' : List String) (first second : Bool) : Prop where
  flag : first = second ∨
    ∀ source ∈ baseSources replaces existing default, isDifftestSource source = false
  kept : existing ≠ [] → replaces existing default = false →
    replaces (listedOf (adaptedFor first existing)) default' = false

section

variable {replaces : List String → List String → Bool} {existing raw : List String}
  {first second : Bool}

/-- A list that was adapted one way and has a difftest file is changed by the other way. -/
theorem adaptedFor_flip_ne {sources : List String} (hne : first ≠ second)
    (hclean : ∀ source ∈ sources, sourceName source ≠ oldName first)
    (hdifftest : ¬∀ source ∈ sources, isDifftestSource source = false) :
    adaptedFor second sources ≠ sources := by
  intro hsame
  have hsecond : second = !first := by
    cases first <;> cases second <;> simp_all
  refine hdifftest fun source hmem => ?_
  by_contra hdiff
  rcases (isDifftestSource_iff first source).mp (by simpa using hdiff) with hold | hnew
  · exact hclean source hmem hold
  · have hgone := sourceName_adaptedFor second source (hsame ▸ hmem)
    rw [hsecond, oldName_not] at hgone
    exact hgone hnew

theorem ne_nil_of_difftest {sources : List String}
    (hdifftest : ¬∀ source ∈ sources, isDifftestSource source = false) : sources ≠ [] := by
  intro hnil
  rw [hnil] at hdifftest
  exact hdifftest (by simp)

/-- The adaptation leaves something of a list that is not empty. -/
theorem adaptedFor_ne_nil {difftest : Bool} {sources : List String} (h : Listed sources)
    (hne : sources ≠ []) : adaptedFor difftest sources ≠ [] := by
  intro hnil
  refine hne ((adapted_eq_nil_iff difftest h).mp ?_)
  rw [hnil]
  rfl

/-- The default sources of a second repair that sees the flag the first one saw, or that
has no difftest file. -/
theorem default_same (hraw : Listed raw) (h : first = second ∨
    ∀ source ∈ listedOf (adaptedFor first raw), isDifftestSource source = false) :
    listedOf (adaptedFor second raw) = listedOf (adaptedFor first raw) := by
  rcases h with rfl | hplain
  · rfl
  · have hplain' := (plain_adapted_iff first hraw).mp hplain
    rw [adaptedFor_plain hraw hplain', adaptedFor_plain hraw hplain']

/-- The first repair took the default sources. -/
theorem second_of_default (hreplaces : ∀ c e, replaces c e = true → c ≠ [] ∧ e ≠ [] ∧ c ≠ e)
    (hraw : Listed raw) {default again : List String}
    (hdefault : default = listedOf (adaptedFor first raw))
    (hagain : again = adaptedFor second
      (baseSources replaces default (listedOf (adaptedFor second raw)))) :
    again = [] ∨ again = default ↔
      first = second ∨ ∀ source ∈ default, isDifftestSource source = false := by
  have hlisted := adapted_listed first hraw
  rw [← hdefault] at hlisted
  constructor
  · intro h
    by_contra hnot
    rw [not_or] at hnot
    obtain ⟨hne, hdifftest⟩ := hnot
    have hdefaultNe := ne_nil_of_difftest hdifftest
    have hrawNe : raw ≠ [] := by
      intro hnil
      rw [hdefault] at hdefaultNe
      exact hdefaultNe ((adapted_eq_nil_iff _ hraw).mpr hnil)
    have hother := adapted_listed second hraw
    have hotherNe : listedOf (adaptedFor second raw) ≠ [] := fun hnil =>
      hrawNe ((adapted_eq_nil_iff _ hraw).mp hnil)
    rw [baseSources] at hagain
    split at hagain
    · -- the other default sources lack the name these have
      rename_i hrep
      rw [adaptedFor_clean hother.1 hother.2] at hagain
      rw [hagain] at h
      rcases h with hnil | hsame
      · exact hotherNe hnil
      · exact (hreplaces _ _ hrep.2).2.2 hsame.symm
    · rw [hagain] at h
      rcases h with hnil | hsame
      · exact adaptedFor_ne_nil hlisted.1 hdefaultNe hnil
      · exact adaptedFor_flip_ne hne hlisted.2 hdifftest hsame
  · intro h
    have hsame : listedOf (adaptedFor second raw) = default := by
      rw [hdefault]
      rw [hdefault] at h
      exact default_same hraw h
    have hbase : baseSources replaces default default = default := by
      rw [baseSources]
      split
      · rfl
      · split
        · rfl
        · rfl
    refine .inr ?_
    rw [hagain, hsame, hbase]
    rcases h with rfl | hplain
    · exact adaptedFor_clean hlisted.1 hlisted.2
    · exact adaptedFor_plain hlisted.1 hplain

/-- The first repair kept the sources of the workspace. -/
theorem second_of_existing (hreplaces : ∀ c e, replaces c e = true → c ≠ [] ∧ e ≠ [] ∧ c ≠ e)
    (hexisting : Listed existing) (hne : existing ≠ []) {default' reloaded again : List String}
    (hdefault' : Listed default' ∧ ∀ source ∈ default', sourceName source ≠ oldName second)
    (hreloaded : reloaded = listedOf (adaptedFor first existing))
    (hagain : again = adaptedFor second (baseSources replaces reloaded default')) :
    again = [] ∨ again = reloaded ↔
      (first = second ∨ ∀ source ∈ existing, isDifftestSource source = false) ∧
        replaces reloaded default' = false := by
  have hlisted := adapted_listed first hexisting
  rw [← hreloaded] at hlisted
  have hreloadedNe : reloaded ≠ [] := by
    intro hnil
    rw [hreloaded] at hnil
    exact hne ((adapted_eq_nil_iff _ hexisting).mp hnil)
  by_cases hrep : replaces reloaded default' = true
  · obtain ⟨-, hdefaultNe, hdiffer⟩ := hreplaces _ _ hrep
    rw [baseSources, if_pos ⟨hdefaultNe, hrep⟩, adaptedFor_clean hdefault'.1 hdefault'.2] at hagain
    rw [hagain, hrep]
    simp [hdefaultNe, Ne.symm hdiffer]
  · rw [baseSources, if_neg fun h => hrep h.2, if_neg hreloadedNe] at hagain
    have hnotnil : again ≠ [] := hagain ▸ adaptedFor_ne_nil hlisted.1 hreloadedNe
    have hplain := plain_adapted_iff first hexisting
    rw [← hreloaded] at hplain
    rw [← hplain]
    constructor
    · intro h
      refine ⟨?_, by simpa using hrep⟩
      by_contra hnot
      rw [not_or] at hnot
      refine adaptedFor_flip_ne hnot.1 hlisted.2 hnot.2 ?_
      rw [← hagain]
      exact h.resolve_left hnotnil
    · intro h
      refine .inr ?_
      rw [hagain]
      rcases h.1 with rfl | hall
      · exact adaptedFor_clean hlisted.1 hlisted.2
      · exact adaptedFor_plain hlisted.1 hall

/-- The sources of the second repair: what it would write is what it finds, exactly if the
sources settle. -/
theorem second_sources_iff (hreplaces : ∀ c e, replaces c e = true → c ≠ [] ∧ e ≠ [] ∧ c ≠ e)
    (hexisting : Listed existing) (hraw : Listed raw) {default reloaded again : List String}
    (hdefault : default = listedOf (adaptedFor first raw))
    (hreloaded : reloaded = listedOf (adaptedFor first (baseSources replaces existing default)))
    (hagain : again = adaptedFor second
      (baseSources replaces reloaded (listedOf (adaptedFor second raw)))) :
    again = [] ∨ again = reloaded ↔
      SourcesSettle replaces existing default (listedOf (adaptedFor second raw)) first second := by
  have hclean := adapted_listed first hraw
  by_cases htaken : existing = [] ∨ (default ≠ [] ∧ replaces existing default = true)
  · have hbase : baseSources replaces existing default = default := by
      rw [baseSources]
      rcases htaken with rfl | hrep
      · simp
      · rw [if_pos hrep]
    have hkept : reloaded = default := by
      rw [hreloaded, hbase, hdefault, adaptedFor_clean hclean.1 hclean.2, listedOf_of_listed hclean.1]
    rw [hkept] at hagain ⊢
    rw [second_of_default hreplaces hraw hdefault hagain]
    constructor
    · intro h
      refine ⟨hbase.symm ▸ h, fun hne hnot => ?_⟩
      rcases htaken with hnil | hrep
      · exact absurd hnil hne
      · rw [hrep.2] at hnot
        cases hnot
    · intro h
      rw [← hbase]
      exact h.flag
  · rw [not_or] at htaken
    obtain ⟨hne, hnot⟩ := htaken
    have hrep : replaces existing default = false := by
      by_contra htrue
      have htrue' := (by simpa using htrue : replaces existing default = true)
      exact hnot ⟨(hreplaces _ _ htrue').2.1, htrue'⟩
    have hbase : baseSources replaces existing default = existing := by
      rw [baseSources, if_neg hnot, if_neg hne]
    rw [hbase] at hreloaded
    rw [second_of_existing hreplaces hexisting hne (adapted_listed second hraw) hreloaded hagain, hreloaded]
    constructor
    · intro h
      exact ⟨hbase.symm ▸ h.1, fun _ _ => h.2⟩
    · intro h
      exact ⟨hbase ▸ h.flag, h.kept hne hrep⟩

end

/-! ## 2. The machine after the write -/

/-- A machine after `parameters` was written to `path`, where the program is still installed. -/
structure Rewritten (env env' : Env) (path : AbsPath) (parameters : Dict) : Prop
    extends Saved env env' path parameters where
  repoRoot : env'.frontendRepoRoot = env.frontendRepoRoot

section

variable {env env' : Env} {path : AbsPath} {after : Dict} {service : Service}

theorem exists_rewritten (h : Rewritten env env' path after) (hpath : env.fs.exists? path = true)
    (q : AbsPath) : env'.fs.exists? q = env.fs.exists? q := by
  rw [Bool.eq_iff_iff]
  constructor
  · intro hnew
    rcases h.fresh q hnew with hold | hreal
    · exact hold
    · rw [exists_congr hreal]
      exact hpath
  · exact h.kept q

theorem expanduser_rewritten (h : Rewritten env env' path after) (p : PurePath) :
    env'.host.expanduser p = env.host.expanduser p := by
  simp only [Host.expanduser, h.home]

theorem manifestPathText_rewritten (h : Rewritten env env' path after) :
    manifestPathText env' = manifestPathText env := by
  funext root value
  simp only [manifestPathText, expanduser_rewritten h, resolve_saved h.toSaved]

theorem formatManifestCflag_rewritten (h : Rewritten env env' path after) (installed : Installed) :
    formatManifestCflag env' installed = formatManifestCflag env installed := by
  funext root flag
  simp only [formatManifestCflag, expanduser_rewritten h, resolve_saved h.toSaved]

theorem wrapperOf_rewritten (h : Rewritten env env' path after)
    (hpath : env.fs.exists? path = true) (installed : Installed) :
    wrapperOf env' installed = wrapperOf env installed := by
  have hexists : env'.fs.exists? = env.fs.exists? := funext (exists_rewritten h hpath)
  funext wrapperId
  simp only [wrapperOf, wrapperFromManifest, legacyWrapperFromDirectory, hexists, h.realpath,
    h.repoRoot]

theorem socRuntimeOptions_rewritten (h : Rewritten env env' path after)
    (hpath : env.fs.exists? path = true) (installed : Installed) :
    socRuntimeOptions env' installed = socRuntimeOptions env installed := by
  have hoptions : optionsAt env' = optionsAt env := by
    funext wrapper root cflags
    simp only [optionsAt, manifestPathText_rewritten h]
  funext config
  simp only [socRuntimeOptions, getSocWrapper, wrapperOf_rewritten h hpath, runtimeOptions,
    hoptions, formatManifestCflag_rewritten h, h.realpath]

theorem explicitSocRoot_rewritten (h : Rewritten env env' path after)
    (hpath : env.fs.exists? path = true) :
    explicitSocRoot env' = explicitSocRoot env := by
  have hexists : env'.fs.exists? = env.fs.exists? := funext (exists_rewritten h hpath)
  have hroot : explicitRootAt env' = explicitRootAt env := by
    funext data field
    simp only [explicitRootAt, resolveText_saved h.toSaved]
  funext data
  rw [explicitSocRoot, explicitSocRoot, hroot, hexists]

theorem isBuiltinSocRuntimePath_rewritten (h : Rewritten env env' path after) :
    isBuiltinSocRuntimePath env' service = isBuiltinSocRuntimePath env service := by
  have hroots : builtinSocRuntimeRoots env' service = builtinSocRuntimeRoots env service := by
    simp only [builtinSocRuntimeRoots, resolveText_saved h.toSaved]
  have hrelative : pathIsRelativeTo env' = pathIsRelativeTo env := by
    funext p root
    rw [pathIsRelativeTo, pathIsRelativeTo, h.realpath]
  funext value
  simp only [isBuiltinSocRuntimePath, hroots, hrelative, resolveText_saved h.toSaved]

/-- The repair does not see that parameters.json was written. -/
theorem simDefaultUpdates_rewritten (h : Rewritten env env' path after)
    (hpath : env.fs.exists? path = true) :
    simDefaultUpdates env' service = simDefaultUpdates env service := by
  have hdefaults : defaultSocRuntimeOptions env' service = defaultSocRuntimeOptions env service := by
    funext data
    simp only [defaultSocRuntimeOptions, socRuntimeOptions_rewritten h hpath,
      explicitSocRoot_rewritten h hpath]
  have hreplaces : replacesList env' service = replacesList env service := by
    funext field current expected
    simp only [replacesList, listUsesBuiltinSocRuntimePath, isBuiltinSocRuntimePath_rewritten h]
  have hvalue : shouldReplaceSocRuntimeValue env' service =
      shouldReplaceSocRuntimeValue env service := by
    funext data defaults field
    simp only [shouldReplaceSocRuntimeValue, isBuiltinSocRuntimePath_rewritten h]
  have hlist : shouldReplaceSocRuntimeList env' service =
      shouldReplaceSocRuntimeList env service := by
    funext data defaults field
    rw [shouldReplaceSocRuntimeList, shouldReplaceSocRuntimeList, hreplaces]
  have hadapted : adaptedSources env' service = adaptedSources env service := by
    funext workspace defaults
    simp only [adaptedSources, hlist]
  have hfield : fieldUpdate? env' service = fieldUpdate? env service := by
    funext workspace defaults field
    simp only [fieldUpdate?, scalarUpdate?, flagsUpdate?, sourcesUpdate?, hadapted, hlist, hvalue]
  have hupdates : defaultUpdates env' service = defaultUpdates env service := by
    funext workspace defaults
    rw [defaultUpdates, defaultUpdates, hfield]
  funext workspace
  unfold simDefaultUpdates
  rw [hdefaults, hupdates]

end

/-! ## 3. The options a SoC offers -/

/-- The defaults before their sources are adapted to the CPU. -/
def offeredOptions (env : Env) (service : Service) (data : Workspace) : Except FlagError Dict :=
  if !shouldApplySocRuntimeOptions data then .ok []
  else do
    let offered ← socRuntimeOptions env service.installed data
    if offered ≠ [] then return offered
    match explicitSocRoot env data with
    | none => return []
    | some root => socRuntimeOptions env service.installed (inferredConfig data root)

section

variable {env : Env} {service : Service} {data : Workspace} {offered : Dict}

/-- The defaults are the offered options with those of the CPU over them. -/
theorem defaultSocRuntimeOptions_eq (data : Workspace) :
    defaultSocRuntimeOptions env service data =
      (offeredOptions env service data).map (withCpuRuntimeOptions data) := by
  rw [defaultSocRuntimeOptions, offeredOptions]
  by_cases happly : (!shouldApplySocRuntimeOptions data) = true
  · rw [if_pos happly, if_pos happly]
    rfl
  · rw [if_neg happly, if_neg happly]
    cases socRuntimeOptions env service.installed data with
    | error e => rfl
    | ok defaults =>
      by_cases hne : defaults ≠ []
      · simp only [bind, Except.bind, if_pos hne]
        rfl
      · simp only [bind, Except.bind, if_neg hne]
        cases explicitSocRoot env data with
        | none => rfl
        | some root =>
          cases socRuntimeOptions env service.installed (inferredConfig data root) with
          | error e => rfl
          | ok inferred => rfl

/-- What is offered is offered to every workspace that names the wrapper. -/
structure OfferedBy (env : Env) (service : Service) (wrapperId : String) (offered : Dict) : Prop where
  normal : normalizeSocWrapperId wrapperId = wrapperId ∧ strip wrapperId = wrapperId ∧ wrapperId ≠ ""
  offers : Offers wrapperId offered
  named : ∀ data : Workspace, strip (Dict.textAt data "soc_wrapper_id") = wrapperId →
    offeredOptions env service data = .ok offered

theorem offeredBy_of_socRuntimeOptions {config : Dict}
    (h : socRuntimeOptions env service.installed config = .ok offered) (hne : offered ≠ []) :
    OfferedBy env service (wrapperIdFromConfig config) offered := by
  have hnormal := wrapperIdFromConfig_normal config
  refine ⟨hnormal, offers_of_socRuntimeOptions h hne, fun data hid => ?_⟩
  have happly : shouldApplySocRuntimeOptions data = true := by
    simp [shouldApplySocRuntimeOptions, hid, hnormal.2.2]
  have hsame : wrapperIdFromConfig data = wrapperIdFromConfig config := by
    rw [wrapperIdFromConfig]
    simp only [List.map_cons, hid]
    rw [List.find?_cons_of_pos (by simpa using hnormal.2.2)]
    exact hnormal.1
  rw [offeredOptions, if_neg (by simp [happly]), socRuntimeOptions_congr hsame, h]
  simp only [bind, Except.bind, if_pos hne]
  rfl

/-- Options that are offered come from a wrapper. -/
theorem offeredBy_of_offeredOptions (h : offeredOptions env service data = .ok offered)
    (hne : offered ≠ []) : ∃ wrapperId, OfferedBy env service wrapperId offered := by
  rw [offeredOptions] at h
  split at h
  · cases h
    exact absurd rfl hne
  · obtain ⟨direct, hdirect, h⟩ := bind_eq_ok.mp h
    split at h
    · cases h
      exact ⟨_, offeredBy_of_socRuntimeOptions hdirect hne⟩
    · split at h
      · cases h
        exact absurd rfl hne
      · exact ⟨_, offeredBy_of_socRuntimeOptions h hne⟩

theorem withCpuRuntimeOptions_ne_nil (hne : offered ≠ []) :
    withCpuRuntimeOptions data offered ≠ [] := by
  rw [withCpuRuntimeOptions, if_neg hne]
  intro hnil
  have hkey : Dict.get (offered.set "sim_cpp_sources" _) "sim_cpp_sources" = some _ :=
    Dict.get_set_self offered "sim_cpp_sources" (textList (adaptSimCppSourcesForCpu data
      (normalizeStrList (offered.getD "sim_cpp_sources" (.arr [])))))
  rw [hnil] at hkey
  cases hkey

/-- The CPU changes the simulation sources only. -/
theorem get_withCpuRuntimeOptions {field : String} (hfield : field ≠ "sim_cpp_sources") :
    Dict.get (withCpuRuntimeOptions data offered) field = Dict.get offered field := by
  rw [withCpuRuntimeOptions]
  split
  · rename_i hnil
    rw [hnil]
  · exact Dict.get_set_ne _ _ (Ne.symm hfield)

theorem listAt_withCpuRuntimeOptions (hne : offered ≠ []) :
    listAt (withCpuRuntimeOptions data offered) "sim_cpp_sources" =
      listedOf (adaptedFor (supportsDifftest data) (listAt offered "sim_cpp_sources")) := by
  rw [withCpuRuntimeOptions, if_neg hne, listAt, Dict.getD, Dict.get_set_self]
  rfl

end

/-! ## 4. The fields of the reloaded workspace -/

/-- The workspace `w'` loaded after `updates` were saved over the parameters of `w`. -/
def ReloadsAs (w w' : Workspace) (updates : Dict) : Prop :=
  ∀ field, Dict.get w' field =
    match Dict.get updates field with
    | some value =>
        if field ∈ parameterFields then some (loadedField field (some value))
        else Dict.get w field
    | none => Dict.get w field

/-- A parameter field after an update of `w` was saved and loaded. -/
def reloadedField (w : Workspace) (field : String) : Option Json → Option Json
  | some value => some (loadedField field (some value))
  | none => Dict.get w field

/-- A workspace that was loaded. -/
structure IsLoaded (w : Workspace) : Prop where
  texts : ∀ field ∈ strParameterFields, ∃ text, Dict.get w field = some (.str text) ∧ strip text = text
  difftest : ∃ b, Dict.get w "soc_supports_difftest" = some (.bool b)
  top : ∃ text, Dict.get w "top_module" = some (.str text)

/-- A text field is neither a list nor a flag. -/
theorem fields_disjoint : ∀ field ∈ strParameterFields,
    field ∉ listParameterFields ∧ field ∉ boolParameterFields ∧ field ∈ parameterFields := by
  decide

theorem loadedField_text {field : String} (h : field ∈ strParameterFields) (raw : Option Json) :
    loadedField field raw = .str (strip (raw.getD (.str "")).pyStr) := by
  obtain ⟨hlist, hbool, -⟩ := fields_disjoint field h
  rw [loadedField, if_neg hlist, if_neg hbool, if_pos h]

theorem loadedField_list {field : String} (h : field ∈ listParameterFields) (texts : List String) :
    loadedField field (some (textList texts)) = textList (toStrList (textList texts)) := by
  rw [loadedField, if_pos h]
  rfl

theorem isLoaded_workspaceOf (env : Env) (projectDir : AbsPath) (parameters : Dict) :
    IsLoaded (workspaceOf env projectDir parameters) where
  texts := fun field h => by
    rw [get_workspaceOf, if_pos (fields_disjoint field h).2.2, loadedField_text h]
    exact ⟨_, rfl, strip_idem _⟩
  difftest := by
    rw [get_workspaceOf, if_pos (by decide), loadedField, if_neg (by decide), if_pos (by decide)]
    exact ⟨_, rfl⟩
  top := by
    rw [get_workspaceOf, if_neg (by decide)]
    exact ⟨_, rfl⟩

theorem get_filterMap_keyed (f : String → Option Json) (key : String) : ∀ fields : List String,
    Dict.get (fields.filterMap fun field => (f field).map fun value => (field, value)) key =
      if key ∈ fields then f key else none
  | [] => rfl
  | field :: rest => by
      have ih := get_filterMap_keyed f key rest
      cases hvalue : f field with
      | none =>
        rw [List.filterMap_cons_none (by simp [hvalue]), ih]
        by_cases hkey : key = field
        · rw [hkey, hvalue]
          simp
        · simp [hkey]
      | some value =>
        rw [List.filterMap_cons_some (b := (field, value)) (by simp [hvalue]), Dict.get_cons]
        by_cases hkey : field = key
        · rw [if_pos hkey, ← hkey, hvalue]
          simp
        · rw [if_neg hkey, ih]
          simp [Ne.symm hkey]

section

variable {env : Env} {service : Service} {w w' : Workspace} {defaults : Dict}

/-- An update is made field by field. -/
theorem get_defaultUpdates {field : String} (h : field ∈ updatedFields) :
    Dict.get (defaultUpdates env service w defaults) field =
      fieldUpdate? env service w defaults field := by
  rw [defaultUpdates, get_filterMap_keyed, if_pos h]

/-- No other field is updated. -/
theorem get_defaultUpdates_of_not_mem {field : String} (h : field ∉ updatedFields) :
    Dict.get (defaultUpdates env service w defaults) field = none := by
  rw [defaultUpdates, get_filterMap_keyed, if_neg h]

theorem nodup_keys_defaultUpdates : (Dict.keys (defaultUpdates env service w defaults)).Nodup := by
  have hkeys : ∀ fields : List String, Dict.keys (fields.filterMap fun field =>
      (fieldUpdate? env service w defaults field).map fun value => (field, value)) =
      fields.filter fun field => (fieldUpdate? env service w defaults field).isSome := by
    intro fields
    induction fields with
    | nil => rfl
    | cons field rest ih =>
      rw [Dict.keys] at ih ⊢
      cases hvalue : fieldUpdate? env service w defaults field with
      | none => simpa [hvalue] using ih
      | some value => simpa [hvalue] using ih
  rw [defaultUpdates, hkeys]
  exact List.Nodup.filter _ (by decide)

/-- The repair has nothing to write exactly if no field needs it. -/
theorem defaultUpdates_eq_nil_iff : defaultUpdates env service w defaults = [] ↔
    ∀ field ∈ updatedFields, fieldUpdate? env service w defaults field = none := by
  rw [defaultUpdates, List.filterMap_eq_nil_iff]
  simp

/-- Saving and loading updates of the repair's fields. -/
theorem reloadsAs_updates {env' : Env} {projectDir : AbsPath} {s : Session} {updates : Dict}
    (hloaded : Loaded env projectDir s) (hnodup : (Dict.keys updates).Nodup)
    (hfields : ∀ field ∉ updatedFields, Dict.get updates field = none)
    (hsaved : Rewritten env env' (parametersPath projectDir) (Dict.update s.parameters updates)) :
    ReloadsAs s.workspace (workspaceOf env' projectDir (Dict.update s.parameters updates))
      updates := by
  have hkept : ∀ field ∈ ["Design", "Top module", "input_filelist"],
      Dict.get (Dict.update s.parameters updates) field = Dict.get s.parameters field := by
    intro field hfield
    have hnot : field ∉ updatedFields := by
      clear hfields
      revert field
      decide
    rw [Dict.get_update _ hnodup, hfields field hnot, Option.none_or]
  have hbase := baseFields_saved hsaved.toSaved hloaded.read hkept
  intro field
  have hbefore : Dict.get s.workspace field =
      if field ∈ parameterFields then some (loadedField field (Dict.get s.parameters field))
      else Dict.get (baseFields env projectDir s.parameters) field := by
    rw [hloaded.workspace, get_workspaceOf]
  rw [hbefore, get_workspaceOf, Dict.get_update _ hnodup, hbase]
  cases Dict.get updates field with
  | none => simp
  | some value =>
    simp only [Option.some_or]
    split
    · rfl
    · rfl

end

/-! ## 5. One field, repaired twice -/

section

variable {env : Env} {service : Service} {w w' : Workspace} {defaults defaults' : Dict}
  {field : String}

theorem textAt_congr {d d' : Dict} (h : Dict.get d field = Dict.get d' field) :
    Dict.textAt d field = Dict.textAt d' field := by
  rw [Dict.textAt, Dict.textAt, Dict.getD, Dict.getD, h]

theorem listAt_congr {d d' : Dict} (h : Dict.get d field = Dict.get d' field) :
    listAt d field = listAt d' field := by
  rw [listAt, listAt, Dict.getD, Dict.getD, h]

/-- A list that is read is one that can be written. -/
theorem listed_listAt (d : Dict) (field : String) : Listed (listAt d field) :=
  listed_normalizeStrList _

/-- The update of a field reads that field only. -/
theorem scalarUpdate_congr (h : Dict.get w field = Dict.get w' field)
    (hd : Dict.get defaults field = Dict.get defaults' field) :
    scalarUpdate? env service w defaults field = scalarUpdate? env service w' defaults' field := by
  have hvalue : valueAt w field = valueAt w' field := by
    rw [valueAt, valueAt, Dict.getD, Dict.getD, h]
  have hdefault : Dict.getD defaults field (.str "") = Dict.getD defaults' field (.str "") := by
    rw [Dict.getD, Dict.getD, hd]
  have hreplace : shouldReplaceSocRuntimeValue env service w defaults field =
      shouldReplaceSocRuntimeValue env service w' defaults' field := by
    rw [shouldReplaceSocRuntimeValue, shouldReplaceSocRuntimeValue, textAt_congr h, textAt_congr hd]
  rw [scalarUpdate?, scalarUpdate?, hvalue, hdefault, hreplace, textAt_congr h]

theorem flagsUpdate_congr (h : Dict.get w field = Dict.get w' field)
    (hd : Dict.get defaults field = Dict.get defaults' field) :
    flagsUpdate? env service w defaults field = flagsUpdate? env service w' defaults' field := by
  rw [flagsUpdate?, flagsUpdate?, shouldReplaceSocRuntimeList, shouldReplaceSocRuntimeList,
    listAt_congr h, listAt_congr hd]

/-- A field that has the text of the default needs no update. -/
theorem scalarUpdate_of_same (hne : strip (Dict.textAt w field) ≠ "")
    (hsame : strip (Dict.textAt w field) = strip (Dict.textAt defaults field)) :
    scalarUpdate? env service w defaults field = none := by
  have hreplace : shouldReplaceSocRuntimeValue env service w defaults field = false := by
    simp [shouldReplaceSocRuntimeValue, hsame]
  simp only [scalarUpdate?]
  split
  · rfl
  · rw [if_pos ⟨hne, by simp [hreplace]⟩]

theorem scalarUpdate_value {value : Json}
    (h : scalarUpdate? env service w defaults field = some value) :
    Dict.getD defaults field (.str "") = value ∧ value.truthy = true := by
  simp only [scalarUpdate?] at h
  split at h
  · cases h
  rename_i htruthy
  split at h
  · cases h
  split at h
  · cases h
  cases h
  exact ⟨rfl, by simpa using htruthy⟩

/-- A text field settles. -/
theorem scalarUpdate_text_again (hfield : field ∈ strParameterFields) {text : String}
    (hdefault : Dict.get defaults field = some (.str text)) (hblank : text ≠ "" → strip text ≠ "")
    (hd : Dict.get defaults field = Dict.get defaults' field)
    (hreload : Dict.get w' field =
      reloadedField w field (scalarUpdate? env service w defaults field)) :
    scalarUpdate? env service w' defaults' field = none := by
  cases hupdate : scalarUpdate? env service w defaults field with
  | none =>
    rw [hupdate] at hreload
    rw [scalarUpdate_congr hreload hd.symm]
    exact hupdate
  | some value =>
    obtain ⟨hvalue, htruthy⟩ := scalarUpdate_value hupdate
    have hstr : value = .str text := by
      rw [← hvalue, Dict.getD, hdefault]
      rfl
    have hne : text ≠ "" := by
      intro hempty
      rw [hstr, hempty] at htruthy
      cases htruthy
    rw [hupdate, hstr, reloadedField, loadedField_text hfield] at hreload
    have hread : Dict.textAt w' field = strip text := by
      rw [Dict.textAt, Dict.getD, hreload]
      rfl
    have hexpected : Dict.textAt defaults' field = text := by
      rw [Dict.textAt, Dict.getD, ← hd, hdefault]
      rfl
    refine scalarUpdate_of_same ?_ ?_
    · rw [hread, strip_idem]
      exact hblank hne
    · rw [hread, strip_idem, hexpected]

/-- The SoC's difftest flag is written when it is on and the workspace has it off. -/
theorem scalarUpdate_flag {b flag : Bool}
    (hdefault : Dict.get defaults "soc_supports_difftest" = some (.bool b))
    (hw : Dict.get w "soc_supports_difftest" = some (.bool flag)) :
    scalarUpdate? env service w defaults "soc_supports_difftest" =
      if b = true ∧ flag = false then some (.bool true) else none := by
  have htext : Dict.textAt w "soc_supports_difftest" = (Json.bool flag).pyStr := by
    rw [Dict.textAt, Dict.getD, hw]
    rfl
  have hexpected : Dict.textAt defaults "soc_supports_difftest" = (Json.bool b).pyStr := by
    rw [Dict.textAt, Dict.getD, hdefault]
    rfl
  have hcurrent : valueAt w "soc_supports_difftest" = .bool flag := by
    rw [valueAt, Dict.getD, hw]
    rfl
  have hvalue : Dict.getD defaults "soc_supports_difftest" (.str "") = .bool b := by
    rw [Dict.getD, hdefault]
    rfl
  have hdecided : "soc_supports_difftest" ∈ socDecidedFields := by decide
  simp only [scalarUpdate?, shouldReplaceSocRuntimeValue, htext, hexpected, hcurrent, hvalue,
    if_pos hdecided]
  cases b <;> cases flag <;> decide

/-- A text that the SoC decides is updated unless it is the SoC's already. -/
theorem scalarUpdate_decided_iff {text current : String} (hdecided : field ∈ socDecidedFields)
    (hdefault : Dict.get defaults field = some (.str text)) (hstrip : strip text = text)
    (hne : text ≠ "") (hw : Dict.get w field = some (.str current)) :
    scalarUpdate? env service w defaults field = none ↔ strip current = text := by
  have htext : Dict.textAt w field = current := by
    rw [Dict.textAt, Dict.getD, hw]
    rfl
  have hexpected : Dict.textAt defaults field = text := by
    rw [Dict.textAt, Dict.getD, hdefault]
    rfl
  constructor
  · intro h
    by_contra hdiffer
    have hvalue : Dict.getD defaults field (.str "") = .str text := by
      rw [Dict.getD, hdefault]
      rfl
    have hcurrent : valueAt w field = .str current := by
      rw [valueAt, Dict.getD, hw]
      rfl
    have hneq : current ≠ text := by
      intro hsame
      rw [hsame] at hdiffer
      exact hdiffer hstrip
    have hreplace : strip current ≠ "" →
        shouldReplaceSocRuntimeValue env service w defaults field = true := by
      intro hnonempty
      simp [shouldReplaceSocRuntimeValue, htext, hexpected, hstrip, hne, hdiffer, hnonempty,
        hdecided]
    simp only [scalarUpdate?, hvalue, hcurrent, htext] at h
    rw [if_neg (by simp [Json.truthy, hne]), if_neg fun hkept => by simp [hreplace hkept.1] at hkept,
      if_neg (by simp [Json.eqPy, hneq])] at h
    cases h
  · intro h
    refine scalarUpdate_of_same ?_ ?_
    · rw [htext, h]
      exact hne
    · rw [htext, hexpected, h, hstrip]

/-- A list is read back as it was written. -/
theorem listAt_reloaded {texts : List String} (hfield : field ∈ listParameterFields)
    (h : Dict.get w' field = some (loadedField field (some (textList texts)))) :
    listAt w' field = listedOf texts := by
  rw [listAt, Dict.getD, h, loadedField_list hfield, Option.getD_some, toStrList_textList]
  change listedOf _ = _
  have htwice : ((texts.map strip).filter (· ≠ "")).map strip = (texts.map strip).filter (· ≠ "") := by
    refine (List.map_congr_left fun text hmem => ?_).trans (List.map_id' _)
    obtain ⟨text', -, rfl⟩ := List.mem_map.mp (List.mem_filter.mp hmem).1
    exact strip_idem text'
  rw [listedOf_eq, listedOf_eq, htwice, List.filter_filter]
  simp

/-- A list of flags settles. -/
theorem flagsUpdate_again (hfield : field ∈ listParameterFields)
    (hd : Dict.get defaults field = Dict.get defaults' field)
    (hreload : Dict.get w' field =
      reloadedField w field (flagsUpdate? env service w defaults field)) :
    flagsUpdate? env service w' defaults' field = none := by
  cases hupdate : flagsUpdate? env service w defaults field with
  | none =>
    rw [hupdate] at hreload
    rw [flagsUpdate_congr hreload hd.symm]
    exact hupdate
  | some value =>
    have hvalue : value = textList (listAt defaults field) := by
      simp only [flagsUpdate?] at hupdate
      split at hupdate
      · split at hupdate
        · cases hupdate
        · exact (Option.some.inj hupdate).symm
      · cases hupdate
    rw [hupdate, hvalue, reloadedField] at hreload
    have hread : listAt w' field = listAt defaults' field := by
      rw [listAt_reloaded hfield hreload, listAt_congr hd, listedOf_of_listed (listed_listAt _ _)]
    simp only [flagsUpdate?, hread]
    split
    · rfl
    · rfl

end

/-! ## 6. The whole repair, twice -/

/-- The workspace with the difftest flag that the options turn on. -/
def withOfferedDifftest (offered : Dict) (w : Workspace) : Workspace :=
  if (valueAt offered "soc_supports_difftest").truthy then
    Dict.set w "soc_supports_difftest" (.bool true)
  else w

/-- The condition on a workspace to which a SoC offers its options. -/
structure SettlesWith (env : Env) (service : Service) (w : Workspace) (offered : Dict) : Prop where
  top : strip (Dict.textAt w "top_module") = strip (Dict.textAt offered "top_module")
  sources : SourcesSettle (replacesList env service "sim_cpp_sources")
    (listAt w "sim_cpp_sources")
    (listAt (withCpuRuntimeOptions w offered) "sim_cpp_sources")
    (listAt (withCpuRuntimeOptions (withOfferedDifftest offered w) offered) "sim_cpp_sources")
    (supportsDifftest w) (supportsDifftest (withOfferedDifftest offered w))

/-- No CPU workspace, no SoC that offers options, or options that settle. -/
def Settles (env : Env) (service : Service) (w : Workspace) : Prop :=
  normalizeFrontendDesignKind (valueAt w "frontend_design_kind") = some .CPU_CORE →
    ∀ offered, offeredOptions env service w = .ok offered → offered ≠ [] →
      SettlesWith env service w offered

section

variable {env : Env} {service : Service} {w w' : Workspace} {offered : Dict}

/-- Whether difftest is supported depends on four fields. -/
theorem supportsDifftest_congr
    (hcpu : ∀ field ∈ ["cpu_wrapper_id", "frontend_core_id", "cpu_supports_difftest"],
      Dict.get w field = Dict.get w' field)
    (hsoc : Dict.get w "soc_supports_difftest" = Dict.get w' "soc_supports_difftest") :
    supportsDifftest w = supportsDifftest w' := by
  have hvalue : ∀ field, Dict.get w field = Dict.get w' field → valueAt w field = valueAt w' field := by
    intro field h
    rw [valueAt, valueAt, Dict.getD, Dict.getD, h]
  have hcore : coreIdOf w = coreIdOf w' := by
    simp only [coreIdOf, firstTruthyText, List.map_cons, List.map_nil,
      hvalue _ (hcpu "cpu_wrapper_id" (by simp)), hvalue _ (hcpu "frontend_core_id" (by simp))]
  have hcpu' := hvalue _ (hcpu "cpu_supports_difftest" (by simp))
  rw [supportsDifftest, supportsDifftest, cpuSupportsDifftest, cpuSupportsDifftest,
    socSupportsDifftest, socSupportsDifftest, hcore, hcpu', hvalue _ hsoc]

/-- A list is replaced by another one. -/
theorem replacesList_ne {field : String} {current expected : List String}
    (h : replacesList env service field current expected = true) :
    current ≠ [] ∧ expected ≠ [] ∧ current ≠ expected := by
  rw [replacesList] at h
  split at h
  · cases h
  · rename_i hnot
    rw [not_or, not_or] at hnot
    exact hnot

theorem adaptedSources_eq (defaults : Dict) :
    adaptedSources env service w defaults =
      adaptedFor (supportsDifftest w) (baseSources (replacesList env service "sim_cpp_sources")
        (listAt w "sim_cpp_sources") (listAt defaults "sim_cpp_sources")) := by
  rw [adaptedSources, baseSources]
  split
  · rename_i h
    rw [shouldReplaceSocRuntimeList] at h
    rw [if_pos h]
    rfl
  · rename_i h
    rw [shouldReplaceSocRuntimeList] at h
    rw [if_neg h]
    rfl

/-- A parameter field of the reloaded workspace. -/
theorem get_reloaded_field {updates : Dict} (h : ReloadsAs w w' updates) {field : String}
    {update : Option Json} (hupdate : Dict.get updates field = update)
    (hfield : field ∈ parameterFields) : Dict.get w' field = reloadedField w field update := by
  rw [h field, hupdate]
  cases update with
  | none => rfl
  | some value => exact if_pos hfield

/-- The difftest flag of the reloaded workspace. -/
theorem get_difftest_reloaded {b flag : Bool}
    (hb : Dict.get offered "soc_supports_difftest" = some (.bool b))
    (hflag : Dict.get w "soc_supports_difftest" = some (.bool flag))
    (h : ReloadsAs w w' (defaultUpdates env service w (withCpuRuntimeOptions w offered))) :
    Dict.get w' "soc_supports_difftest" = some (.bool (b || flag)) := by
  have hdefault : Dict.get (withCpuRuntimeOptions w offered) "soc_supports_difftest" =
      some (.bool b) := by
    rw [get_withCpuRuntimeOptions (by decide), hb]
  have hmem : "soc_supports_difftest" ∈ updatedFields := by decide
  have hloadTrue : loadedField "soc_supports_difftest" (some (.bool true)) = .bool true := by decide
  have hreload := get_reloaded_field h (get_defaultUpdates hmem) (by decide)
  rw [fieldUpdate?, if_pos (by decide), scalarUpdate_flag hdefault hflag] at hreload
  rw [hreload]
  cases b with
  | false => exact hflag
  | true =>
    cases flag with
    | false => exact congrArg some hloadTrue
    | true => exact hflag

theorem supportsDifftest_reloaded (hw : IsLoaded w) {wrapperId : String}
    (hoffers : Offers wrapperId offered)
    (h : ReloadsAs w w' (defaultUpdates env service w (withCpuRuntimeOptions w offered))) :
    supportsDifftest w' = supportsDifftest (withOfferedDifftest offered w) := by
  obtain ⟨b, hb⟩ := hoffers.difftest
  obtain ⟨flag, hflag⟩ := hw.difftest
  have hoffered : (valueAt offered "soc_supports_difftest").truthy = b := by
    rw [valueAt, Dict.getD, hb]
    rfl
  have hset : ∀ field ≠ "soc_supports_difftest",
      Dict.get (withOfferedDifftest offered w) field = Dict.get w field := by
    intro field hne
    rw [withOfferedDifftest]
    split
    · exact Dict.get_set_ne _ _ (Ne.symm hne)
    · rfl
  refine supportsDifftest_congr (fun field hmem => ?_) ?_
  · have hnot : field ∉ updatedFields ∧ field ≠ "soc_supports_difftest" := by
      revert field
      decide
    rw [hset field hnot.2, h field, get_defaultUpdates_of_not_mem hnot.1]
  · rw [get_difftest_reloaded hb hflag h, withOfferedDifftest, hoffered]
    cases b with
    | false => simpa using hflag.symm
    | true => simp

theorem scalarFields_cases : ∀ field ∈ scalarFields, field = "soc_supports_difftest" ∨
    field = "top_module" ∨ field ∈ textOptionFields ∧ field ∈ strParameterFields := by
  decide

theorem flagFields_listed : ∀ field ∈ flagFields,
    field ∈ listParameterFields ∧ field ∈ parameterFields := by
  decide

/-- Every field but the top module and the sources settles. -/
theorem fieldUpdate_again (hw : IsLoaded w) {wrapperId : String} (hoffers : Offers wrapperId offered)
    (h : ReloadsAs w w' (defaultUpdates env service w (withCpuRuntimeOptions w offered)))
    {field : String} (hfield : field ∈ updatedFields) (htop : field ≠ "top_module")
    (hsources : field ≠ "sim_cpp_sources") :
    fieldUpdate? env service w' (withCpuRuntimeOptions w' offered) field = none := by
  have hupdate : Dict.get (defaultUpdates env service w (withCpuRuntimeOptions w offered)) field =
      fieldUpdate? env service w (withCpuRuntimeOptions w offered) field := get_defaultUpdates hfield
  have hbefore : Dict.get (withCpuRuntimeOptions w offered) field = Dict.get offered field :=
    get_withCpuRuntimeOptions hsources
  have hafter : Dict.get (withCpuRuntimeOptions w' offered) field = Dict.get offered field :=
    get_withCpuRuntimeOptions hsources
  by_cases hscalar : field ∈ scalarFields
  · rw [fieldUpdate?, if_pos hscalar] at hupdate ⊢
    rcases scalarFields_cases field hscalar with rfl | hmem | hmem
    · obtain ⟨b, hb⟩ := hoffers.difftest
      obtain ⟨flag, hflag⟩ := hw.difftest
      rw [scalarUpdate_flag (hafter.trans hb) (get_difftest_reloaded hb hflag h)]
      cases b with
      | false => simp
      | true => simp
    · exact absurd hmem htop
    · obtain ⟨text, htext, hblank⟩ := hoffers.texts field hmem.1
      exact scalarUpdate_text_again hmem.2 (hbefore.trans htext) hblank (hbefore.trans hafter.symm)
        (get_reloaded_field h hupdate (fields_disjoint field hmem.2).2.2)
  · have hflags : field ∈ flagFields := by
      rw [updatedFields, List.mem_append, List.mem_append] at hfield
      rcases hfield with (hmem | hmem) | hmem
      · exact absurd hmem hscalar
      · exact hmem
      · exact absurd (List.mem_singleton.mp hmem) hsources
    obtain ⟨hlist, hparameter⟩ := flagFields_listed field hflags
    rw [fieldUpdate?, if_neg hscalar, if_pos hflags] at hupdate ⊢
    exact flagsUpdate_again hlist (hbefore.trans hafter.symm)
      (get_reloaded_field h hupdate hparameter)

/-- The top module is read under a key that the repair does not write. -/
theorem topUpdate_again_iff (hw : IsLoaded w) {wrapperId : String} (hoffers : Offers wrapperId offered)
    (h : ReloadsAs w w' (defaultUpdates env service w (withCpuRuntimeOptions w offered))) :
    fieldUpdate? env service w' (withCpuRuntimeOptions w' offered) "top_module" = none ↔
      strip (Dict.textAt w "top_module") = strip (Dict.textAt offered "top_module") := by
  obtain ⟨text, htext, hstrip, hne⟩ := hoffers.top
  obtain ⟨current, hcurrent⟩ := hw.top
  have hdefault : Dict.get (withCpuRuntimeOptions w' offered) "top_module" = some (.str text) := by
    rw [get_withCpuRuntimeOptions (by decide), htext]
  have hnot : "top_module" ∉ parameterFields := by decide
  have hkept : Dict.get w' "top_module" = some (.str current) := by
    rw [h "top_module", ← hcurrent]
    split
    · exact if_neg hnot
    · rfl
  have hread : Dict.textAt w "top_module" = current ∧ Dict.textAt offered "top_module" = text := by
    rw [Dict.textAt, Dict.getD, hcurrent, Dict.textAt, Dict.getD, htext]
    exact ⟨rfl, rfl⟩
  rw [fieldUpdate?, if_pos (by decide), scalarUpdate_decided_iff (by decide) hdefault hstrip hne hkept, hread.1,
    hread.2, hstrip]

/-- The sources that are loaded after the first repair. -/
theorem listAt_sources_reloaded
    (h : ReloadsAs w w' (defaultUpdates env service w (withCpuRuntimeOptions w offered))) :
    listAt w' "sim_cpp_sources" =
      listedOf (adaptedSources env service w (withCpuRuntimeOptions w offered)) := by
  have hmem : "sim_cpp_sources" ∈ updatedFields := by decide
  have hreload := get_reloaded_field h (get_defaultUpdates hmem) (by decide)
  rw [fieldUpdate?, if_neg (by decide), if_neg (by decide), sourcesUpdate?] at hreload
  split at hreload
  · exact listAt_reloaded (by decide) hreload
  · rename_i hkept
    rw [listAt_congr hreload]
    by_cases hnil : adaptedSources env service w (withCpuRuntimeOptions w offered) = []
    · -- nothing was adapted, so there was nothing to adapt
      rw [adaptedSources_eq] at hnil ⊢
      rw [hnil]
      by_contra hsources
      refine adaptedFor_ne_nil ?_ ?_ hnil
      · rw [baseSources]
        split
        · exact listed_listAt _ _
        · split
          · exact listed_listAt _ _
          · exact listed_listAt _ _
      · rw [baseSources]
        split
        · rename_i hdefault
          exact hdefault.1
        · have hnonempty : listAt w "sim_cpp_sources" ≠ [] := hsources
          rw [if_neg hnonempty]
          exact hnonempty
    · have hsame : adaptedSources env service w (withCpuRuntimeOptions w offered) =
          listAt w "sim_cpp_sources" := by
        by_contra hdiffer
        exact hkept ⟨hnil, hdiffer⟩
      rw [hsame, listedOf_of_listed (listed_listAt _ _)]

/-- What a second repair has left to do. -/
theorem defaultUpdates_again_iff (hw : IsLoaded w) {wrapperId : String}
    (hoffers : Offers wrapperId offered) (hne : offered ≠ [])
    (h : ReloadsAs w w' (defaultUpdates env service w (withCpuRuntimeOptions w offered))) :
    defaultUpdates env service w' (withCpuRuntimeOptions w' offered) = [] ↔
      SettlesWith env service w offered := by
  have hflag := supportsDifftest_reloaded hw hoffers h
  have hreloaded := listAt_sources_reloaded h
  rw [adaptedSources_eq] at hreloaded
  have hown : listAt (withCpuRuntimeOptions (withOfferedDifftest offered w) offered)
      "sim_cpp_sources" = listedOf (adaptedFor (supportsDifftest w')
        (listAt offered "sim_cpp_sources")) := by
    rw [listAt_withCpuRuntimeOptions hne, hflag]
  have hagain : adaptedSources env service w' (withCpuRuntimeOptions w' offered) =
      adaptedFor (supportsDifftest w') (baseSources (replacesList env service "sim_cpp_sources")
        (listAt w' "sim_cpp_sources") (listedOf (adaptedFor (supportsDifftest w')
          (listAt offered "sim_cpp_sources")))) := by
    rw [adaptedSources_eq, listAt_withCpuRuntimeOptions hne]
  have hsources : fieldUpdate? env service w' (withCpuRuntimeOptions w' offered) "sim_cpp_sources" =
      none ↔ SourcesSettle (replacesList env service "sim_cpp_sources")
        (listAt w "sim_cpp_sources")
        (listAt (withCpuRuntimeOptions w offered) "sim_cpp_sources")
        (listAt (withCpuRuntimeOptions (withOfferedDifftest offered w) offered) "sim_cpp_sources")
        (supportsDifftest w) (supportsDifftest (withOfferedDifftest offered w)) := by
    rw [hown, ← hflag, ← second_sources_iff (fun _ _ => replacesList_ne) (listed_listAt _ _)
      (listed_listAt _ _) (listAt_withCpuRuntimeOptions hne) hreloaded hagain, fieldUpdate?,
      if_neg (by decide), if_neg (by decide), sourcesUpdate?]
    simp only [ite_eq_right_iff, reduceCtorEq, imp_false, not_and, not_not]
    exact or_iff_not_imp_left.symm
  rw [defaultUpdates_eq_nil_iff]
  constructor
  · intro hall
    exact ⟨(topUpdate_again_iff hw hoffers h).mp (hall _ (by decide)),
      hsources.mp (hall _ (by decide))⟩
  · intro hsettles field hfield
    by_cases htop : field = "top_module"
    · rw [htop]
      exact (topUpdate_again_iff hw hoffers h).mpr hsettles.top
    by_cases hsource : field = "sim_cpp_sources"
    · rw [hsource]
      exact hsources.mpr hsettles.sources
    exact fieldUpdate_again hw hoffers h hfield htop hsource

end

/-- A dict is determined by its keys and its values. -/
theorem eq_map_keys : ∀ d : Dict, (Dict.keys d).Nodup →
    d = (Dict.keys d).map fun key => (key, (Dict.get d key).getD .null)
  | [], _ => rfl
  | (key, value) :: rest, h => by
      have hrest := eq_map_keys rest (List.nodup_cons.mp h).2
      have hkept : ∀ other ∈ Dict.keys rest,
          (other, (Dict.get rest other).getD .null) =
            (other, (Dict.get ((key, value) :: rest) other).getD .null) := by
        intro other hother
        have hne : key ≠ other := fun hsame => (List.nodup_cons.mp h).1 (hsame ▸ hother)
        rw [Dict.get_cons, if_neg hne]
      change (key, value) :: rest = (key, (Dict.get ((key, value) :: rest) key).getD .null) ::
        (Dict.keys rest).map _
      rw [← List.map_congr_left hkept, ← hrest, Dict.get_cons, if_pos rfl]
      rfl

section

variable {env env' : Env} {service : Service} {projectDir : AbsPath} {s : Session} {offered : Dict}

/-- A workspace without updates is loaded as it was. -/
theorem workspaceOf_unchanged (hloaded : Loaded env projectDir s)
    (hsaved : Rewritten env env' (parametersPath projectDir) s.parameters) :
    workspaceOf env' projectDir s.parameters = s.workspace := by
  have hreload : ReloadsAs s.workspace (workspaceOf env' projectDir (Dict.update s.parameters [])) [] :=
    reloadsAs_updates hloaded List.nodup_nil (fun _ _ => rfl) hsaved
  have hkeys : Dict.keys (workspaceOf env' projectDir s.parameters) = Dict.keys s.workspace := by
    rw [hloaded.workspace]
    exact keys_workspaceOf env' projectDir s.parameters env projectDir s.parameters
  have hnodup := nodup_keys_workspaceOf env' projectDir s.parameters
  have hsame : ∀ key, Dict.get (workspaceOf env' projectDir s.parameters) key =
      Dict.get s.workspace key := fun key => hreload key
  calc workspaceOf env' projectDir s.parameters
      = (Dict.keys s.workspace).map fun key =>
          (key, (Dict.get (workspaceOf env' projectDir s.parameters) key).getD .null) := by
        rw [← hkeys]
        exact eq_map_keys _ hnodup
    _ = (Dict.keys s.workspace).map fun key => (key, (Dict.get s.workspace key).getD .null) :=
        List.map_congr_left fun key _ => by rw [hsame key]
    _ = s.workspace := (eq_map_keys _ (hkeys ▸ hnodup)).symm

/-- A SoC is looked for only where parameters.json exists. -/
theorem exists_of_shouldApply (hloaded : Loaded env projectDir s)
    (happly : shouldApplySocRuntimeOptions s.workspace = true) :
    env.fs.exists? (parametersPath projectDir) = true := by
  obtain ⟨field, hfield, htext⟩ := List.any_eq_true.mp happly
  have hnonblank : strip (Dict.textAt s.workspace field) ≠ "" := by simpa using htext
  by_cases hstr : field ∈ strParameterFields
  · refine exists_of_readJson hloaded.read field fun hempty => hnonblank ?_
    have hread : Dict.get s.workspace field = some (.str (strip (Dict.textAt s.parameters field))) := by
      rw [hloaded.workspace, get_workspaceOf, if_pos (fields_disjoint field hstr).2.2,
        loadedField_text hstr]
      rfl
    rw [Dict.textAt, Dict.getD, hread, hempty]
    decide
  · have hharness : field = "soc_harness_id" := by
      have hcases : ∀ field ∈ ["cpu_filelist", "soc_filelist", "sim_soc_root", "soc_variant",
          "soc_harness_id", "soc_wrapper_id"], field ∉ strParameterFields →
            field = "soc_harness_id" := by decide
      exact hcases field hfield hstr
    rw [hharness, Dict.textAt, Dict.getD, hloaded.workspace, get_workspaceOf,
      if_neg (by decide)] at hnonblank
    exact absurd rfl hnonblank

/-- The repair of a workspace that gets no options. -/
theorem simDefaultUpdates_of_no_offer
    (hkind : (normalizeFrontendDesignKind (valueAt s.workspace "frontend_design_kind")).isSome = true)
    (h : normalizeFrontendDesignKind (valueAt s.workspace "frontend_design_kind") =
      some .CPU_CORE → offeredOptions env service s.workspace = .ok []) :
    simDefaultUpdates env service s.workspace = .ok [] := by
  unfold simDefaultUpdates
  cases hnormal : normalizeFrontendDesignKind (valueAt s.workspace "frontend_design_kind") with
  | none =>
    rw [hnormal] at hkind
    cases hkind
  | some kind =>
    cases kind with
    | GENERIC_RTL => rfl
    | CPU_CORE =>
      rw [defaultSocRuntimeOptions_eq, h hnormal]
      rfl

/-- For a CPU core with an offer the updates are those of the offered options. -/
theorem simDefaultUpdates_of_offer {w : Workspace}
    (hkind : normalizeFrontendDesignKind (valueAt w "frontend_design_kind") = some .CPU_CORE)
    (h : offeredOptions env service w = .ok offered) (hne : offered ≠ []) :
    simDefaultUpdates env service w =
      .ok (defaultUpdates env service w (withCpuRuntimeOptions w offered)) := by
  unfold simDefaultUpdates
  rw [hkind, defaultSocRuntimeOptions_eq, h]
  simp only [Except.map]
  rw [if_neg (withCpuRuntimeOptions_ne_nil hne)]

/-- The reloaded workspace names the wrapper whose options were written. -/
theorem wrapperId_reloaded {w w' : Workspace} (hw : IsLoaded w) {wrapperId : String}
    (hstrip : strip wrapperId = wrapperId) (hnonempty : wrapperId ≠ "")
    (hoffers : Offers wrapperId offered)
    (h : ReloadsAs w w' (defaultUpdates env service w (withCpuRuntimeOptions w offered))) :
    strip (Dict.textAt w' "soc_wrapper_id") = wrapperId := by
  have hmem : "soc_wrapper_id" ∈ updatedFields := by decide
  have hstr : "soc_wrapper_id" ∈ strParameterFields := by decide
  have hdefault : Dict.get (withCpuRuntimeOptions w offered) "soc_wrapper_id" =
      some (.str wrapperId) := by
    rw [get_withCpuRuntimeOptions (by decide), hoffers.id]
  obtain ⟨current, hcurrent, -⟩ := hw.texts _ hstr
  have hreload := get_reloaded_field h (get_defaultUpdates hmem) (by decide)
  rw [fieldUpdate?, if_pos (by decide)] at hreload
  cases hupdate : scalarUpdate? env service w (withCpuRuntimeOptions w offered) "soc_wrapper_id" with
  | none =>
    rw [hupdate, reloadedField, hcurrent] at hreload
    rw [Dict.textAt, Dict.getD, hreload]
    exact (scalarUpdate_decided_iff (by decide) hdefault hstrip hnonempty hcurrent).mp hupdate
  | some value =>
    obtain ⟨hvalue, -⟩ := scalarUpdate_value hupdate
    rw [Dict.getD, hdefault] at hvalue
    rw [hupdate, ← hvalue, reloadedField, loadedField_text hstr] at hreload
    rw [Dict.textAt, Dict.getD, hreload]
    change strip (strip wrapperId) = wrapperId
    rw [hstrip, hstrip]

/-- What a repair needs to find nothing to write. -/
theorem no_offer_of_updates {updates : Dict}
    (hupdates : simDefaultUpdates env service s.workspace = .ok updates)
    (hnone : ∀ offered, normalizeFrontendDesignKind (valueAt s.workspace "frontend_design_kind") =
      some .CPU_CORE → offeredOptions env service s.workspace = .ok offered → offered = []) :
    (normalizeFrontendDesignKind (valueAt s.workspace "frontend_design_kind")).isSome = true ∧
      (normalizeFrontendDesignKind (valueAt s.workspace "frontend_design_kind") = some .CPU_CORE →
        offeredOptions env service s.workspace = .ok []) := by
  constructor
  · cases hnormal : normalizeFrontendDesignKind (valueAt s.workspace "frontend_design_kind") with
    | none =>
      unfold simDefaultUpdates at hupdates
      rw [hnormal] at hupdates
      cases hupdates
    | some kind => rfl
  · intro hcpu
    cases hoffered : offeredOptions env service s.workspace with
    | error e =>
      unfold simDefaultUpdates at hupdates
      rw [hcpu, defaultSocRuntimeOptions_eq, hoffered] at hupdates
      cases hupdates
    | ok offered => rw [hnone offered hcpu hoffered]

/-- A repair without an offer finds nothing to write, and a second one neither. -/
theorem simDefaultUpdates_again_of_no_offer (hloaded : Loaded env projectDir s)
    (hsaved : Rewritten env env' (parametersPath projectDir) s.parameters)
    (hfirst : simDefaultUpdates env service s.workspace = .ok [])
    (hkind : (normalizeFrontendDesignKind
      (valueAt s.workspace "frontend_design_kind")).isSome = true) :
    simDefaultUpdates env' service s.workspace = .ok [] := by
  by_cases happly : shouldApplySocRuntimeOptions s.workspace = true
  · rw [simDefaultUpdates_rewritten hsaved (exists_of_shouldApply hloaded happly)]
    exact hfirst
  · refine simDefaultUpdates_of_no_offer hkind fun _ => ?_
    rw [offeredOptions, if_pos (by simpa using happly)]

/-- A repair writes its updates over the parameters. -/
theorem parameters_repaired (hloaded : Loaded env projectDir s) (updates : Dict) :
    (updateWorkspaceParameters s updates).parameters = Dict.update s.parameters updates := by
  delta updateWorkspaceParameters
  dsimp only
  rw [if_neg (parametersPath_ne hloaded)]

/-- What a call does with its updates. -/
theorem repair_of_updates {workspace : Workspace} {updates : Dict}
    (h : simDefaultUpdates env service workspace = .ok updates) (parameters : Dict) :
    ∃ result, repairWorkspaceSimDefaults env service ⟨workspace, parameters⟩ = .ok result ∧
      (result.changed = false ∧ result.written = none ↔ updates = []) := by
  rw [repairWorkspaceSimDefaults, h]
  refine ⟨_, rfl, ?_⟩
  simp only
  by_cases hnil : updates = []
  · rw [if_pos hnil]
    simp [hnil]
  · rw [if_neg hnil]
    simp [hnil]

end

/-! ## 7. After a reload -/

section

variable {env env' : Env} {service : Service} {directory : String} {loaded : Workspace}
  {parameters : Dict} {first : Repaired}

theorem parameters_of_repair (hloaded : Loaded env (env.host.resolveText directory) ⟨loaded, parameters⟩)
    {updates : Dict} (hupdates : simDefaultUpdates env service loaded = .ok updates)
    (hfirst : repairWorkspaceSimDefaults env service ⟨loaded, parameters⟩ = .ok first) :
    first.session.parameters = Dict.update parameters updates := by
  obtain ⟨updates', hupdates', hresult⟩ := map_eq_ok.mp hfirst
  obtain rfl := Except.ok.inj (hupdates.symm.trans hupdates')
  rw [← hresult]
  split
  · rename_i hnil
    rw [hnil]
    rfl
  · exact parameters_repaired hloaded updates

/-- The second repair of a workspace to which a SoC offers its options. -/
theorem repair_again_of_offer {offered : Dict}
    (hload : loadWorkspace env directory = .ok (some loaded))
    (hread : readJson env (parametersPath (env.host.resolveText directory)) = .ok parameters)
    (hfirst : repairWorkspaceSimDefaults env service ⟨loaded, parameters⟩ = .ok first)
    (hsaved : Rewritten env env' (parametersPath (env.host.resolveText directory))
      first.session.parameters)
    (hcpu : normalizeFrontendDesignKind (valueAt loaded "frontend_design_kind") = some .CPU_CORE)
    (hoffered : offeredOptions env service loaded = .ok offered) (hne : offered ≠ []) :
    ∃ reloaded second, loadWorkspace env' directory = .ok (some reloaded) ∧
      repairWorkspaceSimDefaults env' service ⟨reloaded, first.session.parameters⟩ = .ok second ∧
        (second.changed = false ∧ second.written = none ↔
          SettlesWith env service loaded offered) := by
  have hloaded := loaded_of_loadWorkspace hload hread
  have hreload := loadWorkspace_saved hload hsaved.toSaved
  have hkinds : "frontend_design_kind" ∉ updatedFields := by decide
  obtain ⟨wrapperId, hnormal, hoffers, hnamed⟩ := offeredBy_of_offeredOptions hoffered hne
  have happly : shouldApplySocRuntimeOptions loaded = true := by
    by_contra hnot
    rw [offeredOptions, if_pos (by simpa using hnot)] at hoffered
    exact hne (Except.ok.inj hoffered).symm
  rw [parameters_of_repair hloaded (simDefaultUpdates_of_offer hcpu hoffered hne) hfirst]
    at hsaved hreload ⊢
  have hagain := reloadsAs_updates hloaded nodup_keys_defaultUpdates
    (fun field hfield => get_defaultUpdates_of_not_mem hfield) hsaved
  obtain ⟨reloaded, hw'⟩ : ∃ w', workspaceOf env' (env.host.resolveText directory)
      (Dict.update parameters
        (defaultUpdates env service loaded (withCpuRuntimeOptions loaded offered))) = w' := ⟨_, rfl⟩
  rw [hw'] at hagain hreload
  have hw : IsLoaded loaded := by
    have hworkspace : loaded = workspaceOf env (env.host.resolveText directory) parameters :=
      hloaded.workspace
    rw [hworkspace]
    exact isLoaded_workspaceOf _ _ _
  have hcpu' : normalizeFrontendDesignKind (valueAt reloaded "frontend_design_kind") =
      some .CPU_CORE := by
    rw [valueAt, Dict.getD, hagain "frontend_design_kind", get_defaultUpdates_of_not_mem hkinds]
    exact hcpu
  have hsecond := simDefaultUpdates_of_offer hcpu'
    (hnamed _ (wrapperId_reloaded hw hnormal.2.1 hnormal.2.2 hoffers hagain)) hne
  rw [← simDefaultUpdates_rewritten hsaved (exists_of_shouldApply hloaded happly)] at hsecond
  obtain ⟨second, hrun, hiff⟩ := repair_of_updates hsecond (Dict.update parameters
    (defaultUpdates env service loaded (withCpuRuntimeOptions loaded offered)))
  refine ⟨reloaded, second, hreload, hrun, ?_⟩
  rw [hiff, defaultUpdates_again_iff hw hoffers hne hagain]

/-- Once a repair has run and its parameters were saved, a second one on the reloaded
workspace runs too, and it reports no change and writes nothing exactly if the workspace
settles. -/
theorem repair_reload_iff (hload : loadWorkspace env directory = .ok (some loaded))
    (hread : readJson env (parametersPath (env.host.resolveText directory)) = .ok parameters)
    (hfirst : repairWorkspaceSimDefaults env service ⟨loaded, parameters⟩ = .ok first)
    (hsaved : Rewritten env env' (parametersPath (env.host.resolveText directory))
      first.session.parameters) :
    ∃ reloaded second, loadWorkspace env' directory = .ok (some reloaded) ∧
      repairWorkspaceSimDefaults env' service ⟨reloaded, first.session.parameters⟩ = .ok second ∧
        (second.changed = false ∧ second.written = none ↔ Settles env service loaded) := by
  by_cases hoffer : ∃ offered, normalizeFrontendDesignKind (valueAt loaded "frontend_design_kind") =
      some .CPU_CORE ∧ offeredOptions env service loaded = .ok offered ∧ offered ≠ []
  · obtain ⟨offered, hcpu, hoffered, hne⟩ := hoffer
    obtain ⟨reloaded, second, hreload, hrun, hiff⟩ :=
      repair_again_of_offer hload hread hfirst hsaved hcpu hoffered hne
    refine ⟨reloaded, second, hreload, hrun, hiff.trans ⟨fun hsettles _ offered' hoffered' _ => ?_,
      fun hsettles => hsettles hcpu offered hoffered hne⟩⟩
    obtain rfl := Except.ok.inj (hoffered.symm.trans hoffered')
    exact hsettles
  · have hnone : ∀ offered, normalizeFrontendDesignKind (valueAt loaded "frontend_design_kind") =
        some .CPU_CORE → offeredOptions env service loaded = .ok offered → offered = [] := by
      intro offered hcpu hoffered
      by_contra hne
      exact hoffer ⟨offered, hcpu, hoffered, hne⟩
    have hloaded := loaded_of_loadWorkspace hload hread
    have hreload := loadWorkspace_saved hload hsaved.toSaved
    obtain ⟨updates, hupdates, -⟩ := map_eq_ok.mp hfirst
    obtain ⟨hkind, hcpuOffer⟩ := no_offer_of_updates hupdates hnone
    have hnothing := simDefaultUpdates_of_no_offer hkind hcpuOffer
    rw [parameters_of_repair hloaded hnothing hfirst] at hsaved hreload ⊢
    have hagain := simDefaultUpdates_again_of_no_offer hloaded hsaved hnothing hkind
    have hsame := workspaceOf_unchanged hloaded hsaved
    obtain ⟨second, hrun, hiff⟩ := repair_of_updates hagain parameters
    refine ⟨loaded, second, hreload.trans (congrArg (fun w => Except.ok (some w)) hsame), hrun,
      hiff.trans ⟨fun _ hcpu offered hoffered hne => ?_, fun _ => rfl⟩⟩
    exact absurd (hnone offered hcpu hoffered) hne

end

/-! A project at `/p` whose CPU filelist calls for the SoC older than manifests. -/

def socParameters (top : String) : Dict :=
  [("Top module", .str top), ("cpu_filelist", .str "cpu.f")]

def socEnv (top : String) : Env :=
  { Env.ofNodes [(["p"], .directory), (["p", "home"], .directory),
      (["p", "home", "parameters.json"], .file (jsonBytes (socParameters top)) 0),
      (["opt", "ecc-fe", "fecompiler", "thirdparty", "SoC"], .directory)] with
    jsonLoad := fun bytes =>
      if bytes = jsonBytes (socParameters top) then some (.obj (socParameters top)) else none }

/-- The project with other parameters written. -/
def savedSocEnv (top : String) (parameters : Dict) : Env :=
  { (socEnv top).write ["p", "home", "parameters.json"] (jsonBytes parameters) with
    jsonLoad := fun bytes =>
      if bytes = jsonBytes parameters then some (.obj parameters) else (socEnv top).jsonLoad bytes }

def socService : Service where
  installed :=
    { manifests := []
      formatFlag := fun flag root =>
        some (if flag = "-I{soc_root}" then "-I" ++ PurePath.absText root else flag) }
  compilerRootVar := ""
  sourceRoot := ["opt", "ecc-fe"]

theorem resolve_socEnv (top : String) : (socEnv top).host.resolveText "/p" = ["p"] := by
  have hsame : (socEnv top).host.resolveText "/p" = (socEnv "").host.resolveText "/p" := rfl
  rw [hsame]
  decide

theorem exists_socEnv (top : String) : (socEnv top).fs.exists? ["p"] = true ∧
    (socEnv top).fs.exists? (parametersPath ["p"]) = true := by
  constructor
  · rfl
  · rfl

theorem socEnv_read (top : String) :
    readJson (socEnv top) (parametersPath ["p"]) = .ok (socParameters top) := by
  have hbytes : (socEnv top).fs.readBytes (parametersPath ["p"]) =
      some (jsonBytes (socParameters top)) := rfl
  rw [readJson, if_neg (by simp [(exists_socEnv top).2]), hbytes]
  simp [socEnv]

theorem socEnv_load (top : String) : loadWorkspace (socEnv top) "/p" =
    .ok (some (workspaceOf (socEnv top) ["p"] (socParameters top))) := by
  simp only [loadWorkspace, resolve_socEnv, socEnv_read]
  rw [if_neg (by simp [(exists_socEnv top).1])]
  rfl

theorem savedSocEnv_rewritten (top : String) (parameters : Dict) :
    Rewritten (socEnv top) (savedSocEnv top parameters) (parametersPath ["p"]) parameters where
  read := by
    have hbytes : (savedSocEnv top parameters).fs.readBytes (parametersPath ["p"]) =
        some (jsonBytes parameters) := by
      have hreal : FileSystem.normalize (parametersPath ["p"]) = ["p", "home", "parameters.json"] := by
        decide
      rw [savedSocEnv, Env.fs, Env.write]
      rw [FileSystem.readBytes_write_eq _ _ hreal]
      rfl
    rw [readJson, if_neg (by simp [FileSystem.exists_of_readBytes hbytes]), hbytes]
    simp [savedSocEnv]
  realpath := rfl
  home := rfl
  cwd := rfl
  listDir := fun _ _ => rfl
  kept := fun q h => by
    rw [savedSocEnv, Env.fs, Env.write]
    rwa [FileSystem.exists_write]
  fresh := fun q h => by
    rw [savedSocEnv, Env.fs, Env.write] at h
    rw [FileSystem.exists_write] at h
    exact .inl h
  repoRoot := rfl

/-- The options of the SoC in the project. -/
def socOptions : Dict :=
  [("soc_wrapper_id", .str "ysyx-am-soc"), ("soc_wrapper_contract", .str "ecos-sim-wrapper-v1"),
    ("soc_variant", .str "soc1"), ("top_module", .str "ecos_sim_top"),
    ("sim_soc_root", .str "/opt/ecc-fe/fecompiler/thirdparty/SoC"),
    ("soc_filelist", .str "/opt/ecc-fe/fecompiler/thirdparty/SoC/filelist.soc.f"),
    ("testbench", .str "/opt/ecc-fe/fecompiler/thirdparty/SoC/driver/main.cpp"),
    ("sim_cpp_sources", textList ["/opt/ecc-fe/fecompiler/thirdparty/SoC/driver/dpi_mem.cpp",
      "/opt/ecc-fe/fecompiler/thirdparty/SoC/driver/difftest.cpp"]),
    ("sim_cflags", textList ["-I/opt/ecc-fe/fecompiler/thirdparty/SoC"]),
    ("sim_ldflags", textList ["-ldl"]),
    ("sim_programs_dir", .str "/opt/ecc-fe/fecompiler/thirdparty/SoC/tests/programs"),
    ("sim_tests_dir", .str "/opt/ecc-fe/fecompiler/thirdparty/SoC/tests/out"),
    ("sim_build_test_script", .str "/opt/ecc-fe/fecompiler/thirdparty/SoC/scripts/build_test.sh"),
    ("soc_supports_difftest", .bool true)]

theorem socEnv_offers (top : String) (htop : top = "top" ∨ top = "ecos_sim_top") :
    let w := workspaceOf (socEnv top) ["p"] (socParameters top)
    normalizeFrontendDesignKind (valueAt w "frontend_design_kind") = some .CPU_CORE ∧
      offeredOptions (socEnv top) socService w = .ok socOptions := by
  rcases htop with rfl | rfl
  · decide +kernel
  · decide +kernel

/-- The first repair of the project runs. -/
theorem socEnv_repair (top : String) (htop : top = "top" ∨ top = "ecos_sim_top") :
    ∃ first, repairWorkspaceSimDefaults (socEnv top) socService
      ⟨workspaceOf (socEnv top) ["p"] (socParameters top), socParameters top⟩ = .ok first := by
  obtain ⟨hcpu, hoffered⟩ := socEnv_offers top htop
  obtain ⟨first, hrun, -⟩ := repair_of_updates
    (simDefaultUpdates_of_offer hcpu hoffered (List.cons_ne_nil _ _)) (socParameters top)
  exact ⟨first, hrun⟩

theorem repair_reload_iff_project :
    ∃ first, repairWorkspaceSimDefaults (socEnv "ecos_sim_top") socService
        ⟨workspaceOf (socEnv "ecos_sim_top") ["p"] (socParameters "ecos_sim_top"),
          socParameters "ecos_sim_top"⟩ = .ok first ∧
      ∃ reloaded second,
        loadWorkspace (savedSocEnv "ecos_sim_top" first.session.parameters) "/p" =
          .ok (some reloaded) ∧
        repairWorkspaceSimDefaults (savedSocEnv "ecos_sim_top" first.session.parameters) socService
          ⟨reloaded, first.session.parameters⟩ = .ok second ∧
        (second.changed = false ∧ second.written = none ↔
          Settles (socEnv "ecos_sim_top") socService
            (workspaceOf (socEnv "ecos_sim_top") ["p"] (socParameters "ecos_sim_top"))) := by
  obtain ⟨first, hfirst⟩ := socEnv_repair "ecos_sim_top" (.inr rfl)
  have hresolve := resolve_socEnv "ecos_sim_top"
  exact ⟨first, hfirst, repair_reload_iff (socEnv_load _) (hresolve ▸ socEnv_read _) hfirst
    (hresolve ▸ savedSocEnv_rewritten _ _)⟩

/-- A project whose top module is not the SoC's is repaired on every load. -/
theorem repair_reload_changes :
    ¬∀ (env env' : Env) (service : Service) (directory : String) (loaded : Workspace)
      (parameters : Dict) (first : Repaired),
      loadWorkspace env directory = .ok (some loaded) →
      readJson env (parametersPath (env.host.resolveText directory)) = .ok parameters →
      repairWorkspaceSimDefaults env service ⟨loaded, parameters⟩ = .ok first →
      Rewritten env env' (parametersPath (env.host.resolveText directory))
        first.session.parameters →
      ∃ reloaded second, loadWorkspace env' directory = .ok (some reloaded) ∧
        repairWorkspaceSimDefaults env' service ⟨reloaded, first.session.parameters⟩ =
          .ok second ∧ second.changed = false ∧ second.written = none := by
  intro hall
  obtain ⟨first, hfirst⟩ := socEnv_repair "top" (.inl rfl)
  obtain ⟨hcpu, hoffered⟩ := socEnv_offers "top" (.inl rfl)
  have hresolve := resolve_socEnv "top"
  have hread : readJson (socEnv "top") (parametersPath ((socEnv "top").host.resolveText "/p")) =
      .ok (socParameters "top") := hresolve ▸ socEnv_read _
  have hload : loadWorkspace (socEnv "top") "/p" = .ok (some
      (workspaceOf (socEnv "top") ["p"] (socParameters "top"))) := socEnv_load _
  have hsaved : Rewritten (socEnv "top") (savedSocEnv "top" first.session.parameters)
      (parametersPath ((socEnv "top").host.resolveText "/p")) first.session.parameters :=
    hresolve ▸ savedSocEnv_rewritten _ _
  obtain ⟨reloaded, second, hreload, hrun, hunchanged⟩ :=
    hall _ _ socService "/p" _ _ first hload hread hfirst hsaved
  obtain ⟨reloaded', second', hreload', hrun', hiff⟩ := repair_again_of_offer hload hread hfirst
    hsaved hcpu hoffered (List.cons_ne_nil _ _)
  rw [hreload, Except.ok.injEq, Option.some.injEq] at hreload'
  rw [← hreload', hrun, Except.ok.injEq] at hrun'
  have hsettles := (hrun' ▸ hiff).mp hunchanged
  have htop : strip (Dict.textAt (workspaceOf (socEnv "top") ["p"] (socParameters "top"))
      "top_module") ≠ strip (Dict.textAt socOptions "top_module") := by decide +kernel
  exact htop hsettles.top

end EccFe.Application
