/-
EccFe.Soc.Registry — the SoC wrappers of `fecompiler/soc/registry.py`.

A wrapper describes how a SoC is simulated. It comes from an installed manifest,
or from the directory of the one SoC older than manifests, and offers its runtime
options when it is ready. The texts of a wrapper are stripped when it is built,
and `SocWrapper` says so.
-/
import EccFe.Data.Workspace
import EccFe.Python.Number

namespace EccFe.Soc

open Python
open Data (textList)

/-- What the registry finds besides files. -/
structure Installed where
  /-- The manifests `_manifest_paths` can read, in the order it comes to them. -/
  manifests : List (AbsPath × Json)
  /-- `flag.format(soc_root=root)`; `none` when it raises. -/
  formatFlag : String → AbsPath → Option String

/-- The error of a compiler flag that `str.format` refuses. -/
structure FlagError where
  flag : String
  deriving DecidableEq

/-! ## 1. Identifiers -/

def defaultSocWrapperId : String := "ysyx-am-soc"

def normalizeSocWrapperId (value : String) : String :=
  let text := strip value
  if text ∈ ["", "SoC", "SoC2", "SoC3", "soc1", "soc2", "soc3", "ysyx-am-soc-alt",
    "ysyx-am-soc-extended"] then defaultSocWrapperId
  else text

def wrapperIdFromConfig (data : Dict) : String :=
  let named := ["soc_wrapper_id", "soc_harness_id", "soc_id"].map fun field =>
    strip (data.textAt field)
  match named.find? (· ≠ "") with
  | some value => normalizeSocWrapperId value
  | none => normalizeSocWrapperId (strip (data.textAt "soc_variant"))

theorem normalizeSocWrapperId_cases (value : String) :
    normalizeSocWrapperId value = defaultSocWrapperId ∨
      normalizeSocWrapperId value = strip value ∧ strip value ≠ "" := by
  unfold normalizeSocWrapperId
  simp only
  split
  · exact .inl rfl
  · rename_i h
    exact .inr ⟨rfl, fun hempty => h (by simp [hempty])⟩

theorem strip_normalizeSocWrapperId (value : String) :
    strip (normalizeSocWrapperId value) = normalizeSocWrapperId value ∧
      normalizeSocWrapperId value ≠ "" := by
  rcases normalizeSocWrapperId_cases value with h | ⟨h, hne⟩
  · rw [h]
    decide
  · rw [h]
    exact ⟨strip_idem value, hne⟩

theorem normalizeSocWrapperId_idem (value : String) :
    normalizeSocWrapperId (normalizeSocWrapperId value) = normalizeSocWrapperId value := by
  unfold normalizeSocWrapperId
  simp only
  split
  · decide
  · rename_i h
    rw [strip_idem, if_neg h]

/-! ## 2. Wrappers -/

structure SocWrapper where
  id : String
  variant : String
  root : Option AbsPath
  topModule : String
  simReady : Bool
  contract : String
  socFilelist : String
  testbench : String
  simCppSources : List String
  simCflags : List String
  simLdflags : List String
  simProgramsDir : String
  simTestsDir : String
  simBuildTestScript : String
  supportsDifftest : Bool
  variant_stripped : strip variant = variant
  topModule_stripped : strip topModule = topModule ∧ topModule ≠ ""
  contract_stripped : strip contract = contract ∧ contract ≠ ""

def strList : Json → List String
  | .str s => if strip s = "" then [] else [s]
  | .arr items => (items.map fun item => strip item.pyStr).filter (· ≠ "")
  | _ => []

/-- `str(data.get(key, default)).strip() or default`. -/
def textOr (data : Dict) (key default : String) : String :=
  let text := strip (data.getD key (.str default)).pyStr
  if text = "" then default else text

theorem textOr_stripped (data : Dict) (key : String) {default : String}
    (h : strip default = default ∧ default ≠ "") :
    strip (textOr data key default) = textOr data key default ∧ textOr data key default ≠ "" := by
  unfold textOr
  simp only
  split
  · exact h
  · rename_i hne
    exact ⟨strip_idem _, hne⟩

section

variable (env : Env) (installed : Installed)

/-- `_wrapper_from_manifest(data)` for the manifest at `path`. -/
def wrapperFromManifest (path : AbsPath) (data : Dict) : SocWrapper :=
  let manifestPath := env.fs.realpath path
  let root := if manifestPath = [] then none else some manifestPath.parent
  { id := strip (data.textAt "id")
    variant := strip (data.textAt "variant")
    root := root
    topModule := textOr data "top_module" "ecos_sim_top"
    simReady := (data.getD "sim_ready" (.bool false)).truthy && root.any env.fs.exists?
    contract := textOr data "contract" "ecos-sim-wrapper-v1"
    socFilelist := textOr data "soc_filelist" "filelist.soc.f"
    testbench := textOr data "testbench" "driver/main.cpp"
    simCppSources := strList (data.getD "sim_cpp_sources"
      (textList ["driver/dpi_mem.cpp", "driver/difftest.cpp"]))
    simCflags := strList (data.getD "sim_cflags" (textList ["-I{soc_root}"]))
    simLdflags := strList (data.getD "sim_ldflags" (textList ["-ldl"]))
    simProgramsDir := textOr data "sim_programs_dir" "tests/programs"
    simTestsDir := textOr data "sim_tests_dir" "tests/out"
    simBuildTestScript := textOr data "sim_build_test_script" "scripts/build_test.sh"
    supportsDifftest := (data.getD "supports_difftest" (.bool true)).truthy
    variant_stripped := strip_idem _
    topModule_stripped := textOr_stripped data _ (by decide)
    contract_stripped := textOr_stripped data _ (by decide) }

def legacyWrapperFromDirectory (wrapperId : String) : Option SocWrapper :=
  let root := env.frontendRepoRoot ++ ["fecompiler", "thirdparty", "SoC"]
  if wrapperId ≠ "ysyx-am-soc" ∨ !env.fs.exists? root then none
  else some
    { id := wrapperId
      variant := "soc1"
      root := some root
      topModule := "ecos_sim_top"
      simReady := true
      contract := "ecos-sim-wrapper-v1"
      socFilelist := "filelist.soc.f"
      testbench := "driver/main.cpp"
      simCppSources := ["driver/dpi_mem.cpp", "driver/difftest.cpp"]
      simCflags := ["-I{soc_root}"]
      simLdflags := ["-ldl"]
      simProgramsDir := "tests/programs"
      simTestsDir := "tests/out"
      simBuildTestScript := "scripts/build_test.sh"
      supportsDifftest := true
      variant_stripped := by decide
      topModule_stripped := by decide
      contract_stripped := by decide }

/-- `_soc_manifest(wrapper_id)`: the last manifest with the identifier. -/
def socManifest (wrapperId : String) : Option (AbsPath × Dict) :=
  let listed := installed.manifests.filterMap fun
    | (path, .obj data) => if strip (Dict.textAt data "id") = "" then none else some (path, data)
    | _ => none
  listed.reverse.find? fun entry => strip (entry.2.textAt "id") == wrapperId

/-- The wrapper of an identifier, the second half of `get_soc_wrapper(config)`. -/
def wrapperOf (wrapperId : String) : Option SocWrapper :=
  match socManifest installed wrapperId with
  | some (path, data) => some (wrapperFromManifest env path data)
  | none => legacyWrapperFromDirectory env wrapperId

def getSocWrapper (config : Dict) : Option SocWrapper :=
  wrapperOf env installed (wrapperIdFromConfig config)

/-! ## 3. Runtime options -/

/-- `_manifest_path(root, value)`. -/
def manifestPathText (root : AbsPath) (value : String) : String :=
  let path := env.host.expanduser (.ofText value)
  PurePath.absText (env.host.resolve (PurePath.join ⟨true, root⟩ path))

def formatManifestCflag (root : AbsPath) (flag : String) : Except FlagError String :=
  match installed.formatFlag flag root with
  | none => .error ⟨flag⟩
  | some formatted =>
      let rest := String.ofList (formatted.toList.drop 2)
      let path := env.host.expanduser (.ofText rest)
      if startsWith formatted.toList "-I" ∧ rest ≠ "" ∧ path.absolute = true then
        .ok ("-I" ++ PurePath.absText (env.host.resolve path))
      else .ok formatted

/-- The options of a wrapper whose root is `root`. -/
def optionsAt (wrapper : SocWrapper) (root : AbsPath) (cflags : List String) : Dict :=
  [("soc_wrapper_id", .str wrapper.id), ("soc_wrapper_contract", .str wrapper.contract),
    ("soc_variant", .str wrapper.variant), ("top_module", .str wrapper.topModule),
    ("sim_soc_root", .str (PurePath.absText root)),
    ("soc_filelist", .str (manifestPathText env root wrapper.socFilelist)),
    ("testbench", .str (manifestPathText env root wrapper.testbench)),
    ("sim_cpp_sources", textList (wrapper.simCppSources.map (manifestPathText env root))),
    ("sim_cflags", textList cflags), ("sim_ldflags", textList wrapper.simLdflags),
    ("sim_programs_dir", .str (manifestPathText env root wrapper.simProgramsDir)),
    ("sim_tests_dir", .str (manifestPathText env root wrapper.simTestsDir)),
    ("sim_build_test_script", .str (manifestPathText env root wrapper.simBuildTestScript)),
    ("soc_supports_difftest", .bool wrapper.supportsDifftest)]

def runtimeOptions (wrapper : SocWrapper) : Except FlagError Dict :=
  match wrapper.simReady, wrapper.root with
  | true, some unresolved =>
      let root := env.fs.realpath unresolved
      (wrapper.simCflags.mapM (formatManifestCflag env installed root)).map
        (optionsAt env wrapper root)
  | _, _ => .ok []

def socRuntimeOptions (config : Dict) : Except FlagError Dict :=
  match getSocWrapper env installed config with
  | some wrapper => runtimeOptions env installed wrapper
  | none => .ok []

end

/-! ## 4. What the options hold -/

def textOptionFields : List String :=
  ["soc_variant", "soc_wrapper_id", "soc_wrapper_contract", "top_module", "sim_soc_root",
    "soc_filelist", "testbench", "sim_build_test_script", "sim_programs_dir", "sim_tests_dir"]

/-- Runtime options of the SoC `wrapperId`. -/
structure Offers (wrapperId : String) (options : Dict) : Prop where
  id : options.get "soc_wrapper_id" = some (.str wrapperId)
  top : ∃ text, options.get "top_module" = some (.str text) ∧ strip text = text ∧ text ≠ ""
  texts : ∀ field ∈ textOptionFields,
    ∃ text, options.get field = some (.str text) ∧ (text ≠ "" → strip text ≠ "")
  difftest : ∃ b, options.get "soc_supports_difftest" = some (.bool b)

theorem strip_absText_ne (p : AbsPath) : strip (PurePath.absText p) ≠ "" :=
  strip_ne_empty (c := '/') (by simp [PurePath.absText]) (by decide)

section

variable {env : Env} {installed : Installed}

theorem offers_optionsAt {wrapper : SocWrapper} (hid : strip wrapper.id = wrapper.id)
    (root : AbsPath) (cflags : List String) :
    Offers wrapper.id (optionsAt env wrapper root cflags) := by
  refine ⟨rfl, ⟨_, rfl, wrapper.topModule_stripped⟩, fun field hfield => ?_, ⟨_, rfl⟩⟩
  have hkept : ∀ {text : String}, strip text = text → text ≠ "" → strip text ≠ "" := by
    intro text hstrip hnonempty
    rwa [hstrip]
  simp only [textOptionFields, List.mem_cons, List.not_mem_nil, or_false] at hfield
  rcases hfield with rfl | rfl | rfl | rfl | rfl | rfl | rfl | rfl | rfl | rfl
  · exact ⟨_, rfl, hkept wrapper.variant_stripped⟩
  · exact ⟨_, rfl, hkept hid⟩
  · exact ⟨_, rfl, hkept wrapper.contract_stripped.1⟩
  · exact ⟨_, rfl, hkept wrapper.topModule_stripped.1⟩
  all_goals exact ⟨_, rfl, fun _ => strip_absText_ne _⟩

theorem offers_of_runtimeOptions {wrapper : SocWrapper} {options : Dict}
    (hid : strip wrapper.id = wrapper.id) (h : runtimeOptions env installed wrapper = .ok options)
    (hne : options ≠ []) : Offers wrapper.id options := by
  rw [runtimeOptions] at h
  split at h
  · obtain ⟨cflags, -, rfl⟩ := map_eq_ok.mp h
    exact offers_optionsAt hid _ cflags
  · obtain rfl := Except.ok.inj h
    exact absurd rfl hne

/-- A wrapper has the identifier it is looked up under. -/
theorem id_of_wrapperOf {wrapperId : String} {wrapper : SocWrapper}
    (h : wrapperOf env installed wrapperId = some wrapper) : wrapper.id = wrapperId := by
  rw [wrapperOf] at h
  split at h
  · rename_i path data hmanifest
    obtain rfl := Option.some.inj h
    rw [socManifest] at hmanifest
    have hfound := List.find?_some hmanifest
    exact eq_of_beq hfound
  · rw [legacyWrapperFromDirectory] at h
    split at h
    · cases h
    · obtain rfl := Option.some.inj h
      rfl

/-- The identifier of a configuration is normal. -/
theorem wrapperIdFromConfig_normal (data : Dict) :
    normalizeSocWrapperId (wrapperIdFromConfig data) = wrapperIdFromConfig data ∧
      strip (wrapperIdFromConfig data) = wrapperIdFromConfig data ∧
        wrapperIdFromConfig data ≠ "" := by
  have hnormal : ∃ value, wrapperIdFromConfig data = normalizeSocWrapperId value := by
    unfold wrapperIdFromConfig
    simp only
    split
    · exact ⟨_, rfl⟩
    · exact ⟨_, rfl⟩
  obtain ⟨value, hvalue⟩ := hnormal
  rw [hvalue]
  exact ⟨normalizeSocWrapperId_idem value, strip_normalizeSocWrapperId value⟩

theorem offers_of_socRuntimeOptions {config options : Dict}
    (h : socRuntimeOptions env installed config = .ok options) (hne : options ≠ []) :
    Offers (wrapperIdFromConfig config) options := by
  rw [socRuntimeOptions] at h
  split at h
  · rename_i wrapper hwrapper
    have hid := id_of_wrapperOf hwrapper
    rw [← hid]
    refine offers_of_runtimeOptions ?_ h hne
    rw [hid]
    exact (wrapperIdFromConfig_normal config).2.1
  · obtain rfl := Except.ok.inj h
    exact absurd rfl hne

/-- The options depend on the identifier alone. -/
theorem socRuntimeOptions_congr {config config' : Dict}
    (h : wrapperIdFromConfig config = wrapperIdFromConfig config') :
    socRuntimeOptions env installed config = socRuntimeOptions env installed config' := by
  rw [socRuntimeOptions, socRuntimeOptions, getSocWrapper, getSocWrapper, h]

end

end EccFe.Soc
