/-
EccFe.Application.SimSuites — the simulation suites of
`fecompiler/application/workspace_service.py`.

Running the sim step first selects what it simulates: the default smoke suite,
CPU tests, or CoreMark with its compile options. Each selection is a dict of
parameters that `updateWorkspaceParameters` writes into parameters.json and into
the workspace dict in memory.
-/
import EccFe.Data.Workspace
import EccFe.Python.Number

namespace EccFe.Application

open Python Resources
open Data (textList)
open Tools.RtlInputs (Workspace distinctTexts)

/-! ## 1. Values -/

inductive SuiteError where
  /-- `WorkspaceCliError("run_step", "failed", message, data)`. -/
  | cli (message : String) (data : Dict)
  /-- The `OverflowError` of `int(float("inf"))`. -/
  | overflow
  deriving DecidableEq

/-- A value of the workspace dict, `None` when it has none. -/
def valueAt (workspace : Workspace) (field : String) : Json := Dict.getD workspace field .null

def normalizeStrList (value : Json) : List String :=
  let items := match value with
    | .arr items => items.map Json.pyStr
    | .str s => (splitlines s.toList).map String.ofList
    | v => if v.truthy then [v.pyStr] else []
  distinctTexts ((items.map strip).filter (· ≠ ""))

def normalizeBool : Json → Bool
  | .bool b => b
  | .str s => lower (strip s) ∈ ["1", "true", "yes", "on"]
  | v => v.truthy

def positiveInt (value : Json) (default : Int) : Except SuiteError Int :=
  match value.toIntCaught default with
  | .ok parsed => .ok (if 0 < parsed then parsed else default)
  | .error _ => .error .overflow

def optionalText : Json → String
  | .null => ""
  | v => strip v.pyStr

/-- `_first_text(workspace.get(field), default)`. -/
def textOrDefault (workspace : Workspace) (field default : String) : String :=
  let text := optionalText (valueAt workspace field)
  if text = "" then default else text

/-- `str(workspace.get(f1) or workspace.get(f2) or default)`. -/
def firstTruthyText (workspace : Workspace) (fields : List String) (default : String) : String :=
  (((fields.map (valueAt workspace)).find? Json.truthy).getD (.str default)).pyStr

/-- `_resolve_optional_path(value)`; `none` for the empty text. -/
def resolveOptionalPath (env : Env) (value : Json) : Option AbsPath :=
  let text := strip value.textOrEmpty
  if text = "" then none else some (env.host.resolveText text)

/-! ## 2. What a workspace supports -/

def coreIdOf (workspace : Workspace) : String :=
  strip (firstTruthyText workspace ["cpu_wrapper_id", "frontend_core_id"] "")

def normalizeWorkspaceSocId (text : String) : String :=
  if text ∈ ["SoC", "SoC2", "SoC3", "soc1", "soc2", "soc3", "ysyx-am-soc-alt",
    "ysyx-am-soc-extended"] then "ysyx-am-soc" else text

def workspaceSocId (workspace : Workspace) : String :=
  normalizeWorkspaceSocId
    (strip (firstTruthyText workspace ["soc_wrapper_id", "soc_harness_id"] ""))

def difftestUnsupportedBuiltinCpuIds : List String :=
  ["picorv32", "scr1", "ibex", "cv32e40p", "cva6", "serv", "femtorv32", "vexriscv", "darkriscv"]

def cpuSupportsDifftest (workspace : Workspace) : Bool :=
  let raw := valueAt workspace "cpu_supports_difftest"
  if coreIdOf workspace ∈ difftestUnsupportedBuiltinCpuIds then false
  else if coreIdOf workspace ∈ ["custom-filelist", "standard-cpu-filelist"] then
    raw != .null && normalizeBool raw
  else raw == .null || normalizeBool raw

def socSupportsDifftest (workspace : Workspace) : Bool :=
  let raw := valueAt workspace "soc_supports_difftest"
  raw == .null || normalizeBool raw

def supportsDifftest (workspace : Workspace) : Bool :=
  cpuSupportsDifftest workspace && socSupportsDifftest workspace

def workspaceSocRoot (env : Env) (workspace : Workspace) : Option AbsPath :=
  match (resolveOptionalPath env (valueAt workspace "sim_soc_root")).filter env.fs.exists? with
  | some explicit => some explicit
  | none =>
      ((resolveOptionalPath env (valueAt workspace "soc_filelist")).filter env.fs.exists?).map
        AbsPath.parent

def fallbackCoreSupportedTestSuites (workspace : Workspace) : List String :=
  let coreId := coreIdOf workspace
  if coreId ∈ ["picorv32", "scr1", "ibex", "cv32e40p", "serv", "femtorv32", "vexriscv"] then
    ["cpu-tests", "smoke", "coremark"]
  else if coreId = "cva6" then ["cpu-tests", "smoke"]
  else if coreId ∈ ["custom-filelist", "", "standard-cpu-filelist"] then
    ["smoke", "cpu-tests", "coremark"]
  else []

def fallbackCoreTestSuiteContract (workspace : Workspace) : Bool × List String :=
  let coreId := coreIdOf workspace
  if coreId = "darkriscv" then (true, [])
  else
    (coreId ∈ ["picorv32", "scr1", "ibex", "cv32e40p", "cva6", "serv", "femtorv32", "vexriscv",
      "custom-filelist", "standard-cpu-filelist", ""], fallbackCoreSupportedTestSuites workspace)

def fallbackSocSupportedTestSuites (workspace : Workspace) : List String :=
  if workspaceSocId workspace = "ysyx-am-soc" then ["smoke", "cpu-tests", "coremark"] else []

def fallbackSocTestSuiteContract (workspace : Workspace) : Bool × List String :=
  (workspaceSocId workspace = "ysyx-am-soc", fallbackSocSupportedTestSuites workspace)

/-- The contract when neither side of the workspace settles it. -/
def fallbackTestSuiteContract (workspace : Workspace) : Bool × List String :=
  let (coreKnown, coreFallback) := fallbackCoreTestSuiteContract workspace
  let (socKnown, socFallback) := fallbackSocTestSuiteContract workspace
  if coreFallback ≠ [] ∧ socFallback ≠ [] then
    (true, coreFallback.filter (· ∈ socFallback))
  else if coreFallback ≠ [] then (coreKnown, coreFallback)
  else if socFallback ≠ [] then if coreKnown then (true, []) else (socKnown, socFallback)
  else (coreKnown || socKnown, [])

def workspaceTestSuiteContract (workspace : Workspace) : Bool × List String :=
  let coreSupported := normalizeStrList (valueAt workspace "core_supported_test_suites")
  let socSupported := normalizeStrList (valueAt workspace "soc_supported_test_suites")
  let hasCoreContract := Dict.has workspace "core_supported_test_suites"
  let hasSocContract := Dict.has workspace "soc_supported_test_suites"
  if coreSupported ≠ [] ∧ socSupported ≠ [] then
    (true, coreSupported.filter (· ∈ socSupported))
  else if hasCoreContract && coreSupported.isEmpty then (true, [])
  else if hasSocContract && socSupported.isEmpty then (true, [])
  else if (hasCoreContract || hasSocContract) && !coreSupported.isEmpty then
    let (socKnown, socFallback) := fallbackSocTestSuiteContract workspace
    (true, coreSupported.filter fun suite => !socKnown || suite ∈ socFallback)
  else if (hasCoreContract || hasSocContract) && !socSupported.isEmpty then
    let (coreKnown, coreFallback) := fallbackCoreTestSuiteContract workspace
    (true, socSupported.filter fun suite => !coreKnown || suite ∈ coreFallback)
  else fallbackTestSuiteContract workspace

def workspaceCoreLabel (workspace : Workspace) : String :=
  let coreId := strip (firstTruthyText workspace ["cpu_wrapper_id", "frontend_core_id"]
    "selected CPU")
  if coreId = "picorv32" then "PicoRV32" else if coreId = "" then "selected CPU" else coreId

def workspaceSocLabel (workspace : Workspace) : String :=
  let socId := if workspaceSocId workspace = "" then "selected SoC" else workspaceSocId workspace
  if startsWith socId.toList "ysyx-am-soc" then "YSYX AM SoC" else socId

def validateWorkspaceTestSuiteSupported (workspace : Workspace) (suiteId : String) :
    Except SuiteError Unit :=
  let (known, supported) := workspaceTestSuiteContract workspace
  if known ∧ suiteId ∉ supported then
    .error (.cli (workspaceCoreLabel workspace ++ " on " ++ workspaceSocLabel workspace ++
        " does not support " ++ suiteId ++ " in the current ECOS adapter.")
      [("core_id", .str (strip (Dict.textAt workspace "cpu_wrapper_id"))),
        ("soc_harness_id", .str (strip (Dict.textAt workspace "soc_wrapper_id"))),
        ("test_suite_id", .str suiteId), ("supported_test_suites", textList supported)])
  else .ok ()

/-! ## 3. Test programs -/

def smokeTestCases : List String := ["add"]

def coremarkCases : List String := ["coremark"]

/-- `path.stem` of a file name. -/
def stemOf (name : String) : String :=
  String.ofList (name.toList.take (name.toList.length - (PurePath.suffixOf name.toList).length))

/-- The C programs of a directory other than the benchmark. -/
def availableCases (env : Env) (programsDir : AbsPath) : List String :=
  let sources := ((env.listDir programsDir).filter fun name =>
    endsWith name.toList ".c").insertionSort (· ≤ ·)
  (sources.map stemOf).filter (· ∉ coremarkCases)

def fillCases (count : Nat) (selected available : List String) : List String :=
  available.foldl (fun selected name =>
    if count ≤ selected.length ∨ name ∈ selected then selected else selected ++ [name]) selected

def defaultCpuTestCases (env : Env) (workspace : Workspace) : List String :=
  match resolveOptionalPath env (valueAt workspace "sim_programs_dir") with
  | none => smokeTestCases
  | some programsDir =>
      if !env.fs.isDir programsDir then smokeTestCases
      else
        let available := availableCases env programsDir
        if available = [] then []
        else
          (fillCases smokeTestCases.length (smokeTestCases.filter (· ∈ available))
            available).take smokeTestCases.length

def isCaseChar (c : Char) : Bool :=
  ('a' ≤ c && c ≤ 'z') || ('A' ≤ c && c ≤ 'Z') || isDigit c || c == '_' || c == '-'

def isCaseName (name : String) : Bool := name ≠ "" && name.toList.all isCaseChar

def validateCpuTestCases (env : Env) (workspace : Workspace) (cases : List String) :
    Except SuiteError Unit :=
  let invalidNames := cases.filter fun name => !isCaseName name
  if invalidNames ≠ [] then
    .error (.cli ("invalid CPU test case name: " ++ ", ".intercalate invalidNames) [])
  else
    match resolveOptionalPath env (valueAt workspace "sim_programs_dir") with
    | none => .ok ()
    | some programsDir =>
        let missing := cases.filter fun name => !env.fs.isFile (programsDir ++ [name ++ ".c"])
        if missing ≠ [] then
          .error (.cli ("CPU test case not found: " ++ ", ".intercalate missing) [])
        else .ok ()

/-! ## 4. Run arguments -/

/-- The reference model the run arguments name, when difftest is on. -/
def referenceModel? (env : Env) (workspace : Workspace) : Option String :=
  if !supportsDifftest workspace then none
  else
    (workspaceSocRoot env workspace).map fun socRoot =>
      PurePath.absText (resolveDifftestReferenceModel env socRoot)

def difftestArgs : Option String → List String
  | none => []
  | some ref =>
      ["--diff", "--ref", ref, "--diff-image-offset", "0x100", "--diff-reset-vector", "0x80000000"]

def defaultCpuTestsRunArgs (env : Env) (workspace : Workspace) : List String :=
  ["--max-cycles", "50000000"] ++ difftestArgs (referenceModel? env workspace)

def defaultCoremarkMaxCycles : Int := 200000000

def defaultCoremarkRunArgs (env : Env) (workspace : Workspace) : Except SuiteError (List String) :=
  (positiveInt (valueAt workspace "sim_coremark_max_cycles") defaultCoremarkMaxCycles).map
    fun maxCycles =>
      ["--max-cycles", String.ofList (intText maxCycles)] ++
        if normalizeBool (Dict.getD workspace "sim_coremark_use_difftest" (.bool false)) then
          difftestArgs (referenceModel? env workspace)
        else []

/-! ## 5. The suites -/

/-- A workspace in memory and the content of its parameters.json. -/
structure Session where
  workspace : Workspace
  parameters : Dict

def updateWorkspaceParameters (s : Session) (updates : Dict) : Session where
  workspace := Dict.update s.workspace updates
  parameters :=
    if strip (Dict.textAt s.workspace "parameters_path") = "" then s.parameters
    else Dict.update s.parameters updates

/-- The selection all suites share. -/
def suiteSelection (buildAll : Bool) (names runArgs : List String) : Dict :=
  [("sim_all_tests", .bool false), ("sim_images", .arr []),
    ("sim_build_all_programs", .bool buildAll), ("sim_program_names", textList names),
    ("sim_run_args", textList runArgs)]

def defaultCoremarkCompileSettings (workspace : Workspace) : Except SuiteError Dict := do
  let iterations ← positiveInt (valueAt workspace "sim_coremark_iterations") 1
  let totalDataSize ← positiveInt (valueAt workspace "sim_coremark_total_data_size") 2000
  let maxCycles ← positiveInt (valueAt workspace "sim_coremark_max_cycles") defaultCoremarkMaxCycles
  return [("sim_compile_preset", .str (textOrDefault workspace "sim_compile_preset" "balanced")),
    ("sim_compile_opt_level", .str (textOrDefault workspace "sim_compile_opt_level" "-O2")),
    ("sim_compile_march", .str (textOrDefault workspace "sim_compile_march" "rv32im_zicsr")),
    ("sim_compile_mabi", .str (textOrDefault workspace "sim_compile_mabi" "ilp32")),
    ("sim_compile_extra_cflags",
      textList (normalizeStrList (valueAt workspace "sim_compile_extra_cflags"))),
    ("sim_coremark_iterations", .int iterations),
    ("sim_coremark_total_data_size", .int totalDataSize),
    ("sim_coremark_has_float",
      .bool (normalizeBool (Dict.getD workspace "sim_coremark_has_float" (.bool true)))),
    ("sim_coremark_max_cycles", .int maxCycles),
    ("sim_coremark_use_difftest",
      .bool (normalizeBool (Dict.getD workspace "sim_coremark_use_difftest" (.bool false))))]

/-- The options of a run-step request; an option that was not given is `null`. -/
abbrev RunOptions := Dict

/-- One text option over the settings. -/
def overrideText (options : RunOptions) (updates : Dict) (attr field : String) : Dict :=
  let value := strip (Dict.textOrEmptyAt options attr)
  if value = "" then updates else updates.set field (.str value)

/-- One number option over the settings. -/
def overrideInt (options : RunOptions) (updates : Dict) (field : String) (default : Int) :
    Except SuiteError Dict :=
  match Dict.getD options field .null with
  | .null => .ok updates
  | value => (positiveInt value default).map fun n => updates.set field (.int n)

/-- The updates of `_apply_coremark_compile_options(workspace, args)`. -/
def coremarkCompileUpdates (workspace : Workspace) (options : RunOptions) :
    Except SuiteError Dict := do
  let settings ← defaultCoremarkCompileSettings workspace
  let texts := ["sim_compile_preset", "sim_compile_opt_level", "sim_compile_march",
    "sim_compile_mabi"].foldl (fun updates field => overrideText options updates field field) settings
  let extra := normalizeStrList (Dict.getD options "sim_compile_extra_cflag" (.arr []))
  let flags := if extra = [] then texts else texts.set "sim_compile_extra_cflags" (textList extra)
  let iterations ← overrideInt options flags "sim_coremark_iterations" 1
  let dataSize ← overrideInt options iterations "sim_coremark_total_data_size" 2000
  let cycles ← overrideInt options dataSize "sim_coremark_max_cycles" defaultCoremarkMaxCycles
  let hasFloat := strip (Dict.textOrEmptyAt options "sim_coremark_has_float")
  return if hasFloat = "" then cycles
    else cycles.set "sim_coremark_has_float" (.bool (normalizeBool (.str hasFloat)))

def cpuTestsUpdates (env : Env) (workspace : Workspace) (cpuTestMode cpuTestCases : Json) :
    Except SuiteError Dict := do
  validateWorkspaceTestSuiteSupported workspace "cpu-tests"
  let mode := lower (strip (if cpuTestMode.truthy then cpuTestMode.pyStr else "selected"))
  let named := normalizeStrList cpuTestCases
  if mode ≠ "all" ∧ mode ≠ "selected" then
    .error (.cli ("unknown CPU Tests mode: " ++ mode) [])
  else
    let cases := if mode = "selected" ∧ named = [] then defaultCpuTestCases env workspace else named
    let benchmarkCases := cases.filter (· ∈ coremarkCases)
    if benchmarkCases ≠ [] then
      .error (.cli ("use CoreMark suite for benchmark case: " ++ ", ".intercalate benchmarkCases)
        [("test_suite_id", .str "coremark"), ("cases", textList benchmarkCases)])
    else
      if mode = "selected" then validateCpuTestCases env workspace cases
      return suiteSelection (mode = "all") (if mode = "all" then [] else cases)
        (defaultCpuTestsRunArgs env workspace)

/-- The updates of a CoreMark run. -/
def coremarkUpdates (env : Env) (workspace : Workspace) : Except SuiteError Dict := do
  validateWorkspaceTestSuiteSupported workspace "coremark"
  validateCpuTestCases env workspace coremarkCases
  let runArgs ← defaultCoremarkRunArgs env workspace
  let settings ← defaultCoremarkCompileSettings workspace
  return suiteSelection false coremarkCases runArgs ++ settings

def applySimTestSuite (env : Env) (s : Session) (suite : String) (cpuTestMode cpuTestCases : Json) :
    Except SuiteError Session :=
  let suiteName := strip suite
  if suiteName = "" ∨ suiteName = "default" then .ok s
  else if suiteName ∈ ["cpu_tests", "cpu-tests", "smoke"] then
    (cpuTestsUpdates env s.workspace cpuTestMode cpuTestCases).map (updateWorkspaceParameters s)
  else if suiteName = "coremark" then
    (coremarkUpdates env s.workspace).map (updateWorkspaceParameters s)
  else .error (.cli ("unknown frontend sim test suite: " ++ suiteName) [])

def applyDefaultSimSmokeSuite (env : Env) (s : Session) : Except SuiteError Session := do
  validateWorkspaceTestSuiteSupported s.workspace "cpu-tests"
  let cases := defaultCpuTestCases env s.workspace
  if cases = [] then return s
  else
    validateCpuTestCases env s.workspace cases
    return updateWorkspaceParameters s
      (suiteSelection false cases (defaultCpuTestsRunArgs env s.workspace))

/-- A request to run the sim step. -/
structure SimRequest where
  suite : String
  cpuTestMode : Json
  cpuTestCases : Json
  options : RunOptions

/-- The part of `_run_step` that selects the suite of the sim step. -/
def selectSimSuite (env : Env) (s : Session) (request : SimRequest) : Except SuiteError Session :=
  let suiteName := strip request.suite
  if suiteName ≠ "" ∧ lower suiteName ≠ "default" then do
    let compiled ←
      if lower suiteName = "coremark" then
        (coremarkCompileUpdates s.workspace request.options).map (updateWorkspaceParameters s)
      else .ok s
    applySimTestSuite env compiled suiteName request.cpuTestMode request.cpuTestCases
  else applyDefaultSimSmokeSuite env s

end EccFe.Application
