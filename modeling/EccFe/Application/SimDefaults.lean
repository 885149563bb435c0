/-
EccFe.Application.SimDefaults — `_repair_workspace_sim_defaults` of
`fecompiler/application/workspace_service.py`.

Each load of a CPU workspace is followed by a repair: what the selected SoC
offers as runtime options is written over the workspace fields that are empty,
that the SoC always decides, or that point into another built-in SoC.
`fieldUpdate?` is the decision for one field, `simDefaultUpdates` the dict of all
of them, and `repairWorkspaceSimDefaults` the call with what it writes.
-/
import EccFe.Application.DifftestSources
import EccFe.Python.Equality
import EccFe.Soc.Registry
import EccFe.Tools.RtlOwnership

namespace EccFe.Application

open Python Soc
open Data (textList)
open Tools.RtlInputs
open Tools.RtlOwnership (normalizeFrontendDesignKind)

/-! ## 1. Built-in paths -/

/-- What the service knows of the program it belongs to. -/
structure Service where
  installed : Installed
  /-- `ECOS_FE_COMPILER_ROOT`. -/
  compilerRootVar : String
  /-- `Path(__file__).resolve().parents[2]`. -/
  sourceRoot : AbsPath

section

variable (env : Env) (service : Service)

def builtinSocRuntimeRoots : List AbsPath :=
  let envRoot := strip service.compilerRootVar
  let named := if envRoot = "" then [] else [env.host.resolveText envRoot]
  (named ++ [service.sourceRoot]).map fun root => root ++ ["fecompiler", "thirdparty"]

def stripCflagPath (value : String) : String :=
  let text := strip value
  if startsWith text.toList "-I" ∧ 2 < text.toList.length then String.ofList (text.toList.drop 2)
  else text

def pathIsRelativeTo (path root : AbsPath) : Bool := (env.fs.realpath root).isPrefixOf path

def isBuiltinSocRuntimePath (value : String) : Bool :=
  let text := stripCflagPath value
  text ≠ "" && (builtinSocRuntimeRoots env service).any
    (pathIsRelativeTo env (env.host.resolveText text))

def listUsesBuiltinSocRuntimePath (values : List String) : Bool :=
  values.any fun value => isBuiltinSocRuntimePath env service (stripCflagPath value)

/-! ## 2. Defaults -/

inductive RepairError where
  /-- `ValueError("unsupported frontend design kind: ...")`. -/
  | unsupportedDesignKind
  | flag (error : FlagError)
  deriving DecidableEq

def shouldApplySocRuntimeOptions (data : Workspace) : Bool :=
  ["cpu_filelist", "soc_filelist", "sim_soc_root", "soc_variant", "soc_harness_id",
    "soc_wrapper_id"].any fun field => strip (Dict.textAt data field) ≠ ""

/-- The directory that a field of `_explicit_soc_root` names. -/
def explicitRootAt (data : Workspace) (field : String) : Option AbsPath :=
  let value := strip (Dict.textAt data field)
  if value = "" then none
  else
    let path := env.host.resolveText value
    some (if field = "soc_filelist" then path.parent else path)

def explicitSocRoot (data : Workspace) : Option AbsPath :=
  (["sim_soc_root", "soc_filelist"].filterMap (explicitRootAt env data)).find? env.fs.exists?

def withCpuRuntimeOptions (data : Workspace) (defaults : Dict) : Dict :=
  if defaults = [] then []
  else
    defaults.set "sim_cpp_sources" (textList (adaptSimCppSourcesForCpu data
      (normalizeStrList (defaults.getD "sim_cpp_sources" (.arr [])))))

/-- The configuration that names the one SoC older than wrapper identifiers. -/
def inferredConfig (data : Workspace) (root : AbsPath) : Dict :=
  (Dict.set data "sim_soc_root" (.str (PurePath.absText root))).set "soc_harness_id"
    (.str "ysyx-am-soc")

def defaultSocRuntimeOptions (data : Workspace) : Except FlagError Dict :=
  if !shouldApplySocRuntimeOptions data then .ok []
  else do
    let defaults ← socRuntimeOptions env service.installed data
    if defaults ≠ [] then return withCpuRuntimeOptions data defaults
    match explicitSocRoot env data with
    | none => return []
    | some root =>
        let inferred ← socRuntimeOptions env service.installed (inferredConfig data root)
        return withCpuRuntimeOptions data inferred

/-! ## 3. What is replaced -/

/-- The fields that the SoC decides. -/
def socDecidedFields : List String :=
  ["soc_wrapper_id", "soc_wrapper_contract", "soc_variant", "top_module", "soc_supports_difftest"]

def shouldReplaceSocRuntimeValue (data : Workspace) (defaults : Dict) (field : String) : Bool :=
  let current := strip (Dict.textAt data field)
  let expected := strip (defaults.textAt field)
  if current = "" ∨ expected = "" ∨ current = expected then false
  else if field ∈ socDecidedFields then true
  else isBuiltinSocRuntimePath env service current && isBuiltinSocRuntimePath env service expected

/-- The test of `_should_replace_soc_runtime_list`, on the two lists. -/
def replacesList (field : String) (current expected : List String) : Bool :=
  if current = [] ∨ expected = [] ∨ current = expected then false
  else if field ∈ ["sim_cflags", "sim_ldflags"] then
    listUsesBuiltinSocRuntimePath env service current &&
      listUsesBuiltinSocRuntimePath env service expected
  else
    current.all (isBuiltinSocRuntimePath env service) &&
      expected.all (isBuiltinSocRuntimePath env service)

/-- `_normalize_str_list(data.get(field, []))`. -/
def listAt (data : Dict) (field : String) : List String :=
  normalizeStrList (data.getD field (.arr []))

def shouldReplaceSocRuntimeList (data : Workspace) (defaults : Dict) (field : String) : Bool :=
  replacesList env service field (listAt data field) (listAt defaults field)

/-! ## 4. The repair -/

def scalarFields : List String :=
  ["soc_variant", "soc_wrapper_id", "soc_wrapper_contract", "top_module", "sim_soc_root",
    "soc_filelist", "testbench", "sim_build_test_script", "sim_programs_dir", "sim_tests_dir",
    "soc_supports_difftest"]

def flagFields : List String := ["sim_cflags", "sim_ldflags"]

def scalarUpdate? (workspace : Workspace) (defaults : Dict) (field : String) : Option Json :=
  let value := defaults.getD field (.str "")
  if !value.truthy then none
  else if strip (Dict.textAt workspace field) ≠ "" ∧
      !shouldReplaceSocRuntimeValue env service workspace defaults field then none
  else if (valueAt workspace field).eqPy value then none
  else some value

def flagsUpdate? (workspace : Workspace) (defaults : Dict) (field : String) : Option Json :=
  let values := listAt defaults field
  if values ≠ [] ∧ (listAt workspace field = [] ∨
      shouldReplaceSocRuntimeList env service workspace defaults field) then
    if listAt workspace field = values then none else some (textList values)
  else none

/-- The C++ sources that the repair arrives at. -/
def adaptedSources (workspace : Workspace) (defaults : Dict) : List String :=
  let existing := listAt workspace "sim_cpp_sources"
  let default := listAt defaults "sim_cpp_sources"
  if default ≠ [] ∧ shouldReplaceSocRuntimeList env service workspace defaults "sim_cpp_sources" then
    adaptSimCppSourcesForCpu workspace default
  else adaptSimCppSourcesForCpu workspace (if existing = [] then default else existing)

def sourcesUpdate? (workspace : Workspace) (defaults : Dict) : Option Json :=
  let adapted := adaptedSources env service workspace defaults
  if adapted ≠ [] ∧ adapted ≠ listAt workspace "sim_cpp_sources" then some (textList adapted)
  else none

def updatedFields : List String := scalarFields ++ flagFields ++ ["sim_cpp_sources"]

/-- What the repair writes into one field, if anything. -/
def fieldUpdate? (workspace : Workspace) (defaults : Dict) (field : String) : Option Json :=
  if field ∈ scalarFields then scalarUpdate? env service workspace defaults field
  else if field ∈ flagFields then flagsUpdate? env service workspace defaults field
  else sourcesUpdate? env service workspace defaults

/-- The `updates` of a workspace whose defaults are `defaults`. -/
def defaultUpdates (workspace : Workspace) (defaults : Dict) : Dict :=
  updatedFields.filterMap fun field =>
    (fieldUpdate? env service workspace defaults field).map fun value => (field, value)

def simDefaultUpdates (workspace : Workspace) : Except RepairError Dict :=
  match normalizeFrontendDesignKind (valueAt workspace "frontend_design_kind") with
  | none => .error .unsupportedDesignKind
  | some .GENERIC_RTL => .ok []
  | some .CPU_CORE =>
      match defaultSocRuntimeOptions env service workspace with
      | .error e => .error (.flag e)
      | .ok defaults =>
          .ok (if defaults = [] then [] else defaultUpdates env service workspace defaults)

/-- What a call leaves: its answer, the session, and the dict it wrote to parameters.json. -/
structure Repaired where
  changed : Bool
  session : Session
  written : Option Dict

def repairWorkspaceSimDefaults (s : Session) : Except RepairError Repaired :=
  (simDefaultUpdates env service s.workspace).map fun updates =>
    if updates = [] then ⟨false, s, none⟩
    else
      let repaired := updateWorkspaceParameters s updates
      let blank := strip (Dict.textAt s.workspace "parameters_path") = ""
      ⟨true, repaired, if blank then none else some repaired.parameters⟩

end

end EccFe.Application
