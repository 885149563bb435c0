/-
EccFe.Tools.Prepare.Runner — `PrepareStep.run` of `fecompiler/tools/prepare/runner.py`.

The step collects the RTL inputs from one of three places, checks the top, writes the
merged filelist, and leaves its path behind as the workspace's own input.
-/
import EccFe.Tools.RtlOwnership
import EccFe.Tools.Prepare.CpuTop
import EccFe.Tools.Prepare.Generated

namespace EccFe.Tools.Prepare

open Python Search RtlInputs RtlOwnership Engine

/-! ## 1. Failures and results -/

inductive PrepareFailure where
  /-- `_parse_sv_filelist` raises. -/
  | filelist (e : ExpandError PrepareError)
  /-- A path does not resolve, or the design kind is unsupported. -/
  | path (e : OwnershipError)
  | noRtlInputs
  | cpuTop (failure : CpuTopFailure)
  | designTopInvalid (module : String)
  | designTopCount (module : String) (matching : List AbsPath)

/-- What one place of inputs contributes. -/
structure InputGroup where
  label : String
  rtl : List (AbsPath × String)
  incdirs : List AbsPath
  defines : List String
  /-- The filelists that were read for it. -/
  opened : List AbsPath

structure RtlSource where
  path : AbsPath
  ownership : String
  source : String

structure Collected where
  rtlFiles : List AbsPath
  rtlSources : List RtlSource
  incdirs : List AbsPath
  defines : List String
  opened : List AbsPath

inductive TopContract where
  | cpuTop (contract : CpuTopContract)
  | designTop (module : String) (source : AbsPath)

/-- The fields of `prepared_inputs.json`. -/
structure Prepared where
  rtlFiles : List AbsPath
  rtlSources : List RtlSource
  ownership : List (String × Nat)
  incdirs : List AbsPath
  defines : List String
  sourceFingerprint : Dict
  topContract : TopContract

/-- A run that succeeds. -/
structure PrepareRun where
  prepared : Prepared
  /-- The collected defines, before the step adds its own. -/
  collectedDefines : List String
  opened : List AbsPath
  mergedLines : List (List Char)
  workspace : Workspace

section

variable (env : Env) (homeless : String → Bool) (workspace : Workspace)

/-! ## 2. Collecting the inputs -/

/-- `str(workspace.get(field, "")).strip()`. -/
def fieldText (field : String) : String := strip (workspace.textAt field)

/-- `text and Path(text).exists()`. -/
def textExists (text : String) : Bool :=
  text ≠ "" && !text.toList.contains '\x00' && env.fs.exists? (env.host.resolve (.ofText text))

/-- The filelists to read, with their labels. -/
def filelistInputs : List (String × String) :=
  let cpu := fieldText workspace "cpu_filelist"
  let soc := fieldText workspace "soc_filelist"
  let filelist := fieldText workspace "input_filelist"
  if cpu ≠ "" ∨ soc ≠ "" then
    [("cpu_filelist", cpu), ("soc_filelist", soc)].filter (·.2 ≠ "")
  else if textExists env filelist then [("input_filelist", filelist)]
  else []

/-- `classify_rtl_source(path, label, workspace)`, with the path. -/
def classified (label : String) (path : AbsPath) : Except PrepareFailure (AbsPath × String) :=
  match classifyRtlSource env homeless (PurePath.absText path) label workspace with
  | .ok owner => .ok (path, owner)
  | .error e => .error (.path e)

def addFilelist (label text : String) : Except PrepareFailure InputGroup := do
  let root ← (resolvePath env homeless text).mapError .path
  let (entries, opened) ← (parseSvFilelist env root).mapError .filelist
  let rtl ← (rtlFilesOf entries).mapM (classified env homeless workspace label)
  return ⟨label, rtl, incdirsOf entries, definesOf entries, opened⟩

/-- The one source of the last fallback. -/
def originGroups : Except PrepareFailure (List InputGroup) := do
  let origin := fieldText workspace "origin_verilog"
  if !textExists env origin then return []
  let rtl ← classified env homeless workspace "origin_verilog" (env.host.resolve (.ofText origin))
  return [⟨"origin_verilog", [rtl], [], [], []⟩]

def inputGroups : Except PrepareFailure (List InputGroup) :=
  match filelistInputs env workspace with
  | [] => originGroups env homeless workspace
  | inputs => inputs.mapM fun (label, text) => addFilelist env homeless workspace label text

/-- The record of a source: the first group that has it names its owner. The owner of a source
that no group has is computed in any case. -/
def rtlSource (groups : List InputGroup) (path : AbsPath) : Except PrepareFailure RtlSource := do
  let fallback ← classified env homeless workspace "" path
  let known := groups.findSome? fun group =>
    (group.rtl.lookup path).map fun owner => RtlSource.mk path owner group.label
  return known.getD ⟨path, fallback.2, "unknown"⟩

def collectInputs : Except PrepareFailure Collected := do
  let groups ← inputGroups env homeless workspace
  let merged := firstSeen ((groups.flatMap (·.rtl)).map (·.1))
  if merged = [] then throw .noRtlInputs
  let sources ← merged.mapM (rtlSource env homeless workspace groups)
  return {
    rtlFiles := merged
    rtlSources := sources
    incdirs := firstSeen (groups.flatMap (·.incdirs))
    defines := firstSeen (groups.flatMap (·.defines))
    opened := groups.flatMap (·.opened) }

def ownershipSummary (sources : List RtlSource) : List (String × Nat) :=
  (rtlOwnerships.map fun owner => (owner, sources.countP (·.ownership == owner))).filter (·.2 ≠ 0)

/-! ## 3. The top -/

def validateGenericDesignTop (rtlFiles : List AbsPath) : Except PrepareFailure TopContract :=
  let topModule := fieldText workspace "top_module"
  if !SvModule.isSimpleSvIdentifier topModule then .error (.designTopInvalid topModule)
  else
    match SvModule.moduleDefinitions env rtlFiles topModule with
    | [source] => .ok (.designTop topModule source)
    | matching => .error (.designTopCount topModule matching)

def validateFrontendTop (kind : DesignKind) (rtlFiles : List AbsPath) :
    Except PrepareFailure TopContract :=
  match kind with
  | .GENERIC_RTL => validateGenericDesignTop env workspace rtlFiles
  | .CPU_CORE =>
      match validateFrontendCpuTop env workspace rtlFiles with
      | .ok contract => .ok (.cpuTop contract)
      | .error failure => .error (.cpuTop failure)

end

section

variable (workspace : Workspace)

/-- The core id of a custom filelist, with a required top. -/
def requiresCustomDefine : Bool :=
  let coreId := (["frontend_core_id", "cpu_wrapper_id"].map fun field =>
    workspace.getD field .null).find? Json.truthy
  strip ((coreId.getD (.str "")).pyStr) == "custom-filelist" &&
    fieldText workspace "required_cpu_top_module" ≠ ""

/-- The collected defines that stay next to `ECOS_CUSTOM_CPU_TOP`. -/
def keptDefines (defines : List String) : List String :=
  (defines.map strip).filter fun define =>
    define ≠ "" && strip (String.ofList (define.toList.takeWhile (· != '='))) ≠ "ECOS_CUSTOM_CPU_TOP"

def injectCustomCpuTopDefine (defines : List String) : List String :=
  if requiresCustomDefine workspace then
    keptDefines defines ++
      ["ECOS_CUSTOM_CPU_TOP=" ++ fieldText workspace "required_cpu_top_module"]
  else defines

def manifestDefines (kind : DesignKind) (defines : List String) : List String :=
  match kind with
  | .GENERIC_RTL => defines
  | .CPU_CORE => injectCustomCpuTopDefine workspace defines

/-! ## 4. Writing -/

def mergedFilelistPath (outputDir : AbsPath) : AbsPath := outputDir ++ ["merged_rtl.f"]

def manifestPath (outputDir : AbsPath) : AbsPath := outputDir ++ ["prepared_inputs.json"]

/-- The lines of `merged_rtl.f`. -/
def mergedLines (rtlFiles : List AbsPath) : List (List Char) :=
  rtlFiles.map fun p => (PurePath.absText p).toList

/-- What `_persist_workspace_input_filelist` leaves in the workspace. -/
def persistWorkspaceInputFilelist (kind : DesignKind) (outputDir : AbsPath) : Workspace :=
  let merged := PurePath.absText (mergedFilelistPath outputDir)
  let named := (workspace.set "prepared_filelist" (.str merged)).set "prepared_manifest"
    (.str (PurePath.absText (manifestPath outputDir)))
  match kind with
  | .GENERIC_RTL => named
  | .CPU_CORE => named.set "input_filelist" (.str merged)

/-- What it leaves in `parameters.json`. -/
def persistParameters (kind : DesignKind) (outputDir : AbsPath) (params : Dict) : Dict :=
  let merged := PurePath.absText (mergedFilelistPath outputDir)
  let params := match kind with
    | .GENERIC_RTL => params
    | .CPU_CORE => params.set "input_filelist" (.str merged)
  let params := params.set "prepared_manifest" (.str (PurePath.absText (manifestPath outputDir)))
  ["cpu_filelist", "soc_filelist"].foldl (fun params field =>
    let text := fieldText workspace field
    if text = "" then params else params.set field (.str text)) params

end

/-- `PrepareStep.run(step, workspace)`. -/
def prepare (env : Env) (homeless : String → Bool) (outputDir : AbsPath) (workspace : Workspace) :
    Except PrepareFailure PrepareRun := do
  let collected ← collectInputs env homeless workspace
  let kind ← (designKind workspace).mapError .path
  let top ← validateFrontendTop env workspace kind collected.rtlFiles
  return {
    prepared := {
      rtlFiles := collected.rtlFiles
      rtlSources := collected.rtlSources
      ownership := ownershipSummary collected.rtlSources
      incdirs := collected.incdirs
      defines := manifestDefines workspace kind collected.defines
      sourceFingerprint := workspaceInputFingerprint env workspace
      topContract := top }
    collectedDefines := collected.defines
    opened := collected.opened
    mergedLines := mergedLines collected.rtlFiles
    workspace := persistWorkspaceInputFilelist workspace kind outputDir }

end EccFe.Tools.Prepare
