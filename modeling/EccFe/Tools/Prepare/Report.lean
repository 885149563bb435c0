/-
EccFe.Tools.Prepare.Report — the step report of `PrepareStep` of
`fecompiler/tools/prepare/runner.py`: the record of the top contract, `_build_readiness_facts`
and the report that a passing and a failing check write.

`Runner` computes what the step prepares; here are the dicts it writes down. The record of the
contract is built the way the checks build it, field by field, and the readiness facts read it back
with `get`, so that they hold of any record and not only of the ones the checks build.
`validateFrontendTop_record` ties the records to the checks of `Runner`.

`inputs`, `comparison_inputs` and the paths of the outputs are copied into the report unread and
are left out.
-/
import EccFe.Tools.Prepare.Runner

namespace EccFe.Tools.Prepare

open Python RtlInputs RtlOwnership Engine
open SvModule (Port PortDifferences PortMismatch moduleDefinitions modulePortContractFromFiles
  comparePortContracts)

/-! ## 1. The record of the top contract -/

/-- How the validation of the top ends: with a contract, with the failing contract it reports
before it raises, or with an error that leaves no report. -/
inductive TopOutcome where
  | passed (contract : Dict)
  | failed (contract : Dict)
  | raised

def pathsJson (paths : List AbsPath) : Json := .arr (paths.map fun p => .str (PurePath.absText p))

def portJson (port : Port) : Json :=
  .obj [("name", .str port.name), ("direction", .str port.direction), ("width", .int port.width)]

def mismatchJson (mismatch : PortMismatch) : Json :=
  .obj [("name", .str mismatch.name), ("expected", portJson mismatch.expected),
    ("actual", portJson mismatch.actual)]

def differencesJson (differences : PortDifferences) : Json :=
  .obj [("missing", .arr (differences.missing.map .str)),
    ("extra", .arr (differences.extra.map .str)),
    ("mismatches", .arr (differences.mismatches.map mismatchJson))]

def failCpuTopContract (message : String) (info : Dict) : Dict :=
  ((info.set "id" (.str "cpu_top")).set "status" (.str "failed")).set "detail" (.str message)

def failGenericTopContract (message : String) (info : Dict) : Dict :=
  (((info.set "id" (.str "design_top")).set "status" (.str "failed")).set "detail"
    (.str message)).set "interface_applicable" (.bool false)

/-- The `result` of `_validate_frontend_cpu_top` before the ports are compared. -/
def cpuTopResult (required : String) (source : Option AbsPath) (expected actual : List Port) : Dict :=
  [("id", .str "cpu_top"),
    ("status", .str (if expected = [] then "module_only" else "pass")),
    ("module", .str required),
    ("source", .str ((source.map PurePath.absText).getD "")),
    ("ports", .arr (actual.map portJson)),
    ("expected_ports", .int expected.length)]

section

variable (env : Env) (workspace : Workspace) (rtlFiles : List AbsPath)

/-- The comparison at the end of `_validate_frontend_cpu_top`. -/
def compareCpuTop (required : String) (matching : List AbsPath) (expected : List Port) :
    TopOutcome :=
  let (source, actual) := modulePortContractFromFiles env matching required
  let result := cpuTopResult required (source.or matching.head?) expected actual
  if expected = [] then .passed result
  else
    let differences := comparePortContracts expected actual
    let result := result.set "differences" (differencesJson differences)
    if differences.any then
      .failed (failCpuTopContract (CpuTopFailure.portMismatch required differences).message result)
    else .passed result

/-- `_validate_frontend_cpu_top(step, workspace, prepared)`, with the records it builds. -/
def cpuTopOutcome : TopOutcome :=
  if !requiresFrontendCpuTop workspace then
    .passed [("id", .str "cpu_top"), ("status", .str "not_required")]
  else
    let required := requiredTop workspace
    if !SvModule.isSimpleSvIdentifier required then
      .failed (failCpuTopContract (CpuTopFailure.invalidIdentifier required).message
        [("module", .str required)])
    else
      let matching := moduleDefinitions env rtlFiles required
      if matching.length ≠ 1 then
        .failed (failCpuTopContract (CpuTopFailure.moduleCount required matching).message
          [("module", .str required), ("count", .int matching.length), ("files", pathsJson matching)])
      else
        match expectedCpuTopContract workspace with
        | .error _ => .raised
        | .ok expected => compareCpuTop env required matching expected

/-- `_validate_generic_design_top(step, workspace, prepared)`, with the records it builds. -/
def designTopOutcome : TopOutcome :=
  let topModule := fieldText workspace "top_module"
  if !SvModule.isSimpleSvIdentifier topModule then
    .failed (failGenericTopContract
      ("frontend prepare requires a valid SystemVerilog top identifier: " ++ topModule)
      [("module", .str topModule)])
  else
    match moduleDefinitions env rtlFiles topModule with
    | [source] => .passed [("id", .str "design_top"), ("status", .str "module_only"),
        ("module", .str topModule), ("source", .str (PurePath.absText source)), ("count", .int 1),
        ("interface_applicable", .bool false)]
    | matching => .failed (failGenericTopContract
        ("frontend prepare requires exactly one " ++ topModule ++ " module, found " ++
          String.ofList (natText matching.length))
        [("module", .str topModule), ("count", .int matching.length), ("files", pathsJson matching)])

/-- `_validate_frontend_top(step, workspace, prepared)`. -/
def topOutcome (kind : DesignKind) : TopOutcome :=
  match kind with
  | .GENERIC_RTL => designTopOutcome env workspace rtlFiles
  | .CPU_CORE => cpuTopOutcome env workspace rtlFiles

end

/-! ## 2. The readiness facts -/

/-- `contract.get("expected_ports", 0)` as a count. -/
def expectedPorts (contract : Dict) : Nat :=
  match contract.getD "expected_ports" (.int 0) with
  | .int n => n.toNat
  | _ => 0

/-- One of the lists of `contract.get("differences", {})`. -/
def differenceItems (contract : Dict) (field : String) : List Json :=
  ((contract.dictAt "differences").getD field .null).items

def topSource (contract : Dict) : String := strip (contract.textAt "source")

/-- `max(0, definitions)`. -/
def topDefinitions (contract : Dict) : Nat :=
  match contract.getD "count" .null with
  | .int n => n.toNat
  | _ => if topSource contract = "" then 0 else 1

def interfaceApplicable (contract : Dict) : Bool :=
  (contract.getD "interface_applicable"
    (.bool (lower (strip (contract.textAt "status")) != "not_required"))).truthy

/-- The collected inputs that the report reads. -/
structure ReportInputs where
  rtlFiles : List AbsPath
  incdirs : List AbsPath
  defines : List String
  ownership : List (String × Nat)
  sourceFingerprint : Dict

section

variable (env : Env) (homeless : String → Bool)

/-- The source of the contract is one of the inputs. -/
def sourceInInputs (rtlFiles : List AbsPath) (contract : Dict) : Except OwnershipError Bool := do
  let sources ← rtlFiles.mapM fun p => resolvePath env homeless (PurePath.absText p)
  if topSource contract = "" then return false
  let source ← resolvePath env homeless (topSource contract)
  return sources.contains source

def buildReadinessFacts (inputs : ReportInputs) (contract : Dict) (topRequired persisted : Bool) :
    Except OwnershipError Dict := do
  let expected := expectedPorts contract
  let missing := (differenceItems contract "missing").length
  let extra := (differenceItems contract "extra").length
  let mismatches := (differenceItems contract "mismatches").length
  let inInputs ← sourceInInputs env homeless inputs.rtlFiles contract
  return [("schema_version", .int 1),
    ("sources", .obj [("rtl_total", .int inputs.rtlFiles.length),
      ("rtl_resolved", .int (inputs.rtlFiles.countP env.fs.isFile)),
      ("include_dir_total", .int inputs.incdirs.length),
      ("include_dir_resolved", .int (inputs.incdirs.countP env.fs.isDir))]),
    ("top", .obj [("required", .bool topRequired),
      ("module", .str (contract.textAt "module")),
      ("definitions", .int (topDefinitions contract)),
      ("source_in_inputs", .bool inInputs)]),
    ("interface", .obj [("applicable", .bool (interfaceApplicable contract)),
      ("verified", .bool (decide (0 < expected))),
      ("expected_ports", .int expected),
      ("matched_ports", .int ((expected - missing - mismatches : Nat))),
      ("missing_ports", .int missing),
      ("extra_ports", .int extra),
      ("mismatched_ports", .int mismatches)]),
    ("reproducibility", .obj [
      ("input_fingerprint", .bool (strip (Json.obj inputs.sourceFingerprint).pyStr != "")),
      ("merged_filelist", .bool persisted),
      ("prepared_manifest", .bool persisted)])]

/-! ## 3. The report -/

/-- The report of `run` and of both failing checks. -/
def stepReport (verdict : String) (inputs : ReportInputs) (contract facts : Dict) : Dict :=
  [("prepare", .str verdict), ("rtl_files", .int inputs.rtlFiles.length),
    ("incdirs", .int inputs.incdirs.length), ("defines", .int inputs.defines.length),
    ("contracts", .arr [.obj contract]),
    ("ownership", .obj (inputs.ownership.map fun (owner, n) => (owner, .int n))),
    ("readiness", .obj facts)]

/-- What `prepared` holds, with its `defines`. -/
def Collected.reportInputs (collected : Collected) (workspace : Workspace) (defines : List String) :
    ReportInputs where
  rtlFiles := collected.rtlFiles
  incdirs := collected.incdirs
  defines := defines
  ownership := ownershipSummary collected.rtlSources
  sourceFingerprint := workspaceInputFingerprint env workspace

/-- The failure comes from a check of the top, which writes a report before it raises. -/
def PrepareFailure.reports : PrepareFailure → Bool
  | .cpuTop .overflow => false
  | .cpuTop _ | .designTopInvalid _ | .designTopCount _ _ => true
  | .filelist _ | .path _ | .noRtlInputs => false

/-- How `PrepareStep.run` ends. -/
inductive StepEnd where
  | passed (report : Dict)
  | failed (report : Dict)
  | raised

/-- The report of a run. A failing check counts the defines that were collected, a passing one also
the define that the step adds; its facts are taken in `after`, when the outputs are written. -/
def prepareReport (after : Env) (workspace : Workspace) : StepEnd :=
  match collectInputs env homeless workspace, designKind workspace with
  | .ok collected, .ok kind =>
      match topOutcome env workspace collected.rtlFiles kind with
      | .passed contract =>
          let inputs := collected.reportInputs env workspace
            (manifestDefines workspace kind collected.defines)
          match buildReadinessFacts after homeless inputs contract
              (requiresFrontendCpuTop workspace) true with
          | .ok facts => .passed (stepReport "pass" inputs contract facts)
          | .error _ => .raised
      | .failed contract =>
          let inputs := collected.reportInputs env workspace collected.defines
          match buildReadinessFacts env homeless inputs contract true false with
          | .ok facts => .failed (stepReport "fail" inputs contract facts)
          | .error _ => .raised
      | .raised => .raised
  | _, _ => .raised

end

end EccFe.Tools.Prepare
