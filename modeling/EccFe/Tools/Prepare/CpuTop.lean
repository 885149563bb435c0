/-
EccFe.Tools.Prepare.CpuTop — `PrepareStep._validate_frontend_cpu_top` of
`fecompiler/tools/prepare/runner.py`.

The prepare step checks the CPU top again on the RTL files it collected: the
required name is an identifier, one file defines it, and its ports match the port
contract of the workspace. A failed check writes a failing report and raises.
-/
import EccFe.Tools.SvModule

namespace EccFe.Tools.Prepare

open Python
open RtlInputs (Workspace)
open SvModule (Port PortDifferences PortMismatch moduleDefinitions modulePortContractFromFiles
  comparePortContracts)

/-- The `RuntimeError`s of the check; `overflow` is the `OverflowError` an infinite
port width raises. -/
inductive CpuTopFailure where
  | invalidIdentifier (requiredTop : String)
  | moduleCount (requiredTop : String) (matching : List AbsPath)
  | portMismatch (requiredTop : String) (differences : PortDifferences)
  | overflow

/-- The contract a passing check reports. -/
structure CpuTopContract where
  status : String
  module : String
  source : Option AbsPath
  ports : List Port
  expectedPorts : Nat
  differences : Option PortDifferences

/-- The collected RTL files, each once, as `_collect_inputs` keeps them. -/
def uniqueRtl (paths : List AbsPath) : List AbsPath :=
  paths.foldl (fun seen p => if p ∈ seen then seen else seen ++ [p]) []

def requiresFrontendCpuTop (workspace : Workspace) : Bool :=
  [("top_module", "ecos_sim_top"), ("soc_wrapper_top", "ecos_sim_top"),
      ("cpu_socket_contract", "ysyx-axi-cpu-socket-v1")].any
    (fun (field, value) => strip (Dict.textAt workspace field) == value) ||
  ["soc_wrapper_id", "soc_harness_id", "required_cpu_top_module"].any fun field =>
    strip (Dict.textAt workspace field) ≠ ""

def requiredTop (workspace : Workspace) : String :=
  let named := strip (Dict.textAt workspace "required_cpu_top_module")
  if named = "" then "cpu_top" else named

def expectedCpuTopContract (workspace : Workspace) : Except NumberError (List Port) :=
  SvModule.declaredPorts (Dict.getD workspace "required_cpu_top_port_contract" (.arr [])).items

/-- The part of the check after the module was found. -/
def checkCpuTopPorts (env : Env) (requiredTop : String) (matching : List AbsPath)
    (expected : List Port) : Except CpuTopFailure CpuTopContract :=
  let (source, actual) := modulePortContractFromFiles env matching requiredTop
  let result : CpuTopContract :=
    { status := if expected = [] then "module_only" else "pass"
      module := requiredTop
      source := source.or matching.head?
      ports := actual
      expectedPorts := expected.length
      differences := none }
  if expected = [] then .ok result
  else
    let differences := comparePortContracts expected actual
    if differences.any then .error (.portMismatch requiredTop differences)
    else .ok { result with differences := some differences }

def validateFrontendCpuTop (env : Env) (workspace : Workspace) (rtlFiles : List AbsPath) :
    Except CpuTopFailure CpuTopContract :=
  if !requiresFrontendCpuTop workspace then .ok ⟨"not_required", "", none, [], 0, none⟩
  else
    let required := requiredTop workspace
    if !SvModule.isSimpleSvIdentifier required then .error (.invalidIdentifier required)
    else
      let matching := moduleDefinitions env rtlFiles required
      if matching.length ≠ 1 then .error (.moduleCount required matching)
      else
        match expectedCpuTopContract workspace with
        | .error _ => .error .overflow
        | .ok expected => checkCpuTopPorts env required matching expected

/-- The text of the error; a `RuntimeError` has `prepare failed: ` in front of it. -/
def CpuTopFailure.message : CpuTopFailure → String
  | .invalidIdentifier requiredTop =>
      "frontend prepare requires a valid SystemVerilog CPU top identifier: " ++ requiredTop
  | .moduleCount requiredTop matching =>
      "frontend prepare requires exactly one " ++ requiredTop ++ " module, found " ++
        String.ofList (natText matching.length)
  | .portMismatch requiredTop differences =>
      let names (label : String) (ports : List String) : List String :=
        if ports = [] then [] else [label ++ ", ".intercalate ports]
      let details := names "missing ports: " differences.missing ++
        names "extra ports: " differences.extra ++ differences.mismatches.map fun m =>
          SvModule.portMismatchText m.name m.expected m.actual
      requiredTop ++ " port contract mismatch (" ++ "; ".intercalate details ++ ")"
  | .overflow => "cannot convert float infinity to integer"

end EccFe.Tools.Prepare
