/-
EccFe.Tools.Verilator.Sources — the C++ files the simulation step compiles
(`fecompiler/tools/verilator/runner.py`).

The testbench comes first, then the extra sources, each once. The difftest driver
and its stub stand for each other: which of the two is compiled depends on
whether the selected CPU and SoC support difftest, not on which one was listed.
-/
import EccFe.Tools.RtlInputs

namespace EccFe.Tools.Verilator

open Python Tools.RtlInputs

/-! ## 1. Difftest support -/

def difftestUnsupportedCpuIds : List String :=
  ["picorv32", "scr1", "ibex", "cv32e40p", "cva6", "serv", "femtorv32", "vexriscv", "darkriscv"]

def difftestCustomCpuIds : List String := ["custom-filelist", "standard-cpu-filelist"]

def boolWorkspaceValue (value : Json) (default : Bool) : Bool :=
  match value with
  | .null => default
  | .bool b => b
  | .str s => if s = "" then default else lower (strip s) ∈ ["1", "true", "yes", "on"]
  | v => v.truthy

/-- `a or b`, for two values. -/
def orElse (a b : Json) : Json := if a.truthy then a else b

def workspaceCpuId (workspace : Workspace) : String :=
  strip (orElse (workspace.getD "cpu_wrapper_id" .null)
    (orElse (workspace.getD "frontend_core_id" .null)
      (orElse (workspace.getD "core_id" .null) (.str "")))).pyStr

def simDifftestSupported (workspace : Workspace) : Bool :=
  let cpuId := workspaceCpuId workspace
  let rawCpuSupport := workspace.getD "cpu_supports_difftest" .null
  if cpuId ∈ difftestUnsupportedCpuIds then false
  else if cpuId ∈ difftestCustomCpuIds ∧ rawCpuSupport = .null then false
  else
    boolWorkspaceValue rawCpuSupport true &&
      boolWorkspaceValue (workspace.getD "soc_supports_difftest" .null) true

/-! ## 2. Sources -/

def difftestSourceName : String := "difftest.cpp"

def difftestStubSourceName : String := "difftest_stub.cpp"

def replaceSimCppSource (sources : List String) (oldName newName : String) : List String :=
  let candidates := sources.map fun source =>
    let path := PurePath.ofText source
    if path.name = oldName then (path.withName newName).text else source
  distinctTexts (candidates.filter (· ≠ ""))

def adaptSimCppSourcesForDifftest (workspace : Workspace) (sources : List String) : List String :=
  if simDifftestSupported workspace then
    replaceSimCppSource sources difftestStubSourceName difftestSourceName
  else replaceSimCppSource sources difftestSourceName difftestStubSourceName

def simCppSources (workspace : Workspace) : List String :=
  let listed := strip (workspace.textAt "testbench") ::
    (workspace.getD "sim_cpp_sources" .null).items.map fun src => strip src.pyStr
  adaptSimCppSourcesForDifftest workspace (distinctTexts (listed.filter (· ≠ "")))

example : simCppSources [("testbench", .str "tb/main.cpp"),
    ("sim_cpp_sources", .arr [.str "tb/difftest.cpp", .str "tb/main.cpp"]),
    ("cpu_wrapper_id", .str "ibex")] = ["tb/main.cpp", "tb/difftest_stub.cpp"] := by
  decide

end EccFe.Tools.Verilator
