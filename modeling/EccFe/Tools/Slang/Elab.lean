/-
EccFe.Tools.Slang.Elab — `build_elab_summary` of `fecompiler/tools/slang/runner.py`:
the record of an elaboration, read off what Slang printed.

The error and warning counts are those of Slang's own last summary line when it
printed one, and the number of parsed diagnostics otherwise. `int` refuses more than
4300 digits, so a log can make the builder raise; `none` stands for any exception.
-/
import EccFe.Tools.Slang.Structure
import EccFe.Tools.ToolLog

namespace EccFe.Tools.Slang

open Python Engine RtlInputs RtlOwnership ToolLog

/-! ## 1. Patterns -/

def severityRegex : Regex :=
  .group "severity" (Regex.oneOf (["error", "warning", "note", "info"].map Regex.textIgnoreCase))

section

variable (env : Env)

end

/-! ## 2. Diagnostics -/

structure SlangDiagnostic where
  severity : String
  message : String
  source : String
  line : Nat
  column : Nat
  deriving DecidableEq

def normalizeDiagnosticSeverity (value : String) : String :=
  let lowered := lower value
  if lowered = "warning" then "warning" else if lowered = "error" then "error" else "info"

/-- What a match of `_DIAGNOSTIC_RE` says. -/
def locatedDiagnostic (m : Regex.Found) : Option SlangDiagnostic := do
  let line ← groupNumber m "line" 0
  let column ← groupNumber m "column" 1
  return {
    severity := normalizeDiagnosticSeverity (String.ofList ((m.group "severity").getD []))
    message := groupText m "message"
    source := groupText m "source"
    line := line
    column := column }

section

variable (env : Env)

def SlangDiagnostic.record (diagnostic : SlangDiagnostic) (ownership : String) : Json :=
  .obj [("severity", .str diagnostic.severity), ("message", .str diagnostic.message),
    ("source", .str diagnostic.source), ("line", .int diagnostic.line),
    ("column", .int diagnostic.column), ("ownership", .str ownership)]

def ModuleRecord.record (module : ModuleRecord) (ownership : String) : Json :=
  .obj [("module", .str module.module), ("path", .str module.path), ("line", .int module.line),
    ("ports", .int module.ports), ("parameters", .int module.parameters),
    ("instances", .int module.instances), ("instantiates", textList module.instantiates),
    ("ownership", .str ownership)]

variable (homeless : String → Bool)

end

end EccFe.Tools.Slang
