/-
EccFe.Tools.Verilator.Lint — `build_lint_summary` of
`fecompiler/tools/verilator/runner.py`: the record of a lint run, read off what
Verilator printed.

A non-zero exit without a diagnostic gets one of its own, which no source owns. All
counts are taken from the list of diagnostics.
-/
import EccFe.Tools.ToolLog

namespace EccFe.Tools.Verilator.Lint

open Python Engine RtlInputs RtlOwnership ToolLog

/-! ## 1. Patterns -/

/-- `$`: at the end, or before a final line break. -/
def textEnd : Regex := .assertion fun _ rest => rest == [] || rest == ['\n']

def severityRegex : Regex := .group "severity" (.alt (.text "Error") (.text "Warning"))

/-- `(?:-(?P<code>[A-Za-z0-9_]+))?` -/
def codeRegex : Regex :=
  .maybe (.seq (.text "-") (.group "code" (.plus (.char fun c => c.isAlphanum || c == '_'))))

/-- `_VERILATOR_DIAGNOSTIC_RE`. -/
def verilatorDiagnosticRegex : Regex :=
  Regex.cat [.textStart, .text "%", severityRegex, codeRegex, .text ":", .plus .space,
    .group "source" (.seq .any (.star false .any)), .text ":",
    .group "line" (.plus unicodeDigit), .text ":",
    .maybe (.seq (.group "column" (.plus unicodeDigit)) (.text ":")), .star true .space,
    .group "message" (.star true .any), textEnd]

/-- The pattern of a diagnostic without a place. -/
def genericDiagnosticRegex : Regex :=
  Regex.cat [.textStart, .text "%", severityRegex, codeRegex, .text ":", .star true .space,
    .group "message" (.star true .any), textEnd]

/-! ## 2. Diagnostics -/

/-- The words that put a diagnostic into a category, tried in order. -/
def categoryWords : List (String × List String) :=
  [("syntax", ["syntax", "unexpected"]), ("width", ["width", "bit", "range"]),
    ("unused", ["unused", "unuse"]), ("connectivity", ["undriven", "unconnected", "pinmissing"]),
    ("drivers", ["multidriven", "driven"]), ("case", ["case"]), ("latch", ["latch"]),
    ("timing", ["timing", "delay"]), ("unsupported", ["unsupported", "unsup"])]

def lintCategory (code message : String) : String :=
  let text := (lower (code ++ " " ++ message)).toList
  if contains "failed to execute".toList text || contains "non-zero".toList text ||
      lower code = "tool" then "tool"
  else
    ((categoryWords.find? fun entry => entry.2.any fun word => contains word.toList text).map
      (·.1)).getD "lint"

structure LintDiagnostic where
  severity : String
  code : String
  message : String
  source : String
  line : Nat
  column : Nat
  raw : String
  category : String

/-- What the parser compares two diagnostics by. -/
def LintDiagnostic.key (d : LintDiagnostic) : String × String × String × Nat × Nat × String :=
  (d.severity, d.code, d.source, d.line, d.column, d.message)

/-- `"error"` for `Error`, in any case. -/
def severityOf (m : Regex.Found) : String :=
  if lower (String.ofList ((m.group "severity").getD [])) = "error" then "error" else "warning"

/-- `(match.group("code") or severity.upper()).strip()`. -/
def codeOf (m : Regex.Found) : String :=
  match m.group "code" with
  | some code => String.ofList (stripBy isSpace code)
  | none => if severityOf m = "error" then "ERROR" else "WARNING"

/-- What a match of `_VERILATOR_DIAGNOSTIC_RE` says. -/
def locatedDiagnostic (line : List Char) (m : Regex.Found) : Option LintDiagnostic := do
  let lineNumber ← groupNumber m "line" 0
  let column ← groupNumber m "column" 1
  return {
    severity := severityOf m
    code := codeOf m
    message := groupText m "message"
    source := groupText m "source"
    line := lineNumber
    column := column
    raw := String.ofList line
    category := lintCategory (codeOf m) (groupText m "message") }

def parseGenericVerilatorDiagnostic (line : List Char) : Option LintDiagnostic :=
  (genericDiagnosticRegex.matchStart line).map fun m => {
    severity := severityOf m
    code := codeOf m
    message := groupText m "message"
    source := ""
    line := 0
    column := 0
    raw := String.ofList line
    category := lintCategory (codeOf m) (groupText m "message") }

/-- The diagnostics of one stripped line. -/
def parseVerilatorLine (line : List Char) : Option (List LintDiagnostic) :=
  match verilatorDiagnosticRegex.matchStart line with
  | some m => (locatedDiagnostic line m).map ([·])
  | none => some (parseGenericVerilatorDiagnostic line).toList

/-- `parse_verilator_diagnostics(content)`. A blank line has no diagnostic to parse. -/
def parseVerilatorDiagnostics (content : List Char) : Option (List LintDiagnostic) :=
  ((logLines content).mapM parseVerilatorLine).map fun found =>
    firstSeen LintDiagnostic.key found.flatten

def firstNonemptyLogLine (content : List Char) : String :=
  String.ofList (((logLines content).find? fun line => !line.isEmpty).getD [])

/-- The diagnostic of a failed run that printed none. -/
def toolDiagnostic (content : List Char) : LintDiagnostic where
  severity := "error"
  code := "TOOL"
  message :=
    if firstNonemptyLogLine content = "" then "Verilator exited with a non-zero return code."
    else firstNonemptyLogLine content
  source := ""
  line := 0
  column := 0
  raw := firstNonemptyLogLine content
  category := "tool"

/-- The parsed diagnostics, or the one a failed run without any gets. -/
def runDiagnostics (returncode : Int) (content : List Char) : Option (List LintDiagnostic) :=
  (parseVerilatorDiagnostics content).map fun diagnostics =>
    if returncode ≠ 0 ∧ diagnostics = [] then [toolDiagnostic content] else diagnostics

/-! ## 3. Ownership -/

structure OwnedDiagnostic extends LintDiagnostic where
  ownership : String
  actionable : Bool

def OwnedDiagnostic.record (d : OwnedDiagnostic) : Dict :=
  [("severity", .str d.severity), ("code", .str d.code), ("message", .str d.message),
    ("source", .str d.source), ("line", .int d.line), ("column", .int d.column),
    ("raw", .str d.raw), ("category", .str d.category), ("ownership", .str d.ownership),
    ("actionable", .bool d.actionable)]

/-- How many of the diagnostics have the severity. -/
def severityCount (severity : String) (diagnostics : List OwnedDiagnostic) : Nat :=
  diagnostics.countP fun d => d.severity == severity

def ownedBy (ownership : String) (diagnostics : List OwnedDiagnostic) : List OwnedDiagnostic :=
  diagnostics.filter fun d => d.ownership == ownership

/-- More errors first, then more warnings, then by name. -/
def hotBefore (a b : Nat × Nat × String) : Bool :=
  decide (b.1 < a.1 ∨ a.1 = b.1 ∧ (b.2.1 < a.2.1 ∨ a.2.1 = b.2.1 ∧ a.2.2 ≤ b.2.2))

/-- The diagnostics of each value of `key` in turn, with their numbers of errors and
warnings, the hottest value first. -/
def groupedBy (key : OwnedDiagnostic → String) (diagnostics : List OwnedDiagnostic) :
    List ((Nat × Nat × String) × List OwnedDiagnostic) :=
  ((distinctTexts (diagnostics.map key)).map fun value =>
    let items := diagnostics.filter fun d => key d == value
    ((severityCount "error" items, severityCount "warning" items, value), items)).mergeSort
      fun a b => hotBefore a.1 b.1

/-- The counts every breakdown entry starts with. -/
def groupCounts (group : (Nat × Nat × String) × List OwnedDiagnostic) : Dict :=
  [("errors", .int group.1.1), ("warnings", .int group.1.2.1), ("total", .int group.2.length)]

/-- `str(item.get("code") or item.get("severity") or "UNKNOWN")`. -/
def ruleOf (d : OwnedDiagnostic) : String :=
  if d.code ≠ "" then d.code else if d.severity ≠ "" then d.severity else "UNKNOWN"

/-- `dict(sorted(Counter(...).items()))`. -/
def ownershipCounter (items : List OwnedDiagnostic) : Json :=
  .obj (((distinctTexts (items.map (·.ownership))).mergeSort fun a b => decide (a ≤ b)).map
    fun ownership => (ownership, .int (ownedBy ownership items).length))

def lintRuleBreakdown (diagnostics : List OwnedDiagnostic) : List Json :=
  (groupedBy ruleOf diagnostics).map fun group =>
    let example_ := (group.2.head?.map (·.message)).getD ""
    .obj ([("code", .str group.1.2.2), ("category", .str (lintCategory group.1.2.2 example_))] ++
      groupCounts group ++
      [("example", .str example_), ("ownership", ownershipCounter group.2)])

def lintFileHotspots (diagnostics : List OwnedDiagnostic) : List Json :=
  (groupedBy (fun d => strip d.source)
    (diagnostics.filter fun d => strip d.source != "")).map fun group =>
      let rules := (distinctTexts (group.2.map ruleOf)).mergeSort fun a b => decide (a ≤ b)
      .obj ([("path", .str group.1.2.2), ("label", .str (PurePath.ofText group.1.2.2).name)] ++
        groupCounts group ++
        [("rules", textList rules),
          ("ownership", .str ((group.2.head?.map (·.ownership)).getD "")),
          ("actionable", .bool (group.2.any (·.actionable)))])

def lintOwnershipBreakdown (diagnostics : List OwnedDiagnostic) : List Json :=
  (rtlOwnerships.filter fun ownership => !(ownedBy ownership diagnostics).isEmpty).map
    fun ownership =>
      let items := ownedBy ownership diagnostics
      .obj [("ownership", .str ownership), ("errors", .int (severityCount "error" items)),
        ("warnings", .int (severityCount "warning" items)), ("total", .int items.length),
        ("actionable", .bool (items.any (·.actionable)))]

section

variable (env : Env) (homeless : String → Bool)

/-- The tool owns its own failures; any other diagnostic has the owner of its source. -/
def diagnosticOwner (workspace : Workspace) (owners : List (AbsPath × String))
    (d : LintDiagnostic) : Option String :=
  if d.category = "tool" then some "tool" else ownerOf env homeless workspace owners d.source

/-- The owner of a diagnostic, and whether it is about the user's own RTL. -/
def withOwner (workspace : Workspace) (owners : List (AbsPath × String)) (d : LintDiagnostic) :
    Option OwnedDiagnostic := do
  let ownership ← diagnosticOwner env homeless workspace owners d
  let actionable ← (isActionableRtlOwnership workspace ownership).toOption
  return { d with ownership := ownership, actionable := actionable }

def lintSummary (status topModule user : String) (files : List String)
    (diagnostics : List OwnedDiagnostic) : Dict :=
  let cpu := ownedBy "cpu" diagnostics
  let design := ownedBy "design" diagnostics
  [("status", .str status), ("errors", .int (severityCount "error" diagnostics)),
    ("warnings", .int (severityCount "warning" diagnostics)),
    ("diagnostics", .int diagnostics.length),
    ("rules", .int (lintRuleBreakdown diagnostics).length),
    ("files", .int (lintFileHotspots diagnostics).length), ("rtl_files", .int files.length),
    ("top_module", .str topModule), ("cpu_errors", .int (severityCount "error" cpu)),
    ("cpu_warnings", .int (severityCount "warning" cpu)),
    ("design_errors", .int (severityCount "error" design)),
    ("design_warnings", .int (severityCount "warning" design)),
    ("actionable_ownership", .str user),
    ("actionable_diagnostics", .int (diagnostics.countP (·.actionable)))]

def buildLintSummary (workspace : Workspace) (runInfo : RunInfo) (logContent : List Char)
    (summaryPath : String) : Option Dict := do
  let files := runInfo.rtlFiles
  let found ← runDiagnostics runInfo.returncode logContent
  let owners ← (rtlOwnershipMap env homeless workspace).toOption
  let diagnostics ← found.mapM (withOwner env homeless workspace owners)
  let status := runStatus runInfo.returncode (severityCount "error" diagnostics)
  let topModule := runInfo.top workspace
  let incdirs ← (incdirsOf env homeless workspace).toOption
  let defines ← (checkDefines env homeless workspace).toOption
  let user ← (userRtlOwnership workspace).toOption
  return [
    ("schema_version", .int 1), ("path", .str summaryPath), ("tool", .str "verilator"),
    ("status", .str status), ("returncode", .int runInfo.returncode),
    ("top_module", .str topModule), ("command", textList runInfo.command),
    ("inputs", inputsRecord files incdirs defines),
    ("summary", .obj (lintSummary status topModule user files diagnostics)),
    ("diagnostics", .arr (diagnostics.map fun d => .obj d.record)),
    ("rules", .arr (lintRuleBreakdown diagnostics)),
    ("files", .arr (lintFileHotspots diagnostics)),
    ("ownership", .arr (lintOwnershipBreakdown diagnostics)),
    ("reports", reportsRecord runInfo summaryPath)]

end

end EccFe.Tools.Verilator.Lint
