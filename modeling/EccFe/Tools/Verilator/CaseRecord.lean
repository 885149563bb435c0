/-
EccFe.Tools.Verilator.CaseRecord — what the simulation step reads off the output of a case
(`fecompiler/tools/verilator/runner.py`).

The same text is read three times. `_case_output_ok` gives the verdict by searching for texts,
`_sim_case_metrics` the way the program ended and the state of difftest by patterns that ignore
case, and `_coremark_metrics` the score. Nothing compares the three.
-/
import EccFe.Analysis.SimCases
import EccFe.Python.FloatText
import EccFe.Python.Regex
import EccFe.Python.Shlex
import EccFe.Tools.Verilator.SimCases

namespace EccFe.Tools.Verilator

open Python Analysis Tools.RtlInputs

/-! ## 1. The verdict -/

/-- `needle in output`. -/
def mentions (output needle : String) : Bool := contains needle.toList output.toList

def simOutputOk (returncode : Int) (output : String) : Bool :=
  returncode == 0 && mentions output "HIT GOOD TRAP" && !mentions output "HIT BAD TRAP" &&
    !mentions output "FAILED" && !mentions output "%Error" && !mentions output "timeout after"

def isCoremarkCase (caseName image : String) : Bool :=
  caseName == "coremark.soc" || (PurePath.ofText image).stem == "coremark.soc"

def caseOutputOk (caseName image : String) (returncode : Int) (output : String) : Bool × Dict :=
  if isCoremarkCase caseName image then
    let hasValidated := mentions output "Correct operation validated"
    let hasError := mentions output "Errors detected" || mentions output "ERROR!"
    (returncode == 0 && hasValidated && !hasError && !mentions output "%Error",
      [("type", .str "coremark_validation"), ("validated", .bool hasValidated),
        ("errors_detected", .bool hasError)])
  else (simOutputOk returncode output, [])

/-! ## 2. Patterns -/

section

variable (env : Env)

/-- `0x[0-9a-fA-F]+` with `re.IGNORECASE`. -/
def hexNumber : Regex :=
  .cat [.textIgnoreCase "0x", .plus (.char fun c =>
    isDigit c || ('a' ≤ c && c ≤ 'f') || ('A' ≤ c && c ≤ 'F'))]

def simCycleRe : Regex :=
  .cat [.wordBoundary env.isWord, .oneOf [.text "after", .text "timeout after"], .plus .space,
    .group "1" (.plus .digit), .plus .space, .text "cycles", .wordBoundary env.isWord]

def simBadTrapRe : Regex :=
  .cat [.textIgnoreCase "HIT BAD TRAP",
    .maybe (.cat [.text ",", .star true .space, .textIgnoreCase "code=",
      .group "code" (.oneOf [hexNumber, .plus .digit])])]

def difftestMismatchRe : Regex :=
  .cat [.lineStart, .star true .space, .textIgnoreCase "[DIFFTEST]", .plus .space,
    .group "message" (.cat [.star false .any, .textIgnoreCase "mismatch", .star false .any]),
    .star true .space, .lineEnd]

def difftestProgressRe : Regex :=
  .cat [.textIgnoreCase "[soc-sim][difftest]", .plus .space, .textIgnoreCase "progress:",
    .star false .any, .wordBoundary env.isWord, .textIgnoreCase "last_pc=",
    .group "last_pc" hexNumber,
    .maybe (.cat [.star false .any, .wordBoundary env.isWord, .textIgnoreCase "last_npc=",
      .group "last_npc" hexNumber])]

def difftestPassedRe : Regex :=
  .cat [.textIgnoreCase "[soc-sim][difftest]", .plus .space, .textIgnoreCase "passed:",
    .plus .space, .textIgnoreCase "commits=", .group "commits" (.plus .digit), .plus .space,
    .textIgnoreCase "compared=", .group "compared" (.plus .digit)]

/-- `\bpc=(0x[0-9a-fA-F]+)` with `re.IGNORECASE`. -/
def mismatchPcRe : Regex :=
  .cat [.wordBoundary env.isWord, .textIgnoreCase "pc=", .group "1" hexNumber]

/-- A line `label : value` of CoreMark. -/
def coremarkLineRe (label : String) (value : Regex) : Regex :=
  .cat [.lineStart, .star true .space, .text label, .star true .space, .text ":",
    .star true .space, .group "value" value, .star true .space, .lineEnd]

def decimalRe : Regex := .cat [.plus .digit, .maybe (.cat [.text ".", .plus .digit])]

def coremarkIterationsRe : Regex := coremarkLineRe "Iterations" (.plus .digit)

def coremarkIterationsPerSecRe : Regex := coremarkLineRe "Iterations/Sec" decimalRe

def coremarkPerMhzRe : Regex := coremarkLineRe "CoreMark/MHz" decimalRe

/-! ## 3. The metrics -/

def groupText (m : Regex.Found) (name : String) : Option String := (m.group name).map String.ofList

/-- `int(match.group(name))`, `none` for a `ValueError`. -/
def groupInt (m : Regex.Found) (name : String) : Option Int := (groupText m name).bind intOfText

def intJson (n : Option Int) : Json := n.elim .null .int

def textJson (text : Option String) : Json := text.elim .null .str

def simCyclesFromOutput (output : String) : Option Int :=
  ((simCycleRe env).findAll output.toList).getLast?.bind fun m => groupInt m "1"

def simIntOption (args : List String) (option : String) : Option Int :=
  let value := optionValue args option
  if value = "" then none else intOfLiteral value

def difftestPassCounts (output : String) : Option (Int × Int) := do
  let m ← difftestPassedRe.find output.toList
  let commits ← groupInt m "commits"
  let compared ← groupInt m "compared"
  if 0 < compared then some (commits, compared) else none

/-- `difftest_enabled`. -/
def difftestEnabledBy (args : List String) (output : String) : Bool :=
  argPresent args "--diff" || contains "[difftest] enabled".toList (lowerText output.toList)

/-- `mismatch`. -/
def difftestMismatch (output : String) : Option Regex.Found := difftestMismatchRe.find output.toList

def badTrap (output : String) : Option Regex.Found := simBadTrapRe.find output.toList

def timedOut (output : String) : Bool := mentions output "timeout after"

section

variable (args : List String) (returncode : Int) (output : String) (ok : Bool)

/-- `termination`. -/
def simTermination : String :=
  if (difftestMismatch output).isSome then "difftest_mismatch"
  else if difftestEnabledBy args output && (difftestPassCounts output).isNone && returncode == 0 &&
      mentions output "HIT GOOD TRAP" then "difftest_incomplete"
  else if (badTrap output).isSome then "bad_trap"
  else if timedOut output then "timeout"
  else if returncode ≠ 0 then "process_error"
  else if mentions output "HIT GOOD TRAP" || ok then "good_trap"
  else "unknown"

/-- `trap_code`. -/
def simTrapCode : Option Int :=
  match (badTrap output).bind (groupText · "code") with
  | some code => intOfLiteral code
  | none => if simTermination args returncode output ok = "good_trap" then some 0 else none

def difftestStatus : String :=
  if (difftestMismatch output).isSome then "mismatch"
  else if !difftestEnabledBy args output then "disabled"
  else if ok && (difftestPassCounts output).isSome then "passed"
  else "incomplete"

def firstMismatch : Json :=
  match difftestMismatch output with
  | none => .null
  | some m =>
      let message := strip ((groupText m "message").getD "")
      let pc := ((mismatchPcRe env).find message.toList).bind (groupText · "1")
      .obj [("message", .str message), ("pc", textJson pc)]

def simCaseMetrics : Dict :=
  let counts := difftestPassCounts output
  let progress := ((difftestProgressRe env).findAll output.toList).getLast?
  [("cycles", intJson (simCyclesFromOutput env output)),
    ("max_cycles", intJson (simIntOption args "--max-cycles")),
    ("termination", .str (simTermination args returncode output ok)),
    ("trap_code", intJson (simTrapCode args returncode output ok)),
    ("timeout_accepted", .bool (timedOut output && argPresent args "--timeout-ok")),
    ("difftest", .obj [("enabled", .bool (difftestEnabledBy args output)),
      ("status", .str (difftestStatus args output ok)),
      ("commits", intJson (counts.map (·.1))), ("compared", intJson (counts.map (·.2))),
      ("last_pc", textJson (progress.bind (groupText · "last_pc"))),
      ("last_npc", textJson (progress.bind (groupText · "last_npc"))),
      ("first_mismatch", firstMismatch env output)])]

end

/-! ## 4. The failure record -/

def firstSimError (output : String) : String :=
  let markers := ["mismatch", "difftest] incomplete", "HIT BAD TRAP", "timeout after",
    "image not found", "%Error", "ERROR!", "FAILED"]
  let lines := (splitlines output.toList).map (stripBy isSpace)
  match lines.find? fun line =>
    !line.isEmpty && markers.any fun marker => contains (lowerText marker.toList) (lowerText line) with
  | some line => String.ofList line
  | none => ""

/-- `kind` and `message` of `_simulation_failure`. -/
def failureKind (returncode : Int) (validation : Dict) (termination : String) : String × String :=
  if termination = "difftest_mismatch" then
    ("difftest_mismatch", "Difftest found an architectural mismatch.")
  else if termination = "difftest_incomplete" then
    ("difftest_incomplete", "Difftest ended without completing an architectural comparison.")
  else if termination = "bad_trap" then ("bad_trap", "The program terminated with a bad trap.")
  else if termination = "timeout" then ("timeout", "The simulation reached its cycle limit.")
  else if termination = "process_error" then
    ("process_error", "The simulator process exited with return code " ++
      String.ofList (intText returncode) ++ ".")
  else if !validation.isEmpty then
    ("validation_failed", "The simulator completed, but suite validation failed.")
  else ("simulation_failed", "The simulation did not produce an accepted success result.")

def simulationFailure (returncode : Int) (output : String) (validation metrics : Dict)
    (wave : String) : Dict :=
  let (kind, message) := failureKind returncode validation
    (metrics.getD "termination" (.str "unknown")).pyStr
  let lines := ((splitlines output.toList).filter fun line => !(stripBy isSpace line).isEmpty).map
    (rstripBy isSpace)
  let tail := lines.drop (lines.length - 20)
  [("kind", .str kind), ("message", .str message), ("first_error", .str (firstSimError output)),
    ("log_tail", .str (String.ofList (['\n'].intercalate tail))), ("wave", .str wave)]

/-! ## 5. CoreMark -/

/-- The exceptions of the CoreMark metrics. -/
inductive CaseError where
  | overflow
  | zeroDivision
  | value
  deriving DecidableEq

def CaseError.ofArithmetic : ArithmeticError → CaseError
  | .zeroDivision => .zeroDivision
  | .overflow => .overflow

/-- `str(value or default)`. -/
def textOr (value : Json) (default : String) : String := if value.truthy then value.pyStr else default

def coremarkCompilePresets : List (String × String) :=
  [("debug", "-O0"), ("balanced", "-O2"), ("speed", "-O3"), ("size", "-Os"), ("custom", "-O2")]

def coremarkAllowedOptLevels : List String := ["-O0", "-O1", "-O2", "-O3", "-Os", "-Og"]

def normalizeStringList (value : Json) : Except CaseError (List String) := do
  let raw ← match value with
    | .arr items => pure (items.map Json.pyStr)
    | .str s =>
        match shlexSplit s.toList with
        | some words => pure (words.map String.ofList)
        | none => throw .value
    | v => pure (if v.truthy then [v.pyStr] else [])
  return distinctTexts ((raw.map strip).filter (· ≠ ""))

def positiveInt (value : Json) (default : Int) : Except CaseError Int :=
  match value.toInt with
  | .ok n => .ok (if 0 < n then n else default)
  | .error .overflowError => .error .overflow
  | .error _ => .ok default

variable (workspace : Workspace)

def programCompileSettings : Except CaseError Dict := do
  let given := lower (strip (textOr (workspace.getD "sim_compile_preset" (.str "balanced")) "balanced"))
  let preset := if (coremarkCompilePresets.lookup given).isSome then given else "balanced"
  let default := (coremarkCompilePresets.lookup preset).getD "-O2"
  let optLevel := strip (textOr (workspace.getD "sim_compile_opt_level" (.str "")) "")
  let extraCflags ← normalizeStringList (workspace.getD "sim_compile_extra_cflags" (.arr []))
  return [("preset", .str preset),
    ("opt_level", .str (if optLevel ∈ coremarkAllowedOptLevels then optLevel else default)),
    ("march", .str (strip (textOr (workspace.getD "sim_compile_march" (.str "rv32im_zicsr"))
      "rv32im_zicsr"))),
    ("mabi", .str (strip (textOr (workspace.getD "sim_compile_mabi" (.str "ilp32")) "ilp32"))),
    ("extra_cflags", .arr (extraCflags.map .str))]

/-- `_coremark_compile_settings(workspace)`, with its iterations. -/
def coremarkCompileSettings : Except CaseError (Dict × Int) := do
  let program ← programCompileSettings workspace
  let iterations ← positiveInt (workspace.getD "sim_coremark_iterations" .null) 1
  let totalDataSize ← positiveInt (workspace.getD "sim_coremark_total_data_size" .null) 2000
  let hasFloat := boolWorkspaceValue (workspace.getD "sim_coremark_has_float" .null) true
  return (program ++ [("iterations", .int iterations), ("total_data_size", .int totalDataSize),
    ("has_float", .bool hasFloat)], iterations)

variable (F : FloatModel)

/-- A float that is positive; `some none` is `inf`. -/
def positiveFloat (q : ℚ) : Option (Option ℚ) :=
  match F.round q with
  | some r => if 0 < r then some (some r) else none
  | none => if 0 < q then some none else none

/-- `float(value)`, if it is positive; `none` also for a `TypeError` and a `ValueError`. -/
def positiveNumber : Json → Except CaseError (Option (Option ℚ))
  | .bool b => .ok (if b then positiveFloat F 1 else none)
  | .int n =>
      match F.ofInt n with
      | .ok q => .ok (if 0 < q then some (some q) else none)
      | .error e => .error (.ofArithmetic e)
  | .float x =>
      match x.toRat? with
      | some q => .ok (positiveFloat F q)
      | none => .ok (if x.text = "Infinity" then some none else none)
  | .str s =>
      match floatOfText s with
      | some (.finite q) => .ok (positiveFloat F q)
      | some (.infinite false) => .ok (some none)
      | _ => .ok none
  | _ => .ok none

def firstPositive : List Json → Except CaseError (Option (Option ℚ))
  | [] => .ok none
  | value :: rest => do
      match ← positiveNumber F value with
      | some x => return some x
      | none => firstPositive rest

def workspaceFrequencyMhz : Except CaseError (Option (Option ℚ)) :=
  let paramsPath := strip (workspace.textAt "parameters_path")
  let fromParams : List Json :=
    if paramsPath = "" then []
    else
      match env.jsonRead (env.host.resolve (.ofText paramsPath)) with
      | .obj params => ["Frequency max [MHz]", "frequency_max", "freq"].map (Dict.getD params · .null)
      | _ => []
  firstPositive F (fromParams ++
    ["frequency_mhz", "frequency_max", "freq"].map (workspace.getD · .null))

def coremarkIntFromOutput (pattern : Regex) (output : String) : Option Int :=
  (pattern.find output.toList).bind (groupInt · "value")

/-- `_coremark_float_from_output(pattern, output)`; `some none` is `inf`. -/
def coremarkFloatFromOutput (pattern : Regex) (output : String) : Option (Option ℚ) := do
  let m ← pattern.find output.toList
  match floatOfText (← groupText m "value") with
  | some (.finite q) => some (F.round q)
  | some _ => some none
  | none => none

/-- `x * y` of two floats. -/
def timesFloat (x y : Option ℚ) : Option ℚ := x.bind fun a => y.bind fun b => F.round (a * b)

/-- `x / y` of two floats. -/
def overFloat (x : ℚ) (y : ℚ) : Except CaseError (Option ℚ) :=
  if y = 0 then .error .zeroDivision else .ok (F.round (x / y))

variable (repr : Option ℚ → PyFloat)

def floatJson (x : Option (Option ℚ)) : Json := x.elim .null fun q => .float (repr q)

/-- What `_coremark_metrics` adds when the score is not available. -/
def scoreUnavailable (reason : String) : Dict :=
  [("score_available", .bool false), ("score_unavailable_reason", .str reason)]

/-- `metrics["iterations"]`. -/
def coremarkIterations (output : String) (compileIterations : Int) : Int :=
  match coremarkIntFromOutput coremarkIterationsRe output with
  | some n => if n = 0 then compileIterations else n
  | none => compileIterations

/-- `metrics["cycles_per_iteration"]`, where the output has the cycles. -/
def cyclesPerIteration (cycles : Option Int) (iterations : Int) : Except CaseError Dict :=
  match cycles with
  | some n => do
      let q ← (F.divide n iterations).mapError .ofArithmetic
      return [("cycles_per_iteration", floatJson repr (some (some q)))]
  | none => .ok []

def coremarkMetrics (output : String) (ok : Bool) : Except CaseError Dict := do
  let cycles := simCyclesFromOutput env output
  let frequency ← workspaceFrequencyMhz env workspace F
  let perSecond := coremarkFloatFromOutput F coremarkIterationsPerSecRe output
  let (compile, compileIterations) ← coremarkCompileSettings workspace
  let iterations := coremarkIterations output compileIterations
  let metrics : Dict := [("benchmark", .str "CoreMark"), ("iterations", .int iterations),
    ("expected_crc", .str "reported by CoreMark validation"), ("cycles", intJson cycles),
    ("frequency_mhz", floatJson repr frequency), ("compile", .obj compile)]
  if !ok then return metrics ++ scoreUnavailable "simulation did not pass"
  match coremarkFloatFromOutput F coremarkPerMhzRe output, cycles with
  | some perMhz, _ =>
      let second := perSecond.or (frequency.map (timesFloat F perMhz))
      let perIteration ← cyclesPerIteration F repr cycles iterations
      return metrics ++ [("score_available", .bool true),
          ("coremark_per_mhz", floatJson repr (some perMhz))] ++
        (second.elim [] fun x => [("coremark_per_second", floatJson repr (some x))]) ++ perIteration
  | none, some n =>
      if n ≤ 0 then return metrics ++ scoreUnavailable "simulation cycle count not found"
      let perIteration ← (F.divide n (max iterations 1)).mapError .ofArithmetic
      let perMhz ← overFloat F 1000000 perIteration
      return metrics ++ [("score_available", .bool true),
          ("cycles_per_iteration", floatJson repr (some (some perIteration))),
          ("coremark_per_mhz", floatJson repr (some perMhz))] ++
        frequency.elim [] fun mhz =>
          [("estimated_coremark_per_second", floatJson repr (some (timesFloat F perMhz mhz)))]
  | none, none => return metrics ++ scoreUnavailable "simulation cycle count not found"

/-! ## 6. The record of a case -/

/-- What `_run_simulate` holds when a case has run; the log paths, the wave and the program are
texts it puts into the record. -/
structure CaseRun where
  name : String
  suite : String
  runId : String
  image : String
  args : List String
  returncode : Int
  output : String
  program : Json
  outputLog : String
  latestLog : String
  runLog : String
  wave : String

/-- `_case_image_sha256(image)`. -/
def caseImageSha256 (image : String) : String :=
  let path := env.host.resolve (.ofText image)
  if image = "" ∨ !env.fs.isFile path then ""
  else ((env.fs.readBytes path).map env.sha256).getD ""

namespace CaseRun

variable (c : CaseRun)

/-- `case_ok`. -/
def passes : Bool :=
  (caseOutputOk c.name c.image c.returncode c.output).1 &&
    !(argPresent c.args "--diff" && (difftestPassCounts c.output).isNone)

def metrics : Except CaseError Dict :=
  let generic := simCaseMetrics env c.args c.returncode c.output c.passes
  if isCoremarkCase c.name c.image then
    (coremarkMetrics env workspace F repr c.output c.passes).map generic.update
  else .ok generic

/-- `case_report`. -/
def report : Except CaseError Dict := do
  let metrics ← c.metrics env workspace F repr
  let validation := (caseOutputOk c.name c.image c.returncode c.output).2
  return [("name", .str c.name), ("suite", .str c.suite), ("image", .str c.image),
      ("image_sha256", .str (caseImageSha256 env c.image)), ("program", c.program),
      ("returncode", .int c.returncode), ("ok", .bool c.passes), ("log", .str c.outputLog),
      ("latest_log", .str c.outputLog), ("report_log", .str c.latestLog),
      ("run_log", .str c.runLog), ("wave", .str c.wave), ("run_id", .str c.runId)] ++
    (if validation.isEmpty then [] else [("validation", .obj validation)]) ++
    [("metrics", .obj metrics)] ++
    if c.passes then []
    else [("failure", .obj (simulationFailure c.returncode c.output validation metrics c.wave))]

end CaseRun

end

end EccFe.Tools.Verilator
