/-
EccFe.Tools.Review.Precheck — the verdict of a Yosys run, from
`fecompiler/tools/review/structural_probe.py` and `fecompiler/tools/review/runner.py`.

The log is read for the lines that report an error or a warning, and the reading stops after
eighty of them (`diagnosticsFromLog_eq`). Gate, status and verdict are computed from that list
alone, so an error behind the eightieth line is not seen (`masked_error`).
-/
import EccFe.Tools.Review.Report
import EccFe.Tools.ToolLog

namespace EccFe.Tools.Review

open Python Engine RtlInputs RtlOwnership ToolLog

/-! ## 1. The lines of the log -/

/-- `any(marker in text for marker in markers)`. -/
def mentions (markers : List String) (text : List Char) : Bool :=
  markers.any fun marker => contains marker.toList text

def isYosysToolLimitMessage (text : List Char) : Bool :=
  mentions ["feature unimplemented", "failed condition", "slang_frontend.cc", "yosys-slang-plugin",
    "unsupported", "not supported"] (lowerText text)

def diagnosticCategory (message : List Char) : String :=
  let text := lowerText message
  if isYosysToolLimitMessage text then "tool-limit"
  else if mentions ["syntax", "parse"] text then "syntax"
  else if mentions ["module"] text && mentions ["not found", "missing"] text then "hierarchy"
  else if mentions ["latch"] text then "combinational"
  else if mentions ["driver", "driven"] text then "structural"
  else if mentions ["loop"] text then "combinational"
  else "tooling"

/-- The severity of a stripped line, for a line that reports something. -/
def diagnosticSeverity (line : List Char) : Option String :=
  let text := lowerText line
  if mentions ["error:"] text || startsWith text "error" || mentions ["syntax error"] text then
    some "error"
  else if mentions ["warning:"] text || startsWith text "warning" then some "warning"
  else none

/-- `[^:\s]+?\.(?:sv|svh|v|vh)` as the source, behind a slash when `rooted`. -/
def sourceRegex (rooted : Bool) : Regex :=
  let part := Regex.char fun c => c != ':' && !isSpace c
  .group "source" (Regex.cat [if rooted then .text "/" else .empty, part, .star false part, .text ".",
    Regex.oneOf [.text "sv", .text "svh", .text "v", .text "vh"]])

/-- The patterns of a place, tried in order. -/
def locationRegexes : List Regex :=
  [true, false].flatMap fun rooted =>
    [Regex.cat [sourceRegex rooted, .text ":", .group "line" (.plus unicodeDigit), .text ":",
      .group "column" (.plus unicodeDigit)],
    Regex.cat [sourceRegex rooted, .text ":", .group "line" (.plus unicodeDigit)]]

/-- `_int_or_zero(match.group(name))`. -/
def numberOrZero (m : Regex.Found) (name : String) : Nat :=
  ((m.group name).bind intOfDigits).getD 0

def diagnosticLocation (message : List Char) : Dict :=
  match locationRegexes.findSome? fun pattern => pattern.find message with
  | some m =>
      [("source", .str (String.ofList ((m.group "source").getD []))),
        ("line", .int (numberOrZero m "line")),
        ("column", .int (if numberOrZero m "column" = 0 then 1 else numberOrZero m "column"))]
  | none => [("source", .str ""), ("line", .int 0), ("column", .int 0)]

/-- The diagnostic of a line that reports something. A blank line reports nothing. -/
def diagnosticOf (raw : List Char) : Option Dict :=
  let line := stripBy isSpace raw
  (diagnosticSeverity line).map fun severity =>
    [("severity", .str severity), ("message", .str (String.ofList line)),
      ("category", .str (diagnosticCategory line))] ++ diagnosticLocation line

/-- The loop over the lines, which ends with the eightieth diagnostic. -/
def collectDiagnostics : List (List Char) → List Dict → List Dict
  | [], found => found
  | raw :: rest, found =>
      match diagnosticOf raw with
      | none => collectDiagnostics rest found
      | some diagnostic =>
          if 80 ≤ (found ++ [diagnostic]).length then found ++ [diagnostic]
          else collectDiagnostics rest (found ++ [diagnostic])

def diagnosticsFromLog (log : List Char) : List Dict := collectDiagnostics (splitlines log) []

/-! ## 2. The verdict -/

def hasSeverity (severity : String) (diagnostic : Dict) : Bool :=
  lower (diagnostic.textAt "severity") == severity

def diagnosticBlocksReview (diagnostic : Dict) : Bool :=
  hasSeverity "error" diagnostic && lower (diagnostic.textAt "category") != "tool-limit"

def onlyToolLimitErrors (diagnostics : List Dict) : Bool :=
  let errors := diagnostics.filter (hasSeverity "error")
  !errors.isEmpty && errors.all fun item => lower (item.textAt "category") == "tool-limit"

/-- How many diagnostics have the severity, as it is written. -/
def countSeverity (severity : String) (diagnostics : List Dict) : Nat :=
  diagnostics.countP fun item => item.getD "severity" .null == .str severity

def gateOf (returncode : Int) (diagnostics : List Dict) : String :=
  let blockingErrors := diagnostics.countP diagnosticBlocksReview
  if returncode ≠ 0 ∧ blockingErrors = 0 then "warnings"
  else if blockingErrors ≠ 0 then "failed"
  else if countSeverity "warning" diagnostics ≠ 0 then "warnings"
  else "clean"

def complexityBucket (score : Int) : String :=
  if score ≥ 20000 then "very_high"
  else if score ≥ 8000 then "high"
  else if score ≥ 2500 then "medium"
  else "low"

/-- `_int_or_zero(metrics.get(key))`; `none` is the `OverflowError` of an infinite number. -/
def metric (metrics : Dict) (key : String) : Option Int :=
  ((metrics.getD key .null).toIntCaught 0).toOption

def qualityFromRun (returncode : Int) (diagnostics : List Dict) (metrics : Dict) : Option Dict := do
  let score := (← metric metrics "cells") + (← metric metrics "mux_cells") * 2 +
    (← metric metrics "arithmetic_cells") * 3 + (← metric metrics "memory_cells") * 4
  let errors := countSeverity "error" diagnostics
  let warnings := countSeverity "warning" diagnostics
  let parsed := if diagnostics.countP diagnosticBlocksReview = 0 then "pass" else "fail"
  return [("gate", .str (gateOf returncode diagnostics)), ("frontend_parse", .str parsed),
    ("hierarchy", .str parsed),
    ("structural_check", .str (if warnings ≠ 0 ∨ errors ≠ 0 then "warnings" else "pass")),
    ("diagnostic_errors", .int errors), ("diagnostic_warnings", .int warnings),
    ("complexity", .str (complexityBucket score)), ("complexity_score", .int score)]

/-- The `status` of a run that ended. -/
def probeStatus (returncode : Int) (diagnostics : List Dict) : String :=
  if returncode = 0 then "success"
  else if onlyToolLimitErrors diagnostics then "tool_limited"
  else "failed"

def yosysFailureReason (diagnostics : List Dict) (log : List Char) (returncode : Int) : String :=
  let ofSeverity (severity : String) :=
    diagnostics.find? fun item => item.getD "severity" .null == .str severity
  match (ofSeverity "error").or (ofSeverity "warning") with
  | some diagnostic =>
      let source := diagnostic.textOrEmptyAt "source"
      let line := (metric diagnostic "line").getD 0
      let place := if source ≠ "" ∧ line ≠ 0 then source ++ ":" ++ (Json.int line).pyStr ++ ": " else ""
      let message := diagnostic.textOrEmptyAt "message"
      place ++ strip (if message = "" then "Yosys reported a diagnostic" else message)
  | none =>
      let exited := "Yosys exited with code " ++ (Json.int returncode).pyStr
      match (logLines log).find? fun line => !line.isEmpty with
      | some line => exited ++ ": " ++ String.ofList (line.take 180)
      | none => exited

/-- What `run_structural_probe` has at hand when Yosys has ended. -/
structure ProbeRun where
  mode : Json
  scope : Json
  frontend : Json
  command : Json
  topModule : Json
  inputs : Json
  moduleRisks : Json
  issues : Json
  artifacts : Json
  metrics : Dict
  returncode : Int
  output : List Char

/-- The probe that `run_structural_probe` returns when Yosys has ended. -/
def probeOfRun (run : ProbeRun) : Option Dict := do
  let diagnostics := diagnosticsFromLog run.output
  let quality ← qualityFromRun run.returncode diagnostics run.metrics
  let status := probeStatus run.returncode diagnostics
  let reason := if status = "success" then ""
    else yosysFailureReason diagnostics run.output run.returncode
  return [("status", .str status), ("mode", run.mode), ("scope", run.scope), ("tool", .str "yosys"),
    ("frontend", run.frontend), ("title", .str "Yosys Precheck"), ("reason", .str reason),
    ("returncode", .int run.returncode), ("command", run.command), ("top_module", run.topModule),
    ("inputs", run.inputs), ("diagnostics", .arr (diagnostics.map .obj)),
    ("metrics", .obj run.metrics), ("module_risks", run.moduleRisks), ("quality", .obj quality),
    ("issues", run.issues), ("artifacts", run.artifacts),
    ("risk_thresholds", .obj [("max_fanout", .int 64), ("max_fanin", .int 32),
      ("max_comb_depth", .int 16)])]

/-- `report.get("yosys_precheck") or report.get("structural_probe") or {}`. -/
def precheckOf (report : Dict) : Json :=
  let value := report.getD "yosys_precheck" .null
  if value.truthy then value
  else
    let value := report.getD "structural_probe" .null
    if value.truthy then value else .obj []

/-- The gate a probe names. -/
def gateText (probe : Dict) : String :=
  match probe.getD "quality" (.obj []) with
  | .obj quality => lower (strip (Dict.textAt quality "gate"))
  | _ => ""

/-- Whether a probe with this status, gate and diagnostics blocks the review; `none` is the
`TypeError` of diagnostics that cannot be gone through. -/
def blockedBy (status gate : String) (diagnostics : Json) : Option Bool :=
  if status ∈ ["unavailable", "skipped", ""] then some false
  else if gate = "failed" then some true
  else if status ∈ ["failed", "timeout"] then
    match diagnostics with
    | .arr items => some ((items.any fun item => item.isDict && diagnosticBlocksReview item.asDict) ||
        gate == "failed")
    | .str _ | .obj _ => some (gate == "failed")
    | _ => none
  else some false

def reviewIsBlockedByYosysPrecheck (report : Dict) : Option Bool :=
  match precheckOf report with
  | .obj probe =>
      blockedBy (lower (strip (Dict.textAt probe "status"))) (gateText probe)
        (Dict.getD probe "diagnostics" (.arr []))
  | _ => some false

/-! ## 3. What is read of a log -/

/-- Every diagnostic of the log, however many. -/
def allDiagnostics (log : List Char) : List Dict := (splitlines log).filterMap diagnosticOf

theorem collectDiagnostics_eq : ∀ (lines : List (List Char)) (found : List Dict), found.length < 80 →
    collectDiagnostics lines found = found ++ (lines.filterMap diagnosticOf).take (80 - found.length)
  | [], found, _ => by simp [collectDiagnostics]
  | raw :: rest, found, hlength => by
      rw [collectDiagnostics]
      cases hraw : diagnosticOf raw with
      | none =>
        rw [List.filterMap_cons_none hraw]
        exact collectDiagnostics_eq rest found hlength
      | some diagnostic =>
        rw [List.filterMap_cons_some hraw]
        obtain ⟨n, hn⟩ : ∃ n, 80 - found.length = n + 1 := ⟨80 - found.length - 1, by omega⟩
        rw [hn, List.take_succ_cons]
        dsimp only
        split
        · rename_i hfull
          rw [List.length_append, List.length_singleton] at hfull
          have hzero : n = 0 := by omega
          rw [hzero, List.take_zero]
        · rename_i hroom
          rw [List.length_append, List.length_singleton] at hroom
          have hlength' : (found ++ [diagnostic]).length < 80 := by
            rw [List.length_append, List.length_singleton]
            omega
          rw [collectDiagnostics_eq rest _ hlength', List.append_assoc, List.singleton_append,
            List.length_append, List.length_singleton, show 80 - (found.length + 1) = n by omega]

/-- The first eighty diagnostics of the log. -/
theorem diagnosticsFromLog_eq (log : List Char) :
    diagnosticsFromLog log = (allDiagnostics log).take 80 := by
  have h := collectDiagnostics_eq (splitlines log) [] (by decide)
  rwa [List.nil_append] at h

/-! ## 4. The verdict of a failed run -/

theorem gateOf_failed {returncode : Int} {diagnostics : List Dict} (h : returncode ≠ 0) :
    gateOf returncode diagnostics = if diagnostics.any diagnosticBlocksReview then "failed"
      else "warnings" := by
  have hcount : diagnostics.countP diagnosticBlocksReview = 0 ↔
      ¬diagnostics.any diagnosticBlocksReview = true := by
    rw [List.countP_eq_zero, List.any_eq_true]
    simp
  unfold gateOf
  by_cases hany : diagnostics.any diagnosticBlocksReview = true
  · rw [if_neg fun hboth => hcount.mp hboth.2 hany, if_pos fun hzero => hcount.mp hzero hany, if_pos hany]
  · rw [if_pos ⟨h, hcount.mpr hany⟩, if_neg hany]

theorem isDict_any (diagnostics : List Dict) :
    ((diagnostics.map Json.obj).any fun item => item.isDict && diagnosticBlocksReview item.asDict) =
      diagnostics.any diagnosticBlocksReview := by
  rw [List.any_map]
  rfl

theorem blockedBy_of_any {status : String} {diagnostics : List Dict}
    (hstatus : status = "tool_limited" ∨ status = "failed") :
    blockedBy status (if diagnostics.any diagnosticBlocksReview then "failed" else "warnings")
      (.arr (diagnostics.map .obj)) = some (diagnostics.any diagnosticBlocksReview) := by
  have hnot : status ∉ ["unavailable", "skipped", ""] := by
    rcases hstatus with rfl | rfl <;> decide
  rw [blockedBy, if_neg hnot]
  cases hany : diagnostics.any diagnosticBlocksReview with
  | true => rw [if_pos rfl, if_pos rfl]
  | false =>
    rw [if_neg Bool.false_ne_true, if_neg (by decide), isDict_any, hany]
    split <;> rfl

section

variable {run : ProbeRun} {probe report : Dict}

/-- The parts of a probe that the verdict reads. -/
theorem fields_of_probeOfRun (h : probeOfRun run = some probe) :
    probe.get "status" = some (.str (probeStatus run.returncode (diagnosticsFromLog run.output))) ∧
    probe.get "diagnostics" = some (.arr ((diagnosticsFromLog run.output).map .obj)) ∧
    ∃ quality : Dict, probe.get "quality" = some (.obj quality) ∧
      quality.get "gate" = some (.str (gateOf run.returncode (diagnosticsFromLog run.output))) := by
  simp only [probeOfRun, Option.bind_eq_bind, Option.bind_eq_some_iff] at h
  obtain ⟨quality, hquality, hprobe⟩ := h
  obtain rfl := Option.some.inj hprobe
  refine ⟨rfl, rfl, quality, rfl, ?_⟩
  simp only [qualityFromRun, Option.bind_eq_bind, Option.bind_eq_some_iff] at hquality
  obtain ⟨cells, -, muxCells, -, arithmeticCells, -, memoryCells, -, hquality⟩ := hquality
  obtain rfl := Option.some.inj hquality
  rfl

theorem gateText_of_probeOfRun (h : probeOfRun run = some probe) (hreturncode : run.returncode ≠ 0) :
    gateText probe = if (diagnosticsFromLog run.output).any diagnosticBlocksReview then "failed"
      else "warnings" := by
  obtain ⟨-, -, quality, hquality, hgate⟩ := fields_of_probeOfRun h
  rw [gateText, Dict.getD, hquality, Option.getD_some]
  dsimp only
  rw [Dict.textAt, Dict.getD, hgate, Option.getD_some]
  show lower (strip (gateOf _ _)) = _
  rw [gateOf_failed hreturncode]
  split <;> decide

/-- A failed run blocks the review exactly when one of its diagnostics does. -/
theorem blocked_of_probeOfRun (h : probeOfRun run = some probe) (hreturncode : run.returncode ≠ 0)
    (hreport : report.get "yosys_precheck" = some (.obj probe)) :
    reviewIsBlockedByYosysPrecheck report =
      some ((diagnosticsFromLog run.output).any diagnosticBlocksReview) := by
  obtain ⟨hstatus, hdiagnostics, -⟩ := fields_of_probeOfRun h
  have hnonempty : (Json.obj probe).truthy = true := by
    cases probe with
    | nil => cases hstatus
    | cons _ _ => rfl
  have hprecheck : precheckOf report = .obj probe := by
    unfold precheckOf
    rw [Dict.getD, hreport, Option.getD_some]
    exact if_pos hnonempty
  have hstatusText : lower (strip (probe.textAt "status")) = "tool_limited" ∨
      lower (strip (probe.textAt "status")) = "failed" := by
    rw [Dict.textAt, Dict.getD, hstatus]
    show lower (strip (probeStatus _ _)) = _ ∨ lower (strip (probeStatus _ _)) = _
    unfold probeStatus
    rw [if_neg hreturncode]
    split
    · exact .inl (by decide)
    · exact .inr (by decide)
  have hgateText := gateText_of_probeOfRun h hreturncode
  have hitems : probe.getD "diagnostics" (.arr []) =
      .arr ((diagnosticsFromLog run.output).map .obj) := by
    rw [Dict.getD, hdiagnostics, Option.getD_some]
  rw [reviewIsBlockedByYosysPrecheck, hprecheck]
  dsimp only
  rw [hgateText, hitems]
  exact blockedBy_of_any hstatusText

end

/-! ## 5. The report that carries the probe -/

theorem precheck_of_merge {report probe merged : Dict} (hne : probe ≠ [])
    (h : mergeStructuralProbe report probe = some merged) :
    merged.get "yosys_precheck" = some (.obj probe) := by
  unfold mergeStructuralProbe at h
  rw [if_neg hne] at h
  simp only [Option.bind_eq_bind, Option.bind_eq_some_iff] at h
  obtain ⟨issues, -, items, -, found, -, lines, -, metrics, -, hmerged⟩ := h
  obtain rfl := Option.some.inj hmerged
  rw [Dict.get_set_ne _ _ (by decide), Dict.get_set_ne _ _ (by decide), Dict.get_set_ne _ _ (by decide),
    Dict.get_set_self]

theorem precheck_of_finalize {env : Env} {homeless : String → Bool} {workspace : Workspace}
    {report out : Dict} {previous : Option Dict} {waivers : Json}
    (h : finalizeReviewReport env homeless workspace report previous waivers = some out) :
    out.get "yosys_precheck" = report.get "yosys_precheck" := by
  simp only [finalizeReviewReport, Option.bind_eq_bind, Option.bind_eq_some_iff] at h
  obtain ⟨owners, -, before, -, decorated, -, actionable, -, summary, -, toolLimit, -, hout⟩ := h
  obtain rfl := Option.some.inj hout
  exact Dict.get_update_of_get_none _ _ _ rfl

/-! ## 6. Errors that are masked -/

/-- The line reports something. -/
def isReporting (raw : List Char) : Bool := (diagnosticSeverity (stripBy isSpace raw)).isSome

/-- The line reports an error that is not the tool's own limit. -/
def ReportsError (raw : List Char) : Prop :=
  diagnosticSeverity (stripBy isSpace raw) = some "error" ∧
    diagnosticCategory (stripBy isSpace raw) ≠ "tool-limit"

instance (raw : List Char) : Decidable (ReportsError raw) :=
  inferInstanceAs (Decidable (_ ∧ _))

/-- The lines of the log that report something. -/
def reportingLines (log : List Char) : List (List Char) := (splitlines log).filter isReporting

theorem diagnosticCategory_mem (line : List Char) : diagnosticCategory line ∈
    ["tool-limit", "syntax", "hierarchy", "combinational", "structural", "tooling"] := by
  unfold diagnosticCategory
  dsimp only
  repeat' split
  all_goals decide

theorem diagnosticSeverity_cases {line : List Char} {severity : String}
    (h : diagnosticSeverity line = some severity) : severity = "error" ∨ severity = "warning" := by
  unfold diagnosticSeverity at h
  dsimp only at h
  split at h
  · exact .inl (Option.some.inj h).symm
  · split at h
    · exact .inr (Option.some.inj h).symm
    · cases h

theorem blocks_diagnosticOf {raw : List Char} {diagnostic : Dict} (h : diagnosticOf raw = some diagnostic) :
    diagnosticBlocksReview diagnostic = true ↔ ReportsError raw := by
  obtain ⟨severity, hseverity, rfl⟩ := Option.map_eq_some_iff.mp h
  have hcategory : lower (diagnosticCategory (stripBy isSpace raw)) =
      diagnosticCategory (stripBy isSpace raw) := by
    have hall : ∀ category ∈ ["tool-limit", "syntax", "hierarchy", "combinational", "structural",
        "tooling"], lower category = category := by decide
    exact hall _ (diagnosticCategory_mem _)
  rw [ReportsError, hseverity]
  show (lower severity == "error" && lower (diagnosticCategory (stripBy isSpace raw)) != "tool-limit") =
    true ↔ _
  rw [hcategory, Bool.and_eq_true, bne_iff_ne, beq_iff_eq, Option.some.injEq]
  rcases diagnosticSeverity_cases hseverity with rfl | rfl
  · exact and_congr_left fun _ => iff_of_true (by decide) rfl
  · exact and_congr_left fun _ => iff_of_false (by decide) (by decide)

/-- The diagnostics of the first lines that report something are the first diagnostics. -/
theorem take_filterMap {α β : Type} (f : α → Option β) : ∀ (items : List α) (n : Nat),
    (items.filterMap f).take n = ((items.filter fun a => (f a).isSome).take n).filterMap f
  | [], n => by simp
  | a :: rest, n => by
      cases ha : f a with
      | none =>
        rw [List.filterMap_cons_none ha, List.filter_cons_of_neg (by simp [ha])]
        exact take_filterMap f rest n
      | some b =>
        rw [List.filterMap_cons_some ha, List.filter_cons_of_pos (by simp [ha])]
        cases n with
        | zero => rfl
        | succ n =>
          rw [List.take_succ_cons, List.take_succ_cons, List.filterMap_cons_some ha,
            take_filterMap f rest n]

/-- A diagnostic that is read blocks exactly when an error stands in the first eighty lines. -/
theorem any_diagnosticsFromLog (log : List Char) :
    (diagnosticsFromLog log).any diagnosticBlocksReview = true ↔
      ∃ raw ∈ (reportingLines log).take 80, ReportsError raw := by
  have hlines : (splitlines log).filter (fun raw => (diagnosticOf raw).isSome) = reportingLines log :=
    List.filter_congr fun raw _ => by rw [diagnosticOf, Option.isSome_map, isReporting]
  rw [diagnosticsFromLog_eq, allDiagnostics, take_filterMap, hlines, List.any_eq_true]
  constructor
  · rintro ⟨diagnostic, hdiagnostic, hblocks⟩
    obtain ⟨raw, hraw, heq⟩ := List.mem_filterMap.mp hdiagnostic
    exact ⟨raw, hraw, (blocks_diagnosticOf heq).mp hblocks⟩
  · rintro ⟨raw, hraw, herror⟩
    have hsome : (diagnosticOf raw).isSome = true := by
      rw [diagnosticOf, Option.isSome_map, herror.1]
      rfl
    obtain ⟨diagnostic, heq⟩ := Option.isSome_iff_exists.mp hsome
    exact ⟨diagnostic, List.mem_filterMap.mpr ⟨raw, hraw, heq⟩, (blocks_diagnosticOf heq).mpr herror⟩

/-- The gate of a probe is failed, and every report it is merged into blocks the review, as it is and
when it is final. -/
def Blocks (env : Env) (homeless : String → Bool) (workspace : Workspace) (probe : Dict) : Prop :=
  gateText probe = "failed" ∧ ∀ report merged, mergeStructuralProbe report probe = some merged →
    reviewIsBlockedByYosysPrecheck merged = some true ∧
    ∀ previous waivers out,
      finalizeReviewReport env homeless workspace merged previous waivers = some out →
      reviewIsBlockedByYosysPrecheck out = some true

section

variable {env : Env} {homeless : String → Bool} {workspace : Workspace} {run : ProbeRun} {probe : Dict}

/-- An error of a failed run blocks the review exactly when it, or another one, stands among the first
eighty lines that report something. -/
theorem error_unmasked_iff (hreturncode : run.returncode ≠ 0) (h : probeOfRun run = some probe) :
    ((∃ raw ∈ splitlines run.output, ReportsError raw) → Blocks env homeless workspace probe) ↔
      (∀ raw ∈ splitlines run.output, ¬ReportsError raw) ∨
        ∃ raw ∈ (reportingLines run.output).take 80, ReportsError raw := by
  have hgate := gateText_of_probeOfRun h hreturncode
  rw [← any_diagnosticsFromLog]
  constructor
  · intro hblocks
    by_cases herror : ∃ raw ∈ splitlines run.output, ReportsError raw
    · have hfailed := (hblocks herror).1
      rw [hgate] at hfailed
      split at hfailed
      · exact .inr ‹_›
      · exact absurd hfailed (by decide)
    · exact .inl fun raw hraw hreports => herror ⟨raw, hraw, hreports⟩
  · rintro (hnone | hany) ⟨raw, hraw, hreports⟩
    · exact absurd hreports (hnone raw hraw)
    · have hne : probe ≠ [] := by
        rintro rfl
        cases (fields_of_probeOfRun h).1
      refine ⟨by rw [hgate, if_pos hany], fun report merged hmerge => ?_⟩
      have hprecheck := precheck_of_merge hne hmerge
      refine ⟨by rw [blocked_of_probeOfRun h hreturncode hprecheck, hany], ?_⟩
      intro previous waivers out hout
      rw [blocked_of_probeOfRun h hreturncode ((precheck_of_finalize hout).trans hprecheck), hany]

end

/-- A run that fails with this log. -/
def failedRun (output : List Char) : ProbeRun where
  mode := .null
  scope := .str "cpu"
  frontend := .null
  command := .arr []
  topModule := .str "top"
  inputs := .obj []
  moduleRisks := .arr []
  issues := .arr []
  artifacts := .obj []
  metrics := []
  returncode := 1
  output := output

/-- Eighty warnings, and the error that ended the run. -/
def maskedLog : List Char := (List.replicate 80 "Warning: w\n".toList).flatten ++ "ERROR: e".toList

theorem reportsError_last : ReportsError "ERROR: e".toList := by
  constructor
  · decide +kernel
  · decide +kernel

theorem failedRun_returns (output : List Char) : (probeOfRun (failedRun output)).isSome = true := rfl

theorem maskedLog_reports : "ERROR: e".toList ∈ splitlines (failedRun maskedLog).output := by
  decide +kernel

theorem maskedLog_unseen : ¬ ∃ raw ∈ (reportingLines (failedRun maskedLog).output).take 80, ReportsError raw := by
  decide +kernel

theorem masked_error : ¬ ∀ (env : Env) (homeless : String → Bool) (workspace : Workspace)
    (run : ProbeRun) (probe : Dict), run.returncode ≠ 0 → probeOfRun run = some probe →
    (∃ raw ∈ splitlines run.output, ReportsError raw) → Blocks env homeless workspace probe := by
  intro hclaim
  obtain ⟨probe, hprobe⟩ := Option.isSome_iff_exists.mp (failedRun_returns maskedLog)
  have hreturncode : (failedRun maskedLog).returncode ≠ 0 := by decide
  have hblocks := hclaim (.ofNodes []) (fun _ => false) [] _ probe hreturncode hprobe
    ⟨_, maskedLog_reports, reportsError_last⟩
  have hgate := gateText_of_probeOfRun hprobe hreturncode
  rw [if_neg fun hany => maskedLog_unseen ((any_diagnosticsFromLog _).mp hany)] at hgate
  have hsame : "failed" = "warnings" := hblocks.1.symm.trans hgate
  revert hsame
  decide

/-- The same error alone blocks the review. -/
theorem error_unmasked_alone : ∃ probe, probeOfRun (failedRun "ERROR: e".toList) = some probe ∧
    Blocks (.ofNodes []) (fun _ => false) [] probe := by
  obtain ⟨probe, hprobe⟩ := Option.isSome_iff_exists.mp (failedRun_returns "ERROR: e".toList)
  refine ⟨probe, hprobe, (error_unmasked_iff (by decide) hprobe).mpr (.inr ?_) ?_⟩
  · exact ⟨_, by decide +kernel, reportsError_last⟩
  · exact ⟨_, by decide +kernel, reportsError_last⟩

end EccFe.Tools.Review
