/-
EccFe.Analysis.QualityGate — the quality status of a step, `write_step_qor` of
`fecompiler/analysis/qor.py`, as far as its builders decide it.

A builder reads the report of its step, says whether the report can be used, and sets gates.
`quality_pass_iff` says of every report when the recorded status is `pass`: the gate fails closed,
a report that is absent, malformed or not clean never passes.

`none` stands for a builder that raises. Metrics, hotspots and the comparison record do not reach
the status and are left out.
-/
import EccFe.Analysis.SimulationScore

namespace EccFe.Analysis

open Python Engine Tools.RtlInputs Tools.RtlOwnership

/-! ## 1. Gates and the status -/

/-- What `_gate` says about one gate. -/
structure Gate where
  id : String
  state : String
  deriving DecidableEq

/-- The state that `_gate` gives without `state`. -/
def gateOf (id : String) (passed : Bool) : Gate := ⟨id, if passed then "pass" else "failed"⟩

structure QorResult where
  sourceAvailable : Bool := false
  gates : List Gate := []

/-- `quality_status` in `write_step_qor`. -/
def QorResult.qualityStatus (result : QorResult) (success : Bool) : String :=
  if !result.sourceAvailable then "incomplete"
  else if result.gates.any fun gate => gate.state == "failed" then "blocked"
  else if (result.gates.any fun gate => ["incomplete", "unavailable"].contains gate.state) || !success
    then "incomplete"
  else "pass"

/-! ## 2. The builders -/

def validCountFields (d : Dict) (fields : List String) : Bool :=
  fields.all fun field => (countAt? d field).isSome

/-- `_number(value) == expected`; an infinity equals no number. -/
def numberIs (F : FloatModel) (v : Json) (expected : Int) : Bool :=
  match v with
  | .int n => n == expected
  | .float x => F.floatValue? x == some (expected : ℚ)
  | _ => expected == 0

def passingContractStatuses : List String := ["module_only", "not_required", "ok", "pass", "success"]

def failingContractStatuses : List String := ["error", "fail", "failed"]

def validPrepareContract (item : Dict) : Bool :=
  match text? (item.getD "id" .null), text? (item.getD "status" .null) with
  | some id, some status => strip id ≠ "" &&
      (passingContractStatuses ++ failingContractStatuses).contains (lower (strip status))
  | _, _ => false

/-- The contract is one of the `failures` of `_prepare_qor`; its status is not stripped there. -/
def contractFails (item : Dict) : Bool :=
  !passingContractStatuses.contains (lower (item.textAt "status"))

def prepareQor (report : Dict) : QorResult where
  sourceAvailable := validCountFields report ["rtl_files", "incdirs", "defines"] &&
    (allRecords? (report.getD "contracts" .null)).any fun contracts =>
      !contracts.isEmpty && contracts.all validPrepareContract
  gates := [gateOf "frontend_contracts"
    ((records (report.getD "contracts" .null)).countP contractFails == 0)]

def reviewPrecheckGateState (precheck : Dict) : String :=
  let status := statusText precheck
  let qualityGate := lower (strip ((precheck.dictAt "quality").textAt "gate"))
  let hasBlockingDiagnostic := (records (precheck.getD "diagnostics" .null)).any fun item =>
    lower (item.textAt "severity") == "error" && lower (item.textAt "category") != "tool-limit"
  if ["unavailable", "skipped", ""].contains status then "incomplete"
  else if qualityGate == "failed" then "failed"
  else if ["failed", "timeout"].contains status && hasBlockingDiagnostic then "failed"
  else if status == "success" then "pass"
  else "incomplete"

/-- The precheck record of a review report: in the report itself, else in its summary. -/
def reviewPrecheck (report : Dict) : Dict :=
  let holds (d : Dict) (key : String) : Bool := (d.getD key .null).isDict
  match ["yosys_precheck", "structural_probe"].find? (holds report) with
  | some key => report.dictAt key
  | none =>
      let summary := report.dictAt "summary"
      match ["yosys_precheck", "structural_probe"].find? (holds summary) with
      | some key => summary.dictAt key
      | none => []

variable (F : FloatModel)

def reviewQor (workspace : Workspace) (report : Dict) : Option QorResult := do
  let _ownership ← (userRtlOwnership workspace).toOption
  let summary := report.dictAt "summary"
  let precheck := reviewPrecheck report
  return {
    sourceAvailable :=
      validCountFields summary ["actionable_errors", "actionable_warnings"] && !precheck.isEmpty
    gates := [
      gateOf "no_actionable_errors" (numberIs F (summary.getD "actionable_errors" .null) 0),
      ⟨"yosys_precheck", reviewPrecheckGateState precheck⟩] }

def elabQor (report : Dict) : QorResult :=
  let summary := report.dictAt "summary"
  { sourceAvailable :=
      validCountFields summary ["errors", "warnings", "modules", "unresolved_modules"] &&
        (booleanAt? summary "top_found").isSome
    gates := [
      gateOf "no_elaboration_errors" (numberIs F (summary.getD "errors" .null) 0),
      gateOf "all_modules_resolved" (numberIs F (summary.getD "unresolved_modules" .null) 0),
      gateOf "top_module_resolved" (summary.getD "top_found" .null).isTrue] }

def lintQor (workspace : Workspace) (report : Dict) : Option QorResult := do
  let ownership ← (userRtlOwnership workspace).toOption
  let summary := report.dictAt "summary"
  let errorField := ownership ++ "_errors"
  return {
    sourceAvailable := validCountFields summary [errorField, ownership ++ "_warnings", "warnings"]
    gates := [gateOf ("no_" ++ ownership ++ "_lint_errors")
      (numberIs F (summary.getD errorField .null) 0)] }

/-- The case is one of the `difftest_cases` of `_sim_qor`. -/
def difftestCase (item : Dict) : Bool := ((difftestOf item).getD "enabled" .null).truthy

/-- The cases of a simulation report when `valid_case_output` holds. -/
def validCases (report : Dict) : Except ArithmeticError (Option (List Dict)) :=
  match allRecords? (report.getD "cases" .null) with
  | none => .ok none
  | some cases =>
      if cases.isEmpty then .ok none
      else (cases.allM (validSimCase F)).map fun valid => if valid then some cases else none

/-- The gates of `_sim_qor` for its cases. -/
def simGates (cases : List Dict) : List Gate :=
  let difftestCases := cases.filter difftestCase
  let difftestFailures := difftestCases.countP fun item => !difftestPassed item
  [gateOf "all_required_cases_pass" (cases.length - cases.countP caseOk == 0),
    gateOf "simulation_cases_present" (decide (0 < cases.length))] ++
    if difftestCases.isEmpty then []
    else [gateOf "difftest_matches_reference" (difftestFailures == 0)]

def simQor (report : Dict) : Option QorResult :=
  (validCases F report).toOption.map fun valid =>
    { sourceAvailable := valid.isSome, gates := simGates (valid.getD []) }

/-- `_STEP_BUILDERS[str(step.name)]` on the report it reads; `report` is `_read_record(path)`, which is
`none` for a file that is absent, unreadable or no JSON object. -/
def stepQor (workspace : Workspace) (name : String) (report : Option Dict) : Option QorResult :=
  match report with
  | none => some {}
  | some report =>
      if name = "prepare" then some (prepareQor report)
      else if name = "review" then reviewQor F workspace report
      else if name = "elab" then some (elabQor F report)
      else if name = "lint" then lintQor F workspace report
      else if name = "sim" then simQor F report
      else some {}

/-- The `quality_status` that `write_step_qor` records. -/
def writeStepQor (workspace : Workspace) (name : String) (report : Option Dict) (success : Bool) :
    Option String :=
  (stepQor F workspace name report).map fun result => result.qualityStatus success

/-! ## 3. Clean reports -/

structure PassingContract (item : Dict) : Prop where
  id : ∃ id, item.getD "id" .null = .str id ∧ strip id ≠ ""
  status : ∃ status, item.getD "status" .null = .str status ∧ lower status ∈ passingContractStatuses

structure PrepareClean (report : Dict) : Prop where
  counts : ∀ field ∈ ["rtl_files", "incdirs", "defines"], (countAt? report field).isSome = true
  contracts : ∃ items : List Dict, report.getD "contracts" .null = .arr (items.map .obj) ∧
    items ≠ [] ∧ ∀ item ∈ items, PassingContract item

structure ReviewClean (workspace : Workspace) (report : Dict) : Prop where
  ownership : ∃ ownership, userRtlOwnership workspace = .ok ownership
  errors : countAt? (report.dictAt "summary") "actionable_errors" = some 0
  warnings : (countAt? (report.dictAt "summary") "actionable_warnings").isSome = true
  precheck : reviewPrecheck report ≠ [] ∧ statusText (reviewPrecheck report) = "success" ∧
    lower (strip (((reviewPrecheck report).dictAt "quality").textAt "gate")) ≠ "failed"

structure ElabClean (report : Dict) : Prop where
  errors : countAt? (report.dictAt "summary") "errors" = some 0
  unresolved : countAt? (report.dictAt "summary") "unresolved_modules" = some 0
  counts : ∀ field ∈ ["warnings", "modules"], (countAt? (report.dictAt "summary") field).isSome = true
  topFound : (report.dictAt "summary").getD "top_found" .null = .bool true

structure LintClean (workspace : Workspace) (report : Dict) : Prop where
  owned : ∃ ownership, userRtlOwnership workspace = .ok ownership ∧
    countAt? (report.dictAt "summary") (ownership ++ "_errors") = some 0 ∧
    (countAt? (report.dictAt "summary") (ownership ++ "_warnings")).isSome = true
  warnings : (countAt? (report.dictAt "summary") "warnings").isSome = true

/-- A case that passed, and whose differential test passed where it was enabled. -/
structure PassingCase (item : Dict) : Prop where
  valid : validSimCase F item = .ok true
  ok : item.getD "ok" .null = .bool true
  difftest : difftestCase item = true → difftestPassed item = true

structure SimClean (report : Dict) : Prop where
  cases : ∃ items : List Dict, report.getD "cases" .null = .arr (items.map .obj) ∧
    items ≠ [] ∧ ∀ item ∈ items, PassingCase F item

/-- The report of a step proves the step clean. -/
def Clean (workspace : Workspace) (name : String) (report : Dict) : Prop :=
  name = "prepare" ∧ PrepareClean report ∨ name = "review" ∧ ReviewClean workspace report ∨
    name = "elab" ∧ ElabClean report ∨ name = "lint" ∧ LintClean workspace report ∨
    name = "sim" ∧ SimClean F report

/-! ## 4. When a status is `pass` -/

/-- The gate does not keep the status from `pass`. -/
def Gate.Clears (gate : Gate) : Prop :=
  gate.state ≠ "failed" ∧ gate.state ≠ "incomplete" ∧ gate.state ≠ "unavailable"

/-- A record passes when its source is there, the step succeeded and no gate objects. -/
theorem qualityStatus_eq_pass (result : QorResult) (success : Bool) :
    result.qualityStatus success = "pass" ↔
      result.sourceAvailable = true ∧ success = true ∧ ∀ gate ∈ result.gates, gate.Clears := by
  unfold QorResult.qualityStatus
  by_cases hsource : result.sourceAvailable = true
  · rw [if_neg (by simp [hsource])]
    by_cases hfailed : (result.gates.any fun gate => gate.state == "failed") = true
    · rw [if_pos hfailed]
      obtain ⟨gate, hgate, hstate⟩ := List.any_eq_true.1 hfailed
      refine ⟨fun h => absurd h (by decide), fun h => ?_⟩
      exact absurd (by simpa using hstate) (h.2.2 gate hgate).1
    · rw [if_neg hfailed]
      by_cases hopen : ((result.gates.any fun gate =>
          ["incomplete", "unavailable"].contains gate.state) || !success) = true
      · rw [if_pos hopen]
        refine ⟨fun h => absurd h (by decide), fun h => ?_⟩
        obtain ⟨-, hsuccess, hclears⟩ := h
        rw [hsuccess, Bool.not_true, Bool.or_false, List.any_eq_true] at hopen
        obtain ⟨gate, hgate, hstate⟩ := hopen
        have hclear := hclears gate hgate
        simp only [List.contains_eq_mem, List.mem_cons, List.not_mem_nil, or_false,
          decide_eq_true_eq] at hstate
        rcases hstate with hincomplete | hunavailable
        · exact absurd hincomplete hclear.2.1
        · exact absurd hunavailable hclear.2.2
      · rw [if_neg hopen]
        rw [Bool.not_eq_true, Bool.or_eq_false_iff, Bool.not_eq_false'] at hopen
        refine ⟨fun _ => ⟨hsource, hopen.2, fun gate hgate => ?_⟩, fun _ => rfl⟩
        have hnotFailed : gate.state ≠ "failed" := by
          intro hstate
          exact hfailed (List.any_eq_true.2 ⟨gate, hgate, by simp [hstate]⟩)
        have hnotOpen := List.any_eq_false.1 hopen.1 gate hgate
        simp only [List.contains_eq_mem, List.mem_cons, List.not_mem_nil, or_false,
          decide_eq_true_eq, not_or] at hnotOpen
        exact ⟨hnotFailed, hnotOpen⟩
  · rw [if_pos (by simp [hsource])]
    exact ⟨fun h => absurd h (by decide), fun h => absurd h.1 hsource⟩

/-- A gate clears when its check passed. -/
@[simp] theorem gateOf_clears (id : String) (passed : Bool) :
    (gateOf id passed).Clears ↔ passed = true := by
  cases passed <;> simp [Gate.Clears, gateOf]

/-- The precheck gate clears on a success whose quality gate did not fail. -/
theorem reviewPrecheckGateState_clears (id : String) (precheck : Dict) :
    (Gate.mk id (reviewPrecheckGateState precheck)).Clears ↔
      statusText precheck = "success" ∧
        lower (strip ((precheck.dictAt "quality").textAt "gate")) ≠ "failed" := by
  unfold Gate.Clears reviewPrecheckGateState
  dsimp only
  generalize statusText precheck = status
  generalize lower (strip ((precheck.dictAt "quality").textAt "gate")) = verdict
  split
  · rename_i hquiet
    refine ⟨fun h => absurd rfl h.2.1, fun h => ?_⟩
    rw [h.1] at hquiet
    simp at hquiet
  · split
    · rename_i hverdict
      exact ⟨fun h => absurd rfl h.1, fun h => absurd (by simpa using hverdict) h.2⟩
    · rename_i hverdict
      split
      · rename_i hblocked
        refine ⟨fun h => absurd rfl h.1, fun h => ?_⟩
        rw [h.1] at hblocked
        simp at hblocked
      · split
        · rename_i hsuccess
          exact ⟨fun _ => ⟨by simpa using hsuccess, by simpa using hverdict⟩, fun _ => by decide⟩
        · rename_i hsuccess
          exact ⟨fun h => absurd rfl h.2.1, fun h => absurd h.1 (by simpa using hsuccess)⟩

variable {F}

/-- A count compares with 0 as the number it is. -/
theorem numberIs_zero_iff {v : Json} (h : (count? v).isSome = true) :
    numberIs F v 0 = true ↔ count? v = some 0 := by
  cases v with
  | int n =>
    unfold count? at h ⊢
    dsimp only at h ⊢
    split at h
    · rename_i hn
      rw [if_pos hn]
      simp only [numberIs, beq_iff_eq, Option.some.injEq]
      omega
    · simp at h
  | null | bool | float | str | arr | obj => simp [count?] at h

theorem isSome_of_eq_zero {d : Dict} {field : String} (h : countAt? d field = some 0) :
    (countAt? d field).isSome = true := by rw [h]; rfl

theorem records_obj (fields : Dict) (values : List Json) :
    records (.arr (.obj fields :: values)) = fields :: records (.arr values) := rfl

theorem length_records_le (values : List Json) : (records (.arr values)).length ≤ values.length :=
  List.length_filterMap_le _ values

theorem records_map (items : List Dict) : records (.arr (items.map .obj)) = items := by
  induction items with
  | nil => rfl
  | cons item items ih => rw [List.map_cons, records_obj, ih]

/-- A list that loses no item on the way is a list of records. -/
theorem eq_map_records {values : List Json}
    (h : (records (.arr values)).length = values.length) :
    values = (records (.arr values)).map .obj := by
  induction values with
  | nil => rfl
  | cons value values ih =>
    have hle := length_records_le values
    cases value with
    | obj fields =>
      rw [records_obj, List.length_cons, List.length_cons, Nat.add_right_cancel_iff] at h
      rw [records_obj, List.map_cons, ← ih h]
    | null | bool | int | float | str | arr =>
      have hskip : (records (.arr values)).length = values.length + 1 := h
      omega

theorem allRecords?_eq_some {v : Json} {items : List Dict} :
    allRecords? v = some items ↔ v = .arr (items.map .obj) := by
  constructor
  · intro h
    cases v with
    | arr values =>
      unfold allRecords? at h
      dsimp only at h
      split at h
      · rename_i hlength
        cases h
        rw [← eq_map_records hlength]
      · cases h
    | null | bool | int | float | str | obj => cases h
  · intro h
    subst h
    simp [allRecords?, records_map]

theorem lowerChar_of_isSpace {c : Char} (h : isSpace c = true) : lowerChar c = [c] := by
  have hupper : ¬ (65 ≤ c.toNat ∧ c.toNat ≤ 90) ∧ c.toNat ≠ 0x212A ∧ c.toNat ≠ 0x130 := by
    simp only [isSpace, Bool.or_eq_true, Bool.and_eq_true, decide_eq_true_eq, beq_iff_eq] at h
    omega
  obtain ⟨hletter, hkelvin, hdotted⟩ := hupper
  have hrange : ¬ (('A' ≤ c && c ≤ 'Z') = true) := by
    rw [Bool.and_eq_true, decide_eq_true_eq, decide_eq_true_eq]
    exact hletter
  unfold lowerChar
  rw [if_neg hrange, if_neg (by simpa using hkelvin), if_neg (by simpa using hdotted)]

/-- Text with blanks around it does not become one of these words in lower case. -/
theorem strip_of_lower_mem {s : String} {words : List String} (h : lower s ∈ words)
    (hwords : ∀ word ∈ words, ∀ c ∈ word.toList, isSpace c = false) : strip s = s := by
  refine strip_of_forall fun c hc => ?_
  by_contra hspace
  rw [Bool.not_eq_false] at hspace
  have hmem : c ∈ (lower s).toList := by
    rw [lower, String.toList_ofList, lowerText, List.mem_flatMap]
    exact ⟨c, hc, by simp [lowerChar_of_isSpace hspace]⟩
  have hblank := hwords _ h c hmem
  rw [hspace] at hblank
  cases hblank

theorem textAt_of_getD {d : Dict} {key s : String} (h : d.getD key .null = .str s) :
    d.textAt key = s := by
  unfold Dict.getD at h
  unfold Dict.textAt Dict.getD
  cases hget : d.get key with
  | none =>
    rw [hget] at h
    cases h
  | some v =>
    rw [hget] at h
    rw [Option.getD_some] at h ⊢
    rw [h, Json.pyStr_str]

theorem eq_str_of_text? {v : Json} {s : String} (h : text? v = some s) : v = .str s := by
  cases v with
  | str t =>
    cases h
    rfl
  | null | bool | int | float | arr | obj => cases h

theorem passingContract_iff (item : Dict) :
    PassingContract item ↔ validPrepareContract item = true ∧ contractFails item = false := by
  unfold validPrepareContract contractFails
  constructor
  · intro h
    obtain ⟨id, hid, hname⟩ := h.id
    obtain ⟨status, hstatus, hpassing⟩ := h.status
    have hstrip : strip status = status := strip_of_lower_mem hpassing (by decide)
    rw [textAt_of_getD hstatus, hid, hstatus]
    simp [text?, hname, hstrip, hpassing]
  · intro h
    obtain ⟨hvalid, hpasses⟩ := h
    split at hvalid
    · rename_i id status hid hstatus
      have hitem := eq_str_of_text? hstatus
      rw [textAt_of_getD hitem] at hpasses
      exact
        { id := ⟨id, eq_str_of_text? hid, by simpa using (Bool.and_eq_true_iff.1 hvalid).1⟩
          status := ⟨status, hitem, by simpa using hpasses⟩ }
    · cases hvalid

/-- A preparation report passes exactly when it is clean. -/
theorem prepareQor_pass_iff (report : Dict) (success : Bool) :
    (prepareQor report).qualityStatus success = "pass" ↔ success = true ∧ PrepareClean report := by
  rw [qualityStatus_eq_pass]
  simp only [prepareQor, List.mem_singleton, forall_eq, gateOf_clears, Bool.and_eq_true,
    Option.any_eq_true, beq_iff_eq, List.countP_eq_zero]
  constructor
  · intro h
    obtain ⟨⟨hcounts, contracts, hcontracts, hnonempty, hvalid⟩, hsuccess, hgate⟩ := h
    have hraw := allRecords?_eq_some.1 hcontracts
    rw [hraw, records_map] at hgate
    refine ⟨hsuccess, ⟨by simpa [validCountFields] using hcounts, contracts, hraw,
      by simpa using hnonempty, fun item hitem => ?_⟩⟩
    rw [passingContract_iff]
    exact ⟨List.all_eq_true.1 hvalid item hitem, by simpa using hgate item hitem⟩
  · intro h
    obtain ⟨hsuccess, hcounts, contracts, hraw, hnonempty, hpassing⟩ := h
    refine ⟨⟨by simpa [validCountFields] using hcounts, contracts, allRecords?_eq_some.2 hraw,
      by simpa using hnonempty, List.all_eq_true.2 fun item hitem => ?_⟩, hsuccess, ?_⟩
    · exact ((passingContract_iff item).1 (hpassing item hitem)).1
    · rw [hraw, records_map]
      intro item hitem
      simp [((passingContract_iff item).1 (hpassing item hitem)).2]

variable (F)

/-- A review report passes exactly when it is clean. -/
theorem reviewQor_pass_iff (workspace : Workspace) (report : Dict) (success : Bool) :
    (reviewQor F workspace report).map (·.qualityStatus success) = some "pass" ↔
      success = true ∧ ReviewClean workspace report := by
  unfold reviewQor
  cases howner : userRtlOwnership workspace with
  | error e =>
    refine ⟨fun h => by simp [Except.toOption] at h, fun h => ?_⟩
    obtain ⟨ownership, hok⟩ := h.2.ownership
    rw [howner] at hok
    cases hok
  | ok ownership =>
    simp only [Except.toOption, Option.bind_eq_bind, Option.bind_some, Option.pure_def, Option.map_some,
      Option.some.injEq]
    rw [qualityStatus_eq_pass]
    simp only [validCountFields, List.all_cons, List.all_nil, Bool.and_true, Bool.and_eq_true,
      List.mem_cons, List.not_mem_nil, or_false, forall_eq_or_imp, forall_eq, gateOf_clears,
      reviewPrecheckGateState_clears]
    constructor
    · intro h
      obtain ⟨⟨⟨herrors, hwarnings⟩, hprecheck⟩, hsuccess, hnone, hstatus, hgate⟩ := h
      exact ⟨hsuccess, ⟨ownership, howner⟩, (numberIs_zero_iff herrors).1 hnone, hwarnings,
        by simpa using hprecheck, hstatus, hgate⟩
    · intro h
      obtain ⟨hsuccess, -, herrors, hwarnings, hprecheck, hstatus, hgate⟩ := h
      have herrors' := isSome_of_eq_zero herrors
      exact ⟨⟨⟨herrors', hwarnings⟩, by simpa using hprecheck⟩, hsuccess,
        (numberIs_zero_iff herrors').2 herrors, hstatus, hgate⟩

/-- An elaboration report passes exactly when it is clean. -/
theorem elabQor_pass_iff (report : Dict) (success : Bool) :
    (elabQor F report).qualityStatus success = "pass" ↔ success = true ∧ ElabClean report := by
  rw [qualityStatus_eq_pass]
  simp only [elabQor, validCountFields, List.all_cons, List.all_nil, Bool.and_true, Bool.and_eq_true,
    List.mem_cons, List.not_mem_nil, or_false, forall_eq_or_imp, forall_eq, gateOf_clears]
  constructor
  · intro h
    obtain ⟨⟨⟨herrors, hwarnings, hmodules, hunresolved⟩, htop⟩, hsuccess, hnone, hresolved, hfound⟩ := h
    refine ⟨hsuccess, (numberIs_zero_iff herrors).1 hnone, (numberIs_zero_iff hunresolved).1 hresolved,
      by simp [hwarnings, hmodules], ?_⟩
    simpa [Json.isTrue] using hfound
  · intro h
    obtain ⟨hsuccess, herrors, hunresolved, hcounts, htop⟩ := h
    have hwarnings := hcounts "warnings" (by simp)
    have hmodules := hcounts "modules" (by simp)
    have herrors' := isSome_of_eq_zero herrors
    have hunresolved' := isSome_of_eq_zero hunresolved
    refine ⟨⟨⟨herrors', hwarnings, hmodules, hunresolved'⟩, ?_⟩, hsuccess,
      (numberIs_zero_iff herrors').2 herrors, (numberIs_zero_iff hunresolved').2 hunresolved, ?_⟩
    · simp [booleanAt?, htop, boolean?]
    · simp [htop, Json.isTrue]

/-- A lint report passes exactly when it is clean. -/
theorem lintQor_pass_iff (workspace : Workspace) (report : Dict) (success : Bool) :
    (lintQor F workspace report).map (·.qualityStatus success) = some "pass" ↔
      success = true ∧ LintClean workspace report := by
  unfold lintQor
  cases howner : userRtlOwnership workspace with
  | error e =>
    refine ⟨fun h => by simp [Except.toOption] at h, fun h => ?_⟩
    obtain ⟨ownership, hok, -⟩ := h.2.owned
    rw [howner] at hok
    cases hok
  | ok ownership =>
    simp only [Except.toOption, Option.bind_eq_bind, Option.bind_some, Option.pure_def, Option.map_some,
      Option.some.injEq]
    rw [qualityStatus_eq_pass]
    simp only [validCountFields, List.all_cons, List.all_nil, Bool.and_true, Bool.and_eq_true,
      List.mem_singleton, forall_eq, gateOf_clears]
    constructor
    · intro h
      obtain ⟨⟨herrors, howned, hwarnings⟩, hsuccess, hnone⟩ := h
      exact ⟨hsuccess, ⟨ownership, howner, (numberIs_zero_iff herrors).1 hnone, howned⟩, hwarnings⟩
    · intro h
      obtain ⟨hsuccess, ⟨other, hother, herrors, howned⟩, hwarnings⟩ := h
      obtain rfl : ownership = other := Except.ok.inj (howner.symm.trans hother)
      have herrors' := isSome_of_eq_zero herrors
      exact ⟨⟨herrors', howned, hwarnings⟩, hsuccess, (numberIs_zero_iff herrors').2 herrors⟩

theorem caseOk_iff (item : Dict) : caseOk item = true ↔ item.getD "ok" .null = .bool true := by
  simp [caseOk, Json.isTrue]

/-- What the gates of a non-empty list of cases say. -/
theorem simGates_clear {cases : List Dict} (hne : cases ≠ []) :
    (∀ gate ∈ simGates cases, gate.Clears) ↔
      (∀ item ∈ cases, caseOk item = true) ∧
        ∀ item ∈ cases, difftestCase item = true → difftestPassed item = true := by
  have hlength : 0 < cases.length := List.length_pos_of_ne_nil hne
  have hcount : cases.length - cases.countP caseOk = 0 ↔ ∀ item ∈ cases, caseOk item = true := by
    rw [← List.countP_eq_length]
    have := List.countP_le_length (p := caseOk) (l := cases)
    omega
  have hdifftest : (∀ gate ∈ (if (cases.filter difftestCase).isEmpty then []
        else [gateOf "difftest_matches_reference"
          ((cases.filter difftestCase).countP (fun item => !difftestPassed item) == 0)]),
      gate.Clears) ↔ ∀ item ∈ cases, difftestCase item = true → difftestPassed item = true := by
    split
    · rename_i hempty
      rw [List.isEmpty_iff, List.filter_eq_nil_iff] at hempty
      simp only [List.not_mem_nil, false_imp_iff, implies_true, true_iff]
      intro item hitem henabled
      exact absurd henabled (hempty item hitem)
    · simp [List.countP_eq_zero]
  unfold simGates
  dsimp only
  simp only [List.mem_append, or_imp, forall_and, List.mem_cons, List.not_mem_nil, or_false, forall_eq,
    gateOf_clears, beq_iff_eq, decide_eq_true_eq]
  rw [hcount, hdifftest]
  exact ⟨fun h => ⟨h.1.1, h.2⟩, fun h => ⟨⟨h.1, hlength⟩, h.2⟩⟩

theorem allM_of_forall {α ε : Type} {p : α → Except ε Bool} {items : List α}
    (h : ∀ item ∈ items, p item = .ok true) : items.allM p = .ok true := by
  induction items with
  | nil => rfl
  | cons item items ih =>
    rw [allM_cons, h item List.mem_cons_self]
    exact ih fun other hother => h other (List.mem_cons_of_mem _ hother)

/-- The cases are a list of records that are each valid. -/
theorem validCases_eq_some {report : Dict} {cases : List Dict} :
    validCases F report = .ok (some cases) ↔
      report.getD "cases" .null = .arr (cases.map .obj) ∧ cases ≠ [] ∧
        ∀ item ∈ cases, validSimCase F item = .ok true := by
  unfold validCases
  rw [← allRecords?_eq_some]
  cases hrecords : allRecords? (report.getD "cases" .null) with
  | none => simp
  | some found =>
    simp only [Option.some.injEq]
    constructor
    · intro h
      split at h
      · cases h
      · rename_i hne
        cases hall : found.allM (validSimCase F) with
        | error e =>
          rw [hall] at h
          cases h
        | ok valid =>
          rw [hall] at h
          cases valid with
          | false => cases h
          | true =>
            cases h
            exact ⟨rfl, by simpa using hne, of_allM hall⟩
    · intro h
      obtain ⟨rfl, hne, hvalid⟩ := h
      rw [if_neg (by simpa using hne), allM_of_forall hvalid]
      rfl

/-- A simulation report passes exactly when it is clean. -/
theorem simQor_pass_iff (report : Dict) (success : Bool) :
    (simQor F report).map (·.qualityStatus success) = some "pass" ↔
      success = true ∧ SimClean F report := by
  unfold simQor
  constructor
  · intro h
    cases hvalid : validCases F report with
    | error e =>
      rw [hvalid] at h
      cases h
    | ok valid =>
      rw [hvalid] at h
      simp only [Except.toOption, Option.map_some, Option.some.injEq] at h
      obtain ⟨hsource, hsuccess, hgates⟩ := (qualityStatus_eq_pass _ _).1 h
      obtain ⟨cases, rfl⟩ := Option.isSome_iff_exists.1 hsource
      obtain ⟨hraw, hne, hcases⟩ := (validCases_eq_some F).1 hvalid
      obtain ⟨hok, hdifftest⟩ := (simGates_clear hne).1 hgates
      exact ⟨hsuccess, cases, hraw, hne, fun item hitem =>
        ⟨hcases item hitem, (caseOk_iff item).1 (hok item hitem), hdifftest item hitem⟩⟩
  · intro h
    obtain ⟨hsuccess, cases, hraw, hne, hpassing⟩ := h
    have hvalid := (validCases_eq_some F).2 ⟨hraw, hne, fun item hitem => (hpassing item hitem).valid⟩
    rw [hvalid]
    simp only [Except.toOption, Option.map_some, Option.some.injEq]
    refine (qualityStatus_eq_pass _ _).2 ⟨rfl, hsuccess, (simGates_clear hne).2 ⟨?_, ?_⟩⟩
    · intro item hitem
      exact (caseOk_iff item).2 (hpassing item hitem).ok
    · intro item hitem
      exact (hpassing item hitem).difftest

/-- The quality status of a step is `pass` exactly when the step succeeded and its report, which is
there, proves it clean. -/
theorem quality_pass_iff (workspace : Workspace) (name : String) (report : Option Dict)
    (success : Bool) :
    writeStepQor F workspace name report success = some "pass" ↔
      success = true ∧ ∃ r, report = some r ∧ Clean F workspace name r := by
  have hempty : ∀ success, ({} : QorResult).qualityStatus success ≠ "pass" := by decide
  unfold writeStepQor stepQor
  cases report with
  | none => simp [hempty]
  | some report =>
    simp only [Option.some.injEq, exists_eq_left', Clean]
    by_cases hprepare : name = "prepare"
    · subst hprepare
      simp [prepareQor_pass_iff]
    rw [if_neg hprepare]
    by_cases hreview : name = "review"
    · subst hreview
      simpa using reviewQor_pass_iff F workspace report success
    rw [if_neg hreview]
    by_cases helab : name = "elab"
    · subst helab
      simp [elabQor_pass_iff]
    rw [if_neg helab]
    by_cases hlint : name = "lint"
    · subst hlint
      simpa using lintQor_pass_iff F workspace report success
    rw [if_neg hlint]
    by_cases hsim : name = "sim"
    · subst hsim
      simpa using simQor_pass_iff F report success
    rw [if_neg hsim]
    simp [hempty, hprepare, hreview, helab, hlint, hsim]

end EccFe.Analysis
