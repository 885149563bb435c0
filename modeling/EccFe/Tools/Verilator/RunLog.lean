/-
EccFe.Tools.Verilator.RunLog — the simulation runs of a workspace, one after the other.

The step keeps its runs as directories named by the time of the run and finds the previous run of a
suite by sorting them. `Recorded` is every store it can reach: runs of any suites in any order, with
runs in between that end before they write `cases.json`. The store is the log of these runs
(`Recorded.store`), so a record always speaks of the last run of its own suite (`Recorded.linked`).

From there the records alone tell what failed: replayed on the failures of the first run they give
those of the last one, and a failure is announced once and then carried until it is fixed or
removed (`run_log`).
-/
import EccFe.Tools.Verilator.Regression

namespace EccFe.Tools.Verilator

open Python Analysis
open Tools.ToolLog (textList)

/-! ## 1. The log -/

inductive Entry where
  | recorded (run : SimRun) (r : Regression)
  /-- The run made its directory and ended before it wrote `cases.json`. -/
  | aborted (runId : String)

namespace Entry

def runId : Entry → String
  | recorded run _ => run.runId
  | aborted runId => runId

/-- What `json_read` gives for the directory. -/
def payload : Entry → Dict
  | recorded run r => run.payload r
  | aborted _ => []

/-- The entry of the history for the directory. -/
def summary : Entry → Dict
  | recorded run r =>
      let failed := (run.cases.filter (!casePassed ·)).map (·.textAt "name")
      [("run_id", .str run.runId), ("suite", .str run.suite),
        ("ok", .bool (!run.cases.isEmpty && failed.isEmpty)), ("cases", .int run.cases.length),
        ("failed_cases", textList failed), ("regression", .obj (regressionDict r))]
  | aborted runId =>
      [("run_id", .str runId), ("suite", .str ""), ("ok", .bool false), ("cases", .int 0),
        ("failed_cases", textList []), ("regression", .obj [])]

/-- The run and its record, when it is a run of the suite. -/
def ofSuite? (suite : String) : Entry → Option (SimRun × Regression)
  | recorded run r => if run.suite = suite then some (run, r) else none
  | aborted _ => none

end Entry

/-- The runs of a suite, the last one at the end. -/
def ofSuite (suite : String) (log : List Entry) : List (SimRun × Regression) :=
  log.filterMap (Entry.ofSuite? suite)

section

variable (F : FloatModel) (repr : Option ℚ → PyFloat)

/-- The stores that simulation runs reach. Each run is later than the ones before it. -/
inductive Recorded : List Entry → RunsRoot → Prop
  | start : Recorded [] .empty
  | run {log : List Entry} {root root' : RunsRoot} {run : SimRun} {r : Regression}
      (hlog : Recorded log root) (hlater : ∀ dir ∈ root.dirs, dir < run.runId)
      (hrun : recordRun F repr root run = .ok (r, root')) :
      Recorded (log ++ [.recorded run r]) root'
  | aborted {log : List Entry} {root : RunsRoot} {runId : String} (hlog : Recorded log root)
      (hlater : ∀ dir ∈ root.dirs, dir < runId) :
      Recorded (log ++ [.aborted runId]) (root.mkdir runId)

def lastPayload (runs : List (SimRun × Regression)) : Dict :=
  match runs.getLast? with
  | none => []
  | some (run, r) => run.payload r

/-- Each record was made from the run before it. -/
inductive Linked : List (SimRun × Regression) → Prop
  | nil : Linked []
  | snoc {runs : List (SimRun × Regression)} {run : SimRun} {r : Regression} (hruns : Linked runs)
      (hrecord : simulationRegression F repr (lastPayload runs) run.cases = .ok r) :
      Linked (runs ++ [(run, r)])

end

/-! ## 2. The store is the log -/

/-- The directories are the runs in order, and each holds what its run wrote. -/
structure Store (log : List Entry) (root : RunsRoot) : Prop where
  dirs : root.dirs = log.map Entry.runId
  sorted : root.dirs.Pairwise (· < ·)
  payloads : ∀ entry ∈ log, root.casesJson entry.runId = .obj entry.payload
  others : ∀ dir ∉ root.dirs, root.casesJson dir = .obj []

namespace Store

variable {log : List Entry} {root : RunsRoot} {runId : String}

theorem mkdir_dirs (hlater : ∀ dir ∈ root.dirs, dir < runId) :
    runId ∉ root.dirs ∧ (root.mkdir runId).dirs = root.dirs ++ [runId] := by
  have hnot : runId ∉ root.dirs := fun hmem => String.lt_irrefl runId (hlater runId hmem)
  exact ⟨hnot, by rw [RunsRoot.mkdir, if_neg hnot]⟩

theorem mkdir_casesJson : (root.mkdir runId).casesJson = root.casesJson := by
  unfold RunsRoot.mkdir
  split <;> rfl

/-- A run that ends early adds a directory without a record. -/
theorem aborted (h : Store log root) (hlater : ∀ dir ∈ root.dirs, dir < runId) :
    Store (log ++ [.aborted runId]) (root.mkdir runId) := by
  obtain ⟨hnot, hdirs⟩ := mkdir_dirs hlater
  refine ⟨?_, ?_, ?_, ?_⟩
  · rw [hdirs, h.dirs, List.map_append]
    rfl
  · rw [hdirs, List.pairwise_append]
    exact ⟨h.sorted, List.pairwise_singleton _ _, fun a ha b hb =>
      List.mem_singleton.mp hb ▸ hlater a ha⟩
  · intro entry hentry
    rw [mkdir_casesJson]
    obtain hentry | hentry := List.mem_append.mp hentry
    · exact h.payloads entry hentry
    · rw [List.mem_singleton.mp hentry]
      exact h.others runId hnot
  · intro dir hdir
    rw [mkdir_casesJson]
    rw [hdirs, List.mem_append, not_or] at hdir
    exact h.others dir hdir.1

/-- A run that finishes adds a directory with its record. -/
theorem recorded {run : SimRun} {r : Regression} (h : Store log root)
    (hlater : ∀ dir ∈ root.dirs, dir < run.runId) :
    Store (log ++ [.recorded run r]) ((root.mkdir run.runId).write run.runId (.obj (run.payload r))) := by
  obtain ⟨hnot, hdirs⟩ := mkdir_dirs hlater
  refine ⟨?_, (h.aborted hlater).sorted, ?_, ?_⟩
  · rw [RunsRoot.write, hdirs, h.dirs, List.map_append]
    rfl
  · intro entry hentry
    rw [RunsRoot.write, mkdir_casesJson]
    obtain hentry | hentry := List.mem_append.mp hentry
    · have hne : entry.runId ≠ run.runId := by
        intro heq
        rw [h.dirs, ← heq] at hnot
        exact hnot (List.mem_map.mpr ⟨entry, hentry, rfl⟩)
      exact (Function.update_of_ne hne _ _).trans (h.payloads entry hentry)
    · rw [List.mem_singleton.mp hentry]
      exact Function.update_self _ _ _
  · intro dir hdir
    rw [RunsRoot.write, hdirs, List.mem_append, not_or, List.mem_singleton] at hdir
    rw [RunsRoot.write, mkdir_casesJson]
    exact (Function.update_of_ne hdir.2 _ _).trans (h.others dir hdir.1)

/-- Sorting the names finds the newest run first. -/
theorem newestFirst (h : Store log root) : root.newestFirst = log.reverse.map Entry.runId := by
  have hsorted : root.dirs.Pairwise fun a b => decide (a ≤ b) = true :=
    h.sorted.imp fun hlt => decide_eq_true (String.not_lt.mp (String.lt_asymm hlt))
  rw [RunsRoot.newestFirst, List.mergeSort_of_pairwise hsorted, h.dirs, List.map_reverse]

end Store

/-! ## 3. The previous run is the last of the suite -/

section

variable {F : FloatModel} {repr : Option ℚ → PyFloat} {log : List Entry} {root : RunsRoot}

theorem records_payload (run : SimRun) (r : Regression) :
    records ((run.payload r).getD "cases" .null) = run.cases := records_map run.cases

/-- The loop over the directories, newest first. -/
theorem firstOfSuite_entries {suite : String} {casesJson : String → Json} {entries : List Entry}
    (h : ∀ entry ∈ entries, casesJson entry.runId = .obj entry.payload) :
    firstOfSuite suite casesJson (entries.map Entry.runId) =
      .ok (match (ofSuite suite entries).head? with
        | none => []
        | some (run, r) => run.payload r) := by
  induction entries with
  | nil => rfl
  | cons entry entries ih =>
    obtain ⟨hentry, hrest⟩ := List.forall_mem_cons.mp h
    rw [List.map_cons, firstOfSuite, hentry]
    dsimp only
    cases entry with
    | aborted runId =>
      rw [if_neg (by intro h; cases h.1)]
      exact ih hrest
    | recorded run r =>
      by_cases hsuite : run.suite = suite
      · rw [if_pos ⟨by rw [← hsuite]; rfl, rfl⟩]
        simp [ofSuite, Entry.ofSuite?, hsuite, Entry.payload]
      · rw [if_neg (by intro h; exact hsuite (Json.str.inj h.1)), ih hrest]
        simp [ofSuite, Entry.ofSuite?, hsuite]

theorem head?_ofSuite_reverse (suite : String) (log : List Entry) :
    (ofSuite suite log.reverse).head? = (ofSuite suite log).getLast? := by
  rw [ofSuite, List.filterMap_reverse, List.head?_reverse]
  rfl

/-- The previous run is the last one of its suite in the log. -/
theorem Store.previousSimulationRun (h : Store log root) (suite : String) :
    previousSimulationRun root suite = .ok (lastPayload (ofSuite suite log)) := by
  unfold Verilator.previousSimulationRun
  rw [h.newestFirst, firstOfSuite_entries fun entry hentry =>
    h.payloads entry (List.mem_reverse.mp hentry), head?_ofSuite_reverse]
  rfl

/-- The history shows a run as the log has it. -/
theorem Store.historyEntry (h : Store log root) {entry : Entry} (hentry : entry ∈ log) :
    historyEntry entry.runId (root.casesJson entry.runId) = .ok (some entry.summary) := by
  rw [h.payloads entry hentry]
  cases entry with
  | aborted runId => rfl
  | recorded run r =>
    have hcases : Dict.getD (Entry.recorded run r).payload "cases" (.arr []) =
        .arr (run.cases.map .obj) := rfl
    unfold Verilator.historyEntry
    dsimp only
    rw [hcases]
    dsimp only
    rw [records_map, List.length_map, List.isEmpty_map]
    rfl

/-- The history shows the newest hundred runs. -/
theorem Store.simulationHistory (h : Store log root) (latestRunId : String) :
    simulationHistory root latestRunId = .ok [("latest_run_id", .str latestRunId),
      ("runs", .arr ((log.reverse.take 100).map fun entry => .obj entry.summary))] := by
  have hruns : ∀ entries ⊆ log, (entries.map Entry.runId).mapM (fun dir =>
      Verilator.historyEntry dir (root.casesJson dir)) = .ok (entries.map fun entry => some entry.summary) := by
    intro entries hentries
    induction entries with
    | nil => rfl
    | cons entry entries ih =>
      rw [List.cons_subset] at hentries
      rw [List.map_cons, List.mapM_cons, h.historyEntry hentries.1, ih hentries.2]
      rfl
  have hnewest : log.reverse.take 100 ⊆ log := fun entry hentry =>
    List.mem_reverse.mp (List.mem_of_mem_take hentry)
  unfold Verilator.simulationHistory
  rw [h.newestFirst, ← List.map_take, hruns _ hnewest]
  have hreduce : ∀ entries : List Entry,
      (entries.map fun entry => some entry.summary).reduceOption = entries.map Entry.summary := by
    intro entries
    induction entries with
    | nil => rfl
    | cons entry entries ih => exact congrArg (entry.summary :: ·) ih
  show Except.ok _ = _
  rw [hreduce, List.map_map]
  rfl

theorem ofSuite_append (suite : String) (log : List Entry) (entry : Entry) :
    ofSuite suite (log ++ [entry]) = ofSuite suite log ++ (entry.ofSuite? suite).toList := by
  rw [ofSuite, List.filterMap_append]
  cases h : entry.ofSuite? suite <;> simp [ofSuite, h]

/-- What a run reads and writes. -/
theorem Store.recordRun_eq {run : SimRun} (h : Store log root)
    (hlater : ∀ dir ∈ root.dirs, dir < run.runId) :
    recordRun F repr root run =
      ((simulationRegression F repr (lastPayload (ofSuite run.suite log)) run.cases).mapError
        .arithmetic).map fun r =>
          (r, (root.mkdir run.runId).write run.runId (.obj (run.payload r))) := by
  have hprevious : Verilator.previousSimulationRun (root.mkdir run.runId) run.suite =
      .ok (lastPayload (ofSuite run.suite log)) := by
    rw [(h.aborted hlater).previousSimulationRun, ofSuite_append, Entry.ofSuite?, Option.toList_none,
      List.append_nil]
  unfold recordRun
  dsimp only [bind, Except.bind]
  rw [hprevious]
  dsimp only
  generalize simulationRegression F repr (lastPayload (ofSuite run.suite log)) run.cases = record
  cases record <;> rfl

/-- A run that is recorded extends the log. -/
theorem Store.recordRun {run : SimRun} {r : Regression} {root' : RunsRoot} (h : Store log root)
    (hlater : ∀ dir ∈ root.dirs, dir < run.runId)
    (hrun : recordRun F repr root run = .ok (r, root')) :
    simulationRegression F repr (lastPayload (ofSuite run.suite log)) run.cases = .ok r ∧
      root' = (root.mkdir run.runId).write run.runId (.obj (run.payload r)) := by
  rw [h.recordRun_eq hlater] at hrun
  cases hrecord : simulationRegression F repr (lastPayload (ofSuite run.suite log)) run.cases with
  | error e =>
    rw [hrecord] at hrun
    cases hrun
  | ok record =>
    rw [hrecord] at hrun
    cases hrun
    exact ⟨rfl, rfl⟩

/-- A store that runs reach is that of its log. -/
theorem Recorded.store (h : Recorded F repr log root) : Store log root := by
  induction h with
  | start =>
    exact ⟨rfl, List.Pairwise.nil, fun _ h => absurd h List.not_mem_nil, fun _ _ => rfl⟩
  | run _ hlater hrun ih =>
    rw [(ih.recordRun hlater hrun).2]
    exact ih.recorded hlater
  | aborted _ hlater ih => exact ih.aborted hlater

/-- A later run whose record can be made is recorded. -/
theorem Recorded.next {run : SimRun} {r : Regression} (h : Recorded F repr log root)
    (hlater : ∀ dir ∈ log.map Entry.runId, dir < run.runId)
    (hrecord : simulationRegression F repr (lastPayload (ofSuite run.suite log)) run.cases = .ok r) :
    ∃ root', Recorded F repr (log ++ [.recorded run r]) root' := by
  rw [← h.store.dirs] at hlater
  refine ⟨(root.mkdir run.runId).write run.runId (.obj (run.payload r)), h.run hlater ?_⟩
  rw [h.store.recordRun_eq hlater, hrecord]
  rfl

/-- The runs of a suite are linked, whatever runs lie between them. -/
theorem Recorded.linked (h : Recorded F repr log root) (suite : String) :
    Linked F repr (ofSuite suite log) := by
  induction h with
  | start => exact .nil
  | @run log root root' run r hlog hlater hrun ih =>
    rw [ofSuite_append]
    by_cases hsuite : run.suite = suite
    · rw [Entry.ofSuite?, if_pos hsuite]
      refine ih.snoc ?_
      rw [← hsuite]
      exact (hlog.store.recordRun hlater hrun).1
    · rw [Entry.ofSuite?, if_neg hsuite, Option.toList_none, List.append_nil]
      exact ih
  | aborted hlog hlater ih =>
    rw [ofSuite_append, Entry.ofSuite?, Option.toList_none, List.append_nil]
    exact ih

end

/-! ## 4. One record -/

/-- The names of the failed cases of a run. -/
def failing (cases : List Dict) : Set String :=
  {name | ∃ item, named? cases name = some item ∧ casePassed item = false}

/-- The names of its cases. -/
def listed (cases : List Dict) : Set String := {name | (named? cases name).isSome = true}

/-- The failures after a run, from those before it and the record. -/
def advance (failed : Set String) (r : Regression) : Set String :=
  {name | name ∈ r.newFailures ∨ name ∈ failed ∧ name ∉ r.fixed ∧ name ∉ r.removed}

/-- What a record says of two runs. -/
structure Compares (before current : List Dict) (r : Regression) : Prop where
  newFailures : ∀ name, name ∈ r.newFailures ↔ name ∈ failing current ∧ name ∉ failing before
  persistentFailures : ∀ name,
    name ∈ r.persistentFailures ↔ name ∈ failing current ∧ name ∈ failing before
  fixed : ∀ name,
    name ∈ r.fixed ↔ name ∈ listed current ∧ name ∉ failing current ∧ name ∈ failing before
  added : ∀ name, name ∈ r.added ↔ name ∈ listed current ∧ name ∉ listed before
  removed : ∀ name, name ∈ r.removed ↔ name ∈ listed before ∧ name ∉ listed current

section

variable {F : FloatModel} {repr : Option ℚ → PyFloat}

/-- A case fails when it is there and did not pass. -/
theorem mem_failing_iff {cases : List Dict} {name : String} :
    name ∈ failing cases ↔ (named? cases name).any (!casePassed ·) = true := by
  rw [Option.any_eq_true]
  constructor
  · intro h
    obtain ⟨item, hitem, hfailed⟩ := h
    exact ⟨item, hitem, by rw [hfailed]; rfl⟩
  · intro h
    obtain ⟨item, hitem, hfailed⟩ := h
    exact ⟨item, hitem, by simpa using hfailed⟩

theorem failing_subset_listed (cases : List Dict) : failing cases ⊆ listed cases := by
  intro name h
  obtain ⟨item, hitem, -⟩ := h
  exact Option.isSome_iff_exists.mpr ⟨item, hitem⟩

/-- A record with a baseline compares the two runs. -/
theorem compares {run : SimRun} {before r : Regression} {current : List Dict}
    (h : simulationRegression F repr (run.payload before) current = .ok r) :
    Compares run.cases current r ∧ r.hasBaseline = true ∧ r.baselineRunId = run.runId := by
  obtain ⟨changes, -, rfl⟩ := simulationRegression_eq (by simp [SimRun.payload]) h
  rw [records_payload]
  refine ⟨⟨?_, ?_, ?_, ?_, ?_⟩, rfl, rfl⟩
  · intro name
    rw [mem_namesWhere, mem_failing_iff, mem_failing_iff]
    cases named? current name <;> cases named? run.cases name <;> simp
  · intro name
    rw [mem_namesWhere, mem_failing_iff, mem_failing_iff]
    cases named? current name <;> cases named? run.cases name <;> simp
  · intro name
    rw [mem_namesWhere, mem_failing_iff, mem_failing_iff, listed, Set.mem_ofPred_eq]
    cases named? current name <;> cases named? run.cases name <;> simp
  · intro name
    rw [mem_namesWhere, listed, listed, Set.mem_ofPred_eq, Set.mem_ofPred_eq]
    cases named? current name <;> cases named? run.cases name <;> simp
  · intro name
    rw [mem_namesWhere, listed, listed, Set.mem_ofPred_eq, Set.mem_ofPred_eq]
    cases named? current name <;> cases named? run.cases name <;> simp

/-- The record carries the failures of one run over to the next. -/
theorem Compares.advance {before current : List Dict} {r : Regression} (h : Compares before current r) :
    advance (failing before) r = failing current := by
  ext name
  have hbefore := @failing_subset_listed before name
  have hcurrent := @failing_subset_listed current name
  rw [Verilator.advance, Set.mem_ofPred_eq, h.newFailures, h.fixed, h.removed]
  tauto

end

/-! ## 5. All records -/

section

variable {F : FloatModel} {repr : Option ℚ → PyFloat}

/-- What the last record was made from. -/
theorem Linked.last {runs : List (SimRun × Regression)} {run : SimRun} {r : Regression}
    (h : Linked F repr (runs ++ [(run, r)])) :
    Linked F repr runs ∧ simulationRegression F repr (lastPayload runs) run.cases = .ok r := by
  generalize hall : runs ++ [(run, r)] = all at h
  cases h with
  | nil => simp at hall
  | snoc hruns hrecord =>
    obtain ⟨rfl, hlast⟩ := List.append_inj' hall rfl
    cases hlast
    exact ⟨hruns, hrecord⟩

theorem Linked.of_append {early late : List (SimRun × Regression)} (h : Linked F repr (early ++ late)) :
    Linked F repr early := by
  induction late using List.reverseRecOn with
  | nil => rwa [List.append_nil] at h
  | append_singleton late last ih =>
    rw [← List.append_assoc] at h
    exact ih h.last.1

/-- A record that is not the first compares its run with the one before. -/
theorem Linked.compares {runs : List (SimRun × Regression)} {before run : SimRun}
    {rBefore r : Regression} (h : Linked F repr (runs ++ [(run, r)]))
    (hbefore : runs.getLast? = some (before, rBefore)) :
    Compares before.cases run.cases r ∧ r.hasBaseline = true ∧ r.baselineRunId = before.runId := by
  have hrecord := h.last.2
  rw [lastPayload, hbefore] at hrecord
  exact Verilator.compares hrecord

/-- The first record has no baseline. -/
theorem Linked.first {runs : List (SimRun × Regression)} {run : SimRun} {r : Regression}
    (h : Linked F repr (runs ++ [(run, r)])) : r.hasBaseline = true ↔ runs ≠ [] := by
  cases hlast : runs.getLast? with
  | none =>
    have hnil := List.getLast?_eq_none_iff.mp hlast
    subst hnil
    have hrecord := h.last.2
    cases hrecord
    simp
  | some before =>
    obtain ⟨-, hbaseline, -⟩ := h.compares hlast
    have hne : runs ≠ [] := by
      rintro rfl
      cases hlast
    simp [hbaseline, hne]

theorem getLast?_append_cons {α : Type} (early late : List α) (a : α) :
    (early ++ a :: late).getLast? = (a :: late).getLast? := by
  rw [List.getLast?_append, List.getLast?_eq_getLast_of_ne_nil (List.cons_ne_nil a late)]
  rfl

/-- Replaying the records on the failures of a run gives the failures of every later run. -/
theorem Linked.replay {early late : List (SimRun × Regression)} {first last : SimRun}
    {rFirst rLast : Regression} (h : Linked F repr (early ++ (first, rFirst) :: late))
    (hlast : ((first, rFirst) :: late).getLast? = some (last, rLast)) :
    (late.map (·.2)).foldl advance (failing first.cases) = failing last.cases := by
  induction late using List.reverseRecOn generalizing last rLast with
  | nil =>
    cases hlast
    rfl
  | append_singleton late final ih =>
    obtain ⟨run, r⟩ := final
    rw [← List.cons_append, List.getLast?_concat] at hlast
    cases hlast
    rw [← List.cons_append, ← List.append_assoc] at h
    obtain ⟨⟨before, rBefore⟩, hbefore⟩ : ∃ before, ((first, rFirst) :: late).getLast? = some before :=
      ⟨_, List.getLast?_eq_getLast_of_ne_nil (List.cons_ne_nil _ _)⟩
    obtain ⟨hcompares, -⟩ := h.compares ((getLast?_append_cons early late _).trans hbefore)
    rw [List.map_append, List.foldl_append, ih h.last.1 hbefore]
    exact hcompares.advance

/-- A failure of the last run began in a run that announced it, or in the first one, and every run
since has carried it. -/
theorem Linked.streak {runs : List (SimRun × Regression)} {last : SimRun} {rLast : Regression}
    (h : Linked F repr runs) (hlast : runs.getLast? = some (last, rLast)) {name : String}
    (hfails : name ∈ failing last.cases) :
    ∃ early first rFirst late, runs = early ++ (first, rFirst) :: late ∧
      name ∈ failing first.cases ∧ (early = [] ∨ name ∈ rFirst.newFailures) ∧
      ∀ entry ∈ late, name ∈ entry.2.persistentFailures := by
  induction h generalizing last rLast with
  | nil => cases hlast
  | @snoc runs run r hruns hrecord ih =>
    rw [List.getLast?_concat] at hlast
    cases hlast
    cases hbefore : runs.getLast? with
    | none =>
      have hnil := List.getLast?_eq_none_iff.mp hbefore
      subst hnil
      exact ⟨[], run, r, [], rfl, hfails, .inl rfl, fun _ h => absurd h List.not_mem_nil⟩
    | some before =>
      obtain ⟨before, rBefore⟩ := before
      obtain ⟨hcompares, -⟩ := (hruns.snoc hrecord).compares hbefore
      by_cases hcarried : name ∈ failing before.cases
      · obtain ⟨early, first, rFirst, late, rfl, hfirst, hstart, hlate⟩ := ih hbefore hcarried
        refine ⟨early, first, rFirst, late ++ [(run, r)], by simp, hfirst, hstart, ?_⟩
        intro entry hentry
        obtain hentry | hentry := List.mem_append.mp hentry
        · exact hlate entry hentry
        · rw [List.mem_singleton.mp hentry]
          exact (hcompares.persistentFailures name).mpr ⟨hfails, hcarried⟩
      · exact ⟨runs, run, r, [], rfl, hfails,
          .inr ((hcompares.newFailures name).mpr ⟨hfails, hcarried⟩),
          fun _ h => absurd h List.not_mem_nil⟩

/-- A failure that no record since calls fixed or removed is still there. -/
theorem Linked.still_failing {early late : List (SimRun × Regression)} {first last : SimRun}
    {rFirst rLast : Regression} (h : Linked F repr (early ++ (first, rFirst) :: late))
    (hlast : ((first, rFirst) :: late).getLast? = some (last, rLast)) {name : String}
    (hfails : name ∈ failing first.cases)
    (hkept : ∀ entry ∈ late, name ∉ entry.2.fixed ∧ name ∉ entry.2.removed) :
    name ∈ failing last.cases := by
  rw [← h.replay hlast]
  clear h hlast
  generalize failing first.cases = failed at hfails
  induction late generalizing failed with
  | nil => exact hfails
  | cons entry late ih =>
    obtain ⟨hentry, hlate⟩ := List.forall_mem_cons.mp hkept
    exact ih hlate (advance failed entry.2) (.inr ⟨hfails, hentry⟩)

/-- A failure is announced again only after a run that fixed or removed it. -/
theorem Linked.announced_once {early between : List (SimRun × Regression)} {first again : SimRun}
    {rFirst rAgain : Regression}
    (h : Linked F repr (early ++ (first, rFirst) :: between ++ [(again, rAgain)])) {name : String}
    (hfails : name ∈ failing first.cases) (hagain : name ∈ rAgain.newFailures) :
    ∃ entry ∈ between, name ∈ entry.2.fixed ∨ name ∈ entry.2.removed := by
  by_contra hnone
  obtain ⟨⟨before, rBefore⟩, hbefore⟩ : ∃ before, ((first, rFirst) :: between).getLast? = some before :=
    ⟨_, List.getLast?_eq_getLast_of_ne_nil (List.cons_ne_nil _ _)⟩
  obtain ⟨hcompares, -⟩ := h.compares ((getLast?_append_cons early between _).trans hbefore)
  refine ((hcompares.newFailures name).mp hagain).2 (h.last.1.still_failing hbefore hfails ?_)
  intro entry hentry
  constructor
  · intro hfixed
    exact hnone ⟨entry, hentry, .inl hfixed⟩
  · intro hremoved
    exact hnone ⟨entry, hentry, .inr hremoved⟩

/-- **What the store tells of a suite.** Its last run is the one the next run is compared with, and
the history shows the newest runs of all suites. A run has a baseline unless it is the first, and its
record compares it with the run before. Its failures are known from the records alone: replaying
those of the later runs gives the later failures, each failure was announced by a run since which all
have carried it, and it is announced again only after a run that fixed or removed it. -/
theorem run_log {log : List Entry} {root : RunsRoot} (h : Recorded F repr log root) (suite : String) :
    previousSimulationRun root suite = .ok (lastPayload (ofSuite suite log)) ∧
    (∀ latestRunId, simulationHistory root latestRunId =
      .ok [("latest_run_id", .str latestRunId),
        ("runs", .arr ((log.reverse.take 100).map fun entry => .obj entry.summary))]) ∧
    ∀ early run r late, ofSuite suite log = early ++ (run, r) :: late →
      (r.hasBaseline = true ↔ early ≠ []) ∧
      (∀ before rBefore, early.getLast? = some (before, rBefore) →
        r.baselineRunId = before.runId ∧ Compares before.cases run.cases r) ∧
      (∀ last rLast, ((run, r) :: late).getLast? = some (last, rLast) →
        (late.map (·.2)).foldl advance (failing run.cases) = failing last.cases) ∧
      (∀ name ∈ failing run.cases, ∃ old first rFirst since,
        early ++ [(run, r)] = old ++ (first, rFirst) :: since ∧ name ∈ failing first.cases ∧
          (old = [] ∨ name ∈ rFirst.newFailures) ∧
          ∀ entry ∈ since, name ∈ entry.2.persistentFailures) ∧
      ∀ between again rAgain rest, late = between ++ (again, rAgain) :: rest →
        ∀ name ∈ failing run.cases, name ∈ rAgain.newFailures →
          ∃ entry ∈ between, name ∈ entry.2.fixed ∨ name ∈ entry.2.removed := by
  refine ⟨h.store.previousSimulationRun suite, h.store.simulationHistory, ?_⟩
  intro early run r late hruns
  have hlinked := h.linked suite
  rw [hruns] at hlinked
  have hrun : Linked F repr (early ++ [(run, r)]) := by
    rw [List.append_cons] at hlinked
    exact hlinked.of_append
  refine ⟨hrun.first, ?_, fun last rLast hlast => hlinked.replay hlast, ?_, ?_⟩
  · intro before rBefore hbefore
    obtain ⟨hcompares, -, hid⟩ := hrun.compares hbefore
    exact ⟨hid, hcompares⟩
  · intro name hname
    exact hrun.streak List.getLast?_concat hname
  · intro between again rAgain rest hlate name hname hagain
    rw [hlate, ← List.cons_append, List.append_cons, ← List.append_assoc, ← List.append_assoc] at hlinked
    exact hlinked.of_append.announced_once hname hagain

end

/-- A case that fails before it reports a cycle. -/
def failedCase : Dict := [("name", .str "hello"), ("ok", .bool false)]

def failedRun (runId : String) : SimRun := ⟨runId, "cpu-tests", [failedCase]⟩

theorem failedRun_isOk (F : FloatModel) (repr : Option ℚ → PyFloat) (previous : Dict)
    (runId : String) : ∃ r, simulationRegression F repr previous (failedRun runId).cases = .ok r := by
  refine simulationRegression_isOk fun name => ⟨none, ?_⟩
  unfold cycleChangeOf
  split
  · rename_i old new _ hnew
    have himage : new.textAt "image_sha256" = "" := by
      rw [List.mem_singleton.mp (of_named? hnew).1]
      rfl
    dsimp only
    rw [if_pos (.inl himage)]
  · rfl

/-- A failure of two runs, with a run that ended early between them, is carried by the second. -/
theorem run_log_failed_twice :
    ∃ log root r₁ r₂, Recorded .double (fun _ => ⟨"0.0", by decide⟩) log root ∧
      ofSuite "cpu-tests" log =
        [(failedRun "20260101_000000_000000", r₁), (failedRun "20260103_000000_000000", r₂)] ∧
      "hello" ∈ r₂.persistentFailures := by
  obtain ⟨r₁, h₁⟩ := failedRun_isOk .double (fun _ => ⟨"0.0", by decide⟩) [] "20260101_000000_000000"
  obtain ⟨r₂, h₂⟩ := failedRun_isOk .double (fun _ => ⟨"0.0", by decide⟩)
    ((failedRun "20260101_000000_000000").payload r₁) "20260103_000000_000000"
  have h12 : "20260101_000000_000000" < "20260102_000000_000000" := by decide
  have h13 : "20260101_000000_000000" < "20260103_000000_000000" := by decide
  have h23 : "20260102_000000_000000" < "20260103_000000_000000" := by decide
  have hstart : Recorded .double (fun _ => ⟨"0.0", by decide⟩) [] .empty := .start
  obtain ⟨root₁, hfirst⟩ := @Recorded.next _ _ _ _ (failedRun "20260101_000000_000000") r₁ hstart
    (fun _ h => absurd h List.not_mem_nil) h₁
  have hlater : ∀ dir ∈ root₁.dirs, dir < "20260102_000000_000000" := by
    rw [hfirst.store.dirs]
    exact List.forall_mem_singleton.mpr h12
  obtain ⟨root₂, hsecond⟩ := @Recorded.next _ _ _ _ (failedRun "20260103_000000_000000") r₂
    (hfirst.aborted hlater) (List.forall_mem_cons.mpr ⟨h13, List.forall_mem_singleton.mpr h23⟩) h₂
  refine ⟨_, root₂, r₁, r₂, hsecond, rfl, ?_⟩
  obtain ⟨-, -, hruns⟩ := run_log hsecond "cpu-tests"
  obtain ⟨-, hcompares, -⟩ := hruns [(failedRun "20260101_000000_000000", r₁)]
    (failedRun "20260103_000000_000000") r₂ [] rfl
  have hfailing : ∀ runId, "hello" ∈ failing (failedRun runId).cases :=
    fun _ => ⟨failedCase, rfl, rfl⟩
  exact ((hcompares _ r₁ rfl).2.persistentFailures "hello").mpr ⟨hfailing _, hfailing _⟩

end EccFe.Tools.Verilator
