/-
EccFe.Tools.Verilator.Regression — what a simulation run says of the run before it:
`_simulation_regression`, `_previous_simulation_run` and `_simulation_history` of
`fecompiler/tools/verilator/runner.py`.

Both runs are read through tables that hold the last case of each name. Every list of the record is
a selection from one of the two tables (`mem_namesWhere`).
-/
import EccFe.Analysis.QualityGate
import EccFe.Tools.InputDigest
import EccFe.Tools.ToolLog

namespace EccFe.Tools.Verilator

open Python Analysis
open Tools.RtlInputs (distinctTexts mem_distinctTexts nodup_distinctTexts)
open Tools.ToolLog (textList)

/-! ## 1. Tables of cases -/

/-- `previous_by_name.get(name)`: the last case of the name; no case goes by the empty name. -/
def named? (cases : List Dict) (name : String) : Option Dict :=
  if name = "" then none else cases.reverse.find? fun item => item.textAt "name" == name

/-- The names of a table whose cases satisfy `p`, sorted. -/
def namesWhere (cases : List Dict) (p : String → Dict → Bool) : List String :=
  ((distinctTexts (cases.map (·.textAt "name"))).filter fun name =>
    (named? cases name).any (p name)).mergeSort fun a b => decide (a ≤ b)

/-- `bool(case.get("ok"))`. -/
def casePassed (item : Dict) : Bool := (item.getD "ok" .null).truthy

def caseCycles (item : Dict) : Option Int := integer? ((item.dictAt "metrics").getD "cycles" .null)

theorem of_named? {cases : List Dict} {name : String} {item : Dict}
    (h : named? cases name = some item) : item ∈ cases ∧ item.textAt "name" = name ∧ name ≠ "" := by
  unfold named? at h
  split at h
  · cases h
  · rename_i hne
    exact ⟨List.mem_reverse.mp (List.mem_of_find?_eq_some h), by simpa using List.find?_some h, hne⟩

theorem mem_namesWhere {cases : List Dict} {p : String → Dict → Bool} {name : String} :
    name ∈ namesWhere cases p ↔ ∃ item, named? cases name = some item ∧ p name item = true := by
  rw [namesWhere, (List.mergeSort_perm _ _).mem_iff, List.mem_filter, mem_distinctTexts,
    Option.any_eq_true]
  constructor
  · intro h
    exact h.2
  · intro h
    obtain ⟨item, hitem, hp⟩ := h
    obtain ⟨hmem, hname, -⟩ := of_named? hitem
    exact ⟨List.mem_map.mpr ⟨item, hmem, hname⟩, item, hitem, hp⟩

theorem nodup_namesWhere (cases : List Dict) (p : String → Dict → Bool) :
    (namesWhere cases p).Nodup :=
  (List.mergeSort_perm _ _).nodup_iff.mpr ((nodup_distinctTexts _).filter _)

theorem ne_empty_of_mem_namesWhere {cases : List Dict} {p : String → Dict → Bool} {name : String}
    (h : name ∈ namesWhere cases p) : name ≠ "" := by
  obtain ⟨item, hitem, -⟩ := mem_namesWhere.mp h
  exact (of_named? hitem).2.2

/-! ## 2. The regression record -/

section

variable (F : FloatModel) (repr : Option ℚ → PyFloat)

/-- A percentage as the record holds it. -/
def percentJson : Option (Option ℚ) → Json
  | none => .null
  | some q => .float (repr q)

/-- The entry of `cycle_changes` for a name of both runs, if the two cases can be compared. -/
def cycleChangeOf (before current : List Dict) (name : String) :
    Except ArithmeticError (Option Dict) :=
  match named? before name, named? current name with
  | some old, some new =>
      let image := new.textAt "image_sha256"
      if image = "" ∨ image ≠ old.textAt "image_sha256" then .ok none
      else
        match caseCycles old, caseCycles new with
        | some previous, some cycles => do
            let percent ← F.percent? previous cycles
            return some [("name", .str name), ("image_sha256", .str image),
              ("previous", .int previous), ("current", .int cycles),
              ("delta", .int (cycles - previous)), ("delta_percent", percentJson repr percent)]
        | _, _ => .ok none
  | _, _ => .ok none

def simulationRegression (previous : Dict) (current : List Dict) :
    Except ArithmeticError Regression := do
  if previous.isEmpty then
    return { hasBaseline := false, baselineRunId := "", newFailures := [], persistentFailures := [],
             fixed := [], added := [], removed := [], cycleChanges := [] }
  let before := records (previous.getD "cases" .null)
  let changes ← (namesWhere current fun name _ => (named? before name).isSome).mapM
    (cycleChangeOf F repr before current)
  return {
    hasBaseline := true
    baselineRunId := previous.textAt "run_id"
    newFailures := namesWhere current fun name item =>
      !casePassed item && (named? before name).all casePassed
    persistentFailures := namesWhere current fun name item =>
      !casePassed item && (named? before name).any (!casePassed ·)
    fixed := namesWhere current fun name item =>
      casePassed item && (named? before name).any (!casePassed ·)
    added := namesWhere current fun name _ => (named? before name).isNone
    removed := namesWhere before fun name _ => (named? current name).isNone
    cycleChanges := changes.reduceOption }

/-- The record as it is written. -/
def regressionDict (r : Regression) : Dict :=
  [("has_baseline", .bool r.hasBaseline), ("baseline_run_id", .str r.baselineRunId),
    ("new_failures", textList r.newFailures), ("persistent_failures", textList r.persistentFailures),
    ("fixed", textList r.fixed), ("added", textList r.added), ("removed", textList r.removed),
    ("cycle_changes", .arr (r.cycleChanges.map .obj))]

/-- What a record with a baseline holds. -/
theorem simulationRegression_eq {F : FloatModel} {repr : Option ℚ → PyFloat} {previous : Dict}
    {current : List Dict} {r : Regression} (hne : previous ≠ [])
    (h : simulationRegression F repr previous current = .ok r) :
    let before := records (previous.getD "cases" .null)
    ∃ changes, (namesWhere current fun name _ => (named? before name).isSome).mapM
        (cycleChangeOf F repr before current) = .ok changes ∧
      r = { hasBaseline := true
            baselineRunId := previous.textAt "run_id"
            newFailures := namesWhere current fun name item =>
              !casePassed item && (named? before name).all casePassed
            persistentFailures := namesWhere current fun name item =>
              !casePassed item && (named? before name).any (!casePassed ·)
            fixed := namesWhere current fun name item =>
              casePassed item && (named? before name).any (!casePassed ·)
            added := namesWhere current fun name _ => (named? before name).isNone
            removed := namesWhere before fun name _ => (named? current name).isNone
            cycleChanges := changes.reduceOption } := by
  intro before
  have hfalse : previous.isEmpty = false := by simpa using hne
  unfold simulationRegression at h
  rw [hfalse] at h
  cases hchanges : (namesWhere current fun name _ => (named? before name).isSome).mapM
      (cycleChangeOf F repr before current) with
  | error e =>
    simp only [bind, Except.bind, before] at h hchanges
    rw [hchanges] at h
    cases h
  | ok changes =>
    refine ⟨changes, rfl, ?_⟩
    simp only [bind, Except.bind, before] at h hchanges
    rw [hchanges] at h
    cases h
    rfl

/-- A record is made when no percentage is too large. -/
theorem simulationRegression_isOk {F : FloatModel} {repr : Option ℚ → PyFloat} {previous : Dict}
    {current : List Dict}
    (h : ∀ name, ∃ change, cycleChangeOf F repr (records (previous.getD "cases" .null)) current name =
      .ok change) : ∃ r, simulationRegression F repr previous current = .ok r := by
  unfold simulationRegression
  cases previous.isEmpty with
  | true => exact ⟨_, rfl⟩
  | false =>
    obtain ⟨changes, hchanges⟩ := Tools.RtlOwnership.mapM_isOk.mpr fun name
      (_ : name ∈ namesWhere current fun name _ =>
        (named? (records (previous.getD "cases" .null)) name).isSome) => h name
    dsimp only [bind, Except.bind]
    rw [hchanges]
    exact ⟨_, rfl⟩

/-! ## 3. The runs root -/

/-- The directories under `runs_root`, with what `json_read(run_dir / "cases.json")` gives for each:
`{}` where there is no such file. -/
structure RunsRoot where
  dirs : List String
  casesJson : String → Json

namespace RunsRoot

def empty : RunsRoot := ⟨[], fun _ => .obj []⟩

def mkdir (root : RunsRoot) (dir : String) : RunsRoot :=
  if dir ∈ root.dirs then root else { root with dirs := root.dirs ++ [dir] }

/-- `json_write(str(run_root / "cases.json"), payload)`. -/
def write (root : RunsRoot) (dir : String) (payload : Json) : RunsRoot :=
  { root with casesJson := Function.update root.casesJson dir payload }

/-- `sorted(runs_root.iterdir(), reverse=True)`. -/
def newestFirst (root : RunsRoot) : List String :=
  (root.dirs.mergeSort fun a b => decide (a ≤ b)).reverse

end RunsRoot

/-- `isinstance(value, list)`. -/
def isList : Json → Bool
  | .arr _ => true
  | _ => false

inductive RunError where
  /-- `payload.get` of a payload that is not a dict. -/
  | attribute
  | arithmetic (e : ArithmeticError)
  deriving DecidableEq

/-- The loop of `_previous_simulation_run`. -/
def firstOfSuite (suite : String) (casesJson : String → Json) : List String → Except RunError Dict
  | [] => .ok []
  | dir :: rest =>
      match casesJson dir with
      | .obj payload =>
          if Dict.getD payload "suite" .null = .str suite ∧ isList (Dict.getD payload "cases" .null) = true then
            .ok payload
          else firstOfSuite suite casesJson rest
      | _ => .error .attribute

def previousSimulationRun (root : RunsRoot) (suite : String) : Except RunError Dict :=
  firstOfSuite suite root.casesJson root.newestFirst

/-- The entry of `_simulation_history` for a directory. -/
def historyEntry (dir : String) : Json → Except RunError (Option Dict)
  | .obj payload =>
      match Dict.getD payload "cases" (.arr []) with
      | .arr cases =>
          let failed := ((records (.arr cases)).filter (!casePassed ·)).map (·.textAt "name")
          .ok (some [("run_id", .str (Dict.getD payload "run_id" (.str dir)).pyStr),
            ("suite", .str (Dict.textAt payload "suite")),
            ("ok", .bool (!cases.isEmpty && failed.isEmpty)), ("cases", .int cases.length),
            ("failed_cases", textList failed),
            ("regression", Dict.getD payload "regression" (.obj []))])
      | _ => .ok none
  | _ => .error .attribute

def simulationHistory (root : RunsRoot) (latestRunId : String) : Except RunError Dict := do
  let runs ← (root.newestFirst.take 100).mapM fun dir => historyEntry dir (root.casesJson dir)
  return [("latest_run_id", .str latestRunId), ("runs", .arr (runs.reduceOption.map .obj))]

/-! ## 4. A run -/

/-- What `_run_simulate` holds when the cases have run. -/
structure SimRun where
  runId : String
  suite : String
  cases : List Dict

/-- `cases_payload`. -/
def SimRun.payload (run : SimRun) (r : Regression) : Dict :=
  [("schema_version", .int 1), ("suite", .str run.suite), ("run_id", .str run.runId),
    ("cases", .arr (run.cases.map .obj)), ("regression", .obj (regressionDict r))]

/-- The part of `_run_simulate` that reads and writes the runs root. -/
def recordRun (root : RunsRoot) (run : SimRun) : Except RunError (Regression × RunsRoot) := do
  let root := root.mkdir run.runId
  let previous ← previousSimulationRun root run.suite
  let r ← (simulationRegression F repr previous run.cases).mapError .arithmetic
  return (r, root.write run.runId (.obj (run.payload r)))

end

end EccFe.Tools.Verilator
