/-
EccFe.Analysis.SimCases — the checks `fecompiler/analysis/qor.py` makes of a simulation report:
`_valid_sim_case`, `_valid_sim_metrics`, `_valid_scored_sim_case` and `_valid_sim_regression`.

A check returns a truth value or raises: an integer too large for a float is an `OverflowError`
where the source converts it. The arithmetic is a parameter.
-/
import EccFe.Analysis.PrepareScore

namespace EccFe.Analysis

open Python

/-! ## 1. Numbers and texts -/

namespace FloatModel

variable (F : FloatModel)

/-- The finite value a float text has. -/
def floatValue? (x : PyFloat) : Option ℚ := x.toRat?.bind F.round

/-- `float(value)`, when `_is_number(value)`. -/
def number? : Json → Except ArithmeticError (Option ℚ)
  | .int n => (F.ofInt n).map some
  | .float x => .ok (F.floatValue? x)
  | _ => .ok none

def isNumber (v : Json) : Except ArithmeticError Bool := (F.number? v).map Option.isSome

/-- `value is None or _is_number(value)`. -/
def optionalNumber (v : Json) : Except ArithmeticError Bool :=
  if v = .null then .ok true else F.isNumber v

/-- `(current - previous) / previous * 100 if previous else None`; an infinity is `some none`. -/
def percent? (previous current : Int) : Except ArithmeticError (Option (Option ℚ)) :=
  if previous = 0 then .ok none
  else (F.divide (current - previous) previous).map fun ratio => some (F.round (ratio * 100))

end FloatModel

/-- `re.fullmatch(r"[0-9a-f]{64}", text)`. -/
def isSha256Text (text : String) : Bool :=
  text.toList.length == 64 && text.toList.all fun c => isDigit c || ('a' ≤ c && c ≤ 'f')

/-- `value is None or check(value)`. -/
def optional (check : Json → Bool) (v : Json) : Bool := v == .null || check v

/-! ## 2. Cases -/

/-- The fields of the metrics that hold numbers. -/
def simNumberFields : List String :=
  ["cycles", "max_cycles", "coremark_per_mhz", "coremark_per_second", "cycles_per_iteration",
    "frequency_mhz"]

/-- The check of the difftest record in `_valid_sim_metrics`. -/
def validDifftest (difftest : Dict) : Bool :=
  match booleanAt? difftest "enabled" with
  | none => false
  | some enabled =>
      match difftest.getD "status" .null with
      | .null => !enabled
      | .str status =>
          let normalized := lower (strip status)
          let mismatch := difftest.getD "first_mismatch" .null
          ["disabled", "incomplete", "mismatch", "passed"].contains normalized &&
            (enabled == (normalized != "disabled")) &&
            ["commits", "compared"].all (fun field =>
              optional (fun v => (count? v).isSome) (difftest.getD field .null)) &&
            ["last_pc", "last_npc"].all (fun field =>
              optional (fun v => (text? v).isSome) (difftest.getD field .null)) &&
            optional (fun v => v.isDict && (text? (v.asDict.getD "message" .null)).isSome &&
              optional (fun pc => (text? pc).isSome) (v.asDict.getD "pc" .null)) mismatch &&
            !(normalized == "mismatch" && mismatch == .null) &&
            (normalized != "passed" ||
              ["commits", "compared"].all fun field => (countAt? difftest field).isSome)
      | _ => false

/-- The check of a metrics record. -/
def validMetricFields (F : FloatModel) (metrics : Dict) : Except ArithmeticError Bool := do
  let numbers ← simNumberFields.allM fun field => F.optionalNumber (metrics.getD field .null)
  return numbers &&
    optional (fun v => (count? v).isSome) (metrics.getD "iterations" .null) &&
    (metrics.get "timeout_accepted").all (fun v => (boolean? v).isSome) &&
    (metrics.get "difftest").all fun v => v.isDict && validDifftest v.asDict

def validSimMetrics (F : FloatModel) : Json → Except ArithmeticError Bool
  | .null => .ok true
  | .obj metrics => validMetricFields F metrics
  | _ => .ok false

def validSimCase (F : FloatModel) (value : Dict) : Except ArithmeticError Bool :=
  match text? (value.getD "name" .null), booleanAt? value "ok" with
  | some name, some _ =>
      if strip name = "" then .ok false
      else do
        let metrics ← validSimMetrics F (value.getD "metrics" .null)
        return metrics && optional Json.isDict (value.getD "failure" .null)
  | _, _ => .ok false

/-- `str(item["name"])`. -/
def caseName (item : Dict) : String := (item.getD "name" .null).pyStr

/-- `item["ok"] is True`. -/
def caseOk (item : Dict) : Bool := (item.getD "ok" .null).isTrue

/-- `by_name[name]`: the last case of the name. -/
def caseNamed? (cases : List Dict) (name : String) : Option Dict :=
  cases.reverse.find? fun item => caseName item == name

/-- A list of distinct texts, none of them empty. -/
def names? (v : Json) : Option (List String) :=
  (allTexts? v).bind fun names =>
    if (names.all (· ≠ "") && decide names.Nodup) = true then some names else none

/-- What the checks read off a regression record. -/
structure Regression where
  hasBaseline : Bool
  baselineRunId : String
  newFailures : List String
  persistentFailures : List String
  fixed : List String
  added : List String
  removed : List String
  cycleChanges : List Dict

def regression? (value : Json) : Option Regression := do
  if !value.isDict then none
  let record := value.asDict
  return {
    hasBaseline := ← booleanAt? record "has_baseline"
    baselineRunId := ← text? (record.getD "baseline_run_id" .null)
    newFailures := ← names? (record.getD "new_failures" .null)
    persistentFailures := ← names? (record.getD "persistent_failures" .null)
    fixed := ← names? (record.getD "fixed" .null)
    added := ← names? (record.getD "added" .null)
    removed := ← names? (record.getD "removed" .null)
    cycleChanges := ← allRecords? (record.getD "cycle_changes" .null) }

/-- The names of the failed cases; `by_name` holds one case for each name. -/
def failedNames (cases : List Dict) : List String :=
  (cases.map caseName).filter fun name =>
    (caseNamed? cases name).any fun item => item.getD "ok" .null == .bool false

def passedNames (cases : List Dict) : List String :=
  (cases.map caseName).filter fun name => !(failedNames cases).contains name

/-- Two lists of names are the same set. -/
def sameNames (xs ys : List String) : Bool := xs.all ys.contains && ys.all xs.contains

namespace Regression

variable (r : Regression) (cases : List Dict)

/-- The lists of names fit the cases. -/
def setsAgree : Bool :=
  (!r.hasBaseline ||
    (sameNames (r.newFailures ++ r.persistentFailures) (failedNames cases) &&
      r.newFailures.all fun name => !r.persistentFailures.contains name)) &&
    r.fixed.all (passedNames cases).contains && r.added.all (cases.map caseName).contains

/-- A record without a baseline is empty, and one with a baseline names its run. -/
def baselineAgrees : Bool :=
  if r.hasBaseline then r.baselineRunId ≠ ""
  else r.baselineRunId == "" && [r.newFailures, r.persistentFailures, r.fixed, r.added,
    r.removed].all List.isEmpty && r.cycleChanges.isEmpty

end Regression

/-- What the check reads off a cycle change, when its fields have their types and name a case that
was not named before. -/
structure CycleChange where
  item : Dict
  previous : Nat
  current : Nat
  delta : Int
  deltaPercent : Json

def cycleChange? (cases : List Dict) (seen : List String) (change : Dict) :
    Option (String × CycleChange) := do
  let name ← text? (change.getD "name" .null)
  let item ← caseNamed? cases name
  if seen.contains name then none
  let image ← text? (change.getD "image_sha256" .null)
  if !isSha256Text image || item.getD "image_sha256" .null != .str image then none
  let previous ← countAt? change "previous"
  let current ← countAt? change "current"
  let delta ← integer? (change.getD "delta" .null)
  return (name, ⟨item, previous, current, delta, change.getD "delta_percent" .null⟩)

variable (F : FloatModel)

/-- The percentage of a change is the one its counts give. -/
def percentAgrees (deltaPercent : Json) :
    Option (Option ℚ) → Except ArithmeticError Bool
  | none => .ok (deltaPercent == .null)
  | some expected => do
      let given ← F.number? deltaPercent
      return match given, expected with
        | some x, some y => F.isClose x y
        | _, _ => false

/-- The numbers of a change are those of the two runs. -/
def CycleChange.agrees (c : CycleChange) : Except ArithmeticError Bool := do
  let expected ← F.percent? c.previous c.current
  if !equalsInt ((c.item.dictAt "metrics").getD "cycles" .null) c.current ||
      c.delta != (c.current : Int) - c.previous then return false
  percentAgrees F c.deltaPercent expected

/-- The loop over `cycle_changes`, with the names passed so far. -/
def changesAgree (cases : List Dict) : List String → List Dict → Except ArithmeticError Bool
  | _, [] => .ok true
  | seen, change :: rest =>
      match cycleChange? cases seen change with
      | none => .ok false
      | some (name, c) => do
          if ← c.agrees F then changesAgree cases (seen ++ [name]) rest else return false

def validSimRegression (value : Json) (cases : List Dict) : Except ArithmeticError Bool :=
  match regression? value with
  | none => .ok false
  | some r =>
      if r.setsAgree cases then do
        let changes ← changesAgree F cases [] r.cycleChanges
        return changes && r.baselineAgrees
      else .ok false

end EccFe.Analysis
