/-
EccFe.Analysis.Score — the scores of `fecompiler/analysis/qor.py` that are read off an
elaboration record and a lint record.

A score is given only to a record that is consistent with itself: its status, return
code, counts and diagnostics have to say the same. Any other record has `none`.

The points of these two are integers and halves, on which float arithmetic is exact; the rounding
and the sums are those of the float model.
-/
import EccFe.Tools.RtlOwnership
import EccFe.Python.Number
import EccFe.Analysis.Arithmetic

namespace EccFe.Analysis

open Python Engine Tools.RtlInputs Tools.RtlOwnership

/-! ## 1. Reading a record -/

/-- `_is_count(value)`, with the count. -/
def count? : Json → Option Nat
  | .int n => if 0 ≤ n then some n.toNat else none
  | _ => none

/-- `value == n`, with Python's idea of equal numbers. -/
def equalsInt (v : Json) (n : Int) : Bool :=
  match v with
  | .int m => m == n
  | .bool b => (if b then 1 else 0) == n
  | .float x => x.toRat? == some (n : ℚ)
  | _ => false

def records (v : Json) : List Dict :=
  v.items.filterMap fun item =>
    match item with
    | .obj fields => some fields
    | _ => none

/-- The items of a list, when all of them are dicts: `len(_records(v)) == len(v)`. -/
def allRecords? : Json → Option (List Dict)
  | .arr items => if (records (.arr items)).length = items.length then some (records (.arr items)) else none
  | _ => none

/-- The items of a list, when all of them are texts. -/
def allTexts? : Json → Option (List String)
  | .arr items => items.mapM fun item =>
      match item with
      | .str s => some s
      | _ => none
  | _ => none

/-- `isinstance(value, int) and not isinstance(value, bool)`. -/
def integer? : Json → Option Int
  | .int n => some n
  | _ => none

def boolean? : Json → Option Bool
  | .bool b => some b
  | _ => none

def text? : Json → Option String
  | .str s => some s
  | _ => none

/-- `str(record.get("status", "")).strip().lower()`. -/
def statusText (record : Dict) : String := lower (strip (record.textAt "status"))

/-! ## 2. Scores -/

structure ScoreComponent where
  id : String
  label : String
  earned : ℚ
  possible : ℚ
  summary : String

structure Score where
  label : String
  value : ℚ
  maximum : Nat := 100
  scoringVersion : Nat := 1
  components : List ScoreComponent

def scoreComponent (F : FloatModel) (id label : String) (earned possible : ℚ) (summary : String) :
    ScoreComponent :=
  ⟨id, label, F.roundScore earned, possible, summary⟩

def scoreOf (F : FloatModel) (label : String) (components : List ScoreComponent) : Score where
  label := label
  value := F.roundScore (F.sum (components.map (·.earned)))
  components := components

/-- `'s' if count != 1 else ''`. -/
def plural (count : Nat) : String := if count = 1 then "" else "s"

/-! ## 3. Elaboration -/

/-- What `_elaboration_score` reads off a record. -/
structure Elaboration where
  status : String
  returncode : Int
  errors : Nat
  warnings : Nat
  unresolved : Nat
  topFound : Bool
  top : String

/-- `compiler_passed`. -/
def Elaboration.passed (e : Elaboration) : Bool :=
  e.status == "pass" && e.returncode == 0 && e.errors == 0

/-- The status is the one the return code and the errors imply. -/
def Elaboration.coherent (e : Elaboration) : Bool :=
  (e.status != "pass" || e.passed) && !(e.status == "fail" && e.returncode == 0 && e.errors == 0)

def Elaboration.components (F : FloatModel) (e : Elaboration) : List ScoreComponent :=
  let errors := e.errors
  let warnings := e.warnings
  let unresolved := e.unresolved
  let returncode := e.returncode
  let top := e.top
  let errorPlural := plural errors
  let warningPlural := plural warnings
  let modulePlural := plural unresolved
  [scoreComponent F "compiler_execution" "Compiler execution" (if e.passed then 25 else 0) 25
      (if e.passed then "Slang completed an authoritative full elaboration."
      else s!"Slang full elaboration failed with return code {returncode}."),
    scoreComponent F "diagnostic_errors" "Diagnostic errors" (max 0 (30 - errors * 10)) 30
      s!"{errors} compiler error{errorPlural} reported.",
    scoreComponent F "hierarchy_closure" "Hierarchy closure"
      (if e.passed then max 0 (20 - unresolved * 5) else 0) 20
      (if e.passed then
        s!"{unresolved} unresolved module{modulePlural} in the authoritative compiler result."
      else "Hierarchy closure is unproven because full elaboration did not pass."),
    scoreComponent F "top_resolution" "Top resolution" (if e.passed && e.topFound then 15 else 0) 15
      (if e.passed && e.topFound then s!"Top module {top} resolved by Slang."
      else "Top resolution is unproven by a successful full elaboration."),
    scoreComponent F "warning_hygiene" "Warning hygiene" (max 0 (10 - warnings * 2)) 10
      s!"{warnings} compiler warning{warningPlural} reported."]

/-- A diagnostic of a lint record. -/
structure LintItem where
  severity : String
  code : String
  ownership : String
  actionable : Bool

/-- What `_lint_score` reads off a record. -/
structure Lint where
  status : String
  returncode : Int
  items : List LintItem
  errors : Nat
  warnings : Nat
  diagnostics : Nat
  ownedErrors : Nat
  ownedWarnings : Nat
  actionable : Nat

def Lint.countOf (severity : String) (items : List LintItem) : Nat :=
  items.countP fun item => item.severity == severity

/-- The diagnostics about the user's own RTL. -/
def Lint.owned (l : Lint) (ownership : String) : List LintItem :=
  l.items.filter fun item => item.actionable && item.ownership == ownership

/-- Every count is the one the diagnostics give, and the status is the one the return
code and the errors imply. -/
def Lint.coherent (l : Lint) (ownership : String) : Bool :=
  l.diagnostics == l.items.length &&
    l.errors == Lint.countOf "error" l.items && l.warnings == Lint.countOf "warning" l.items &&
    l.ownedErrors == Lint.countOf "error" (l.owned ownership) &&
    l.ownedWarnings == Lint.countOf "warning" (l.owned ownership) &&
    l.actionable == (l.owned ownership).length &&
    ((l.status == "pass") == (l.returncode == 0 && Lint.countOf "error" l.items == 0))

/-- The distinct rules among the diagnostics, blank ones left out; `upper` is
`str.upper`. -/
def Lint.ruleCount (upper : String → String) (items : List LintItem) : Nat :=
  ((items.map fun item => upper (strip item.code)).filter (· ≠ "")).dedup.length

/-- Cleanliness is credited to a run that completed, and to no other. -/
def Lint.components (F : FloatModel) (upper : String → String) (l : Lint) (ownership : String) :
    List ScoreComponent :=
  let label := if ownership = "cpu" then "CPU" else "Design"
  let completed := l.returncode == 0
  let errors := Lint.countOf "error" (l.owned ownership)
  let warnings := Lint.countOf "warning" (l.owned ownership)
  let rules := Lint.ruleCount upper (l.owned ownership)
  let errorPlural := plural errors
  let warningPlural := plural warnings
  let rulePlural := plural rules
  let credit (earned : ℚ) : ℚ := if completed then max 0 earned else 0
  [scoreComponent F "analysis_execution" "Analysis execution" (if completed then 25 else 0) 25
      (if completed then "Verilator completed and produced classified lint diagnostics."
      else s!"Verilator analysis did not complete; {label} cleanliness is unproven."),
    scoreComponent F (ownership ++ "_errors") (label ++ " errors") (credit (40 - errors * 20)) 40
      s!"{errors} actionable {label} error{errorPlural} reported.",
    scoreComponent F (ownership ++ "_warnings") (label ++ " warnings")
      (credit (25 - warnings * (5 / 2))) 25
      s!"{warnings} actionable {label} warning{warningPlural} reported.",
    scoreComponent F (ownership ++ "_rule_breadth") (label ++ " rule breadth")
      (credit (10 - rules * 2)) 10
      s!"{rules} distinct lint rule{rulePlural} affecting {label}-owned RTL."]

end EccFe.Analysis
