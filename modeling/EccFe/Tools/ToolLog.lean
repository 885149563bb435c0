/-
EccFe.Tools.ToolLog — what the records of an elaboration and of a lint run share: the
numbers and texts of a matched log line, duplicates, and the facts of the run.

`int` refuses a text of more than 4300 digits, so a log can make a builder raise.
-/
import EccFe.Tools.InputErrors
import EccFe.Python.Number
import EccFe.Python.Regex

namespace EccFe.Tools.ToolLog

open Python Engine RtlInputs RtlOwnership

/-! ## 1. Matched lines -/

/-- `\d`. -/
def unicodeDigit : Regex := .char fun c => isDigit (asciiDigit c)

/-- `int(digits)`; `none` is the `ValueError` of a text of more than 4300 digits. -/
def intOfDigits (digits : List Char) : Option Nat := decimalNat (digits.map asciiDigit)

/-- The text of a group, stripped. -/
def groupText (m : Regex.Found) (name : String) : String :=
  String.ofList (stripBy isSpace ((m.group name).getD []))

/-- `int(match.group(name) or default)`. -/
def groupNumber (m : Regex.Found) (name : String) (default : Nat) : Option Nat :=
  match m.group name with
  | none => some default
  | some digits => intOfDigits digits

/-- Keep the first record of each key. -/
def firstSeen {α κ : Type} [DecidableEq κ] (key : α → κ) (records : List α) : List α :=
  records.foldl (fun seen record =>
    if seen.any fun other => key other = key record then seen else seen ++ [record]) []

def logLines (content : List Char) : List (List Char) :=
  (splitlines content).map (stripBy isSpace)

/-! ## 2. The run -/

/-- What a step's run of a tool leaves: `run_info`. -/
structure RunInfo where
  rtlFiles : List String
  returncode : Int
  topModule : String
  command : List String
  logPath : String

/-- `str(run_info.get("top_module") or workspace.get("top_module") or "top")`. -/
def RunInfo.top (runInfo : RunInfo) (workspace : Workspace) : String :=
  if runInfo.topModule ≠ "" then runInfo.topModule
  else if (workspace.getD "top_module" .null).truthy then
    (workspace.getD "top_module" .null).pyStr
  else "top"

def textList (texts : List String) : Json := .arr (texts.map .str)

/-- `"pass"` for a clean exit without errors. -/
def runStatus (returncode : Int) (errors : Nat) : String :=
  if returncode = 0 ∧ errors = 0 then "pass" else "fail"

/-- `rtl_source_ownership(workspace, source, ownership_by_path)`. -/
def ownerOf (env : Env) (homeless : String → Bool) (workspace : Workspace)
    (owners : List (AbsPath × String)) (source : String) : Option String :=
  (rtlSourceOwnership env homeless workspace source owners).toOption

def inputsRecord (files incdirs defines : List String) : Json :=
  .obj [("rtl_files", textList files), ("rtl_file_count", .int files.length),
    ("incdirs", textList incdirs), ("defines", textList defines)]

def reportsRecord (runInfo : RunInfo) (summaryPath : String) : Json :=
  .obj [("log", .str runInfo.logPath), ("summary", .str summaryPath)]

end EccFe.Tools.ToolLog
