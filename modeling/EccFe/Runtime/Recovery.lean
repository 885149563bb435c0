/-
EccFe.Runtime.Recovery — `fecompiler/runtime/recovery.py`: giving up the steps of
operations that no longer run.

The server calls it on a workspace whose process died. A step is given up when it
is ongoing and its operation is not among the active ones; a step without a valid
marker belongs to the operation with the empty id.
-/
import EccFe.Engine.Flow

namespace EccFe.Runtime

open Python Analysis Engine

/-- `value == 1`: `True` and `1.0` are equal to `1`. -/
def equalsOne : Json → Bool
  | .int n => n == 1
  | .bool b => b
  | .float x => x.toRat? == some 1
  | _ => false

/-- `isinstance(value, str) and value`, the text. -/
def nonemptyText : Option Json → Option String
  | some (.str s) => if s = "" then none else some s
  | _ => none

/-- `isinstance(value, (int, float))`; `bool` is a subclass of `int`. -/
def isNumberType : Option Json → Bool
  | some (.int _) | some (.float _) | some (.bool _) => true
  | _ => false

/-- `_runtime_marker(step)`: the operation id of a valid marker. -/
def runtimeMarker (s : StepRecord) : Option String :=
  match s.infoDict.get "runtime_operation" with
  | some (.obj marker) =>
      if !equalsOne (Dict.getD marker "schema" .null) then none
      else
        match nonemptyText (Dict.get marker "operation_id"),
            nonemptyText (Dict.get marker "runtime_instance_id") with
        | some operationId, some _ =>
            if isNumberType (Dict.get marker "started_at") then some operationId else none
        | _, _ => none
  | _ => none

def markerOperationId (s : StepRecord) : String := (runtimeMarker s).getD ""

/-- The step is to be given up. -/
def isInterrupted (activeOperationIds : List String) (operationId : String) (s : StepRecord) :
    Bool :=
  s.hasState .Ongoing &&
    !(operationId != "" && markerOperationId s != operationId) &&
    !activeOperationIds.contains (markerOperationId s)

/-- The record of a step given up. -/
def recoveredStep (s : StepRecord) : StepRecord :=
  { s with
    state := some (.str StateEnum.Incomplete.value)
    runtime := some (s.runtime.getD (.str ""))
    peakMemoryMb := some (s.peakMemoryMb.getD (.int 0))
    info := popMarker s.info }

structure Recovered where
  step : String
  tool : String
  operationId : String
  logFile : String
  deriving DecidableEq

/-- The entry of the answer for one step. -/
def recoveredEntry (env : Env) (directory : String) (s : StepRecord) : Recovered where
  step := s.name.value
  tool := s.tool
  operationId :=
    if markerOperationId s = "" then "legacy-interrupted-" ++ s.name.value ++ "-" ++ s.tool
    else markerOperationId s
  logFile :=
    PurePath.absText (env.host.resolve (.ofText directory) ++ [s.directory, "log", "log.txt"])

/-- The loop of `recover_interrupted_operations`, before anything is saved. -/
def giveUpInterrupted (activeOperationIds : List String) (operationId : String) (e : EngineFlow) :
    EngineFlow :=
  { e with
    steps := e.steps.map fun s =>
      if isInterrupted activeOperationIds operationId s then recoveredStep s else s
    artifacts := (e.steps.filter (isInterrupted activeOperationIds operationId)).foldl
      (fun artifacts s => clearQor artifacts s.directory) e.artifacts }

/-- `recover_interrupted_operations(directory, ...)` on a workspace that exists. -/
def recoverInterruptedOperations (env : Env) (kind : DesignKind) (directory : String)
    (activeOperationIds : List String) (operationId : String) (e : EngineFlow) :
    List Recovered × EngineFlow :=
  let e := loadEngine kind e
  let e' := giveUpInterrupted activeOperationIds operationId e
  let recovered :=
    (e.steps.filter (isInterrupted activeOperationIds operationId)).map (recoveredEntry env directory)
  (recovered, if recovered = [] then e' else e'.save)

end EccFe.Runtime
