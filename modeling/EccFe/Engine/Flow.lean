/-
EccFe.Engine.Flow — `fecompiler/engine/flow.py`: the flow engine.

`EngineFlow` is the engine's step list in memory, the one last written to
`flow.json`, and the quality files of every step directory. The operations are
the methods of `EngineFlow`; each updates the step list in memory and saves it
where the source does, so the two lists differ exactly while a method runs.

A step run is driven by a `StepRun`: what the handler does, where the quality
writes and the output fingerprint raise, and the values taken from the clock.
The handler leaves the workspace and the files the fingerprints read alone, so
one `Env` and one `Workspace` serve a whole run.
-/
import EccFe.Analysis.Triplet
import EccFe.Engine.Provenance
import EccFe.Engine.Step

namespace EccFe.Engine

open Python Analysis Tools.RtlInputs

structure EngineFlow where
  /-- `self.flow["steps"]`. -/
  steps : List StepRecord
  /-- The steps of `flow.json`. -/
  saved : List StepRecord
  /-- The quality files, by step directory. -/
  artifacts : String → Artifacts

def EngineFlow.save (e : EngineFlow) : EngineFlow := { e with saved := e.steps }

/-- `clear_step_qor` on one step directory. -/
def clearQor (artifacts : String → Artifacts) (directory : String) : String → Artifacts :=
  fun other => if other = directory then Artifacts.absent else artifacts other

/-- Apply `f` to the record `get_step(name, tool)` finds: the first with that key. -/
def modifyStep (key : StepEnum × String) (f : StepRecord → StepRecord) :
    List StepRecord → List StepRecord
  | [] => []
  | s :: rest => if s.key = key then f s :: rest else s :: modifyStep key f rest

def getStep (steps : List StepRecord) (key : StepEnum × String) : Option StepRecord :=
  steps.find? fun s => s.key = key

/-! ## 1. Marking and resetting -/

/-- What `_mark_step_stale` writes into `info`. -/
def staleMarks (reason staleFrom : String) : Dict :=
  [("stale", .bool true), ("stale_reason", .str reason), ("stale_from", .str staleFrom)]

/-- `_mark_step_stale(step, reason, stale_from)`: whether it changed the record. -/
def markStepStale (reason staleFrom : String) (s : StepRecord) : Bool × StepRecord :=
  if s.hasState .Ongoing then (false, s)
  else
    let info := s.infoDict
    if s.hasState .Unstart && s.provenance.isNone && !(info.getD "stale" .null).isTrue then
      (false, s)
    else if s.hasState .Unstart && (info.getD "stale" .null).isTrue &&
        info.get "stale_reason" == some (.str reason) &&
        info.get "stale_from" == some (.str staleFrom) && s.provenance.isNone then
      (false, s)
    else
      (true,
        { s with
          state := some (.str StateEnum.Unstart.value)
          runtime := some (.str "")
          peakMemoryMb := some (.int 0)
          info := some (.obj (info.update (staleMarks reason staleFrom)))
          provenance := none })

/-- The `_clear_step_qor` call inside `_mark_step_stale`. -/
def clearUnlessOngoing (artifacts : String → Artifacts) (s : StepRecord) : String → Artifacts :=
  if s.hasState .Ongoing then artifacts else clearQor artifacts s.directory

def clearStepStale (s : StepRecord) : StepRecord :=
  { s with info := some (.obj (((s.infoDict.pop "stale").pop "stale_reason").pop "stale_from")) }

/-- One record of `clear_states`. -/
def resetStep (s : StepRecord) : StepRecord :=
  { s with
    state := some (.str StateEnum.Unstart.value)
    runtime := some (.str "")
    peakMemoryMb := some (.int 0)
    info := some (.obj [])
    provenance := none }

def clearStates (e : EngineFlow) : EngineFlow :=
  EngineFlow.save
    { e with
      steps := e.steps.map resetStep
      artifacts := e.steps.foldl (fun artifacts s => clearQor artifacts s.directory) e.artifacts }

/-! ## 2. Staleness -/

def provenanceChangeReason (previous current : Dict) : String :=
  let changed := [("input_fingerprint", "inputs"), ("config_fingerprint", "configuration"),
    ("tool_fingerprint", "tools or resources")].filter fun kv =>
      previous.textAt kv.1 ≠ current.textAt kv.1
  "step " ++ (if changed = [] then "provenance" else "/".intercalate (changed.map (·.2))) ++
    " changed"

/-- The loop variables of `refresh_stale_states`. -/
structure RefreshState where
  changed : Bool
  upstream : Option Dict
  staleFrom : String
  artifacts : String → Artifacts

/-- Mark `s` and remember what it did. -/
def RefreshState.mark (st : RefreshState) (reason staleFrom : String) (s : StepRecord) :
    RefreshState × StepRecord :=
  let (changed, s') := markStepStale reason staleFrom s
  ({ st with changed := st.changed || changed, artifacts := clearUnlessOngoing st.artifacts s }, s')

section

variable (env : Env) (workspace : Workspace)

/-- `build_step_provenance` for a record. -/
def buildFor (s : StepRecord) (upstream : Option Dict) : Dict :=
  buildStepProvenance env workspace s.name.value s.tool upstream

/-- The loop body of `refresh_stale_states`. -/
def refreshStep (tracked : Bool) (st : RefreshState) (s : StepRecord) :
    RefreshState × StepRecord :=
  if st.staleFrom ≠ "" then
    st.mark ("upstream step " ++ st.staleFrom ++ " is stale") st.staleFrom s
  else if s.stateText ≠ StateEnum.Success.value then ({ st with upstream := none }, s)
  else
    let expected := buildFor env workspace s st.upstream
    match s.provenanceDict with
    | none =>
        if tracked then
          { st with staleFrom := s.name.value }.mark "step result has no provenance" s.name.value s
        else (st, s)
    | some provenance =>
        if provenance.textAt "signature" ≠ expected.textAt "signature" then
          { st with staleFrom := s.name.value }.mark (provenanceChangeReason provenance expected)
            s.name.value s
        else ({ st with upstream := some provenance }, s)

def refreshLoop (tracked : Bool) : RefreshState → List StepRecord → RefreshState × List StepRecord
  | st, [] => (st, [])
  | st, s :: rest =>
      let (st', s') := refreshStep env workspace tracked st s
      let (st'', rest') := refreshLoop tracked st' rest
      (st'', s' :: rest')

/-- Some record carries a provenance dict. -/
def trackedFlow (steps : List StepRecord) : Bool := steps.any fun s => s.provenanceDict.isSome

/-- `refresh_stale_states()`: whether it changed anything. -/
def refreshStaleStates (e : EngineFlow) : Bool × EngineFlow :=
  let (st, steps) := refreshLoop env workspace (trackedFlow e.steps)
    ⟨false, none, "", e.artifacts⟩ e.steps
  let e' := { e with steps := steps, artifacts := st.artifacts }
  (st.changed, if st.changed then e'.save else e')

/-! ## 3. The neighbours of a step -/

/-- The records after the first one called `name`, marked stale. -/
def markAfter (reason : String) (name : StepEnum) :
    Bool → (String → Artifacts) → List StepRecord → Bool × (String → Artifacts) × List StepRecord
  | _, artifacts, [] => (false, artifacts, [])
  | found, artifacts, s :: rest =>
      if s.name = name then
        let (changed, artifacts', rest') := markAfter reason name true artifacts rest
        (changed, artifacts', s :: rest')
      else if found then
        let (changed, s') := markStepStale reason name.value s
        let (changed', artifacts', rest') :=
          markAfter reason name found (clearUnlessOngoing artifacts s) rest
        (changed || changed', artifacts', s' :: rest')
      else
        let (changed, artifacts', rest') := markAfter reason name found artifacts rest
        (changed, artifacts', s :: rest')

def markDownstreamStale (name : StepEnum) (reason : String) (e : EngineFlow) : EngineFlow :=
  let (changed, artifacts, steps) := markAfter reason name false e.artifacts e.steps
  let e' := { e with steps := steps, artifacts := artifacts }
  if changed then e'.save else e'

/-- The provenance the next step takes as upstream after record `s`. -/
def nextUpstream (s : StepRecord) : Option Dict :=
  if s.hasState .Success then s.provenanceDict else none

def upstreamProvenance (name : StepEnum) : Option Dict → List StepRecord → Option Dict
  | upstream, [] => upstream
  | upstream, s :: rest =>
      if s.name = name then upstream else upstreamProvenance name (nextUpstream s) rest

/-! ## 4. Running a step -/

/-- What happens during one step run. -/
structure StepRun where
  /-- `observer.runtime_operation`. -/
  marker : Option Dict
  startedAt : String
  finishedAt : String
  /-- `time.time()` when the step starts. -/
  startTime : Json
  /-- `_format_runtime(...)` when it ends. -/
  runtime : String
  /-- `_run_single_step` and `_check_step_result`: the check's answer, or what was raised. -/
  handler : Except Raised Bool
  /-- What the handler does to the quality files of its own step. -/
  handlerFiles : Artifacts → Artifacts
  /-- `step_qor_source_revision` differs from its value before the handler ran. -/
  reportChanged : Bool
  /-- `_write_step_qor(ws_step, success)` in the `try` body. -/
  qorWrite : Bool → QorWrite
  /-- `output_fingerprint(...)`; `none` when it raises an `Exception`. -/
  outputFingerprint : Option String
  /-- `_write_step_qor(ws_step, False)` in the `except` clause. -/
  failureWrite : QorWrite
  /-- An interruption comes while the `try` body runs, or not at all. -/
  failureWrite_noInterruption : failureWrite.NoInterruption

/-- A run in which nothing fails but what the handler does. -/
def StepRun.undisturbed (handler : Except Raised Bool) : StepRun where
  marker := none
  startedAt := "2026-01-01T00:00:00+00:00"
  finishedAt := "2026-01-01T00:00:01+00:00"
  startTime := .int 0
  runtime := "00:00:01"
  handler := handler
  handlerFiles := id
  reportChanged := true
  qorWrite := fun _ => .undisturbed
  outputFingerprint := some ""
  failureWrite := .undisturbed
  failureWrite_noInterruption := QorWrite.undisturbed_noInterruption

/-- How a run is left. -/
inductive Outcome where
  | returned (state : StateEnum)
  | raised (r : Raised)
  deriving DecidableEq

structure RunResult where
  outcome : Outcome
  engine : EngineFlow
  /-- The handler was invoked. -/
  executed : Bool

/-- The record `_start_step` saves. -/
def startStep (run : StepRun) (s : StepRecord) : StepRecord :=
  let info := match run.marker with
    | none => s.infoDict.pop "runtime_operation"
    | some [] => s.infoDict.pop "runtime_operation"
    | some marker =>
        s.infoDict.set "runtime_operation" (.obj (marker.set "started_at" run.startTime))
  { s with state := some (.str StateEnum.Ongoing.value), info := some (.obj info) }

/-- `info.pop("runtime_operation", None)` when `info` is a dict. -/
def popMarker : Option Json → Option Json
  | some (.obj info) => some (.obj (Dict.pop info "runtime_operation"))
  | info => info

/-- The record `_finish_step` saves. -/
def finishStep (state : StateEnum) (runtime : String) (s : StepRecord) : StepRecord :=
  { s with
    state := some (.str state.value)
    runtime := some (.str runtime)
    peakMemoryMb := some (.float ⟨"0.0", by decide⟩)
    info := popMarker s.info }

def storeProvenance (provenance : Dict) (s : StepRecord) : StepRecord :=
  { s with provenance := some (.obj provenance) }

def popProvenance (s : StepRecord) : StepRecord := { s with provenance := none }

/-- Update the record with `key` in memory. -/
def EngineFlow.modify (e : EngineFlow) (key : StepEnum × String) (f : StepRecord → StepRecord) :
    EngineFlow :=
  { e with steps := modifyStep key f e.steps }

/-- Replace the quality files of one step directory. -/
def EngineFlow.putArtifacts (e : EngineFlow) (directory : String) (files : Artifacts) : EngineFlow :=
  { e with artifacts := fun other => if other = directory then files else e.artifacts other }

/-- `_finish_step(step, Incomplete, runtime)`, the `pop` and the save after it. -/
def finishIncomplete (run : StepRun) (key : StepEnum × String) (e : EngineFlow) : EngineFlow :=
  (((e.modify key (finishStep .Incomplete run.runtime)).save).modify key popProvenance).save

/-- `except Exception`. -/
def exceptException (run : StepRun) (key : StepEnum × String) (directory : String) (e : EngineFlow) :
    Outcome × EngineFlow :=
  if !run.reportChanged then
    (.returned .Incomplete, finishIncomplete run key (e.putArtifacts directory Artifacts.absent))
  else
    match run.failureWrite.run env (e.artifacts directory) with
    | (files, none) =>
        (.returned .Incomplete, finishIncomplete run key (e.putArtifacts directory files))
    | (_, some .exception) =>
        (.returned .Incomplete, finishIncomplete run key (e.putArtifacts directory Artifacts.absent))
    | (files, some .interruption) => (.raised .interruption, e.putArtifacts directory files)

/-- `except BaseException`. -/
def exceptBaseException (run : StepRun) (key : StepEnum × String) (directory : String)
    (e : EngineFlow) : Outcome × EngineFlow :=
  (.raised .interruption, finishIncomplete run key (e.putArtifacts directory Artifacts.absent))

/-- The clause that catches what the `try` body raised. -/
def handleRaised (run : StepRun) (key : StepEnum × String) (directory : String) (e : EngineFlow) :
    Raised → Outcome × EngineFlow
  | .exception => exceptException env run key directory e
  | .interruption => exceptBaseException run key directory e

/-- The record stored for a successful run. -/
def finishedProvenance (run : StepRun) (provenance : Dict) (fingerprint : String) : Dict :=
  (provenance.set "finished_at" (.str run.finishedAt)).set "output_fingerprint" (.str fingerprint)

/-- The `try` statement of `run_step`. -/
def tryBody (run : StepRun) (key : StepEnum × String) (directory : String) (provenance : Dict)
    (e : EngineFlow) : Outcome × EngineFlow :=
  let e := e.putArtifacts directory (run.handlerFiles (e.artifacts directory))
  match run.handler with
  | .error r => handleRaised env run key directory e r
  | .ok success =>
      match (run.qorWrite success).run env (e.artifacts directory) with
      | (files, some r) => handleRaised env run key directory (e.putArtifacts directory files) r
      | (files, none) =>
          let e := e.putArtifacts directory files
          if success then
            match run.outputFingerprint with
            | none => handleRaised env run key directory e .exception
            | some fingerprint =>
                (.returned .Success,
                  ((e.modify key (storeProvenance (finishedProvenance run provenance fingerprint))).modify
                    key (finishStep .Success run.runtime)).save)
          else (.returned .Incomplete, finishIncomplete run key e)

/-- The record built before the step starts. -/
def startedProvenance (run : StepRun) (s : StepRecord) (e : EngineFlow) : Dict :=
  (buildFor env workspace s (upstreamProvenance s.name none e.steps)).set "started_at"
    (.str run.startedAt)

/-- From `_clear_step_stale` to `_start_step`. -/
def beginStep (run : StepRun) (s : StepRecord) (e : EngineFlow) : EngineFlow :=
  let e := (e.modify s.key clearStepStale).putArtifacts s.directory Artifacts.absent
  (e.modify s.key (startStep run)).save

/-- `run_step` from the point where the step is certain to execute. -/
def executeStep (run : StepRun) (s : StepRecord) (e : EngineFlow) : Outcome × EngineFlow :=
  let e := markDownstreamStale s.name "upstream step is being rerun" e
  tryBody env run s.key s.directory (startedProvenance env workspace run s e) (beginStep run s e)

/-- `get_workspace_step(step_name)`: the workspace steps follow the flow's records. -/
def getWorkspaceStep (e : EngineFlow) (name : StepEnum) : Option StepRecord :=
  e.steps.find? fun s => s.name = name

def runStep (run : StepRun) (name : StepEnum) (rerun : Bool) (e : EngineFlow) : RunResult :=
  match getWorkspaceStep e name with
  | none => ⟨.returned .Invalid, e, false⟩
  | some wsStep =>
      let e := (refreshStaleStates env workspace e).2
      match getStep e.steps wsStep.key with
      | none => ⟨.returned .Invalid, e, false⟩
      | some s =>
          if !rerun && s.hasState .Success then ⟨.returned .Success, e, false⟩
          else
            let (outcome, e) := executeStep env workspace run s e
            ⟨outcome, e, true⟩

/-! ## 5. Running the flow -/

/-- How `run_all` is left. -/
inductive FlowOutcome where
  | returned (success : Bool) (reports : List (StepEnum × StateEnum))
  | raised (r : Raised)

/-- `run_all` returned `True`. -/
def FlowOutcome.isSuccess : FlowOutcome → Bool
  | .returned success _ => success
  | .raised _ => false

structure FlowResult where
  outcome : FlowOutcome
  engine : EngineFlow
  /-- The steps whose handlers were invoked. -/
  executed : List StepEnum

/-- The loop of `run_all` over the workspace steps. -/
def runAllLoop (runs : StepEnum → StepRun) (rerun : Bool) :
    List StepEnum → List (StepEnum × StateEnum) → List StepEnum → EngineFlow → FlowResult
  | [], reports, executed, e => ⟨.returned true reports, e, executed⟩
  | name :: rest, reports, executed, e =>
      let r := runStep env workspace (runs name) name rerun e
      let executed := if r.executed then executed ++ [name] else executed
      match r.outcome with
      | .raised raised => ⟨.raised raised, r.engine, executed⟩
      | .returned state =>
          let reports := reports ++ [(name, state)]
          if state ≠ .Success then ⟨.returned false reports, r.engine, executed⟩
          else runAllLoop runs rerun rest reports executed r.engine

def runAll (runs : StepEnum → StepRun) (rerun : Bool) (e : EngineFlow) : FlowResult :=
  let e := if rerun then clearStates e else e
  runAllLoop env workspace runs rerun (e.steps.map (·.name)) [] [] e

end

/-! ## 6. Recovery -/

/-- One record of `clear_stale_ongoing_states`. -/
def interruptedStep (s : StepRecord) : StepRecord :=
  { s with
    state := some (.str StateEnum.Incomplete.value)
    runtime := some (if (s.runtime.getD .null).truthy then s.runtime.getD .null else .str "")
    peakMemoryMb := some (s.peakMemoryMb.getD (.int 0))
    info := popMarker s.info }

def clearStaleOngoingStates (e : EngineFlow) : Bool × EngineFlow :=
  let changed := e.steps.any (·.hasState .Ongoing)
  let e' : EngineFlow :=
    { e with
      steps := e.steps.map fun s => if s.hasState .Ongoing then interruptedStep s else s
      artifacts := (e.steps.filter (·.hasState .Ongoing)).foldl
        (fun artifacts s => clearQor artifacts s.directory) e.artifacts }
  (changed, if changed then e'.save else e')

/-- `_sync_flow_steps()`: the records of the profile, in its order. -/
def syncFlowSteps (kind : DesignKind) (e : EngineFlow) : EngineFlow :=
  if e.steps = [] then e
  else
    let synced := (flowStepsFor kind).map fun expected =>
      (e.steps.reverse.find? fun s => s.key = expected).getD (.fresh expected.1 expected.2)
    if synced = e.steps then e else ({ e with steps := synced } : EngineFlow).save

/-- `EngineFlow(workspace)`: the saved flow, made to fit the profile. -/
def loadEngine (kind : DesignKind) (e : EngineFlow) : EngineFlow :=
  syncFlowSteps kind { e with steps := e.saved }

end EccFe.Engine
