/-
EccFe.Runtime.RecoverRuns — `recover_interrupted` among concurrent calls.

`fecompiler/runtime/recovery.py` judges an ongoing step by the operation id in its
marker: it is left alone when the id is among those copied from the active ones.
The judgement fails for operations without an id and for ids used twice, and what
another call writes while the recovery has the flow in memory is written over. Only
a workspace closed and opened again under a run can bring a recovery and a run
together. `recover_of_supervised`: in runs without these it is right.

Two invariants carry it. `Guarded`: the record of a step being executed carries the
id of its operation, in the engine of the operation and in `flow.json`. `Windowed`:
what a recovery has in memory is `flow.json` as it still is.
-/
import EccFe.Engine.RunAll
import EccFe.Runtime.Interleaving
import EccFe.Runtime.Lifecycle

namespace EccFe.Runtime

open Python Analysis Engine Sessions Transition Tools.RtlInputs

/-! ## 1. Markers -/

/-- The ongoing record under `key` carries the operation id. -/
def Marked (key : StepEnum × String) (operationId : String) (steps : List StepRecord) : Prop :=
  ∀ r ∈ steps, r.key = key → r.hasState .Ongoing = true → markerOperationId r = operationId

/-- A record that is ongoing afterwards is as it was. -/
structure NotStarted (r r' : StepRecord) : Prop where
  key : r'.key = r.key
  ongoing : r'.hasState .Ongoing = true → r' = r

theorem NotStarted.refl (r : StepRecord) : NotStarted r r := ⟨rfl, fun _ => rfl⟩

/-- An invalidated step is not started. -/
theorem NotStarted.invalidated {r r' : StepRecord} (h : Invalidated r r') : NotStarted r r' := by
  refine ⟨h.key, fun hongoing => ?_⟩
  cases hr : r.hasState .Ongoing with
  | true => exact h.ongoing hr
  | false => exact absurd (StepRecord.hasState_unique hongoing (h.reset hr).1) (by decide)

theorem NotStarted.keptOrInvalidated {r r' : StepRecord} (h : KeptOrInvalidated r r') :
    NotStarted r r' := by
  rcases h with rfl | h
  · exact .refl r'
  · exact .invalidated h

/-- A step downstream of a rerun is not started. -/
theorem NotStarted.downstream {name : StepEnum} {r r' : StepRecord} (h : Downstream name r r') :
    NotStarted r r' := by
  rw [Downstream] at h
  split at h
  · rw [h]
    exact .refl r
  · exact .invalidated h

theorem NotStarted.resetStep (r : StepRecord) : NotStarted r (resetStep r) :=
  ⟨rfl, fun h => by simp [Engine.resetStep, StepRecord.hasState, StateEnum.value] at h⟩

/-- A mark stays on while the steps are not started anew. -/
theorem Marked.forall₂ {key : StepEnum × String} {operationId : String}
    {steps steps' : List StepRecord} (h : Marked key operationId steps)
    (hrel : List.Forall₂ NotStarted steps steps') : Marked key operationId steps' := by
  induction hrel with
  | nil => exact h
  | cons hr _ ih =>
    rw [Marked, List.forall_mem_cons] at h ⊢
    refine ⟨fun hkey hongoing => ?_, ih h.2⟩
    rw [hr.ongoing hongoing]
    exact h.1 (hr.key.symm.trans hkey) (hr.ongoing hongoing ▸ hongoing)

theorem NotStarted.forall₂_map {f : StepRecord → StepRecord} (hf : ∀ r, NotStarted r (f r)) :
    ∀ steps : List StepRecord, List.Forall₂ NotStarted steps (steps.map f)
  | [] => .nil
  | r :: rest => .cons (hf r) (forall₂_map hf rest)

/-- A mark stays on while no other step goes Ongoing. -/
theorem Marked.mono {key : StepEnum × String} {operationId : String}
    {steps steps' : List StepRecord} (h : Marked key operationId steps)
    (hsub : ∀ r ∈ steps', r ∈ steps ∨ r.hasState .Ongoing = false) :
    Marked key operationId steps' := by
  intro r hr hkey hongoing
  rcases hsub r hr with hold | hnot
  · exact h r hold hkey hongoing
  · rw [hnot] at hongoing
    cases hongoing

/-- The marker a step is started with is read back as the id of its operation. -/
theorem markerOperationId_started {runtimeInstanceId : String} (hinstance : runtimeInstanceId ≠ "")
    (operationId : String) {run : StepRun} (hclock : isNumberType (some run.startTime) = true)
    (s : StepRecord) :
    markerOperationId
      (started { run with marker := operationMarker runtimeInstanceId operationId } s) =
        operationId := by
  by_cases hid : operationId = ""
  · subst hid
    have hnone : (started { run with marker := operationMarker runtimeInstanceId "" } s).infoDict.get
        "runtime_operation" = none := Dict.get_pop_self _ _
    rw [markerOperationId, runtimeMarker, hnone]
    rfl
  · have hmarker : operationMarker runtimeInstanceId operationId =
        some [("schema", .int 1), ("operation_id", .str operationId),
          ("runtime_instance_id", .str runtimeInstanceId)] := by rw [operationMarker, if_neg hid]
    have hget : (started { run with marker := operationMarker runtimeInstanceId operationId }
        s).infoDict.get "runtime_operation" =
          some (.obj [("schema", .int 1), ("operation_id", .str operationId),
            ("runtime_instance_id", .str runtimeInstanceId), ("started_at", run.startTime)]) := by
      rw [hmarker]
      exact Dict.get_set_self _ _ _
    rw [markerOperationId, runtimeMarker, hget]
    simp [Dict.getD, Dict.get, equalsOne, nonemptyText, hid, hinstance, hclock]

/-! ## 2. Actions -/

/-- A change of one step keeps the steps and their order. -/
theorem keys_modifyStep (key : StepEnum × String) {f : StepRecord → StepRecord}
    (hf : ∀ s, (f s).key = s.key) : ∀ steps : List StepRecord,
      (modifyStep key f steps).map (·.key) = steps.map (·.key)
  | [] => rfl
  | s :: rest => by
      by_cases hs : s.key = key
      · rw [modifyStep, if_pos hs, List.map_cons, List.map_cons, hf]
      · rw [modifyStep, if_neg hs, List.map_cons, List.map_cons, keys_modifyStep key hf rest]

/-- A loaded record was saved, or is a new one. -/
theorem mem_loadEngine {kind : DesignKind} {e : EngineFlow} {r : StepRecord} :
    (r ∈ (loadEngine kind e).steps → r ∈ e.saved ∨ r.hasState .Ongoing = false) ∧
      (r ∈ (loadEngine kind e).saved → r ∈ e.saved ∨ r.hasState .Ongoing = false) := by
  have hsynced : r ∈ ((flowStepsFor kind).map fun expected =>
      (e.saved.reverse.find? fun s => s.key = expected).getD (.fresh expected.1 expected.2)) →
        r ∈ e.saved ∨ r.hasState .Ongoing = false := by
    intro hr
    obtain ⟨expected, -, rfl⟩ := List.mem_map.mp hr
    cases hfind : e.saved.reverse.find? fun s => s.key = expected with
    | none => exact .inr rfl
    | some t => exact .inl (List.mem_reverse.mp (List.mem_of_find?_eq_some hfind))
  rw [loadEngine, syncFlowSteps]
  split
  · exact ⟨.inl, .inl⟩
  dsimp only
  split
  · exact ⟨.inl, .inl⟩
  · exact ⟨hsynced, hsynced⟩

/-- The records of a loaded engine have distinct keys. -/
theorem loadEngine_nodup (kind : DesignKind) (e : EngineFlow) :
    ((loadEngine kind e).steps.map (·.key)).Nodup := by
  have hprofile : ((flowStepsFor kind).map fun expected =>
      (e.saved.reverse.find? fun s => s.key = expected).getD
        (.fresh expected.1 expected.2)).map (·.key) = flowStepsFor kind := by
    rw [List.map_map]
    calc (flowStepsFor kind).map _ = (flowStepsFor kind).map id := by
          refine List.map_congr_left fun expected _ => ?_
          rw [Function.comp_apply]
          cases hfind : e.saved.reverse.find? fun s => s.key = expected with
          | none => rfl
          | some t => simpa using List.find?_some hfind
      _ = flowStepsFor kind := List.map_id _
  have hnodup : (flowStepsFor kind).Nodup := .of_map Prod.fst (flowStepsFor_names_nodup kind)
  rw [loadEngine, syncFlowSteps]
  split
  · rename_i hempty
    rw [hempty]
    exact List.nodup_nil
  dsimp only
  split
  · rename_i heq
    dsimp only
    rw [← heq, hprofile]
    exact hnodup
  · rw [EngineFlow.save, hprofile]
    exact hnodup

/-- What `run_step` leaves of the flow when it starts a step. -/
theorem startRecord_located (run : StepRun) {name : StepEnum} {e : EngineFlow}
    {pre post : List StepRecord} {s : StepRecord} (h : Located name e.steps pre s post) :
    ∃ post', (startRecord run s e).steps = pre ++ started run s :: post' ∧
      (startRecord run s e).saved = (startRecord run s e).steps ∧
      List.Forall₂ NotStarted post post' := by
  obtain ⟨post', hsteps, hpost⟩ :=
    markDownstreamStale_located "upstream step is being rerun" (h.name_eq ▸ h)
  have hmarked : Located s.name
      (markDownstreamStale s.name "upstream step is being rerun" e).steps pre s post' :=
    ⟨hsteps, rfl, h.name_eq ▸ h.before⟩
  exact ⟨post', beginStep_located run hmarked, rfl, hpost.imp fun _ _ => .downstream⟩

/-- The step a client asks for is the first with its name. -/
theorem located_of_getStep {e : EngineFlow} {name : StepEnum} {wsStep s : StepRecord}
    (hws : getWorkspaceStep e name = some wsStep) (hs : getStep e.steps wsStep.key = some s) :
    ∃ pre post, Located name e.steps pre s post := by
  rcases located_or_absent name e.steps with habs | ⟨pre, t, post, h⟩
  · rw [getWorkspaceStep, List.find?_eq_none.mpr (by simpa using habs)] at hws
    cases hws
  · rw [getWorkspaceStep, h.find_name, Option.some.injEq] at hws
    rw [← hws, h.getStep_eq, Option.some.injEq] at hs
    exact ⟨pre, post, hs ▸ h⟩

/-- The clock gives the started step a number. -/
def EngineAction.Clocked : EngineAction → Prop
  | startStep run _ => isNumberType (some run.startTime) = true
  | _ => True

/-- An engine whose records have distinct keys, and carry the id where a step is executed. -/
structure GuardedEngine (operationId : String) (current : Option StepRecord) (e : EngineFlow) :
    Prop where
  distinct : (e.steps.map (·.key)).Nodup
  steps : ∀ s, current = some s → Marked s.key operationId e.steps
  saved : ∀ s, current = some s → Marked s.key operationId e.saved

/-- Every action of an operation keeps its engine guarded. -/
theorem GuardedEngine.apply {runtimeInstanceId operationId : String}
    (hinstance : runtimeInstanceId ≠ "") {kind : DesignKind} {current current' : Option StepRecord}
    {e e' : EngineFlow} {a : EngineAction} (h : GuardedEngine operationId current e)
    (hclock : a.Clocked)
    (happly : a.apply kind (operationMarker runtimeInstanceId operationId) current e =
      some (e', current')) : GuardedEngine operationId current' e' := by
  cases a with
  | construct =>
    obtain ⟨rfl, rfl⟩ := Prod.mk.inj (Option.some.inj happly)
    exact ⟨loadEngine_nodup kind e, fun s hs => (h.saved s hs).mono fun r => mem_loadEngine.1,
      fun s hs => (h.saved s hs).mono fun r => mem_loadEngine.2⟩
  | clearStates =>
    obtain ⟨rfl, rfl⟩ := Prod.mk.inj (Option.some.inj happly)
    have hreset := NotStarted.forall₂_map NotStarted.resetStep e.steps
    refine ⟨?_, fun s hs => (h.steps s hs).forall₂ hreset, fun s hs => (h.steps s hs).forall₂ hreset⟩
    have hkeys := keys_of_forall₂ (fun _ _ => NotStarted.key) hreset
    exact hkeys ▸ h.distinct
  | refreshStaleStates env workspace =>
    obtain ⟨rfl, rfl⟩ := Prod.mk.inj (Option.some.inj happly)
    have hrefresh := (refreshStaleStates_records env workspace e).imp
      fun _ _ => NotStarted.keptOrInvalidated
    refine ⟨refreshStaleStates_keys env workspace e ▸ h.distinct,
      fun s hs => (h.steps s hs).forall₂ hrefresh, fun s hs => ?_⟩
    have hsteps := (h.steps s hs).forall₂ hrefresh
    revert hsteps
    rw [refreshStaleStates]
    dsimp only
    split
    · exact id
    · exact fun _ => h.saved s hs
  | startStep run name =>
    simp only [EngineAction.apply, bind, Option.bind_eq_some_iff, pure, Option.some.injEq] at happly
    obtain ⟨wsStep, hws, s, hs, hpair⟩ := happly
    obtain ⟨rfl, rfl⟩ := Prod.mk.inj hpair
    obtain ⟨pre, post, hloc⟩ := located_of_getStep hws hs
    obtain ⟨post', hsteps, hsaved, hpost⟩ := startRecord_located
      { run with marker := operationMarker runtimeInstanceId operationId } hloc
    have hkeys : (startRecord { run with marker := operationMarker runtimeInstanceId operationId }
        s e).steps.map (·.key) = e.steps.map (·.key) := by
      rw [hsteps, hloc.split, List.map_append, List.map_append, List.map_cons, List.map_cons,
        keys_of_forall₂ (fun _ _ => NotStarted.key) hpost, key_started]
    have hdistinct := hkeys ▸ h.distinct
    have hmarked : Marked s.key operationId (startRecord
        { run with marker := operationMarker runtimeInstanceId operationId } s e).steps := by
      intro r hr hkey hongoing
      have hstarted : r = started
          { run with marker := operationMarker runtimeInstanceId operationId } s := by
        refine List.inj_on_of_nodup_map hdistinct hr ?_ hkey
        rw [hsteps]
        simp
      rw [hstarted]
      exact markerOperationId_started hinstance operationId hclock s
    refine ⟨hdistinct, fun t ht => ?_, fun t ht => ?_⟩
    · cases ht
      exact hmarked
    · cases ht
      exact hsaved ▸ hmarked
  | finishStep env run provenance =>
    simp only [EngineAction.apply, Option.map_eq_some_iff] at happly
    obtain ⟨s, -, hpair⟩ := happly
    obtain ⟨rfl, rfl⟩ := Prod.mk.inj hpair
    refine ⟨?_, fun t ht => (by cases ht), fun t ht => (by cases ht)⟩
    have hended := tryBody_ended env run s.key s.directory provenance e
    revert hended
    generalize tryBody env run s.key s.directory provenance e = result
    intro hended
    cases hended with
    | success _ _ _ => exact keys_modifyStep s.key (f := succeeded run _) (fun _ => rfl) e.steps ▸ h.distinct
    | failure _ _ _ _ => exact keys_modifyStep s.key (f := failed run) (fun _ => rfl) e.steps ▸ h.distinct

/-! ## 3. Runs -/

/-- The call works on the flow of its directory. -/
def SessionCall.worksOnFlow : SessionCall → Bool
  | recoverInterrupted _ => false
  | flowRun _ | flowRunStep _ | resetFlow | syncConfig | refreshConfig => true

/-- Client `c` runs an operation on the directory. -/
def Works (st : RuntimeState) (c : Client) (d : AbsPath) : Prop :=
  ∃ call s memory current, st.tasks c = some (.running call s memory current) ∧
    call.worksOnFlow = true ∧ s.directory = d

/-- An operation has put the record's step into state Ongoing and is still executing it. -/
def Executing (st : RuntimeState) (d : AbsPath) (r : StepRecord) : Prop :=
  r.hasState .Ongoing = true ∧ ∃ c call s memory current,
    st.tasks c = some (.running call s memory (some current)) ∧ s.directory = d ∧
      current.key = r.key

/-- `EngineFlow(workspace)` finds nothing to change in the flow. -/
def WorkspaceFiles.InProfile (files : WorkspaceFiles) : Prop :=
  files.steps = [] ∨ files.steps.map (·.key) = flowStepsFor files.kind

/-- The record is in the scope of `recover_interrupted(operation_id)`. -/
def MatchesFilter (operationId : String) (r : StepRecord) : Prop :=
  operationId = "" ∨ markerOperationId r = operationId

/-- What `recover_interrupted` relies on: of the steps its filter selects. -/
structure RecoverReady (st : RuntimeState) (d : AbsPath) (active : List String)
    (operationId : String) : Prop where
  /-- The records to be given up have the two fields the recovery would add. -/
  fields : ∀ r ∈ (st.files d).steps, r.hasState .Ongoing = true → MatchesFilter operationId r →
    r.runtime.isSome = true ∧ r.peakMemoryMb.isSome = true
  /-- An operation that is executing a step has an id, and it was active at the copy. -/
  identified : ∀ c call s memory current, st.tasks c = some (.running call s memory (some current)) →
    s.directory = d → operationId = "" ∨ call.operationId = operationId → call.operationId ∈ active
  /-- A step left behind carries no id that was active at the copy. -/
  leftBehind : ∀ r ∈ (st.files d).steps, r.hasState .Ongoing = true → MatchesFilter operationId r →
    ¬Executing st d r → markerOperationId r ∉ active

/-- The directory whose flow a recovery has read and not saved. -/
def Task.unsaved : Task → Option AbsPath
  | judging _ s _ _ | saving _ s _ _ _ => some s.directory
  | creating _ | created _ | loading _ | loaded _ | waiting _ _ | running _ _ _ _
  | recovering _ _ _ | recovered _ => none

/-- Client `c` recovers the directory, and is between reading its flow and saving it. -/
def Unsaved (st : RuntimeState) (c : Client) (d : AbsPath) : Prop :=
  ∃ task, st.tasks c = some task ∧ task.unsaved = some d

/-- Operations work on a directory one at a time, nobody writes a flow that a recovery has read
and not saved, and recoveries are ready. -/
def Supervised (st : RuntimeState) (label : Client × Label) : Prop :=
  match label.2 with
  | .createWrite _ => ∀ d, st.tasks label.1 = some (.creating d) →
      (∀ c, ¬Works st c d) ∧ ∀ c, ¬Unsaved st c d
  | .openConstruct => ∀ d, st.tasks label.1 = some (.loading d) →
      (st.files d).InProfile ∨ (∀ c, ¬Works st c d) ∧ ∀ c, ¬Unsaved st c d
  | .acquire => ∀ call s, st.tasks label.1 = some (.waiting call s) → call.worksOnFlow = true →
      ∀ c, ¬Works st c s.directory
  | .act a => a.Clocked ∧ ∀ call s memory current,
      st.tasks label.1 = some (.running call s memory current) → ∀ c, ¬Unsaved st c s.directory
  | .recoverLoad => ∀ operationId s active,
      st.tasks label.1 = some (.recovering operationId s active) →
        (st.files s.directory).InProfile ∧ ∀ c, ¬Unsaved st c s.directory
  | .recoverSave => ∀ operationId s active memory found,
      st.tasks label.1 = some (.saving operationId s active memory found) →
        RecoverReady st s.directory active operationId
  | _ => True

/-- What operations keep in supervised runs. -/
structure Guarded (st : RuntimeState) : Prop where
  engine : ∀ c call s memory current, st.tasks c = some (.running call s memory current) →
    GuardedEngine call.operationId current ((st.files s.directory).engine memory)
  works : ∀ c call s memory current, st.tasks c = some (.running call s memory (some current)) →
    call.worksOnFlow = true
  alone : ∀ c c' d, Works st c d → Works st c' d → c = c'

/-- At the start nothing runs. -/
theorem guarded_start (files : AbsPath → WorkspaceFiles) : Guarded (.start files) where
  engine := fun _ _ _ _ _ h => by cases h
  works := fun _ _ _ _ _ h => by cases h
  alone := fun _ _ _ ⟨_, _, _, _, h, _⟩ => by cases h

section

variable {st st' : RuntimeState} {c : Client}

theorem files_setFiles (st : RuntimeState) (d d' : AbsPath) (files : WorkspaceFiles) :
    (st.setFiles d files).files d' = if d' = d then files else st.files d' := by
  simp [RuntimeState.setFiles, Function.update_apply]

/-- Only the tasks and the files matter. -/
theorem Guarded.congr (h : Guarded st) (htasks : st'.tasks = st.tasks) (hfiles : st'.files = st.files) :
    Guarded st' := by
  refine ⟨?_, ?_, ?_⟩
  · rw [htasks, hfiles]
    exact h.engine
  · rw [htasks]
    exact h.works
  · intro c c' d hc hc'
    rw [Works, htasks] at hc hc'
    exact h.alone c c' d hc hc'

/-- A task that runs nothing works on no directory. -/
theorem works_of_setTask {task : Option Task}
    (htask : ∀ call s memory current, task ≠ some (.running call s memory current)) {c' : Client}
    {d : AbsPath} (h : Works (st.setTask c task) c' d) : Works st c' d := by
  obtain ⟨call, s, memory, current, hrun, hworks, hd⟩ := h
  rw [tasks_setTask] at hrun
  split at hrun
  · exact absurd hrun (htask call s memory current)
  · exact ⟨call, s, memory, current, hrun, hworks, hd⟩

/-- A task that does not work on the directory afterwards. -/
theorem Guarded.setTask (h : Guarded st) {task : Option Task}
    (htask : ∀ call s memory current, task ≠ some (.running call s memory current)) :
    Guarded (st.setTask c task) := by
  refine ⟨fun c' call s memory current hrun => ?_, fun c' call s memory current hrun => ?_,
    fun c₁ c₂ d h₁ h₂ => h.alone c₁ c₂ d (works_of_setTask htask h₁) (works_of_setTask htask h₂)⟩
  · rw [tasks_setTask] at hrun
    split at hrun
    · exact absurd hrun (htask call s memory current)
    · exact h.engine c' call s memory current hrun
  · rw [tasks_setTask] at hrun
    split at hrun
    · exact absurd hrun (htask call s memory (some current))
    · exact h.works c' call s memory current hrun

/-- A task may end. -/
theorem Guarded.endTask (h : Guarded st) (c : Client) : Guarded (st.setTask c none) :=
  h.setTask (by simp)

/-- Files whose records are, where they are ongoing, those of the files before. -/
theorem Guarded.setFiles (h : Guarded st) {d : AbsPath} {files : WorkspaceFiles}
    (hfiles : (∀ c, ¬Works st c d) ∨
      List.Forall₂ NotStarted (st.files d).steps files.steps) :
    Guarded (st.setFiles d files) := by
  refine ⟨fun c call s memory current hrun => ?_, h.works, h.alone⟩
  have hold := h.engine c call s memory current hrun
  refine ⟨hold.distinct, hold.steps, fun t ht => ?_⟩
  have hsaved : Marked t.key call.operationId (st.files s.directory).steps := hold.saved t ht
  show Marked t.key call.operationId ((st.setFiles d files).files s.directory).steps
  rw [files_setFiles]
  split
  · rename_i hd
    rcases hfiles with hidle | hrel
    · subst ht
      exact absurd ⟨call, s, memory, some t, hrun, h.works c call s memory t hrun, hd⟩ (hidle c)
    · exact (hd ▸ hsaved).forall₂ hrel
  · exact hsaved

/-- An operation that is alone on its directory starts. -/
theorem Guarded.acquire (h : Guarded st) {call : SessionCall} {s : WorkspaceSession}
    (hidle : call.worksOnFlow = true → ∀ c, ¬Works st c s.directory) :
    Guarded (st.setTask c (some (.running call s [] none))) := by
  have hworks : ∀ {c' d}, Works (st.setTask c (some (.running call s [] none))) c' d →
      Works st c' d ∨ c' = c ∧ s.directory = d ∧ call.worksOnFlow = true := by
    rintro c' d ⟨call', s', memory, current, hrun, hcall, hd⟩
    rw [tasks_setTask] at hrun
    split at hrun
    · rename_i hc
      cases hrun
      exact .inr ⟨hc, hd, hcall⟩
    · exact .inl ⟨call', s', memory, current, hrun, hcall, hd⟩
  refine ⟨fun c' call' s' memory current hrun => ?_, fun c' call' s' memory current hrun => ?_,
    fun c₁ c₂ d h₁ h₂ => ?_⟩
  · rw [tasks_setTask] at hrun
    split at hrun
    · cases hrun
      exact ⟨List.nodup_nil, fun t ht => (by cases ht), fun t ht => (by cases ht)⟩
    · exact h.engine c' call' s' memory current hrun
  · rw [tasks_setTask] at hrun
    split at hrun
    · cases hrun
    · exact h.works c' call' s' memory current hrun
  · rcases hworks h₁ with hold₁ | ⟨rfl, rfl, hcall⟩
    · rcases hworks h₂ with hold₂ | ⟨rfl, rfl, hcall⟩
      · exact h.alone c₁ c₂ d hold₁ hold₂
      · exact absurd hold₁ (hidle hcall c₁)
    · rcases hworks h₂ with hold₂ | ⟨rfl, -, -⟩
      · exact absurd hold₂ (hidle hcall c₂)
      · rfl

theorem SessionCall.worksOnFlow_of_allows {call : SessionCall} {a : EngineAction}
    (h : call.allows a = true) : call.worksOnFlow = true := by
  cases call with
  | recoverInterrupted _ => cases a <;> cases h
  | _ => rfl

/-- An operation acts on its engine. -/
theorem Guarded.act {runtimeInstanceId : String} (hinstance : runtimeInstanceId ≠ "")
    (h : Guarded st) {call : SessionCall} {s : WorkspaceSession} {memory : List StepRecord}
    {current current' : Option StepRecord} {a : EngineAction} {e : EngineFlow}
    (hold : st.tasks c = some (.running call s memory current)) (hcall : call.allows a = true)
    (hclock : a.Clocked)
    (happly : a.apply (st.files s.directory).kind
      (operationMarker runtimeInstanceId call.operationId) current
        ((st.files s.directory).engine memory) = some (e, current')) :
    Guarded ((st.setFiles s.directory ((st.files s.directory).written e)).setTask c
      (some (.running call s e.steps current'))) := by
  have hguarded := (h.engine c call s memory current hold).apply hinstance hclock happly
  have hflow := SessionCall.worksOnFlow_of_allows hcall
  have hhere : Works st c s.directory := ⟨call, s, memory, current, hold, hflow, rfl⟩
  have hworks : ∀ {c' d}, Works ((st.setFiles s.directory
      ((st.files s.directory).written e)).setTask c (some (.running call s e.steps current'))) c' d →
        Works st c' d := by
    rintro c' d ⟨call', s', memory', current'', hrun, hcall', hd⟩
    rw [tasks_setTask] at hrun
    split at hrun
    · rename_i hc
      cases hrun
      exact hc ▸ hd ▸ hhere
    · exact ⟨call', s', memory', current'', hrun, hcall', hd⟩
  refine ⟨fun c' call' s' memory' current'' hrun => ?_,
    fun c' call' s' memory' current'' hrun => ?_,
    fun c₁ c₂ d h₁ h₂ => h.alone c₁ c₂ d (hworks h₁) (hworks h₂)⟩
  · rw [tasks_setTask] at hrun
    split at hrun
    · cases hrun
      refine ⟨hguarded.distinct, hguarded.steps, fun t ht => ?_⟩
      show Marked t.key call.operationId ((st.setFiles s.directory
        ((st.files s.directory).written e)).files s.directory).steps
      rw [files_setFiles, if_pos rfl]
      exact hguarded.saved t ht
    · rename_i hne
      have hother := h.engine c' call' s' memory' current'' hrun
      refine ⟨hother.distinct, hother.steps, fun t ht => ?_⟩
      have hdirectory : s'.directory ≠ s.directory := fun hsame => by
        subst ht
        exact hne (h.alone c' c s.directory
          ⟨call', s', memory', some t, hrun, h.works c' call' s' memory' t hrun, hsame⟩ hhere)
      show Marked t.key call'.operationId ((st.setFiles s.directory
        ((st.files s.directory).written e)).files s'.directory).steps
      rw [files_setFiles, if_neg hdirectory]
      exact hother.saved t ht
  · rw [tasks_setTask] at hrun
    split at hrun
    · cases hrun
      exact hflow
    · exact h.works c' call' s' memory' current'' hrun

end

/-! ## 4. The recovery -/

/-- Steps of the profile are loaded as they are. -/
theorem loadEngine_inProfile {files : WorkspaceFiles} (h : files.InProfile)
    (memory : List StepRecord) :
    loadEngine files.kind (files.engine memory) = files.engine files.steps := by
  rcases h with hempty | hprofile
  · rw [loadEngine, syncFlowSteps, if_pos (show (files.engine memory).saved = [] from hempty)]
    rfl
  · exact loadEngine_of_profile (show (files.engine memory).saved.map (·.key) = _ from hprofile)

/-- What the loop makes of one record. -/
def judged (active : List String) (operationId : String) (r : StepRecord) : StepRecord :=
  if isInterrupted active operationId r then recoveredStep r else r

/-- A recovery that finds nothing changes nothing. -/
theorem map_judged_of_none {active : List String} {operationId : String} {steps : List StepRecord}
    (h : steps.any (isInterrupted active operationId) = false) :
    steps.map (judged active operationId) = steps := by
  rw [List.any_eq_false] at h
  calc steps.map (judged active operationId) = steps.map id :=
        List.map_congr_left fun r hr => if_neg (h r hr)
    _ = steps := List.map_id _

theorem NotStarted.judged (active : List String) (operationId : String) (r : StepRecord) :
    NotStarted r (judged active operationId r) := by
  unfold Runtime.judged
  split
  · exact ⟨rfl, fun h => by simp [hasState_recoveredStep] at h⟩
  · exact .refl r

/-! ### The window of a recovery -/

/-- What a recovery has in memory is `flow.json` as it is, before or after its loop. -/
def Task.UpToDate (files : AbsPath → WorkspaceFiles) : Task → Prop
  | judging _ s _ memory => memory = (files s.directory).steps
  | saving operationId s active memory found =>
      memory = (files s.directory).steps.map (judged active operationId) ∧
        found = (files s.directory).steps.any (isInterrupted active operationId)
  | creating _ | created _ | loading _ | loaded _ | waiting _ _ | running _ _ _ _
  | recovering _ _ _ | recovered _ => True

/-- What recoveries keep in supervised runs. -/
structure Windowed (st : RuntimeState) : Prop where
  upToDate : ∀ c task, st.tasks c = some task → task.UpToDate st.files
  alone : ∀ c c' d, Unsaved st c d → Unsaved st c' d → c = c'

/-- At the start nothing is unsaved. -/
theorem windowed_start (files : AbsPath → WorkspaceFiles) : Windowed (.start files) where
  upToDate := fun _ _ h => by cases h
  alone := fun _ _ _ ⟨_, h, _⟩ => by cases h

section

variable {st st' : RuntimeState} {c : Client}

theorem Windowed.congr (h : Windowed st) (htasks : st'.tasks = st.tasks)
    (hfiles : st'.files = st.files) : Windowed st' := by
  refine ⟨?_, fun c c' d hc hc' => ?_⟩
  · rw [htasks, hfiles]
    exact h.upToDate
  · rw [Unsaved, htasks] at hc hc'
    exact h.alone c c' d hc hc'

/-- A task without a window is up to date. -/
theorem Task.upToDate_of_saved {files : AbsPath → WorkspaceFiles} {task : Task}
    (h : task.unsaved = none) : task.UpToDate files := by
  cases task with
  | judging | saving => cases h
  | _ => trivial

/-- Only the directory of an unsaved flow matters. -/
theorem Task.UpToDate.congr {files files' : AbsPath → WorkspaceFiles} {task : Task}
    (h : task.UpToDate files)
    (hfiles : ∀ d, task.unsaved = some d → (files' d).steps = (files d).steps) :
    task.UpToDate files' := by
  cases task with
  | judging _ s _ memory => exact Eq.trans h (hfiles s.directory rfl).symm
  | saving operationId s active memory found =>
    rw [Task.UpToDate, hfiles s.directory rfl]
    exact h
  | _ => trivial

theorem unsaved_setTask {task : Option Task} {c' : Client} {d : AbsPath}
    (h : Unsaved (st.setTask c task) c' d) :
    (c' = c ∧ ∃ t, task = some t ∧ t.unsaved = some d) ∨ c' ≠ c ∧ Unsaved st c' d := by
  obtain ⟨t, htask, hunsaved⟩ := h
  rw [tasks_setTask] at htask
  split at htask
  · rename_i hc
    exact .inl ⟨hc, t, htask, hunsaved⟩
  · rename_i hc
    exact .inr ⟨hc, t, htask, hunsaved⟩

/-- A task that starts, goes on or ends. -/
theorem Windowed.setTask (h : Windowed st) {task : Option Task}
    (hupToDate : ∀ t, task = some t → t.UpToDate st.files)
    (halone : ∀ t d, task = some t → t.unsaved = some d → ∀ c', c' ≠ c → ¬Unsaved st c' d) :
    Windowed (st.setTask c task) := by
  refine ⟨fun c' t htask => ?_, fun c₁ c₂ d h₁ h₂ => ?_⟩
  · rw [tasks_setTask] at htask
    split at htask
    · exact hupToDate t htask
    · exact h.upToDate c' t htask
  · rcases unsaved_setTask h₁ with ⟨rfl, t, ht, hd⟩ | ⟨hne₁, hold₁⟩
    · rcases unsaved_setTask h₂ with ⟨rfl, -⟩ | ⟨hne₂, hold₂⟩
      · rfl
      · exact absurd hold₂ (halone t d ht hd c₂ hne₂)
    · rcases unsaved_setTask h₂ with ⟨rfl, t, ht, hd⟩ | ⟨-, hold₂⟩
      · exact absurd hold₁ (halone t d ht hd c₁ hne₁)
      · exact h.alone c₁ c₂ d hold₁ hold₂

/-- A task that has no unsaved flow. -/
theorem Windowed.setSaved (h : Windowed st) {task : Option Task}
    (htask : ∀ t, task = some t → t.unsaved = none) : Windowed (st.setTask c task) :=
  h.setTask (fun t ht => Task.upToDate_of_saved (htask t ht)) fun t d ht hd => by
    rw [htask t ht] at hd
    cases hd

/-- A recovery that goes on. -/
theorem Windowed.nextTask (h : Windowed st) {old task : Task} (hold : st.tasks c = some old)
    (hunsaved : task.unsaved = old.unsaved) (hupToDate : task.UpToDate st.files) :
    Windowed (st.setTask c (some task)) := by
  refine h.setTask (fun t ht => ?_) fun t d ht hd c' hne hc' => ?_
  · cases ht
    exact hupToDate
  · cases ht
    exact hne (h.alone c' c d hc' ⟨old, hold, hunsaved.symm.trans hd⟩)

/-- Files in which no unsaved flow is written over. -/
theorem Windowed.setFiles (h : Windowed st) {d : AbsPath} {files : WorkspaceFiles}
    (hfiles : files.steps = (st.files d).steps ∨ ∀ c, ¬Unsaved st c d) :
    Windowed (st.setFiles d files) := by
  refine ⟨fun c task htask => (h.upToDate c task htask).congr fun d' hd' => ?_, h.alone⟩
  rw [files_setFiles]
  split
  · rename_i hd
    subst hd
    exact hfiles.resolve_right fun hnone => hnone c ⟨task, htask, hd'⟩
  · rfl

end

/-- Every supervised step keeps what recoveries have in memory up to date. -/
theorem windowed_step {runtimeInstanceId : String} {st st' : RuntimeState} {label : Client × Label}
    (h : Windowed st) (hok : Supervised st label)
    (hstep : step runtimeInstanceId st label = some st') : Windowed st' := by
  obtain ⟨c, label⟩ := label
  have hended : Windowed (st.setTask c none) := h.setSaved fun t ht => by cases ht
  rw [step] at hstep
  cases label with
  | createWorkspace d =>
    simp only [stepOf] at hstep
    split at hstep
    · cases hstep
      exact h.setSaved fun t ht => by cases ht; rfl
    · cases hstep
  | createWrite kind =>
    simp only [stepOf] at hstep
    split at hstep
    · rename_i d hold
      cases hstep
      exact h.setFiles (.inr (hok d hold).2)
    · cases hstep
  | createReturn success =>
    simp only [stepOf] at hstep
    split at hstep
    · cases hstep
      refine h.setSaved fun t ht => ?_
      cases success <;> cases ht
      rfl
    · cases hstep
  | createSession =>
    simp only [stepOf] at hstep
    split at hstep
    · cases hstep
      exact hended.congr rfl rfl
    · cases hstep
  | openWorkspace d =>
    simp only [stepOf] at hstep
    split at hstep
    · cases hstep
      exact h.setSaved fun t ht => by cases ht; rfl
    · cases hstep
  | openConstruct =>
    simp only [stepOf] at hstep
    split at hstep
    · rename_i d hold
      cases hstep
      refine h.setFiles ?_
      rcases hok d hold with hprofile | hnone
      · rw [loadEngine_inProfile hprofile]
        exact .inl rfl
      · exact .inr hnone.2
    · cases hstep
  | openReturn success =>
    simp only [stepOf] at hstep
    split at hstep
    · cases hstep
      refine h.setSaved fun t ht => ?_
      cases success <;> cases ht
      rfl
    · cases hstep
  | openSession =>
    simp only [stepOf] at hstep
    split at hstep
    · cases hstep
      exact hended.congr rfl rfl
    · cases hstep
  | closeWorkspace workspaceId =>
    simp only [stepOf] at hstep
    split at hstep
    · cases hstep
      exact h.congr rfl rfl
    · cases hstep
  | sessionCall call workspaceId =>
    simp only [stepOf] at hstep
    split at hstep
    · cases hstep
      refine h.setSaved fun t ht => ?_
      obtain ⟨session, -, rfl⟩ := Option.map_eq_some_iff.mp ht
      rfl
    · cases hstep
  | acquire =>
    simp only [stepOf] at hstep
    split at hstep
    · rename_i call s hold
      split at hstep
      · cases hstep
        have hrunning : Windowed (st.setTask c (some (.running call s [] none))) :=
          h.setSaved fun t ht => by cases ht; rfl
        exact hrunning.congr rfl rfl
      · cases hstep
    · cases hstep
  | act a =>
    simp only [stepOf] at hstep
    split at hstep
    · rename_i call s memory current hold
      split at hstep
      · obtain ⟨⟨e, current'⟩, -, rfl⟩ := Option.map_eq_some_iff.mp hstep
        exact (h.setFiles (.inr (hok.2 call s memory current hold))).setSaved fun t ht => by
          cases ht; rfl
      · cases hstep
    · cases hstep
  | copyActive =>
    simp only [stepOf] at hstep
    split at hstep
    · cases hstep
      exact h.setSaved fun t ht => by cases ht; rfl
    · cases hstep
  | recoverLoad =>
    simp only [stepOf] at hstep
    split at hstep
    · rename_i operationId s active hold
      cases hstep
      obtain ⟨hprofile, hnone⟩ := hok operationId s active hold
      rw [loadEngine_inProfile hprofile]
      refine (h.setFiles (.inl rfl)).setTask (fun t ht => ?_) fun t d ht hd c' _ hc' => ?_
      · cases ht
        exact (congrArg WorkspaceFiles.steps
          ((files_setFiles st s.directory s.directory _).trans (if_pos rfl))).symm
      · cases ht
        cases hd
        exact hnone c' hc'
    · cases hstep
  | giveUp =>
    simp only [stepOf] at hstep
    split at hstep
    · rename_i operationId s active memory hold
      cases hstep
      have hmemory : memory = (st.files s.directory).steps := h.upToDate c _ hold
      have hfiles : Windowed (st.setFiles s.directory ((st.files s.directory).written
          (giveUpInterrupted active operationId ((st.files s.directory).engine memory)))) :=
        h.setFiles (.inl rfl)
      refine hfiles.nextTask hold rfl ?_
      rw [Task.UpToDate, files_setFiles, if_pos rfl, hmemory]
      exact ⟨rfl, rfl⟩
    · cases hstep
  | recoverSave =>
    simp only [stepOf] at hstep
    split at hstep
    · rename_i operationId s active memory found hold
      cases hstep
      have hdone : Windowed (st.setTask c (some (.recovered s))) :=
        h.setSaved fun t ht => by cases ht; rfl
      refine hdone.setFiles (.inr fun c' hc' => ?_)
      rcases unsaved_setTask hc' with ⟨-, t, ht, hd⟩ | ⟨hne, hold'⟩
      · cases ht
        cases hd
      · exact hne (h.alone c' c s.directory hold' ⟨_, hold, rfl⟩)
    · cases hstep
  | release =>
    simp only [stepOf] at hstep
    split at hstep
    · cases hstep
      exact hended.congr rfl rfl
    · cases hstep
      exact hended.congr rfl rfl
    · cases hstep
      exact hended.congr rfl rfl
    · cases hstep
      exact hended.congr rfl rfl
    · cases hstep
      exact hended.congr rfl rfl
    · cases hstep

/-- What a save leaves in `flow.json`. -/
theorem steps_save {files : WorkspaceFiles} {active : List String} {operationId : String}
    {memory : List StepRecord} {found : Bool}
    (hmemory : memory = files.steps.map (judged active operationId))
    (hfound : found = files.steps.any (isInterrupted active operationId)) :
    (files.written (if found then (files.engine memory).save else files.engine memory)).steps =
      files.steps.map (judged active operationId) := by
  cases found with
  | true => exact hmemory
  | false => exact (map_judged_of_none hfound.symm).symm

/-! ### The runs of operations -/

/-- Every supervised step keeps the invariant. -/
theorem guarded_step {runtimeInstanceId : String} (hinstance : runtimeInstanceId ≠ "")
    {st st' : RuntimeState} {label : Client × Label} (h : Guarded st) (hwindow : Windowed st)
    (hok : Supervised st label) (hstep : step runtimeInstanceId st label = some st') :
    Guarded st' := by
  obtain ⟨c, label⟩ := label
  rw [step] at hstep
  cases label with
  | createWorkspace d =>
    simp only [stepOf] at hstep
    split at hstep
    · cases hstep
      exact h.setTask (by simp)
    · cases hstep
  | createWrite kind =>
    simp only [stepOf] at hstep
    split at hstep
    · rename_i d hold
      cases hstep
      exact h.setFiles (.inl (hok d hold).1)
    · cases hstep
  | createReturn success =>
    simp only [stepOf] at hstep
    split at hstep
    · cases hstep
      exact h.setTask (by cases success <;> simp)
    · cases hstep
  | createSession =>
    simp only [stepOf] at hstep
    split at hstep
    · cases hstep
      exact (h.endTask c).congr rfl rfl
    · cases hstep
  | openWorkspace d =>
    simp only [stepOf] at hstep
    split at hstep
    · cases hstep
      exact h.setTask (by simp)
    · cases hstep
  | openConstruct =>
    simp only [stepOf] at hstep
    split at hstep
    · rename_i d hold
      cases hstep
      refine h.setFiles ?_
      rcases hok d hold with hprofile | hidle
      · rw [loadEngine_inProfile hprofile]
        exact .inr (List.forall₂_same.mpr fun r _ => .refl r)
      · exact .inl hidle.1
    · cases hstep
  | openReturn success =>
    simp only [stepOf] at hstep
    split at hstep
    · cases hstep
      exact h.setTask (by cases success <;> simp)
    · cases hstep
  | openSession =>
    simp only [stepOf] at hstep
    split at hstep
    · cases hstep
      exact (h.endTask c).congr rfl rfl
    · cases hstep
  | closeWorkspace workspaceId =>
    simp only [stepOf] at hstep
    split at hstep
    · cases hstep
      exact h.congr rfl rfl
    · cases hstep
  | sessionCall call workspaceId =>
    simp only [stepOf] at hstep
    split at hstep
    · cases hstep
      exact h.setTask (by cases st.registry.sessions.lookup workspaceId <;> simp)
    · cases hstep
  | acquire =>
    simp only [stepOf] at hstep
    split at hstep
    · rename_i call s hold
      split at hstep
      · cases hstep
        exact (h.acquire (hok call s hold)).congr rfl rfl
      · cases hstep
    · cases hstep
  | act a =>
    simp only [stepOf] at hstep
    split at hstep
    · rename_i call s memory current hold
      split at hstep
      · rename_i hcall
        obtain ⟨⟨e, current'⟩, happly, rfl⟩ := Option.map_eq_some_iff.mp hstep
        exact h.act hinstance hold hcall hok.1 happly
      · cases hstep
    · cases hstep
  | copyActive =>
    simp only [stepOf] at hstep
    split at hstep
    · cases hstep
      exact h.setTask (by simp)
    · cases hstep
  | recoverLoad =>
    simp only [stepOf] at hstep
    split at hstep
    · rename_i operationId s active hold
      cases hstep
      rw [loadEngine_inProfile (hok operationId s active hold).1]
      exact Guarded.setTask (h.setFiles (.inr (List.forall₂_same.mpr fun r _ => .refl r))) (by simp)
    · cases hstep
  | giveUp =>
    simp only [stepOf] at hstep
    split at hstep
    · rename_i operationId s active memory hold
      cases hstep
      have hfiles : Guarded (st.setFiles s.directory ((st.files s.directory).written
          (giveUpInterrupted active operationId ((st.files s.directory).engine memory)))) :=
        h.setFiles (.inr (List.forall₂_same.mpr fun r _ => .refl r))
      exact hfiles.setTask (by simp)
    · cases hstep
  | recoverSave =>
    simp only [stepOf] at hstep
    split at hstep
    · rename_i operationId s active memory found hold
      cases hstep
      obtain ⟨hmemory, hfound⟩ := hwindow.upToDate c _ hold
      refine Guarded.setTask (h.setFiles (.inr ?_)) (by simp)
      rw [steps_save hmemory hfound]
      exact NotStarted.forall₂_map (NotStarted.judged active operationId) _
    · cases hstep
  | release =>
    simp only [stepOf] at hstep
    split at hstep
    · cases hstep
      exact (h.endTask c).congr rfl rfl
    · cases hstep
      exact (h.endTask c).congr rfl rfl
    · cases hstep
      exact (h.endTask c).congr rfl rfl
    · cases hstep
      exact (h.endTask c).congr rfl rfl
    · cases hstep
      exact (h.endTask c).congr rfl rfl
    · cases hstep

/-- In a supervised run both invariants hold. -/
theorem supervised_run {runtimeInstanceId : String} (hinstance : runtimeInstanceId ≠ "")
    {files : AbsPath → WorkspaceFiles} {labels : List (Client × Label)} {st : RuntimeState}
    (h : Run (step runtimeInstanceId) Supervised (.start files) labels st) :
    Guarded st ∧ Windowed st := by
  have hkeeps : ∀ (st : RuntimeState) label st', Guarded st ∧ Windowed st → Supervised st label →
      step runtimeInstanceId st label = some st' → Guarded st' ∧ Windowed st' :=
    fun _ _ _ hs hok hstep =>
      ⟨guarded_step hinstance hs.1 hs.2 hok hstep, windowed_step hs.2 hok hstep⟩
  have hrun := Run.invariant hkeeps h
  exact hrun ⟨guarded_start files, windowed_start files⟩

/-- The record of a step given up: state Incomplete and no marker. -/
def givenUp (r : StepRecord) : StepRecord :=
  { r with state := some (.str StateEnum.Incomplete.value), info := popMarker r.info }

/-- The filling in of missing fields apart, the recovery gives a step up. -/
theorem recoveredStep_eq {r : StepRecord} (hruntime : r.runtime.isSome = true)
    (hmemory : r.peakMemoryMb.isSome = true) : recoveredStep r = givenUp r := by
  obtain ⟨runtime, hruntime⟩ := Option.isSome_iff_exists.mp hruntime
  obtain ⟨memory, hmemory⟩ := Option.isSome_iff_exists.mp hmemory
  rw [recoveredStep, givenUp, hruntime, hmemory]
  rfl

/-- What is right for one record, given whether its step is being executed and whether
the filter selects it. -/
structure RecoversRecord (executing selected : Prop) (r r' : StepRecord) : Prop where
  executed : executing → r' = r
  interrupted : ¬executing → r.hasState .Ongoing = true → selected → r' = givenUp r
  other : r.hasState .Ongoing = false ∨ ¬selected → r' = r

/-- What is right for a recovery of the directory. -/
structure Recovers (st st' : RuntimeState) (d : AbsPath) (operationId : String) : Prop where
  here : List.Forall₂
    (fun r r' => RecoversRecord (Executing st d r) (MatchesFilter operationId r) r r')
    (st.files d).steps (st'.files d).steps
  elsewhere : ∀ d', d' ≠ d → st'.files d' = st.files d'

/-- What counts as interrupted: Ongoing, selected, and of no active operation. -/
theorem isInterrupted_iff (active : List String) (operationId : String) (r : StepRecord) :
    isInterrupted active operationId r = true ↔
      r.hasState .Ongoing = true ∧ MatchesFilter operationId r ∧ markerOperationId r ∉ active := by
  simp [isInterrupted, MatchesFilter, or_iff_not_imp_left, and_assoc]

/-- A step being executed carries the id of its operation: an active one, if the filter selects
it. -/
theorem Guarded.executing {st : RuntimeState} (h : Guarded st) {d : AbsPath} {active : List String}
    {operationId : String} (hready : RecoverReady st d active operationId) {r : StepRecord}
    (hr : r ∈ (st.files d).steps) (hexec : Executing st d r) (hmatches : MatchesFilter operationId r) :
    markerOperationId r ∈ active := by
  obtain ⟨hongoing, c, call, s, memory, current, hrun, rfl, hkey⟩ := hexec
  have hid := (h.engine c call s memory (some current) hrun).saved current rfl r hr hkey.symm hongoing
  rw [MatchesFilter, hid] at hmatches
  rw [hid]
  exact hready.identified c call s memory current hrun rfl hmatches

/-- When the recovery is ready, it judges each record rightly. -/
theorem Guarded.recoversRecord {st : RuntimeState} (h : Guarded st) {d : AbsPath}
    {active : List String} {operationId : String} (hready : RecoverReady st d active operationId)
    {r : StepRecord} (hr : r ∈ (st.files d).steps) :
    RecoversRecord (Executing st d r) (MatchesFilter operationId r) r
      (judged active operationId r) := by
  refine ⟨fun hexec => if_neg ?_, fun hexec hongoing hmatches => ?_, fun hother => if_neg ?_⟩
  · rw [isInterrupted_iff]
    rintro ⟨-, hmatches, hinactive⟩
    exact hinactive (h.executing hready hr hexec hmatches)
  · have hleft := hready.leftBehind r hr hongoing hmatches hexec
    have hfields := hready.fields r hr hongoing hmatches
    rw [judged, if_pos ((isInterrupted_iff _ _ _).mpr ⟨hongoing, hmatches, hleft⟩)]
    exact recoveredStep_eq hfields.1 hfields.2
  · rw [isInterrupted_iff]
    rintro ⟨hongoing, hmatches, -⟩
    rcases hother with hnot | hnot
    · simp [hnot] at hongoing
    · exact hnot hmatches

/-- In a supervised run a `recover_interrupted` changes no record before it saves; and when it
saves it leaves the steps that are being executed alone, gives up the other ongoing ones its
filter selects, and changes nothing else. -/
theorem recover_of_supervised (runtimeInstanceId : String) (hinstance : runtimeInstanceId ≠ "")
    (files : AbsPath → WorkspaceFiles) (labels : List (Client × Label)) (st st' : RuntimeState)
    (h : Run (step runtimeInstanceId) Supervised (.start files) labels st) (c : Client) :
    (∀ label ∈ [Label.recoverLoad, .giveUp], Supervised st (c, label) →
      step runtimeInstanceId st (c, label) = some st' →
        ∀ d, (st'.files d).steps = (st.files d).steps) ∧
    (Supervised st (c, .recoverSave) → step runtimeInstanceId st (c, .recoverSave) = some st' →
      ∃ operationId s active memory found,
        st.tasks c = some (.saving operationId s active memory found) ∧
          Recovers st st' s.directory operationId) := by
  obtain ⟨hguarded, hwindow⟩ := supervised_run hinstance h
  have hsame : ∀ d d' (files : WorkspaceFiles), files.steps = (st.files d).steps →
      ((st.setFiles d files).files d').steps = (st.files d').steps := by
    intro d d' files hfiles
    rw [files_setFiles]
    split
    · rename_i hd
      rw [hfiles, hd]
    · rfl
  refine ⟨fun label hlabel hok hstep d => ?_, fun hok hstep => ?_⟩
  · simp only [List.mem_cons, List.not_mem_nil, or_false] at hlabel
    rcases hlabel with rfl | rfl
    · simp only [step, stepOf] at hstep
      split at hstep
      · rename_i operationId s active hold
        cases hstep
        rw [loadEngine_inProfile (hok operationId s active hold).1]
        exact hsame s.directory d _ rfl
      · cases hstep
    · simp only [step, stepOf] at hstep
      split at hstep
      · rename_i operationId s active memory hold
        cases hstep
        exact hsame s.directory d _ rfl
      · cases hstep
  · simp only [step, stepOf] at hstep
    split at hstep
    · rename_i operationId s active memory found hold
      cases hstep
      have hready := hok operationId s active memory found hold
      obtain ⟨hmemory, hfound⟩ := hwindow.upToDate c _ hold
      refine ⟨operationId, s, active, memory, found, hold, ?_, fun d' hd' => ?_⟩
      · show List.Forall₂ _ (st.files s.directory).steps
          ((st.setFiles s.directory _).files s.directory).steps
        rw [files_setFiles, if_pos rfl, steps_save hmemory hfound, List.forall₂_map_right_iff,
          List.forall₂_same]
        exact fun r hr => hguarded.recoversRecord hready hr
      · exact (files_setFiles st s.directory d' _).trans (if_neg hd')
    · cases hstep

/-- The directory and the key of the step a task is executing. -/
def Task.executing : Task → Option (AbsPath × (StepEnum × String))
  | running _ s _ (some current) => some (s.directory, current.key)
  | _ => none

theorem Task.executing_eq_some {task : Task} {d : AbsPath} {key : StepEnum × String}
    (h : task.executing = some (d, key)) : ∃ call s memory current,
      task = .running call s memory (some current) ∧ s.directory = d ∧ current.key = key := by
  unfold executing at h
  split at h
  · rename_i call s memory current
    obtain ⟨rfl, rfl⟩ := Prod.mk.inj (Option.some.inj h)
    exact ⟨call, s, memory, current, rfl, rfl, rfl⟩
  · cases h

/-- The operation id of a task that is executing a step. -/
def Task.executingId : Task → Option String
  | running call _ _ (some _) => some call.operationId
  | _ => none

def ongoingKeys (steps : List StepRecord) : List (StepEnum × String) :=
  (steps.filter (·.hasState .Ongoing)).map (·.key)

/-! ### A recovery beside a run -/

/-- The directory whose flow a task works on. -/
def Task.worksOn : Task → Option AbsPath
  | running call s _ _ => if call.worksOnFlow then some s.directory else none
  | _ => none

/-- `Supervised` for a run of these clients, without calls that save a recovery, create or load. -/
def supervised? (clients : List Client) (st : RuntimeState) (label : Client × Label) : Bool :=
  clients.contains label.1 &&
    match label.2, st.tasks label.1 with
    | .createWrite _, _ | .openConstruct, _ | .recoverSave, _ => false
    | .acquire, some (.waiting call s) =>
        !call.worksOnFlow || allTasks clients st fun task => task.worksOn ≠ some s.directory
    | .act (.startStep run _), some (.running _ s _ _) =>
        isNumberType (some run.startTime) &&
          allTasks clients st fun task => task.unsaved ≠ some s.directory
    | .act .construct, some (.running _ s _ _) =>
        allTasks clients st fun task => task.unsaved ≠ some s.directory
    | .act _, _ => false
    | .recoverLoad, some (.recovering _ s _) =>
        (st.files s.directory).steps.map (·.key) == flowStepsFor (st.files s.directory).kind &&
          allTasks clients st fun task => task.unsaved ≠ some s.directory
    | _, _ => true

/-- Nobody works on a directory when none of the clients does. -/
theorem Only.not_works {clients : List Client} {st : RuntimeState} (h : Only clients st) {d : AbsPath}
    (htasks : allTasks clients st (fun task => task.worksOn ≠ some d) = true) (c : Client) :
    ¬Works st c d := by
  rintro ⟨call, s, memory, current, htask, hcall, rfl⟩
  have htest := h.of_allTasks htasks htask
  simp [Task.worksOn, hcall] at htest

/-- Nobody has a window open when none of the clients has. -/
theorem Only.not_unsaved {clients : List Client} {st : RuntimeState} (h : Only clients st)
    {d : AbsPath} (htasks : allTasks clients st (fun task => task.unsaved ≠ some d) = true)
    (c : Client) : ¬Unsaved st c d := by
  rintro ⟨task, htask, hd⟩
  have htest := h.of_allTasks htasks htask
  simp [hd] at htest

/-- A check of the clients decides whether a step is supervised. -/
theorem Only.supervised {clients : List Client} {st : RuntimeState} {label : Client × Label}
    (h : Only clients st) (hcheck : supervised? clients st label = true) : Supervised st label := by
  obtain ⟨client, label⟩ := label
  have hlabel := (Bool.and_eq_true_iff.mp hcheck).2
  cases label with
  | createWrite kind => cases hlabel
  | openConstruct => cases hlabel
  | recoverSave => cases hlabel
  | acquire =>
    intro call s htask hcall
    dsimp only at hlabel htask
    rw [htask] at hlabel
    simp only [hcall, Bool.not_true, Bool.false_or] at hlabel
    exact h.not_works hlabel
  | act a =>
    cases a with
    | construct =>
      refine ⟨trivial, fun call s memory current htask => ?_⟩
      dsimp only at hlabel htask
      rw [htask] at hlabel
      exact h.not_unsaved hlabel
    | startStep run name =>
      dsimp only at hlabel
      cases htask : st.tasks client with
      | none =>
        rw [htask] at hlabel
        cases hlabel
      | some task =>
        rw [htask] at hlabel
        cases task with
        | running call s memory current =>
          obtain ⟨hclock, hall⟩ := Bool.and_eq_true_iff.mp hlabel
          refine ⟨hclock, fun call' s' memory' current' htask' => ?_⟩
          obtain ⟨⟩ := htask.symm.trans htask'
          exact h.not_unsaved hall
        | _ => cases hlabel
    | _ =>
      cases htask : st.tasks client <;> simp at hlabel
  | recoverLoad =>
    intro operationId s active htask
    dsimp only at hlabel htask
    rw [htask] at hlabel
    obtain ⟨hprofile, hall⟩ := Bool.and_eq_true_iff.mp hlabel
    exact ⟨.inr (beq_iff_eq.mp hprofile), h.not_unsaved hall⟩
  | _ => trivial

/-- Directories whose lint was ongoing when the process before this one died. -/
def diedInLint : AbsPath → WorkspaceFiles := fun _ =>
  ⟨.GENERIC_RTL, modifyStep (.LINT, "verilator") (·.withState .Ongoing) (freshSteps .GENERIC_RTL),
    fun _ => Artifacts.absent⟩

/-- Client 1 runs the flow; the directory is closed, opened again and recovered under it. -/
def recoveredBesideRun : List (Client × Label) :=
  [(0, .openWorkspace ["ws"]), (0, .openReturn true), (0, .openSession),
    (1, .sessionCall (.flowRun "op-1") "workspace-1"), (1, .acquire), (1, .act .construct),
    (1, .act (.startStep (.undisturbed (.ok true)) .PREPARE)),
    (0, .closeWorkspace "workspace-1"),
    (0, .openWorkspace ["ws"]), (0, .openReturn true), (0, .openSession),
    (2, .sessionCall (.recoverInterrupted "") "workspace-2"), (2, .acquire), (2, .copyActive),
    (2, .recoverLoad), (2, .giveUp)]

/-- Client 1 executes PREPARE with the id that was active at the copy, and no step left behind
carries that id. -/
def besideRun? (st : RuntimeState) : Bool :=
  (match st.tasks 2 with
    | some (.saving operationId s active _ _) =>
        operationId == "" && s.directory == ["ws"] && active == ["op-1"]
    | _ => false) &&
  (st.tasks 1).bind Task.executing == some (["ws"], (.PREPARE, "fe")) &&
  allTasks [0, 1, 2] st (fun task => task.executingId.all (· == "op-1")) &&
  (st.files ["ws"]).steps.all (fun r => r.runtime.isSome && r.peakMemoryMb.isSome &&
    (r.key == (.PREPARE, "fe") || markerOperationId r != "op-1"))

theorem Only.supervised_besideRun {st : RuntimeState} (h : Only [0, 1, 2] st)
    (hcheck : besideRun? st = true) : Supervised st (2, .recoverSave) := by
  intro operationId s active memory found htask
  simp only [besideRun?, htask, Bool.and_eq_true, beq_iff_eq] at hcheck
  obtain ⟨⟨⟨⟨⟨rfl, hd⟩, rfl⟩, hexecuting⟩, hids⟩, hrecords⟩ := hcheck
  rw [List.all_eq_true] at hrecords
  rw [hd]
  refine ⟨fun r hr _ _ => ?_, fun c call s' memory current hrun _ _ => ?_,
    fun r hr hongoing _ hnot => ?_⟩
  · exact Bool.and_eq_true_iff.mp (Bool.and_eq_true_iff.mp (hrecords r hr)).1
  · have hid := h.of_allTasks hids hrun
    rw [Task.executingId, Option.all_some, beq_iff_eq] at hid
    exact hid ▸ List.mem_singleton_self _
  · rw [List.mem_singleton]
    rcases Bool.or_eq_true_iff.mp (Bool.and_eq_true_iff.mp (hrecords r hr)).2 with hkey | hmarker
    · obtain ⟨task, htask, hkeys⟩ := Option.bind_eq_some_iff.mp hexecuting
      obtain ⟨call, s', memory, current, rfl, hd', hcurrent⟩ := Task.executing_eq_some hkeys
      exact absurd ⟨hongoing, 1, call, s', memory, current, htask, hd',
        hcurrent.trans (beq_iff_eq.mp hkey).symm⟩ hnot
    · exact bne_iff_ne.mp hmarker

/-- The recovery gives LINT up and leaves PREPARE to client 1. -/
theorem recover_of_supervised_besideRun : ∃ labels st st',
    Run (step "runtime-1") Supervised (.start diedInLint) labels st ∧
    ((st.tasks 1).bind Task.executing = some (["ws"], (.PREPARE, "fe")) ∧
      ongoingKeys (st.files ["ws"]).steps = [(.PREPARE, "fe"), (.LINT, "verilator")] ∧
      ongoingKeys (st'.files ["ws"]).steps = [(.PREPARE, "fe")]) ∧
    ∃ operationId s active memory found,
      st.tasks 2 = some (.saving operationId s active memory found) ∧
        Recovers st st' s.directory operationId := by
  have heval : ((execChecked (step "runtime-1") (supervised? [0, 1, 2]) (.start diedInLint)
      recoveredBesideRun).bind fun st => (step "runtime-1" st (2, .recoverSave)).map fun st' =>
        besideRun? st && (st.tasks 1).bind Task.executing == some (["ws"], (.PREPARE, "fe")) &&
          ongoingKeys (st.files ["ws"]).steps == [(.PREPARE, "fe"), (.LINT, "verilator")] &&
          ongoingKeys (st'.files ["ws"]).steps == [(.PREPARE, "fe")]) = some true := by
    decide +kernel
  obtain ⟨st, hexec, hrest⟩ := Option.bind_eq_some_iff.mp heval
  obtain ⟨st', hstep, hvalues⟩ := Option.map_eq_some_iff.mp hrest
  simp only [Bool.and_eq_true, beq_iff_eq] at hvalues
  obtain ⟨⟨⟨hbeside, hexecuting⟩, hbefore⟩, hafter⟩ := hvalues
  obtain ⟨hrun, honly⟩ := run_of_execChecked
    (fun _ _ _ hs hcheck hstep =>
      hs.step (List.contains_iff_mem.mp (Bool.and_eq_true_iff.mp hcheck).1) hstep)
    (fun _ _ hs hcheck => hs.supervised hcheck) (only_start [0, 1, 2] diedInLint) hexec
  exact ⟨_, st, st', hrun, ⟨hexecuting, hbefore, hafter⟩,
    (recover_of_supervised "runtime-1" (by decide) diedInLint _ st st' hrun 2).2
      (honly.supervised_besideRun hbeside) hstep⟩

/-- Client 1 runs the flow without an operation id; the directory is closed, opened again
and recovered under it. -/
def recoveredUnderRun : List (Client × Label) :=
  [(0, .openWorkspace ["ws"]), (0, .openReturn true), (0, .openSession),
    (1, .sessionCall (.flowRun "") "workspace-1"), (1, .acquire), (1, .act .construct),
    (1, .act (.startStep (.undisturbed (.ok true)) .PREPARE)),
    (0, .closeWorkspace "workspace-1"),
    (0, .openWorkspace ["ws"]), (0, .openReturn true), (0, .openSession),
    (2, .sessionCall (.recoverInterrupted "") "workspace-2"), (2, .acquire), (2, .copyActive),
    (2, .recoverLoad), (2, .giveUp)]

def freshFiles : AbsPath → WorkspaceFiles := fun _ =>
  ⟨.GENERIC_RTL, freshSteps .GENERIC_RTL, fun _ => Artifacts.absent⟩

/-- A right recovery leaves the steps that are being executed ongoing. -/
theorem Recovers.ongoing {st st' : RuntimeState} {d : AbsPath} {operationId : String}
    (h : Recovers st st' d operationId) {c : Client} {task : Task} {key : StepEnum × String}
    (htask : st.tasks c = some task) (hexec : task.executing = some (d, key))
    (hkey : key ∈ ongoingKeys (st.files d).steps) : key ∈ ongoingKeys (st'.files d).steps := by
  obtain ⟨call, s, memory, current, rfl, hd, rfl⟩ := Task.executing_eq_some hexec
  have hrel := h.here
  revert hkey hrel
  generalize (st.files d).steps = steps, (st'.files d).steps = steps'
  intro hkey hrel
  revert hkey
  induction hrel with
  | nil => exact id
  | @cons r r' rest rest' hr _ ih =>
    simp only [ongoingKeys, List.mem_map, List.mem_filter, List.mem_cons] at ih ⊢
    rintro ⟨t, ⟨rfl | ht, hongoing⟩, hkey⟩
    · have hkept := hr.executed ⟨hongoing, c, call, s, memory, current, htask, hd, hkey.symm⟩
      exact ⟨t, ⟨.inl hkept.symm, hongoing⟩, hkey⟩
    · obtain ⟨u, ⟨hu, huongoing⟩, hukey⟩ := ih ⟨t, ⟨ht, hongoing⟩, hkey⟩
      exact ⟨u, ⟨.inr hu, huongoing⟩, hukey⟩

/-- The step client 1 is executing is given up. -/
theorem recoveredUnderRun_not_right :
    ¬ ∀ runtimeInstanceId files labels st st',
      Run (step runtimeInstanceId) (fun _ _ => True) (.start files) labels st →
      ∀ c, step runtimeInstanceId st (c, .recoverSave) = some st' →
      ∃ operationId s active memory found,
        st.tasks c = some (.saving operationId s active memory found) ∧
          Recovers st st' s.directory operationId := by
  intro hall
  have heval : ((exec (step "runtime-1") (.start freshFiles) recoveredUnderRun).bind fun st =>
      (step "runtime-1" st (2, .recoverSave)).map fun st' =>
        (st.tasks 1).bind Task.executing == some (["ws"], (.PREPARE, "fe")) &&
          (st.tasks 2).map Task.directory == some ["ws"] &&
          ongoingKeys (st.files ["ws"]).steps == [(.PREPARE, "fe")] &&
          ongoingKeys (st'.files ["ws"]).steps == []) = some true := by decide +kernel
  obtain ⟨st, hexec, hrest⟩ := Option.bind_eq_some_iff.mp heval
  obtain ⟨st', hstep, hvalues⟩ := Option.map_eq_some_iff.mp hrest
  simp only [Bool.and_eq_true, beq_iff_eq] at hvalues
  obtain ⟨⟨⟨htask, hdirectory⟩, hbefore⟩, hafter⟩ := hvalues
  obtain ⟨operationId, s, active, memory, found, hsaving, hright⟩ :=
    hall "runtime-1" freshFiles _ st st' (run_of_exec hexec) 2 hstep
  rw [hsaving, Option.map_some, Option.some.injEq] at hdirectory
  obtain ⟨task, htask, hexecuting⟩ := Option.bind_eq_some_iff.mp htask
  rw [show s.directory = ["ws"] from hdirectory] at hright
  have hkept := hright.ongoing htask hexecuting (by rw [hbefore]; exact List.mem_singleton_self _)
  rw [hafter] at hkept
  cases hkept

end EccFe.Runtime
