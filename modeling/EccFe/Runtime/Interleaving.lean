/-
EccFe.Runtime.Interleaving — concurrent calls of the runtime API.

`fecompiler/runtime/workspace_api.py`: a client's call is a task that takes one
step at a time. A session operation looks its session up, waits for the mutation
lock of that session object and then works on the directory; creating and opening
a workspace work on the directory without a lock and touch the registry afterwards.

Replacing a session under a running operation, or closing it and opening the
directory again, gives the directory a second lock, so two bodies can work on it at
once. `exclusive_of_disciplined`: they cannot when calls that create or open a
directory wait for the calls in flight on it.
-/
import EccFe.Runtime.Recovery
import EccFe.Runtime.Sessions
import EccFe.Transition.System
import Mathlib.Logic.Function.Basic

namespace EccFe.Runtime

open Python Analysis Engine Sessions Transition Tools.RtlInputs

abbrev Client := Nat

/-! ## 1. Calls -/

/-- The calls `_with_session` runs under the session's lock. -/
inductive SessionCall where
  | flowRun (operationId : String)
  | flowRunStep (operationId : String)
  | resetFlow
  | syncConfig
  | refreshConfig
  | recoverInterrupted (operationId : String)
  deriving DecidableEq

/-- The id a flow operation is registered under; empty when it has none. -/
def SessionCall.operationId : SessionCall → String
  | flowRun id | flowRunStep id => id
  | resetFlow | syncConfig | refreshConfig | recoverInterrupted _ => ""

/-- What an operation does to the engine, one method at a time. -/
inductive EngineAction where
  /-- `EngineFlow(workspace)`. -/
  | construct
  | clearStates
  | refreshStaleStates (env : Env) (workspace : Workspace)
  /-- `run_step` up to `_start_step`. -/
  | startStep (run : StepRun) (name : StepEnum)
  /-- The rest of `run_step`. -/
  | finishStep (env : Env) (run : StepRun) (provenance : Dict)

def SessionCall.allows : SessionCall → EngineAction → Bool
  | flowRun _, _ | flowRunStep _, _ => true
  | resetFlow, .construct | resetFlow, .clearStates => true
  | syncConfig, .construct | refreshConfig, .construct => true
  | _, _ => false

/-- What a workspace directory holds. -/
structure WorkspaceFiles where
  kind : DesignKind
  /-- The steps of `flow.json`. -/
  steps : List StepRecord
  artifacts : String → Artifacts

/-- An engine with its own step list over the files. -/
def WorkspaceFiles.engine (files : WorkspaceFiles) (memory : List StepRecord) : EngineFlow :=
  ⟨memory, files.steps, files.artifacts⟩

def WorkspaceFiles.written (files : WorkspaceFiles) (e : EngineFlow) : WorkspaceFiles :=
  { files with steps := e.saved, artifacts := e.artifacts }

/-- The marker `_execute_for_session` passes on. -/
def operationMarker (runtimeInstanceId operationId : String) : Option Dict :=
  if operationId = "" then none
  else
    some [("schema", .int 1), ("operation_id", .str operationId),
      ("runtime_instance_id", .str runtimeInstanceId)]

/-- `run_step` from `_mark_downstream_stale` to `_start_step`. -/
def startRecord (run : StepRun) (s : StepRecord) (e : EngineFlow) : EngineFlow :=
  beginStep run s (markDownstreamStale s.name "upstream step is being rerun" e)

/-- The two halves of a step run. -/
theorem executeStep_eq (env : Env) (workspace : Workspace) (run : StepRun) (s : StepRecord)
    (e : EngineFlow) :
    executeStep env workspace run s e =
      tryBody env run s.key s.directory
        (startedProvenance env workspace run s
          (markDownstreamStale s.name "upstream step is being rerun" e))
        (startRecord run s e) := rfl

/-- An action on the engine, with the record of the step being run. -/
def EngineAction.apply (kind : DesignKind) (marker : Option Dict) (current : Option StepRecord)
    (e : EngineFlow) : EngineAction → Option (EngineFlow × Option StepRecord)
  | construct => some (loadEngine kind e, current)
  | clearStates => some (Engine.clearStates e, current)
  | refreshStaleStates env workspace => some ((Engine.refreshStaleStates env workspace e).2, current)
  | startStep run name => do
      let wsStep ← getWorkspaceStep e name
      let s ← getStep e.steps wsStep.key
      return (startRecord { run with marker := marker } s e, some s)
  | finishStep env run provenance =>
      current.map fun s => ((tryBody env run s.key s.directory provenance e).2, none)

/-! ## 2. Tasks -/

inductive Task where
  /-- The `create` command works on the directory. -/
  | creating (directory : AbsPath)
  /-- It has returned, and `create_session` comes next. -/
  | created (directory : AbsPath)
  /-- The `load` command works on the directory. -/
  | loading (directory : AbsPath)
  /-- It has returned, and `open_session` comes next. -/
  | loaded (directory : AbsPath)
  /-- The session is found, and its lock is not held yet. -/
  | waiting (call : SessionCall) (session : WorkspaceSession)
  /-- The lock is held, and the operation works on the directory. -/
  | running (call : SessionCall) (session : WorkspaceSession) (memory : List StepRecord)
      (current : Option StepRecord)
  /-- `recover_interrupted` with its copy of the active ids. -/
  | recovering (operationId : String) (session : WorkspaceSession) (active : List String)
  /-- It has read the flow. -/
  | judging (operationId : String) (session : WorkspaceSession) (active : List String)
      (memory : List StepRecord)
  /-- It has gone through the flow it read, and has found steps to give up or none. -/
  | saving (operationId : String) (session : WorkspaceSession) (active : List String)
      (memory : List StepRecord) (found : Bool)
  /-- The recovery is done, and the lock is still held. -/
  | recovered (session : WorkspaceSession)

namespace Task

def directory : Task → AbsPath
  | creating d | created d | loading d | loaded d => d
  | waiting _ s | running _ s _ _ | recovering _ s _ | judging _ s _ _ | saving _ s _ _ _
  | recovered s => s.directory

/-- The directory an operation body works on. -/
def body : Task → Option AbsPath
  | creating d | loading d => some d
  | running _ s _ _ | recovering _ s _ | judging _ s _ _ | saving _ s _ _ _ | recovered s =>
      some s.directory
  | created _ | loaded _ | waiting _ _ => none

def session? : Task → Option WorkspaceSession
  | waiting _ s | running _ s _ _ | recovering _ s _ | judging _ s _ _ | saving _ s _ _ _
  | recovered s => some s
  | creating _ | created _ | loading _ | loaded _ => none

/-- The session whose lock the task holds. -/
def holds : Task → Option WorkspaceSession
  | running _ s _ _ | recovering _ s _ | judging _ s _ _ | saving _ s _ _ _ | recovered s =>
      some s
  | creating _ | created _ | loading _ | loaded _ | waiting _ _ => none

end Task

structure RuntimeState where
  registry : WorkspaceSessionRegistry
  activeOperationIds : List String
  files : AbsPath → WorkspaceFiles
  /-- The holder of `session.mutation_lock`, by session id. -/
  locks : String → Option Client
  tasks : Client → Option Task

namespace RuntimeState

def start (files : AbsPath → WorkspaceFiles) : RuntimeState where
  registry := .new
  activeOperationIds := []
  files := files
  locks := fun _ => none
  tasks := fun _ => none

def setTask (st : RuntimeState) (c : Client) (task : Option Task) : RuntimeState :=
  { st with tasks := Function.update st.tasks c task }

def setFiles (st : RuntimeState) (d : AbsPath) (files : WorkspaceFiles) : RuntimeState :=
  { st with files := Function.update st.files d files }

end RuntimeState

/-- One step of one client. -/
inductive Label where
  | createWorkspace (directory : AbsPath)
  /-- `create` writes the files of the workspace. -/
  | createWrite (kind : DesignKind)
  /-- `create` returns or raises. -/
  | createReturn (success : Bool)
  | createSession
  | openWorkspace (directory : AbsPath)
  /-- `load` makes an engine. -/
  | openConstruct
  | openReturn (success : Bool)
  | openSession
  | closeWorkspace (workspaceId : String)
  /-- `get_session` of a session operation. -/
  | sessionCall (call : SessionCall) (workspaceId : String)
  /-- The lock is taken, and the operation's id becomes active. -/
  | acquire
  | act (a : EngineAction)
  /-- `set(self.active_operation_ids)`. -/
  | copyActive
  /-- `EngineFlow(workspace)` of the recovery reads the flow. -/
  | recoverLoad
  /-- The loop over the steps that were read. -/
  | giveUp
  /-- `engine.save()`, when the loop has given a step up. -/
  | recoverSave
  /-- The operation returns or raises. -/
  | release

/-- `active_operation_ids.add(operation_id)`, when the operation has an id. -/
def activated (active : List String) (call : SessionCall) : List String :=
  if call.operationId = "" ∨ call.operationId ∈ active then active else call.operationId :: active

/-- `active_operation_ids.discard(operation_id)`, when the operation has an id. -/
def deactivated (active : List String) (call : SessionCall) : List String :=
  if call.operationId = "" then active else active.filter (· ≠ call.operationId)

section

variable (runtimeInstanceId : String)

/-- One step of client `c`; `none` when it cannot take that step now. -/
def stepOf (st : RuntimeState) (c : Client) : Label → Option RuntimeState
  | .createWorkspace d =>
      match st.tasks c with
      | none => some (st.setTask c (some (.creating d)))
      | _ => none
  | .createWrite kind =>
      match st.tasks c with
      | some (.creating d) =>
          some (st.setFiles d { st.files d with kind := kind, steps := freshSteps kind })
      | _ => none
  | .createReturn success =>
      match st.tasks c with
      | some (.creating d) => some (st.setTask c (if success then some (.created d) else none))
      | _ => none
  | .createSession =>
      match st.tasks c with
      | some (.created d) =>
          some ({ st with registry := (st.registry.createSession d).2 }.setTask c none)
      | _ => none
  | .openWorkspace d =>
      match st.tasks c with
      | none => some (st.setTask c (some (.loading d)))
      | _ => none
  | .openConstruct =>
      match st.tasks c with
      | some (.loading d) =>
          some (st.setFiles d ((st.files d).written
            (loadEngine (st.files d).kind ((st.files d).engine []))))
      | _ => none
  | .openReturn success =>
      match st.tasks c with
      | some (.loading d) => some (st.setTask c (if success then some (.loaded d) else none))
      | _ => none
  | .openSession =>
      match st.tasks c with
      | some (.loaded d) =>
          some ({ st with registry := (st.registry.openSession d).2 }.setTask c none)
      | _ => none
  | .closeWorkspace workspaceId =>
      match st.tasks c with
      | none => some { st with registry := (st.registry.remove workspaceId).getD st.registry }
      | _ => none
  | .sessionCall call workspaceId =>
      match st.tasks c with
      | none => some (st.setTask c ((st.registry.sessions.lookup workspaceId).map (.waiting call)))
      | _ => none
  | .acquire =>
      match st.tasks c with
      | some (.waiting call s) =>
          if st.locks s.workspaceId = none then
            some ({ st with
              locks := Function.update st.locks s.workspaceId (some c)
              activeOperationIds := activated st.activeOperationIds call }.setTask c
                (some (.running call s [] none)))
          else none
      | _ => none
  | .act a =>
      match st.tasks c with
      | some (.running call s memory current) =>
          if call.allows a then
            let files := st.files s.directory
            (a.apply files.kind (operationMarker runtimeInstanceId call.operationId) current
              (files.engine memory)).map fun (e, current) =>
                (st.setFiles s.directory (files.written e)).setTask c
                  (some (.running call s e.steps current))
          else none
      | _ => none
  | .copyActive =>
      match st.tasks c with
      | some (.running (.recoverInterrupted operationId) s _ _) =>
          some (st.setTask c (some (.recovering operationId s st.activeOperationIds)))
      | _ => none
  | .recoverLoad =>
      match st.tasks c with
      | some (.recovering operationId s active) =>
          let files := st.files s.directory
          let e := loadEngine files.kind (files.engine [])
          some ((st.setFiles s.directory (files.written e)).setTask c
            (some (.judging operationId s active e.steps)))
      | _ => none
  | .giveUp =>
      match st.tasks c with
      | some (.judging operationId s active memory) =>
          let files := st.files s.directory
          let e := giveUpInterrupted active operationId (files.engine memory)
          some ((st.setFiles s.directory (files.written e)).setTask c
            (some (.saving operationId s active e.steps
              (memory.any (isInterrupted active operationId)))))
      | _ => none
  | .recoverSave =>
      match st.tasks c with
      | some (.saving _ s _ memory found) =>
          let files := st.files s.directory
          let e := files.engine memory
          some ((st.setFiles s.directory (files.written (if found then e.save else e))).setTask c
            (some (.recovered s)))
      | _ => none
  | .release =>
      match st.tasks c with
      | some (.running call s _ _) =>
          some ({ st with
            locks := Function.update st.locks s.workspaceId none
            activeOperationIds := deactivated st.activeOperationIds call }.setTask c none)
      | some (.recovering _ s _) | some (.judging _ s _ _) | some (.saving _ s _ _ _)
      | some (.recovered s) =>
          some ({ st with locks := Function.update st.locks s.workspaceId none }.setTask c none)
      | _ => none

def step (st : RuntimeState) (label : Client × Label) : Option RuntimeState :=
  stepOf runtimeInstanceId st label.1 label.2

end

/-! ## 3. Exclusion -/

/-- At most one operation body works on a directory. -/
def Exclusive (st : RuntimeState) : Prop :=
  ∀ c c' task task' d, st.tasks c = some task → st.tasks c' = some task' → task.body = some d →
    task'.body = some d → c = c'

/-- No call on the directory is in flight. -/
def Quiet (st : RuntimeState) (d : AbsPath) : Prop :=
  ∀ c task, st.tasks c = some task → task.directory ≠ d

/-- No call that creates or opens the directory is in flight. -/
def NotOpening (st : RuntimeState) (d : AbsPath) : Prop :=
  ∀ c task, st.tasks c = some task → task.session? = none → task.directory ≠ d

/-- Calls that create or open a directory wait until no call on it is in flight, and a session
operation waits for those that create or open its directory. -/
def Disciplined (st : RuntimeState) (label : Client × Label) : Prop :=
  match label.2 with
  | .createWorkspace d | .openWorkspace d => Quiet st d
  | .sessionCall _ workspaceId =>
      ∀ s, st.registry.sessions.lookup workspaceId = some s → NotOpening st s.directory
  | _ => True

/-- The invariant of disciplined runs. -/
structure Orderly (st : RuntimeState) : Prop where
  inverse : st.registry.Inverse
  /-- The directory of an operation in flight has no other session. -/
  current : ∀ c task s id, st.tasks c = some task → task.session? = some s →
    st.registry.sessionsByDirectory.lookup s.directory = some id → id = s.workspaceId
  /-- Two operations in flight on one directory have one session. -/
  same : ∀ c c' task task' s s', st.tasks c = some task → st.tasks c' = some task' →
    task.session? = some s → task'.session? = some s' → s'.directory = s.directory →
      s'.workspaceId = s.workspaceId
  /-- A call that creates or opens a directory is alone on it. -/
  alone : ∀ c c' task task', st.tasks c = some task → st.tasks c' = some task' →
    task.session? = none → task'.directory = task.directory → c = c'
  locked : ∀ c task s, st.tasks c = some task → task.holds = some s →
    st.locks s.workspaceId = some c

/-- At the start nothing is held. -/
theorem orderly_start (files : AbsPath → WorkspaceFiles) : Orderly (.start files) where
  inverse := WorkspaceSessionRegistry.inverse_new
  current := fun _ _ _ _ h => by cases h
  same := fun _ _ _ _ _ _ h => by cases h
  alone := fun _ _ _ _ h => by cases h
  locked := fun _ _ _ h => by cases h

/-- A task in its body holds the lock of its session. -/
theorem Task.holds_of_body {task : Task} {d : AbsPath} {s : WorkspaceSession}
    (hbody : task.body = some d) (hsession : task.session? = some s) :
    task.holds = some s ∧ s.directory = d := by
  cases task <;> simp_all [Task.body, Task.session?, Task.holds]

theorem Task.directory_of_body {task : Task} {d : AbsPath} (hbody : task.body = some d) :
    task.directory = d := by
  cases task <;> simp_all [Task.body, Task.directory]

theorem Task.directory_of_session {task : Task} {s : WorkspaceSession}
    (h : task.session? = some s) : task.directory = s.directory := by
  cases task <;> simp_all [Task.session?, Task.directory]

/-- Two bodies on one directory: one of them is alone there, or both hold one lock. -/
theorem Orderly.exclusive {st : RuntimeState} (h : Orderly st) : Exclusive st := by
  intro c c' task task' d htask htask' hbody hbody'
  have hdirectory := Task.directory_of_body hbody
  have hdirectory' := Task.directory_of_body hbody'
  cases hsession : task.session? with
  | none => exact h.alone c c' task task' htask htask' hsession (hdirectory'.trans hdirectory.symm)
  | some s =>
    cases hsession' : task'.session? with
    | none =>
      exact (h.alone c' c task' task htask' htask hsession' (hdirectory.trans hdirectory'.symm)).symm
    | some s' =>
      obtain ⟨hholds, hs⟩ := Task.holds_of_body hbody hsession
      obtain ⟨hholds', hs'⟩ := Task.holds_of_body hbody' hsession'
      have hid := h.same c c' task task' s s' htask htask' hsession hsession' (hs'.trans hs.symm)
      have hlock := h.locked c task s htask hholds
      rw [← hid, h.locked c' task' s' htask' hholds', Option.some.injEq] at hlock
      exact hlock.symm

/-! ### Steps -/

section

variable {st : RuntimeState} {c : Client}

/-- Writing files keeps the order. -/
theorem Orderly.files (h : Orderly st) (d : AbsPath) (files : WorkspaceFiles) :
    Orderly (st.setFiles d files) := ⟨h.inverse, h.current, h.same, h.alone, h.locked⟩

theorem tasks_setTask (st : RuntimeState) (c c' : Client) (task : Option Task) :
    (st.setTask c task).tasks c' = if c' = c then task else st.tasks c' := by
  simp [RuntimeState.setTask, Function.update_apply]

theorem tasks_of_endTask {c' : Client} {task : Task}
    (h : (st.setTask c none).tasks c' = some task) : st.tasks c' = some task := by
  rw [tasks_setTask] at h
  split at h
  · cases h
  · exact h

/-- A task that ends. -/
theorem Orderly.endTask (h : Orderly st) (c : Client) : Orderly (st.setTask c none) where
  inverse := h.inverse
  current := fun c' task s id htask => h.current c' task s id (tasks_of_endTask htask)
  same := fun c₁ c₂ task₁ task₂ s₁ s₂ h₁ h₂ =>
    h.same c₁ c₂ task₁ task₂ s₁ s₂ (tasks_of_endTask h₁) (tasks_of_endTask h₂)
  alone := fun c₁ c₂ task₁ task₂ h₁ h₂ =>
    h.alone c₁ c₂ task₁ task₂ (tasks_of_endTask h₁) (tasks_of_endTask h₂)
  locked := fun c' task s htask => h.locked c' task s (tasks_of_endTask htask)

/-- A task that starts or goes on. -/
theorem Orderly.setTask (h : Orderly st) {task : Task}
    (hcurrent : ∀ s id, task.session? = some s →
      st.registry.sessionsByDirectory.lookup s.directory = some id → id = s.workspaceId)
    (hsame : ∀ s c' task' s', c' ≠ c → st.tasks c' = some task' → task.session? = some s →
      task'.session? = some s' → s'.directory = s.directory → s'.workspaceId = s.workspaceId)
    (halone : ∀ c' task', c' ≠ c → st.tasks c' = some task' → task'.directory = task.directory →
      task.session? ≠ none ∧ task'.session? ≠ none)
    (hlocked : ∀ s, task.holds = some s → st.locks s.workspaceId = some c) :
    Orderly (st.setTask c (some task)) where
  inverse := h.inverse
  current := by
    intro c' task' s id htask
    rw [tasks_setTask] at htask
    split at htask
    · cases htask
      exact hcurrent s id
    · exact h.current c' task' s id htask
  same := by
    intro c₁ c₂ task₁ task₂ s₁ s₂ h₁ h₂ hs₁ hs₂ hdirectory
    rw [tasks_setTask] at h₁ h₂
    split at h₁
    · cases h₁
      split at h₂
      · cases h₂
        rw [Option.some.inj (hs₁.symm.trans hs₂)]
      · rename_i hc₂
        exact hsame s₁ c₂ task₂ s₂ hc₂ h₂ hs₁ hs₂ hdirectory
    · rename_i hc₁
      split at h₂
      · cases h₂
        exact (hsame s₂ c₁ task₁ s₁ hc₁ h₁ hs₂ hs₁ hdirectory.symm).symm
      · exact h.same c₁ c₂ task₁ task₂ s₁ s₂ h₁ h₂ hs₁ hs₂ hdirectory
  alone := by
    intro c₁ c₂ task₁ task₂ h₁ h₂ hsession hdirectory
    rw [tasks_setTask] at h₁ h₂
    split at h₁
    · rename_i hc₁
      cases h₁
      split at h₂
      · rename_i hc₂
        exact hc₁.trans hc₂.symm
      · rename_i hc₂
        exact absurd hsession (halone c₂ task₂ hc₂ h₂ hdirectory).1
    · rename_i hc₁
      split at h₂
      · cases h₂
        exact absurd hsession (halone c₁ task₁ hc₁ h₁ hdirectory.symm).2
      · exact h.alone c₁ c₂ task₁ task₂ h₁ h₂ hsession hdirectory
  locked := by
    intro c' task' s htask
    rw [tasks_setTask] at htask
    split at htask
    · rename_i hc
      cases htask
      exact hc ▸ hlocked s
    · exact h.locked c' task' s htask

/-- A task that goes on with the same session, directory and lock. -/
theorem Orderly.nextTask (h : Orderly st) {old task : Task} (hold : st.tasks c = some old)
    (hsession : task.session? = old.session?) (hdirectory : task.directory = old.directory)
    (hholds : ∀ s, task.holds = some s → st.locks s.workspaceId = some c) :
    Orderly (st.setTask c (some task)) := by
  refine h.setTask (fun s id hs => h.current c old s id hold (hsession ▸ hs)) ?_ ?_ hholds
  · exact fun s c' task' s' _ htask' hs => h.same c c' old task' s s' hold htask' (hsession ▸ hs)
  · intro c' task' hne htask' hsame
    rw [hdirectory] at hsame
    rw [hsession]
    exact ⟨fun hnone => hne (h.alone c c' old task' hold htask' hnone hsame).symm,
      fun hnone => hne (h.alone c' c task' old htask' hold hnone hsame.symm)⟩

/-- Another registry that gives no directory of an operation in flight another session. -/
theorem Orderly.registry (h : Orderly st) {r : WorkspaceSessionRegistry} (hinverse : r.Inverse)
    (hkeeps : ∀ c task s id, st.tasks c = some task → task.session? = some s →
      r.sessionsByDirectory.lookup s.directory = some id →
        st.registry.sessionsByDirectory.lookup s.directory = some id) :
    Orderly { st with registry := r } where
  inverse := hinverse
  current := fun c task s id htask hs hlookup =>
    h.current c task s id htask hs (hkeeps c task s id htask hs hlookup)
  same := h.same
  alone := h.alone
  locked := h.locked

/-- A call that creates or opens a directory starts on a quiet one. -/
theorem Orderly.opening (h : Orderly st) {task : Task} (hsession : task.session? = none)
    (hholds : task.holds = none) (hquiet : Quiet st task.directory) :
    Orderly (st.setTask c (some task)) := by
  have hnone : ∀ s, task.session? ≠ some s := fun s hs => by rw [hsession] at hs; cases hs
  refine h.setTask (fun s _ hs => absurd hs (hnone s)) (fun s _ _ _ _ _ hs => absurd hs (hnone s))
    (fun c' task' _ htask' hsame => absurd hsame (hquiet c' task' htask')) (fun s hs => ?_)
  rw [hholds] at hs
  cases hs

/-- The registry gets or replaces the session of a directory on which the call is alone. -/
theorem Orderly.register (h : Orderly st) {old : Task} (hold : st.tasks c = some old)
    (hsession : old.session? = none) {r : WorkspaceSessionRegistry} (hinverse : r.Inverse)
    (hkeeps : ∀ d, d ≠ old.directory →
      r.sessionsByDirectory.lookup d = st.registry.sessionsByDirectory.lookup d) :
    Orderly ({ st with registry := r }.setTask c none) := by
  refine (h.endTask c).registry hinverse fun c' task s id htask hs hlookup => ?_
  have htask' := tasks_of_endTask htask
  refine (hkeeps _ fun hsame => ?_).symm.trans hlookup
  have hc := h.alone c c' old task hold htask' hsession
    ((Task.directory_of_session hs).trans hsame)
  subst hc
  rw [tasks_setTask, if_pos rfl] at htask
  cases htask

/-- A task that ends and gives its lock back. -/
theorem Orderly.release (h : Orderly st) {old : Task} {s : WorkspaceSession}
    (hold : st.tasks c = some old) (hholds : old.holds = some s) (active : List String) :
    Orderly ({ st with
      locks := Function.update st.locks s.workspaceId none
      activeOperationIds := active }.setTask c none) := by
  have hended := h.endTask c
  refine ⟨hended.inverse, hended.current, hended.same, hended.alone, fun c' task s' htask hs' => ?_⟩
  have hlock := hended.locked c' task s' htask hs'
  have hne : c' ≠ c := fun heq => by
    subst heq
    simp [RuntimeState.setTask] at htask
  have hdiff : s'.workspaceId ≠ s.workspaceId := fun heq => by
    have hown := h.locked c old s hold hholds
    rw [← heq] at hown
    exact hne (Option.some.inj (hlock.symm.trans hown))
  exact (Function.update_of_ne hdiff _ _).trans hlock

/-- A created session is registered in order. -/
theorem orderly_createSession (h : Orderly st) {d : AbsPath} (hold : st.tasks c = some (.created d)) :
    Orderly ({ st with registry := (st.registry.createSession d).2 }.setTask c none) := by
  refine h.register hold rfl ?_ fun _ hne => h.inverse.directory_createSession hne
  obtain ⟨r₀, hinverse, -, -, hfree, -, heq⟩ := h.inverse.createSession_eq d
  rw [heq]
  exact hinverse.create hfree

/-- An opened session is registered in order. -/
theorem orderly_openSession (h : Orderly st) {d : AbsPath} (hold : st.tasks c = some (.loaded d)) :
    Orderly ({ st with registry := (st.registry.openSession d).2 }.setTask c none) := by
  refine h.register hold rfl ?_ fun _ hne => h.inverse.directory_openSession hne
  rw [WorkspaceSessionRegistry.openSession]
  cases hlookup : st.registry.sessionsByDirectory.lookup d with
  | none => exact h.inverse.create hlookup
  | some existingId =>
    dsimp only
    cases st.registry.sessions.lookup existingId with
    | none => exact h.inverse
    | some session => exact h.inverse

/-- Closing a session keeps the order. -/
theorem orderly_closeWorkspace (h : Orderly st) (workspaceId : String) :
    Orderly { st with registry := (st.registry.remove workspaceId).getD st.registry } := by
  cases hremove : st.registry.remove workspaceId with
  | none => exact h
  | some r =>
    exact h.registry (h.inverse.remove hremove) fun _ _ _ _ _ _ hlookup =>
      WorkspaceSessionRegistry.directory_of_remove hremove hlookup

/-- A call begins in order. -/
theorem orderly_sessionCall (h : Orderly st) (call : SessionCall) {workspaceId : String}
    (hopening : ∀ s, st.registry.sessions.lookup workspaceId = some s → NotOpening st s.directory) :
    Orderly (st.setTask c ((st.registry.sessions.lookup workspaceId).map (.waiting call))) := by
  cases hlookup : st.registry.sessions.lookup workspaceId with
  | none => exact h.endTask c
  | some session =>
    obtain ⟨hid, hdirectory⟩ := h.inverse.byId _ _ hlookup
    refine h.setTask ?_ ?_ ?_ ?_
    · rintro s id ⟨rfl⟩ hcurrent
      rw [hid]
      exact Option.some.inj (hcurrent.symm.trans hdirectory)
    · rintro s c' task' s' _ htask' ⟨rfl⟩ hs' hsame
      rw [hid, h.current c' task' s' workspaceId htask' hs' (hsame ▸ hdirectory)]
    · intro c' task' _ htask' hsame
      exact ⟨by simp [Task.session?], fun hnone => hopening session hlookup c' task' htask' hnone hsame⟩
    · rintro s ⟨⟩

/-- A free lock is taken in order. -/
theorem orderly_acquire (h : Orderly st) {call : SessionCall} {s : WorkspaceSession}
    (hold : st.tasks c = some (.waiting call s)) (hfree : st.locks s.workspaceId = none)
    (active : List String) :
    Orderly ({ st with
      locks := Function.update st.locks s.workspaceId (some c)
      activeOperationIds := active }.setTask c (some (.running call s [] none))) := by
  have hlocked : Orderly { st with
      locks := Function.update st.locks s.workspaceId (some c), activeOperationIds := active } := by
    refine ⟨h.inverse, h.current, h.same, h.alone, fun c' task s' htask hs' => ?_⟩
    have hlock := h.locked c' task s' htask hs'
    have hdiff : s'.workspaceId ≠ s.workspaceId := fun heq => by
      rw [heq, hfree] at hlock
      cases hlock
    exact (Function.update_of_ne hdiff _ _).trans hlock
  refine hlocked.nextTask hold rfl rfl ?_
  rintro s' ⟨rfl⟩
  exact Function.update_self _ _ _

end

/-- Every disciplined step keeps the invariant. -/
theorem orderly_step {runtimeInstanceId : String} {st st' : RuntimeState} {label : Client × Label}
    (h : Orderly st) (hok : Disciplined st label)
    (hstep : step runtimeInstanceId st label = some st') : Orderly st' := by
  obtain ⟨c, label⟩ := label
  rw [step] at hstep
  cases label with
  | createWorkspace d =>
    simp only [stepOf] at hstep
    split at hstep
    · cases hstep
      exact h.opening rfl rfl hok
    · cases hstep
  | createWrite kind =>
    simp only [stepOf] at hstep
    split at hstep
    · cases hstep
      exact h.files _ _
    · cases hstep
  | createReturn success =>
    simp only [stepOf] at hstep
    split at hstep
    · rename_i d hold
      cases hstep
      cases success with
      | true => exact h.nextTask hold rfl rfl fun s hs => by cases hs
      | false => exact h.endTask c
    · cases hstep
  | createSession =>
    simp only [stepOf] at hstep
    split at hstep
    · rename_i d hold
      cases hstep
      exact orderly_createSession h hold
    · cases hstep
  | openWorkspace d =>
    simp only [stepOf] at hstep
    split at hstep
    · cases hstep
      exact h.opening rfl rfl hok
    · cases hstep
  | openConstruct =>
    simp only [stepOf] at hstep
    split at hstep
    · cases hstep
      exact h.files _ _
    · cases hstep
  | openReturn success =>
    simp only [stepOf] at hstep
    split at hstep
    · rename_i d hold
      cases hstep
      cases success with
      | true => exact h.nextTask hold rfl rfl fun s hs => by cases hs
      | false => exact h.endTask c
    · cases hstep
  | openSession =>
    simp only [stepOf] at hstep
    split at hstep
    · rename_i d hold
      cases hstep
      exact orderly_openSession h hold
    · cases hstep
  | closeWorkspace workspaceId =>
    simp only [stepOf] at hstep
    split at hstep
    · cases hstep
      exact orderly_closeWorkspace h workspaceId
    · cases hstep
  | sessionCall call workspaceId =>
    simp only [stepOf] at hstep
    split at hstep
    · cases hstep
      exact orderly_sessionCall h call hok
    · cases hstep
  | acquire =>
    simp only [stepOf] at hstep
    split at hstep
    · rename_i call s hold
      split at hstep
      · rename_i hfree
        cases hstep
        exact orderly_acquire h hold hfree _
      · cases hstep
    · cases hstep
  | act a =>
    simp only [stepOf] at hstep
    split at hstep
    · rename_i call s memory current hold
      split at hstep
      · obtain ⟨⟨e, current'⟩, -, rfl⟩ := Option.map_eq_some_iff.mp hstep
        exact (h.files s.directory _).nextTask hold rfl rfl fun s hs =>
          h.locked c (.running call _ memory current) s hold hs
      · cases hstep
    · cases hstep
  | copyActive =>
    simp only [stepOf] at hstep
    split at hstep
    · rename_i operationId s memory current hold
      cases hstep
      exact h.nextTask hold rfl rfl fun s hs =>
        h.locked c (.running _ _ memory current) s hold hs
    · cases hstep
  | recoverLoad =>
    simp only [stepOf] at hstep
    split at hstep
    · rename_i operationId s active hold
      cases hstep
      exact (h.files s.directory _).nextTask hold rfl rfl fun s hs =>
        h.locked c (.recovering operationId _ active) s hold hs
    · cases hstep
  | giveUp =>
    simp only [stepOf] at hstep
    split at hstep
    · rename_i operationId s active memory hold
      cases hstep
      exact (h.files s.directory _).nextTask hold rfl rfl fun s hs =>
        h.locked c (.judging operationId _ active memory) s hold hs
    · cases hstep
  | recoverSave =>
    simp only [stepOf] at hstep
    split at hstep
    · rename_i operationId s active memory found hold
      cases hstep
      exact (h.files s.directory _).nextTask hold rfl rfl fun s hs =>
        h.locked c (.saving operationId _ active memory found) s hold hs
    · cases hstep
  | release =>
    simp only [stepOf] at hstep
    split at hstep
    · rename_i call s memory current hold
      cases hstep
      exact h.release hold rfl _
    · rename_i operationId s active hold
      cases hstep
      exact h.release hold rfl _
    · rename_i operationId s active memory hold
      cases hstep
      exact h.release hold rfl _
    · rename_i operationId s active memory found hold
      cases hstep
      exact h.release hold rfl _
    · rename_i s hold
      cases hstep
      exact h.release hold rfl _
    · cases hstep

/-- Every state that is reached is in order. -/
theorem orderly_run {runtimeInstanceId : String} {files : AbsPath → WorkspaceFiles}
    {labels : List (Client × Label)} {st : RuntimeState}
    (h : Run (step runtimeInstanceId) Disciplined (.start files) labels st) : Orderly st :=
  h.invariant (fun _ _ _ hs hok hstep => orderly_step hs hok hstep) (orderly_start files)

/-- In a disciplined run at most one operation body works on a directory at any moment. -/
theorem exclusive_of_disciplined (runtimeInstanceId : String) (files : AbsPath → WorkspaceFiles)
    (labels : List (Client × Label)) (st : RuntimeState)
    (h : Run (step runtimeInstanceId) Disciplined (.start files) labels st) : Exclusive st :=
  (orderly_run h).exclusive

/-- Directories without any step. -/
def noSteps : AbsPath → WorkspaceFiles := fun _ => ⟨.GENERIC_RTL, [], fun _ _ => none⟩

/-! ### Runs of a few clients -/

/-- Only these clients have tasks. -/
def Only (clients : List Client) (st : RuntimeState) : Prop := ∀ c, c ∉ clients → st.tasks c = none

/-- A step of one client leaves the tasks of the others. -/
theorem step_tasks_ne {runtimeInstanceId : String} {st st' : RuntimeState}
    {label : Client × Label} (hstep : step runtimeInstanceId st label = some st') {c : Client}
    (hne : c ≠ label.1) : st'.tasks c = st.tasks c := by
  obtain ⟨client, label⟩ := label
  rw [step] at hstep
  have hset : ∀ (s : RuntimeState) (task : Option Task), s.tasks = st.tasks →
      (s.setTask client task).tasks c = st.tasks c := by
    intro s task hs
    rw [tasks_setTask, if_neg hne, hs]
  cases label with
  | act a =>
    simp only [stepOf] at hstep
    split at hstep
    · split at hstep
      · obtain ⟨-, -, rfl⟩ := Option.map_eq_some_iff.mp hstep
        exact hset _ _ rfl
      · cases hstep
    · cases hstep
  | acquire =>
    simp only [stepOf] at hstep
    split at hstep
    · split at hstep
      · cases hstep
        exact hset _ _ rfl
      · cases hstep
    · cases hstep
  | createWrite | openConstruct | closeWorkspace =>
    simp only [stepOf] at hstep
    split at hstep
    · cases hstep
      rfl
    · cases hstep
  | release =>
    simp only [stepOf] at hstep
    split at hstep
    all_goals
      cases hstep
      try exact hset _ _ rfl
  | _ =>
    simp only [stepOf] at hstep
    split at hstep
    · cases hstep
      exact hset _ _ rfl
    · cases hstep

/-- A step of one of the clients leaves the others without tasks. -/
theorem Only.step {clients : List Client} {runtimeInstanceId : String} {st st' : RuntimeState}
    {label : Client × Label} (h : Only clients st) (hclient : label.1 ∈ clients)
    (hstep : Runtime.step runtimeInstanceId st label = some st') : Only clients st' := by
  intro c hc
  have hne : c ≠ label.1 := fun heq => hc (heq ▸ hclient)
  rw [step_tasks_ne hstep hne]
  exact h c hc

theorem only_start (clients : List Client) (files : AbsPath → WorkspaceFiles) :
    Only clients (.start files) := fun _ _ => rfl

/-- Every task there is passes the test. -/
def allTasks (clients : List Client) (st : RuntimeState) (test : Task → Bool) : Bool :=
  clients.all fun c => (st.tasks c).all test

theorem Only.of_allTasks {clients : List Client} {st : RuntimeState} (h : Only clients st)
    {test : Task → Bool} (htest : allTasks clients st test = true) {c : Client} {task : Task}
    (htask : st.tasks c = some task) : test task = true := by
  have hc : c ∈ clients := by
    by_contra hnot
    rw [h c hnot] at htask
    cases htask
  have hall := List.all_eq_true.mp htest c hc
  rwa [htask] at hall

/-- `Disciplined` for a run of these clients. -/
def disciplined? (clients : List Client) (st : RuntimeState) (label : Client × Label) : Bool :=
  clients.contains label.1 &&
    match label.2 with
    | .createWorkspace d | .openWorkspace d => allTasks clients st fun task => task.directory ≠ d
    | .sessionCall _ workspaceId =>
        (st.registry.sessions.lookup workspaceId).all fun s =>
          allTasks clients st fun task => task.session?.isSome || task.directory ≠ s.directory
    | _ => true

/-- A check of the clients decides whether a step is disciplined. -/
theorem Only.disciplined {clients : List Client} {st : RuntimeState} {label : Client × Label}
    (h : Only clients st) (hcheck : disciplined? clients st label = true) : Disciplined st label := by
  obtain ⟨client, label⟩ := label
  have hlabel := (Bool.and_eq_true_iff.mp hcheck).2
  cases label with
  | createWorkspace d | openWorkspace d =>
    exact fun c task htask => by simpa using h.of_allTasks hlabel htask
  | sessionCall call workspaceId =>
    intro s hlookup c task htask hnone
    simp only [hlookup, Option.all_some] at hlabel
    simpa [hnone] using h.of_allTasks hlabel htask
  | _ => trivial

/-- Client 1 runs the flow of the directory that client 0 has opened; client 2 asks to reset it. -/
def resetDuringRun : List (Client × Label) :=
  [(0, .openWorkspace ["ws"]), (0, .openReturn true), (0, .openSession),
    (1, .sessionCall (.flowRun "") "workspace-1"), (1, .acquire), (1, .act .construct),
    (2, .sessionCall .resetFlow "workspace-1")]

/-- The reset waits for the lock of the run, and only the run works on the directory. -/
theorem exclusive_of_disciplined_waiting : ∃ st,
    Run (step "runtime") Disciplined (.start noSteps) resetDuringRun st ∧
      ((st.tasks 1).bind Task.body = some ["ws"] ∧
        (st.tasks 2).map Task.directory = some ["ws"] ∧ (step "runtime" st (2, .acquire)).isNone) ∧
      Exclusive st := by
  have hchecked : ((execChecked (step "runtime") (disciplined? [0, 1, 2]) (.start noSteps)
      resetDuringRun).map fun st => ((st.tasks 1).bind Task.body == some ["ws"] &&
        (st.tasks 2).map Task.directory == some ["ws"] &&
          (step "runtime" st (2, .acquire)).isNone)) = some true := by decide +kernel
  obtain ⟨st, hexec, hvalues⟩ := Option.map_eq_some_iff.mp hchecked
  simp only [Bool.and_eq_true, beq_iff_eq] at hvalues
  have hrun := (run_of_execChecked
    (fun _ _ _ hs hcheck hstep =>
      hs.step (List.contains_iff_mem.mp (Bool.and_eq_true_iff.mp hcheck).1) hstep)
    (fun _ _ hs hcheck => hs.disciplined hcheck) (only_start [0, 1, 2] noSteps) hexec).1
  exact ⟨st, hrun, ⟨hvalues.1.1, hvalues.1.2, hvalues.2⟩,
    exclusive_of_disciplined "runtime" _ _ _ hrun⟩

/-- Two clients run the flow of one directory: it is closed and opened again under the
first one. -/
def reopenedUnderRun : List (Client × Label) :=
  [(0, .openWorkspace ["ws"]), (0, .openReturn true), (0, .openSession),
    (1, .sessionCall (.flowRun "") "workspace-1"), (1, .acquire),
    (0, .closeWorkspace "workspace-1"),
    (0, .openWorkspace ["ws"]), (0, .openReturn true), (0, .openSession),
    (2, .sessionCall (.flowRun "") "workspace-2"), (2, .acquire)]

theorem reopened_not_exclusive :
    ¬ ∀ runtimeInstanceId files labels st,
      Run (step runtimeInstanceId) (fun _ _ => True) (.start files) labels st → Exclusive st := by
  intro hall
  have hbodies : (exec (step "runtime") (.start noSteps) reopenedUnderRun).map
      (fun st => ((st.tasks 1).bind Task.body, (st.tasks 2).bind Task.body)) =
      some (some ["ws"], some ["ws"]) := by decide +kernel
  obtain ⟨st, hexec, hboth⟩ := Option.map_eq_some_iff.mp hbodies
  obtain ⟨h₁, h₂⟩ := Prod.mk.inj hboth
  obtain ⟨task₁, htask₁, hbody₁⟩ := Option.bind_eq_some_iff.mp h₁
  obtain ⟨task₂, htask₂, hbody₂⟩ := Option.bind_eq_some_iff.mp h₂
  have hsame := hall "runtime" noSteps _ st (run_of_exec hexec) 1 2 task₁ task₂ ["ws"] htask₁ htask₂
    hbody₁ hbody₂
  cases hsame

end EccFe.Runtime
