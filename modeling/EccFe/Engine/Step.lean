/-
EccFe.Engine.Step — the records of `flow.json` and the profiles they follow
(`fecompiler/data/step.py`, `fecompiler/allflow/profile.py`).

A record's name is one of the five steps a profile can hold; every other value
is kept as the JSON it is, because a flow file outlives the code that wrote it.
A field the record does not have is `none`.
-/
import EccFe.Python.Json

namespace EccFe.Engine

open Python

inductive StepEnum where
  | PREPARE
  | REVIEW
  | ELAB
  | LINT
  | SIM
  deriving DecidableEq

def StepEnum.value : StepEnum → String
  | PREPARE => "prepare"
  | REVIEW => "review"
  | ELAB => "elab"
  | LINT => "lint"
  | SIM => "sim"

theorem StepEnum.value_ne_empty (name : StepEnum) : name.value ≠ "" := by cases name <;> decide

inductive StateEnum where
  | Invalid
  | Unstart
  | Success
  | Ongoing
  | Pending
  | Incomplete
  deriving DecidableEq

def StateEnum.value : StateEnum → String
  | Invalid => "Invalid"
  | Unstart => "Unstart"
  | Success => "Success"
  | Ongoing => "Ongoing"
  | Pending => "Pending"
  | Incomplete => "Incomplete"

theorem StateEnum.value_inj {s t : StateEnum} : s.value = t.value ↔ s = t := by
  cases s <;> cases t <;> decide

/-! ## 1. Step records -/

structure StepRecord where
  name : StepEnum
  tool : String
  state : Option Json
  runtime : Option Json
  peakMemoryMb : Option Json
  info : Option Json
  provenance : Option Json
  deriving DecidableEq

namespace StepRecord

/-- `step.get("state") == state.value`. -/
def hasState (s : StepRecord) (state : StateEnum) : Bool := s.state == some (.str state.value)

/-- `str(step.get("state", ""))`. -/
def stateText (s : StepRecord) : String := (s.state.getD (.str "")).pyStr

/-- The record's `info` when it is a dict, `{}` otherwise. -/
def infoDict (s : StepRecord) : Dict := (s.info.getD .null).asDict

/-- The record's provenance when it is a dict. -/
def provenanceDict (s : StepRecord) : Option Dict :=
  match s.provenance with
  | some (.obj fields) => some fields
  | _ => none

/-- `f"{step['name']}_{step['tool']}"`, the step's directory in the workspace. -/
def directory (s : StepRecord) : String := s.name.value ++ "_" ++ s.tool

/-- The key records are matched by. -/
def key (s : StepRecord) : StepEnum × String := (s.name, s.tool)

def withState (s : StepRecord) (state : StateEnum) : StepRecord :=
  { s with state := some (.str state.value) }

/-- `_new_flow_step(name, tool)`. -/
def fresh (name : StepEnum) (tool : String) : StepRecord where
  name := name
  tool := tool
  state := some (.str StateEnum.Unstart.value)
  runtime := some (.str "")
  peakMemoryMb := some (.int 0)
  info := some (.obj [])
  provenance := none

@[simp] theorem name_withState (s : StepRecord) (st : StateEnum) : (s.withState st).name = s.name :=
  rfl
@[simp] theorem tool_withState (s : StepRecord) (st : StateEnum) : (s.withState st).tool = s.tool :=
  rfl
@[simp] theorem key_withState (s : StepRecord) (st : StateEnum) : (s.withState st).key = s.key := rfl
@[simp] theorem info_withState (s : StepRecord) (st : StateEnum) : (s.withState st).info = s.info :=
  rfl
@[simp] theorem provenance_withState (s : StepRecord) (st : StateEnum) :
    (s.withState st).provenance = s.provenance := rfl

theorem hasState_iff (s : StepRecord) (st : StateEnum) :
    s.hasState st = true ↔ s.state = some (.str st.value) := by
  simp [hasState]

@[simp] theorem hasState_withState (s : StepRecord) (st st' : StateEnum) :
    (s.withState st).hasState st' = decide (st = st') := by
  simp only [hasState, withState]
  cases st <;> cases st' <;> decide

/-- A record is in at most one state. -/
theorem hasState_unique {s : StepRecord} {st st' : StateEnum} (h : s.hasState st = true)
    (h' : s.hasState st' = true) : st = st' := by
  rw [hasState_iff] at h h'
  rw [h, Option.some.injEq, Json.str.injEq] at h'
  exact StateEnum.value_inj.mp h'

end StepRecord

/-! ## 2. Profiles -/

inductive DesignKind where
  | CPU_CORE
  | GENERIC_RTL
  deriving DecidableEq

def flowStepsFor : DesignKind → List (StepEnum × String)
  | .CPU_CORE =>
      [(.PREPARE, "fe"), (.REVIEW, "fe"), (.ELAB, "slang"), (.LINT, "verilator"),
        (.SIM, "verilator")]
  | .GENERIC_RTL => [(.PREPARE, "fe"), (.REVIEW, "fe"), (.ELAB, "slang"), (.LINT, "verilator")]

/-- The names of a profile are distinct. -/
theorem flowStepsFor_names_nodup (kind : DesignKind) :
    ((flowStepsFor kind).map (·.1)).Nodup := by
  cases kind <;> decide

def freshSteps (kind : DesignKind) : List StepRecord :=
  (flowStepsFor kind).map fun step => .fresh step.1 step.2

end EccFe.Engine
