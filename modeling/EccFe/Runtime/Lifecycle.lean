/-
EccFe.Runtime.Lifecycle — the states `flow.json` goes through.

`FlowOp` lists what can happen to a workspace, a process that dies while a step
is ongoing included; the files and the workspace may differ from one operation
to the next. `Linked` is the relation between a record's state and its
provenance. Every operation keeps it (`apply_linked`) but for the two recovery
operations, which keep it exactly when the steps they give up carry no
provenance.
-/
import EccFe.Engine.RunAll
import EccFe.Runtime.Recovery

namespace EccFe.Runtime

open Python Analysis Engine Tools.RtlInputs

/-! ## 1. Operations -/

/-- The process dies while the step `run_step` started is ongoing; what is left is
what `_start_step` saved. A call that would not execute its step ends as usual. -/
def crashStep (env : Env) (workspace : Workspace) (run : StepRun) (name : StepEnum) (rerun : Bool)
    (e : EngineFlow) : EngineFlow :=
  match getWorkspaceStep e name with
  | none => e
  | some wsStep =>
      let e := (refreshStaleStates env workspace e).2
      match getStep e.steps wsStep.key with
      | none => e
      | some s =>
          if !rerun && s.hasState .Success then e
          else
            let e := beginStep run s (markDownstreamStale s.name "upstream step is being rerun" e)
            e.putArtifacts s.directory (run.handlerFiles (e.artifacts s.directory))

inductive FlowOp where
  | runStep (env : Env) (workspace : Workspace) (run : StepRun) (name : StepEnum) (rerun : Bool)
  | refreshStaleStates (env : Env) (workspace : Workspace)
  | clearStates
  | crash (env : Env) (workspace : Workspace) (run : StepRun) (name : StepEnum) (rerun : Bool)
  | clearStaleOngoingStates
  | recoverInterruptedOperations (env : Env) (directory : String)
      (activeOperationIds : List String) (operationId : String)
  /-- A new `EngineFlow` on the workspace. -/
  | load

/-- The engine after an operation. -/
def FlowOp.apply (kind : DesignKind) (e : EngineFlow) : FlowOp → EngineFlow
  | runStep env workspace run name rerun => (Engine.runStep env workspace run name rerun e).engine
  | refreshStaleStates env workspace => (Engine.refreshStaleStates env workspace e).2
  | clearStates => Engine.clearStates e
  | crash env workspace run name rerun =>
      loadEngine kind (crashStep env workspace run name rerun e)
  | clearStaleOngoingStates => (Engine.clearStaleOngoingStates e).2
  | recoverInterruptedOperations env directory active operationId =>
      (Runtime.recoverInterruptedOperations env kind directory active operationId e).2
  | load => loadEngine kind e

/-- The steps a recovery operation gives up carry no provenance. -/
def FlowOp.Clean (kind : DesignKind) (e : EngineFlow) : FlowOp → Prop
  | clearStaleOngoingStates => ∀ s ∈ e.steps, s.hasState .Ongoing = true → s.provenance = none
  | recoverInterruptedOperations _ _ active operationId =>
      ∀ s ∈ (loadEngine kind e).steps, isInterrupted active operationId s = true →
        s.provenance = none
  | _ => True

/-! ## 2. State and provenance -/

/-- The link between a record's state and its provenance. -/
structure Linked (s : StepRecord) : Prop where
  unfinished : s.hasState .Success = false → s.hasState .Ongoing = false → s.provenance = none
  success : s.hasState .Success = true →
    (∃ provenance, s.provenance = some (.obj provenance)) ∧ s.infoDict.get "stale" = none

def AllLinked (steps : List StepRecord) : Prop := ∀ s ∈ steps, Linked s

/-- A step that is not started needs no link. -/
theorem Linked.of_unstart {s : StepRecord} (hstate : s.hasState .Unstart = true)
    (hprov : s.provenance = none) : Linked s where
  unfinished _ _ := hprov
  success h := absurd (StepRecord.hasState_unique h hstate) (by decide)

/-- A step that runs is linked. -/
theorem Linked.of_ongoing {s : StepRecord} (h : s.hasState .Ongoing = true) : Linked s where
  unfinished _ hno := absurd h (by simp [hno])
  success hs := absurd (StepRecord.hasState_unique hs h) (by decide)

/-- A fresh step is linked. -/
theorem linked_fresh (name : StepEnum) (tool : String) : Linked (.fresh name tool) :=
  .of_unstart (by simp [StepRecord.fresh, StepRecord.hasState]) rfl

theorem linked_resetStep (s : StepRecord) : Linked (resetStep s) :=
  .of_unstart (by simp [resetStep, StepRecord.hasState]) rfl

/-- Invalidating a step keeps it linked. -/
theorem Linked.invalidated {s s' : StepRecord} (h : Linked s) (hinv : Invalidated s s') :
    Linked s' := by
  cases ho : s.hasState .Ongoing with
  | true => rwa [hinv.ongoing ho]
  | false => exact .of_unstart (hinv.reset ho).1 (hinv.reset ho).2

theorem Linked.keptOrInvalidated {s s' : StepRecord} (h : Linked s) (hk : KeptOrInvalidated s s') :
    Linked s' := by
  rcases hk with rfl | hinv
  · exact h
  · exact h.invalidated hinv

/-- Marking downstream steps keeps them linked. -/
theorem Linked.downstream {name : StepEnum} {s s' : StepRecord} (h : Linked s)
    (hd : Downstream name s s') : Linked s' := by
  rw [Downstream] at hd
  split at hd
  · rwa [hd]
  · exact h.invalidated hd

theorem AllLinked.forall₂ {R : StepRecord → StepRecord → Prop}
    (hR : ∀ s s', Linked s → R s s' → Linked s') {steps steps' : List StepRecord}
    (h : AllLinked steps) (hrel : List.Forall₂ R steps steps') : AllLinked steps' := by
  induction hrel with
  | nil => exact h
  | cons hs _ ih =>
    rw [AllLinked, List.forall_mem_cons] at h ⊢
    exact ⟨hR _ _ h.1 hs, ih h.2⟩

/-- A started record has lost its stale marks. -/
theorem stale_started (run : StepRun) (s : StepRecord) :
    (started run s).infoDict.get "stale" = none := by
  have hclear : (clearStepStale s).infoDict.get "stale" = none := by
    show (((s.infoDict.pop "stale").pop "stale_reason").pop "stale_from").get "stale" = none
    rw [Dict.get_pop_ne _ (by decide), Dict.get_pop_ne _ (by decide), Dict.get_pop_self]
  rw [started, startStep]
  dsimp only [StepRecord.infoDict, Option.getD_some, Json.asDict] at hclear ⊢
  split
  · rw [Dict.get_pop_ne _ (by decide), hclear]
  · rw [Dict.get_pop_ne _ (by decide), hclear]
  · rw [Dict.get_set_ne _ _ (by decide), hclear]

theorem get_popMarker_ne {key : String} (h : "runtime_operation" ≠ key) (info : Option Json) :
    (((popMarker info).getD .null).asDict).get key = ((info.getD .null).asDict).get key := by
  match info with
  | some (.obj fields) => exact Dict.get_pop_ne fields h
  | none | some .null | some (.bool _) | some (.int _) | some (.float _) | some (.str _)
  | some (.arr _) => rfl

/-- The record of a run is linked. -/
theorem linked_recordAfter {env : Env} {workspace : Workspace} {run : StepRun}
    {upstream : Option Dict} {s s' : StepRecord} {outcome : Outcome}
    (h : RecordAfter env workspace run upstream s outcome s') : Linked s' := by
  cases h with
  | success provenance _ =>
    refine ⟨fun hs => absurd hs (by simp [succeeded, finishStep, StepRecord.hasState]), fun _ => ?_⟩
    refine ⟨⟨provenance, rfl⟩, ?_⟩
    exact (get_popMarker_ne (by decide) (started run s).info).trans (stale_started run s)
  | failure _ _ =>
    refine ⟨fun _ _ => rfl, fun hs => ?_⟩
    simp [failed, popProvenance, finishStep, StepRecord.hasState, StateEnum.value] at hs

/-! ## 3. One operation -/

/-- The invariant of an engine: in memory and in the file. -/
structure LinkedFlow (e : EngineFlow) : Prop where
  steps : AllLinked e.steps
  saved : AllLinked e.saved

theorem LinkedFlow.of_steps {e : EngineFlow} (h : AllLinked e.steps) (hsaved : e.saved = e.steps) :
    LinkedFlow e := ⟨h, hsaved ▸ h⟩

/-- A fresh flow is linked. -/
theorem linkedFlow_fresh (kind : DesignKind) : LinkedFlow (freshEngine kind) := by
  refine .of_steps ?_ rfl
  intro s hs
  obtain ⟨step, _, rfl⟩ := List.mem_map.mp hs
  exact linked_fresh step.1 step.2

/-- Loading a linked flow leaves it linked. -/
theorem LinkedFlow.load {e : EngineFlow} (h : LinkedFlow e) (kind : DesignKind) :
    LinkedFlow (loadEngine kind e) := by
  have hsaved : LinkedFlow { e with steps := e.saved } := ⟨h.saved, h.saved⟩
  rw [loadEngine, syncFlowSteps]
  split
  · exact hsaved
  dsimp only
  split
  · exact hsaved
  · refine .of_steps ?_ rfl
    intro s hs
    obtain ⟨expected, _, rfl⟩ := List.mem_map.mp hs
    cases hfind : e.saved.reverse.find? fun s => s.key = expected with
    | none => exact linked_fresh expected.1 expected.2
    | some t =>
      exact h.saved t (List.mem_reverse.mp (List.mem_of_find?_eq_some hfind))

/-- The refresh leaves a linked flow linked. -/
theorem LinkedFlow.refresh {e : EngineFlow} (h : LinkedFlow e) (env : Env) (workspace : Workspace) :
    LinkedFlow (refreshStaleStates env workspace e).2 := by
  have hsteps := h.steps.forall₂ (fun _ _ => Linked.keptOrInvalidated)
    (refreshStaleStates_records env workspace e)
  refine ⟨hsteps, ?_⟩
  revert hsteps
  rw [refreshStaleStates]
  dsimp only
  split
  · exact id
  · exact fun _ => h.saved

/-- A step run leaves a linked flow linked. -/
theorem LinkedFlow.runStep {e : EngineFlow} (h : LinkedFlow e) (env : Env) (workspace : Workspace)
    (run : StepRun) (name : StepEnum) (rerun : Bool) :
    LinkedFlow (runStep env workspace run name rerun e).engine := by
  have hrefresh := h.refresh env workspace
  have hcases := runStep_cases env workspace run name rerun e
  revert hcases
  generalize Engine.runStep env workspace run name rerun e = r
  intro hcases
  cases hcases with
  | absent _ => exact h
  | skipped _ _ _ _ _ _ => exact hrefresh
  | executed pre s post s' post' result hloc _ hexec =>
    have hsteps := hrefresh.steps
    rw [hloc.split, AllLinked, List.forall_mem_append, List.forall_mem_cons] at hsteps
    refine .of_steps ?_ hexec.saved
    rw [hexec.steps, AllLinked, List.forall_mem_append, List.forall_mem_cons]
    refine ⟨hsteps.1, linked_recordAfter hexec.record, ?_⟩
    exact AllLinked.forall₂ (fun _ _ => Linked.downstream) hsteps.2.2 hexec.downstream

/-- The engine whose process dies: the started record and the marked ones after it. -/
theorem crashStep_located (env : Env) (workspace : Workspace) (run : StepRun) (rerun : Bool)
    {name : StepEnum} {e : EngineFlow} {pre post : List StepRecord} {s : StepRecord}
    (hloc : Located name (refreshStaleStates env workspace e).2.steps pre s post)
    (hrun : rerun = true ∨ s.hasState .Success = false) :
    ∃ post', (crashStep env workspace run name rerun e).steps = pre ++ started run s :: post' ∧
      (crashStep env workspace run name rerun e).saved = pre ++ started run s :: post' ∧
      List.Forall₂ (Downstream s.name) post post' := by
  obtain ⟨pre₀, s₀, post₀, h₀, -, hkey, -⟩ :=
    hloc.congr_keys (refreshStaleStates_keys env workspace e).symm
  obtain ⟨post', hsteps, hpost⟩ :=
    markDownstreamStale_located "upstream step is being rerun" (hloc.name_eq ▸ hloc)
  have hbegin := beginStep_located run
    (⟨hsteps, rfl, hloc.name_eq ▸ hloc.before⟩ : Located s.name
      (markDownstreamStale s.name "upstream step is being rerun"
        (refreshStaleStates env workspace e).2).steps pre s post')
  have hskip : (!rerun && s.hasState .Success) = false := by
    rcases hrun with h | h <;> simp [h]
  have hcrash : crashStep env workspace run name rerun e =
      (beginStep run s (markDownstreamStale s.name "upstream step is being rerun"
        (refreshStaleStates env workspace e).2)).putArtifacts s.directory
          (run.handlerFiles ((beginStep run s (markDownstreamStale s.name
            "upstream step is being rerun" (refreshStaleStates env workspace e).2)).artifacts
              s.directory)) := by
    rw [crashStep, getWorkspaceStep, h₀.find_name]
    dsimp only
    rw [hkey, hloc.getStep_eq]
    dsimp only
    rw [if_neg (by simp [hskip])]
  exact ⟨post', hcrash ▸ hbegin, hcrash ▸ hbegin, hpost⟩

/-- So does a run that dies. -/
theorem LinkedFlow.crash {e : EngineFlow} (h : LinkedFlow e) (env : Env) (workspace : Workspace)
    (run : StepRun) (name : StepEnum) (rerun : Bool) :
    LinkedFlow (crashStep env workspace run name rerun e) := by
  have hrefresh := h.refresh env workspace
  rcases located_or_absent name (refreshStaleStates env workspace e).2.steps with
    habs | ⟨pre, s, post, hloc⟩
  · have hnone : e.steps.find? (fun t => t.name = name) = none := by
      rw [List.find?_eq_none]
      intro t ht hname
      have hmem : t.name ∈ (refreshStaleStates env workspace e).2.steps.map (·.name) := by
        rw [names_eq_of_keys (refreshStaleStates_keys env workspace e)]
        exact List.mem_map_of_mem ht
      obtain ⟨u, hu, huname⟩ := List.mem_map.mp hmem
      exact habs u hu (huname.trans (by simpa using hname))
    rw [crashStep, getWorkspaceStep, hnone]
    exact h
  · by_cases hrun : rerun = true ∨ s.hasState .Success = false
    · obtain ⟨post', hsteps, hsaved, hpost⟩ := crashStep_located env workspace run rerun hloc hrun
      have hall := hrefresh.steps
      rw [hloc.split, AllLinked, List.forall_mem_append, List.forall_mem_cons] at hall
      refine .of_steps ?_ (hsaved.trans hsteps.symm)
      rw [hsteps, AllLinked, List.forall_mem_append, List.forall_mem_cons]
      refine ⟨hall.1, .of_ongoing (hasState_started run s), ?_⟩
      exact AllLinked.forall₂ (fun _ _ => Linked.downstream) hall.2.2 hpost
    · obtain ⟨pre₀, s₀, post₀, h₀, -, hkey, -⟩ :=
        hloc.congr_keys (refreshStaleStates_keys env workspace e).symm
      have hskip : (!rerun && s.hasState .Success) = true := by
        rw [not_or, Bool.not_eq_true, Bool.not_eq_false] at hrun
        simp [hrun]
      rw [crashStep, getWorkspaceStep, h₀.find_name]
      dsimp only
      rw [hkey, hloc.getStep_eq]
      dsimp only
      rw [if_pos hskip]
      exact hrefresh

/-- Giving up the records `p` selects, when they are ongoing and carry no provenance. -/
theorem AllLinked.giveUp (p : StepRecord → Bool) (give : StepRecord → StepRecord)
    (hprov : ∀ s, (give s).provenance = s.provenance)
    (hstate : ∀ s, (give s).hasState .Success = false) {steps : List StepRecord}
    (h : AllLinked steps) (hclean : ∀ s ∈ steps, p s = true → s.provenance = none) :
    AllLinked (steps.map fun s => if p s then give s else s) := by
  intro s hs
  obtain ⟨t, ht, rfl⟩ := List.mem_map.mp hs
  split
  · rename_i hp
    exact ⟨fun _ _ => (hprov t).trans (hclean t ht hp), fun hsuccess => by simp [hstate] at hsuccess⟩
  · exact h t ht

theorem hasState_interruptedStep (s : StepRecord) (st : StateEnum) :
    (interruptedStep s).hasState st = decide (StateEnum.Incomplete = st) :=
  StepRecord.hasState_withState s .Incomplete st

theorem hasState_recoveredStep (s : StepRecord) (st : StateEnum) :
    (recoveredStep s).hasState st = decide (StateEnum.Incomplete = st) :=
  StepRecord.hasState_withState s .Incomplete st

/-- Every operation keeps the link, a recovery operation when it is clean. -/
theorem apply_linked (kind : DesignKind) {e : EngineFlow} (h : LinkedFlow e) (op : FlowOp)
    (hclean : op.Clean kind e) : LinkedFlow (op.apply kind e) := by
  cases op with
  | runStep env workspace run name rerun => exact h.runStep env workspace run name rerun
  | refreshStaleStates env workspace => exact h.refresh env workspace
  | clearStates =>
    refine .of_steps ?_ rfl
    intro s hs
    obtain ⟨t, _, rfl⟩ := List.mem_map.mp hs
    exact linked_resetStep t
  | crash env workspace run name rerun => exact (h.crash env workspace run name rerun).load kind
  | load => exact h.load kind
  | clearStaleOngoingStates =>
    have hsteps := h.steps.giveUp (·.hasState .Ongoing) interruptedStep (fun _ => rfl)
      (fun s => hasState_interruptedStep s .Success) hclean
    rw [FlowOp.apply, Engine.clearStaleOngoingStates]
    dsimp only
    split
    · exact .of_steps hsteps rfl
    · exact ⟨hsteps, h.saved⟩
  | recoverInterruptedOperations env directory active operationId =>
    have hload := h.load kind
    have hsteps := hload.steps.giveUp (isInterrupted active operationId) recoveredStep
      (fun _ => rfl) (fun s => hasState_recoveredStep s .Success) hclean
    rw [FlowOp.apply, Runtime.recoverInterruptedOperations]
    dsimp only
    split
    · exact ⟨hsteps, hload.saved⟩
    · exact .of_steps hsteps rfl

/-! ## 4. Runs of operations -/

/-- Every operation of the run is clean where it happens. -/
def CleanRun (kind : DesignKind) : EngineFlow → List FlowOp → Prop
  | _, [] => True
  | e, op :: ops => op.Clean kind e ∧ CleanRun kind (op.apply kind e) ops

/-- `P` holds of `flow.json` in every state of the run. -/
def Throughout (kind : DesignKind) (P : List StepRecord → Prop) : EngineFlow → List FlowOp → Prop
  | e, [] => P e.saved
  | e, op :: ops => P e.saved ∧ Throughout kind P (op.apply kind e) ops

theorem Throughout.head {kind : DesignKind} {P : List StepRecord → Prop} {e : EngineFlow}
    {ops : List FlowOp} (h : Throughout kind P e ops) : P e.saved := by
  cases ops with
  | nil => exact h
  | cons op ops => exact h.1

/-- A record given up with its provenance breaks the link. -/
theorem not_linked_of_incomplete {s : StepRecord} (hstate : s.hasState .Incomplete = true)
    (hprov : s.provenance ≠ none) : ¬Linked s := by
  intro h
  refine hprov (h.unfinished ?_ ?_)
  all_goals
    rw [Bool.eq_false_iff]
    intro hs
    exact absurd (StepRecord.hasState_unique hstate hs) (by decide)

/-- An operation that is not clean saves a record that breaks the link. -/
theorem not_linked_of_not_clean (kind : DesignKind) {e : EngineFlow} {op : FlowOp}
    (h : ¬op.Clean kind e) : ¬AllLinked (op.apply kind e).saved := by
  cases op with
  | runStep _ _ _ _ _ | refreshStaleStates _ _ | clearStates | crash _ _ _ _ _ | load =>
    exact absurd trivial h
  | clearStaleOngoingStates =>
    simp only [FlowOp.Clean] at h
    push Not at h
    obtain ⟨s, hs, hongoing, hprov⟩ := h
    have hany : (e.steps.any (·.hasState .Ongoing)) = true := List.any_eq_true.mpr ⟨s, hs, hongoing⟩
    intro hall
    refine not_linked_of_incomplete
      (show (interruptedStep s).hasState .Incomplete = true by rw [hasState_interruptedStep]; decide) hprov (hall _ ?_)
    rw [FlowOp.apply, Engine.clearStaleOngoingStates]
    dsimp only
    rw [if_pos hany]
    exact List.mem_map.mpr ⟨s, hs, if_pos hongoing⟩
  | recoverInterruptedOperations env directory active operationId =>
    simp only [FlowOp.Clean] at h
    push Not at h
    obtain ⟨s, hs, hinterrupted, hprov⟩ := h
    have hne : ((loadEngine kind e).steps.filter (isInterrupted active operationId)).map
        (recoveredEntry env directory) ≠ [] := by
      rw [ne_eq, List.map_eq_nil_iff]
      exact List.ne_nil_of_mem (List.mem_filter.mpr ⟨hs, hinterrupted⟩)
    intro hall
    refine not_linked_of_incomplete
      (show (recoveredStep s).hasState .Incomplete = true by rw [hasState_recoveredStep]; decide) hprov (hall _ ?_)
    rw [FlowOp.apply, Runtime.recoverInterruptedOperations]
    dsimp only
    rw [if_neg hne]
    exact List.mem_map.mpr ⟨s, hs, if_pos hinterrupted⟩

/-- From a linked flow, all records stay linked exactly in the clean runs. -/
theorem throughout_linked_of_linked (kind : DesignKind) : ∀ (ops : List FlowOp) (e : EngineFlow),
    LinkedFlow e → (Throughout kind AllLinked e ops ↔ CleanRun kind e ops)
  | [], _, h => ⟨fun _ => trivial, fun _ => h.saved⟩
  | op :: ops, e, h => by
      rw [Throughout, CleanRun]
      constructor
      · rintro ⟨-, hrest⟩
        have hclean : op.Clean kind e := by
          by_contra hnot
          exact not_linked_of_not_clean kind hnot hrest.head
        exact ⟨hclean, (throughout_linked_of_linked kind ops _ (apply_linked kind h op hclean)).mp
          hrest⟩
      · rintro ⟨hclean, hrest⟩
        exact ⟨h.saved, (throughout_linked_of_linked kind ops _ (apply_linked kind h op hclean)).mpr
          hrest⟩

/-- From a fresh workspace, every state of a run links state and provenance exactly when
no recovery in it gives up a step that carries provenance. -/
theorem throughout_linked_iff (kind : DesignKind) (ops : List FlowOp) :
    Throughout kind AllLinked (freshEngine kind) ops ↔ CleanRun kind (freshEngine kind) ops :=
  throughout_linked_of_linked kind ops _ (linkedFlow_fresh kind)

/-! ## 5. A rerun that dies -/

/-- The first step succeeds, is run again, and the process dies; the next process
clears the ongoing state. -/
def diedInRerun : List FlowOp :=
  [.runStep (.ofNodes []) [] (.undisturbed (.ok true)) .PREPARE false,
    .crash (.ofNodes []) [] (.undisturbed (.ok true)) .PREPARE true, .clearStaleOngoingStates]

theorem find_reverse_of_nodup {steps : List StepRecord} (hnodup : (steps.map (·.key)).Nodup)
    {s : StepRecord} (hs : s ∈ steps) : (steps.reverse.find? fun t => t.key = s.key) = some s := by
  cases hfind : steps.reverse.find? fun t => t.key = s.key with
  | none => exact absurd (List.find?_eq_none.mp hfind s (List.mem_reverse.mpr hs)) (by simp)
  | some t =>
    have hkey : t.key = s.key := by simpa using List.find?_some hfind
    have ht : t ∈ steps := List.mem_reverse.mp (List.mem_of_find?_eq_some hfind)
    rw [List.inj_on_of_nodup_map hnodup ht hs hkey]

/-- Loading a flow that has the profile's records changes none of them. -/
theorem loadEngine_of_profile {kind : DesignKind} {e : EngineFlow}
    (h : e.saved.map (·.key) = flowStepsFor kind) :
    loadEngine kind e = { e with steps := e.saved } := by
  have hnodup : (e.saved.map (·.key)).Nodup := by
    rw [h]
    exact .of_map Prod.fst (flowStepsFor_names_nodup kind)
  have hsynced : ((flowStepsFor kind).map fun expected =>
      (e.saved.reverse.find? fun s => s.key = expected).getD (.fresh expected.1 expected.2)) =
        e.saved := by
    rw [← h, List.map_map]
    calc e.saved.map _ = e.saved.map id :=
          List.map_congr_left fun s hs => by simp [find_reverse_of_nodup hnodup hs]
      _ = e.saved := List.map_id _
  rw [loadEngine, syncFlowSteps]
  dsimp only
  rw [hsynced, if_pos rfl, ite_self]

/-- A crash while a settled first step is rerun leaves it ongoing with its provenance. -/
theorem crash_of_settled (kind : DesignKind) {env : Env} {workspace : Workspace} {e : EngineFlow}
    {s : StepRecord} {post : List StepRecord} (hsteps : e.steps = s :: post)
    (hsettled : Settled env workspace [s]) (hkeys : e.steps.map (·.key) = flowStepsFor kind)
    (run : StepRun) :
    ∃ t ∈ (loadEngine kind (crashStep env workspace run s.name true e)).steps,
      t.hasState .Ongoing = true ∧ t.provenance ≠ none := by
  obtain ⟨rest, hrefresh, hrest⟩ := hsettled.refresh (show e.steps = [s] ++ post from hsteps)
  have hloc : Located s.name (refreshStaleStates env workspace e).2.steps [] s rest :=
    ⟨hrefresh, rfl, by simp⟩
  obtain ⟨post', -, hsaved, hpost'⟩ := crashStep_located env workspace run true hloc (.inl rfl)
  have hprofile : (crashStep env workspace run s.name true e).saved.map (·.key) =
      flowStepsFor kind := by
    rw [hsaved, List.nil_append, List.map_cons, key_started,
      keys_of_forall₂ (fun _ _ => Downstream.key) hpost',
      keys_of_forall₂ (fun _ _ => KeptOrInvalidated.key) hrest, ← List.map_cons, ← hsteps, hkeys]
  refine ⟨started run s, ?_, hasState_started run s, ?_⟩
  · rw [loadEngine_of_profile hprofile, hsaved]
    simp
  · intro hnone
    have hcurrent : Current env workspace none s := by
      by_contra hnot
      exact hsettled.noFailing.1 ⟨hsettled.success s (by simp), hnot⟩
    obtain ⟨provenance, hprov, -⟩ := hcurrent
    rw [StepRecord.provenanceDict_of_none (show s.provenance = none from hnone)] at hprov
    cases hprov

/-- The first step is left incomplete with the provenance of the run before. -/
theorem diedInRerun_not_linked :
    ¬Throughout .CPU_CORE AllLinked (freshEngine .CPU_CORE) diedInRerun := by
  intro h
  obtain ⟨-, -, hclean, -⟩ :=
    (throughout_linked_of_linked .CPU_CORE _ _ (linkedFlow_fresh .CPU_CORE)).mp h
  have hret := runStep_undisturbed (.ofNodes []) [] .PREPARE false
    (show StepEnum.PREPARE ∈ (freshEngine .CPU_CORE).steps.map (·.name) by decide)
  obtain ⟨s, post, hsteps, hsettled, hkeys⟩ := runStep_settles (.undisturbed (.ok true)) false
    (show (freshEngine .CPU_CORE).steps = [] ++ .fresh .PREPARE "fe" :: _ from rfl)
    (flowStepsFor_names_nodup .CPU_CORE) Settled.nil (.inr (.inr (by decide))) hret
  have hname : s.name = .PREPARE := congrArg Prod.fst (List.cons.inj hkeys).1
  obtain ⟨t, ht, hongoing, hprov⟩ := crash_of_settled .CPU_CORE hsteps hsettled
    (by rw [hsteps]; exact hkeys) (.undisturbed (.ok true))
  rw [hname] at ht
  exact hprov (hclean t ht hongoing)

end EccFe.Runtime
