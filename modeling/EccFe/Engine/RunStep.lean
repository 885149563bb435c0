/-
EccFe.Engine.RunStep — what one `run_step` leaves behind.

`run_step` works on the first record with its name. `Located` splits the flow at
that record; every helper is described by what it does to the three parts, and
`executeStep_ran` puts them together: a run that executes ends with the record
either `succeeded` or `failed`, and `runStep_cases` adds the runs that do not.
-/
import EccFe.Engine.Refresh

namespace EccFe.Engine

open Python Analysis Tools.RtlInputs

/-! ## 1. The record a run works on -/

/-- `s` is the first record called `name`. -/
structure Located (name : StepEnum) (steps pre : List StepRecord) (s : StepRecord)
    (post : List StepRecord) : Prop where
  split : steps = pre ++ s :: post
  name_eq : s.name = name
  before : ∀ t ∈ pre, t.name ≠ name

/-- A flow has a first step of the name or none. -/
theorem located_or_absent (name : StepEnum) : ∀ steps : List StepRecord,
    (∀ s ∈ steps, s.name ≠ name) ∨ ∃ pre s post, Located name steps pre s post
  | [] => .inl (by simp)
  | s :: rest => by
      by_cases hs : s.name = name
      · exact .inr ⟨[], s, rest, rfl, hs, by simp⟩
      · rcases located_or_absent name rest with habs | ⟨pre, t, post, hloc⟩
        · exact .inl (List.forall_mem_cons.mpr ⟨hs, habs⟩)
        · refine .inr ⟨s :: pre, t, post, by rw [hloc.split]; rfl, hloc.name_eq, ?_⟩
          exact List.forall_mem_cons.mpr ⟨hs, hloc.before⟩

section

variable {name : StepEnum} {steps pre post : List StepRecord} {s : StepRecord}

theorem find_append_of_before {p : StepRecord → Bool} (hpre : ∀ t ∈ pre, p t = false)
    (hs : p s = true) : (pre ++ s :: post).find? p = some s := by
  rw [List.find?_append, List.find?_eq_none.mpr (by simpa using hpre), List.find?_cons_of_pos hs]
  rfl

theorem Located.find_name (h : Located name steps pre s post) :
    steps.find? (fun t => t.name = name) = some s := by
  rw [h.split]
  exact find_append_of_before (by simpa using h.before) (by simpa using h.name_eq)

theorem Located.key_ne (h : Located name steps pre s post) : ∀ t ∈ pre, t.key ≠ s.key := by
  intro t ht hkey
  exact h.before t ht ((congrArg Prod.fst hkey).trans h.name_eq)

/-- The step found by its key is the located one. -/
theorem Located.getStep_eq (h : Located name steps pre s post) : getStep steps s.key = some s := by
  rw [getStep, h.split]
  exact find_append_of_before (by simpa using h.key_ne) (by simp)

/-- The records can be replaced by others with the same keys. -/
theorem Located.congr_keys {steps' : List StepRecord} (h : Located name steps pre s post)
    (hkeys : steps'.map (·.key) = steps.map (·.key)) :
    ∃ pre' s' post', Located name steps' pre' s' post' ∧ pre'.map (·.key) = pre.map (·.key) ∧
      s'.key = s.key ∧ post'.map (·.key) = post.map (·.key) := by
  rw [h.split, List.map_append, List.map_cons] at hkeys
  obtain ⟨pre', tail, rfl, hpre, htail⟩ := List.map_eq_append_iff.mp hkeys
  obtain ⟨s', post', rfl, hs, hpost⟩ := List.map_eq_cons_iff.mp htail
  refine ⟨pre', s', post', ⟨rfl, (congrArg Prod.fst hs).trans h.name_eq, ?_⟩, hpre, hs, hpost⟩
  intro t ht hname
  have hmem : t.key ∈ pre.map (·.key) := hpre ▸ List.mem_map_of_mem ht
  obtain ⟨u, hu, hkey⟩ := List.mem_map.mp hmem
  exact h.before u hu ((congrArg Prod.fst hkey).trans hname)

/-- A change of the located step leaves the others. -/
theorem modifyStep_located {key : StepEnum × String} (hpre : ∀ t ∈ pre, t.key ≠ key)
    (hs : s.key = key) (f : StepRecord → StepRecord) :
    modifyStep key f (pre ++ s :: post) = pre ++ f s :: post := by
  induction pre with
  | nil => rw [List.nil_append, modifyStep, if_pos hs, List.nil_append]
  | cons t pre ih =>
    rw [List.forall_mem_cons] at hpre
    rw [List.cons_append, modifyStep, if_neg hpre.1, ih hpre.2, List.cons_append]

/-! ## 2. The neighbours -/

/-- `_upstream_provenance` stops at the record itself. -/
theorem upstreamProvenance_located : ∀ (pre : List StepRecord) (upstream : Option Dict),
    (∀ t ∈ pre, t.name ≠ name) → s.name = name →
      upstreamProvenance name upstream (pre ++ s :: post) = upstreamAfter upstream pre
  | [], upstream, _, hs => by
      rw [List.nil_append, upstreamProvenance, if_pos hs, upstreamAfter_nil]
  | t :: pre, upstream, hpre, hs => by
      rw [List.forall_mem_cons] at hpre
      rw [List.cons_append, upstreamProvenance, if_neg hpre.1,
        upstreamProvenance_located pre _ hpre.2 hs, upstreamAfter_cons]

/-- What `_mark_downstream_stale` does to a record after the one it starts from. -/
def Downstream (name : StepEnum) (s s' : StepRecord) : Prop :=
  if s.name = name then s' = s else Invalidated s s'

/-- Marking the records after `name` keeps their keys. -/
theorem Downstream.key {name : StepEnum} {s s' : StepRecord} (h : Downstream name s s') :
    s'.key = s.key := by
  rw [Downstream] at h
  split at h
  · rw [h]
  · exact h.key

/-- After the step, the marking reaches downstream steps only. -/
theorem markAfter_found (reason : String) (name : StepEnum) :
    ∀ (post : List StepRecord) (artifacts : String → Artifacts),
      List.Forall₂ (Downstream name) post (markAfter reason name true artifacts post).2.2
  | [], _ => .nil
  | t :: post, artifacts => by
      by_cases ht : t.name = name
      · simp only [markAfter, if_pos ht]
        exact .cons (by rw [Downstream, if_pos ht]) (markAfter_found reason name post _)
      · simp only [markAfter, if_neg ht, if_true]
        refine .cons ?_ (markAfter_found reason name post _)
        rw [Downstream, if_neg ht]
        exact markStepStale_invalidated reason name.value t

/-- Before the step, the marking reaches none. -/
theorem markAfter_located (reason : String) {name : StepEnum} (hs : s.name = name) :
    ∀ (pre : List StepRecord) (artifacts : String → Artifacts), (∀ t ∈ pre, t.name ≠ name) →
      markAfter reason name false artifacts (pre ++ s :: post) =
        let (changed, artifacts', post') := markAfter reason name true artifacts post
        (changed, artifacts', pre ++ s :: post')
  | [], artifacts, _ => by simp [markAfter, hs]
  | t :: pre, artifacts, hpre => by
      rw [List.forall_mem_cons] at hpre
      rw [List.cons_append, markAfter, if_neg hpre.1,
        markAfter_located reason hs pre artifacts hpre.2]
      rfl

/-- Marking downstream leaves the step and those before it. -/
theorem markDownstreamStale_located (reason : String) {e : EngineFlow}
    (h : Located name e.steps pre s post) :
    ∃ post', (markDownstreamStale name reason e).steps = pre ++ s :: post' ∧
      List.Forall₂ (Downstream name) post post' := by
  refine ⟨(markAfter reason name true e.artifacts post).2.2, ?_, markAfter_found reason name post _⟩
  rw [markDownstreamStale, h.split, markAfter_located reason h.name_eq pre e.artifacts h.before]
  dsimp only
  split <;> rfl

end

/-! ## 3. The end of a run -/

/-- The record of a run that succeeded. -/
def succeeded (run : StepRun) (provenance : Dict) (s : StepRecord) : StepRecord :=
  finishStep .Success run.runtime (storeProvenance provenance s)

/-- The record of a run that did not. -/
def failed (run : StepRun) (s : StepRecord) : StepRecord :=
  popProvenance (finishStep .Incomplete run.runtime s)

/-- Two changes of one step are one change. -/
theorem modifyStep_modifyStep (key : StepEnum × String) (f g : StepRecord → StepRecord)
    (hf : ∀ s : StepRecord, (f s).key = s.key) (steps : List StepRecord) :
    modifyStep key g (modifyStep key f steps) = modifyStep key (fun s => g (f s)) steps := by
  induction steps with
  | nil => rfl
  | cons s rest ih =>
    by_cases hs : s.key = key
    · simp [modifyStep, hs, hf]
    · simp [modifyStep, hs, ih]

/-- The engine with one record and one directory of quality files replaced, and saved. -/
def EngineFlow.settle (e : EngineFlow) (key : StepEnum × String) (directory : String)
    (f : StepRecord → StepRecord) (files : Artifacts) : EngineFlow :=
  ((e.putArtifacts directory files).modify key f).save

/-- A failed step is finished in one change. -/
theorem finishIncomplete_eq (run : StepRun) (key : StepEnum × String) (directory : String)
    (files : Artifacts) (e : EngineFlow) :
    finishIncomplete run key (e.putArtifacts directory files) =
      e.settle key directory (failed run) files := by
  have h : modifyStep key popProvenance
      (modifyStep key (finishStep .Incomplete run.runtime) e.steps) =
        modifyStep key (failed run) e.steps :=
    modifyStep_modifyStep key (finishStep .Incomplete run.runtime) popProvenance (fun _ => rfl) _
  simp only [finishIncomplete, EngineFlow.settle, EngineFlow.modify, EngineFlow.save,
    EngineFlow.putArtifacts, h]

/-- A successful step is finished in one change. -/
theorem finishSuccess_eq (run : StepRun) (key : StepEnum × String) (directory : String)
    (provenance : Dict) (files : Artifacts) (e : EngineFlow) :
    (((e.putArtifacts directory files).modify key (storeProvenance provenance)).modify key
        (finishStep .Success run.runtime)).save =
      e.settle key directory (succeeded run provenance) files := by
  have h : modifyStep key (finishStep .Success run.runtime)
      (modifyStep key (storeProvenance provenance) e.steps) =
        modifyStep key (succeeded run provenance) e.steps :=
    modifyStep_modifyStep key (storeProvenance provenance) _ (fun _ => rfl) _
  simp only [EngineFlow.settle, EngineFlow.modify, EngineFlow.save, EngineFlow.putArtifacts, h]

@[simp] theorem putArtifacts_putArtifacts (e : EngineFlow) (directory : String)
    (files files' : Artifacts) :
    (e.putArtifacts directory files).putArtifacts directory files' =
      e.putArtifacts directory files' := by
  simp only [EngineFlow.putArtifacts, EngineFlow.mk.injEq, true_and]
  funext other
  split <;> rfl

/-- How the `try` statement of `run_step` ends. -/
inductive Ended (run : StepRun) (key : StepEnum × String) (directory : String)
    (provenance : Dict) (e : EngineFlow) : Outcome × EngineFlow → Prop
  | success (fingerprint : String) (files : Artifacts) : Consistent files →
      Ended run key directory provenance e
        (.returned .Success,
          e.settle key directory
            (succeeded run (finishedProvenance run provenance fingerprint)) files)
  | failure (outcome : Outcome) (files : Artifacts) : outcome ≠ .returned .Success →
      Consistent files →
      Ended run key directory provenance e (outcome, e.settle key directory (failed run) files)

section

variable (env : Env) (run : StepRun) (key : StepEnum × String) (directory : String)
  (provenance : Dict)

/-- Every `except` clause ends in a failure with consistent quality files. -/
theorem handleRaised_ended (files : Artifacts) (e : EngineFlow) (r : Raised) :
    Ended run key directory provenance e
      (handleRaised env run key directory (e.putArtifacts directory files) r) := by
  have habsent := consistent_absent
  cases r with
  | interruption =>
    rw [handleRaised, exceptBaseException, putArtifacts_putArtifacts, finishIncomplete_eq]
    exact .failure _ _ (by simp) habsent
  | exception =>
    rw [handleRaised, exceptException]
    cases run.reportChanged with
    | false =>
      rw [if_pos (by decide), putArtifacts_putArtifacts, finishIncomplete_eq]
      exact .failure _ _ (by decide) habsent
    | true =>
      rw [if_neg (by decide)]
      have hno := QorWrite.run_noInterruption env run.failureWrite_noInterruption
        ((e.putArtifacts directory files).artifacts directory)
      have hok := QorWrite.consistent_of_returned env run.failureWrite
        ((e.putArtifacts directory files).artifacts directory)
      split
      · rename_i files' hw
        rw [hw] at hok
        rw [putArtifacts_putArtifacts, finishIncomplete_eq]
        exact .failure _ _ (by decide) (hok rfl)
      · rw [putArtifacts_putArtifacts, finishIncomplete_eq]
        exact .failure _ _ (by decide) habsent
      · rename_i hw
        exact absurd (congrArg Prod.snd hw) hno

/-- The four points of failure of the `try` body, with the clause that catches each. -/
theorem tryBody_ended (e : EngineFlow) :
    Ended run key directory provenance e (tryBody env run key directory provenance e) := by
  rw [tryBody]
  cases run.handler with
  | error r => exact handleRaised_ended env run key directory provenance _ e r
  | ok success =>
    have hok := QorWrite.consistent_of_returned env (run.qorWrite success)
      ((e.putArtifacts directory (run.handlerFiles (e.artifacts directory))).artifacts directory)
    dsimp only
    split
    · rw [putArtifacts_putArtifacts]
      exact handleRaised_ended env run key directory provenance _ e _
    · rename_i files hw
      rw [hw] at hok
      rw [putArtifacts_putArtifacts]
      cases success with
      | false =>
        rw [if_neg (by decide), finishIncomplete_eq]
        exact .failure _ _ (by decide) (hok rfl)
      | true =>
        rw [if_pos rfl]
        cases run.outputFingerprint with
        | none => exact handleRaised_ended env run key directory provenance _ e _
        | some fingerprint =>
          dsimp only
          rw [finishSuccess_eq]
          exact .success fingerprint files (hok rfl)

end

/-! ## 4. The whole run -/

/-- The record as `_start_step` saves it. -/
def started (run : StepRun) (s : StepRecord) : StepRecord := startStep run (clearStepStale s)

@[simp] theorem key_started (run : StepRun) (s : StepRecord) : (started run s).key = s.key := rfl

/-- A step that is started is Ongoing. -/
theorem hasState_started (run : StepRun) (s : StepRecord) :
    (started run s).hasState .Ongoing = true := by simp [started, startStep, StepRecord.hasState]

/-- Starting the located step leaves the others. -/
theorem beginStep_located (run : StepRun) {name : StepEnum} {e : EngineFlow}
    {pre post : List StepRecord} {s : StepRecord} (h : Located name e.steps pre s post) :
    (beginStep run s e).steps = pre ++ started run s :: post := by
  simp only [beginStep, EngineFlow.save, EngineFlow.modify, EngineFlow.putArtifacts]
  have hkey : (clearStepStale s).key = s.key := rfl
  rw [h.split, modifyStep_located h.key_ne rfl clearStepStale, modifyStep_located h.key_ne hkey]
  rfl

theorem textAt_set_ne (d : Dict) {key other : String} (value : Json) (h : key ≠ other) :
    (d.set key value).textAt other = d.textAt other := by
  rw [Dict.textAt, Dict.textAt, Dict.getD, Dict.getD, Dict.get_set_ne d value h]

section

variable (env : Env) (workspace : Workspace)

/-- What a run makes of its record, given how it is left. -/
inductive RecordAfter (run : StepRun) (upstream : Option Dict) (s : StepRecord) :
    Outcome → StepRecord → Prop
  | success (provenance : Dict) :
      provenance.textAt "signature" = expectedSignature env workspace s.name.value s.tool upstream →
      RecordAfter run upstream s (.returned .Success) (succeeded run provenance (started run s))
  | failure (outcome : Outcome) : outcome ≠ .returned .Success →
      RecordAfter run upstream s outcome (failed run (started run s))

/-- What an executed run makes of the flow `pre ++ s :: post`. -/
structure Executed (run : StepRun) (pre : List StepRecord) (s : StepRecord)
    (post : List StepRecord) (s' : StepRecord) (post' : List StepRecord)
    (result : Outcome × EngineFlow) : Prop where
  steps : result.2.steps = pre ++ s' :: post'
  saved : result.2.saved = result.2.steps
  downstream : List.Forall₂ (Downstream s.name) post post'
  files : Consistent (result.2.artifacts s.directory)
  record : RecordAfter env workspace run (upstreamAfter none pre) s result.1 s'

variable {env workspace}

/-- An execution changes its own step and what is downstream. -/
theorem executeStep_executed (run : StepRun) {name : StepEnum} {e : EngineFlow}
    {pre post : List StepRecord} {s : StepRecord} (h : Located name e.steps pre s post) :
    ∃ s' post', Executed env workspace run pre s post s' post'
      (executeStep env workspace run s e) := by
  obtain ⟨post', hsteps, hpost⟩ :=
    markDownstreamStale_located "upstream step is being rerun" (h.name_eq ▸ h)
  have hmarked : Located s.name
      (markDownstreamStale s.name "upstream step is being rerun" e).steps pre s post' :=
    ⟨hsteps, rfl, h.name_eq ▸ h.before⟩
  have hbegin := beginStep_located run hmarked
  have hsettle : ∀ f : StepRecord → StepRecord,
      modifyStep s.key f (beginStep run s
        (markDownstreamStale s.name "upstream step is being rerun" e)).steps =
          pre ++ f (started run s) :: post' := by
    intro f
    rw [hbegin, modifyStep_located h.key_ne (key_started run s)]
  have hsig : ∀ fingerprint : String, (finishedProvenance run (startedProvenance env workspace run s
      (markDownstreamStale s.name "upstream step is being rerun" e)) fingerprint).textAt "signature" =
        expectedSignature env workspace s.name.value s.tool (upstreamAfter none pre) := by
    intro fingerprint
    rw [finishedProvenance, textAt_set_ne _ _ (by decide), textAt_set_ne _ _ (by decide),
      startedProvenance, textAt_set_ne _ _ (by decide), hsteps,
      upstreamProvenance_located pre none hmarked.before rfl]
    rfl
  have hended := tryBody_ended env run s.key s.directory
    (startedProvenance env workspace run s
      (markDownstreamStale s.name "upstream step is being rerun" e))
    (beginStep run s (markDownstreamStale s.name "upstream step is being rerun" e))
  rw [executeStep]
  revert hended
  generalize tryBody env run s.key s.directory _ _ = result
  intro hended
  cases hended with
  | success fingerprint files hfiles =>
    refine ⟨_, post', hsettle _, rfl, hpost, ?_, .success _ (hsig fingerprint)⟩
    simpa [EngineFlow.settle, EngineFlow.save, EngineFlow.modify, EngineFlow.putArtifacts]
      using hfiles
  | failure outcome files hne hfiles =>
    refine ⟨_, post', hsettle _, rfl, hpost, ?_, .failure outcome hne⟩
    simpa [EngineFlow.settle, EngineFlow.save, EngineFlow.modify, EngineFlow.putArtifacts]
      using hfiles

variable (env workspace)

/-- The ways `run_step` can go, on the flow as `refresh_stale_states` leaves it. -/
inductive RunStepCases (run : StepRun) (name : StepEnum) (rerun : Bool) (e : EngineFlow) :
    RunResult → Prop
  | absent : (∀ s ∈ e.steps, s.name ≠ name) →
      RunStepCases run name rerun e ⟨.returned .Invalid, e, false⟩
  | skipped (pre : List StepRecord) (s : StepRecord) (post : List StepRecord) :
      Located name (refreshStaleStates env workspace e).2.steps pre s post →
      rerun = false → s.hasState .Success = true →
      RunStepCases run name rerun e
        ⟨.returned .Success, (refreshStaleStates env workspace e).2, false⟩
  | executed (pre : List StepRecord) (s : StepRecord) (post : List StepRecord) (s' : StepRecord)
      (post' : List StepRecord) (result : Outcome × EngineFlow) :
      Located name (refreshStaleStates env workspace e).2.steps pre s post →
      rerun = true ∨ s.hasState .Success = false →
      Executed env workspace run pre s post s' post' result →
      RunStepCases run name rerun e ⟨result.1, result.2, true⟩

/-- A run finds no such step, or skips or executes it after the refresh. -/
theorem runStep_cases (run : StepRun) (name : StepEnum) (rerun : Bool) (e : EngineFlow) :
    RunStepCases env workspace run name rerun e (runStep env workspace run name rerun e) := by
  rw [runStep, getWorkspaceStep]
  rcases located_or_absent name e.steps with habs | ⟨pre₀, s₀, post₀, h₀⟩
  · rw [List.find?_eq_none.mpr (by simpa using habs)]
    exact .absent habs
  · obtain ⟨pre, s, post, h, -, hkey, -⟩ :=
      h₀.congr_keys (refreshStaleStates_keys env workspace e)
    rw [h₀.find_name]
    dsimp only
    rw [← hkey, h.getStep_eq]
    dsimp only
    split
    · rename_i hskip
      rw [Bool.and_eq_true, Bool.not_eq_true'] at hskip
      exact .skipped pre s post h hskip.1 hskip.2
    · rename_i hrun
      obtain ⟨s', post', hexec⟩ := executeStep_executed run h
      refine .executed pre s post s' post' _ h ?_ hexec
      revert hrun
      cases rerun <;> simp

/-! ## 5. What is saved -/

/-- A finished step carries no marker of an operation. -/
theorem get_popMarker (info : Option Json) :
    (((popMarker info).getD .null).asDict).get "runtime_operation" = none := by
  match info with
  | some (.obj fields) => exact Dict.get_pop_self fields _
  | none | some .null | some (.bool _) | some (.int _) | some (.float _) | some (.str _)
  | some (.arr _) => rfl

theorem marker_finishStep (state : StateEnum) (runtime : String) (s : StepRecord) :
    (finishStep state runtime s).infoDict.get "runtime_operation" = none := get_popMarker s.info

/-- A finished record is in the state it was finished in, without a marker. -/
theorem RecordAfter.settled {run : StepRun} {upstream : Option Dict} {s s' : StepRecord}
    {outcome : Outcome} (h : RecordAfter env workspace run upstream s outcome s') :
    s'.hasState .Ongoing = false ∧ s'.infoDict.get "runtime_operation" = none ∧
      (s'.hasState .Success = true → outcome = .returned .Success) := by
  cases h with
  | success provenance _ =>
    exact ⟨by simp [succeeded, finishStep, StepRecord.hasState, StateEnum.value],
      marker_finishStep _ _ _, fun _ => rfl⟩
  | failure _ _ =>
    refine ⟨by simp [failed, popProvenance, finishStep, StepRecord.hasState, StateEnum.value],
      marker_finishStep .Incomplete run.runtime (started run s), ?_⟩
    simp [failed, popProvenance, finishStep, StepRecord.hasState, StateEnum.value]

theorem RecordAfter.key_eq {run : StepRun} {upstream : Option Dict} {s s' : StepRecord}
    {outcome : Outcome} (h : RecordAfter env workspace run upstream s outcome s') :
    s'.key = s.key := by
  cases h <;> rfl

/-- The record a run is about, as an executed run saves it. -/
theorem Executed.located {env : Env} {workspace : Workspace} {run : StepRun} {name : StepEnum}
    {pre post post' : List StepRecord} {s s' : StepRecord} {steps : List StepRecord}
    {result : Outcome × EngineFlow} (hloc : Located name steps pre s post)
    (h : Executed env workspace run pre s post s' post' result) :
    Located name result.2.steps pre s' post' :=
  ⟨h.steps, (congrArg Prod.fst (h.record.key_eq env workspace)).trans hloc.name_eq, hloc.before⟩

/-- A run keeps the keys of the records. -/
theorem runStep_keys (run : StepRun) (name : StepEnum) (rerun : Bool) (e : EngineFlow) :
    (runStep env workspace run name rerun e).engine.steps.map (·.key) = e.steps.map (·.key) := by
  have hrefresh := refreshStaleStates_keys env workspace e
  have hcases := runStep_cases env workspace run name rerun e
  revert hcases
  generalize runStep env workspace run name rerun e = r
  intro hcases
  cases hcases with
  | absent _ => rfl
  | skipped _ _ _ _ _ _ => exact hrefresh
  | executed pre s post s' post' result hloc _ hexec =>
    have hpost := keys_of_forall₂ (fun _ _ => Downstream.key) hexec.downstream
    rw [hexec.steps, ← hrefresh, hloc.split, List.map_append, List.map_append, List.map_cons,
      List.map_cons, hpost, hexec.record.key_eq env workspace]

/-- A step the flow does not have is not there after the refresh either. -/
theorem find?_refreshStaleStates_eq_none {name : StepEnum} {e : EngineFlow}
    (h : ∀ s ∈ e.steps, s.name ≠ name) :
    (refreshStaleStates env workspace e).2.steps.find? (fun t => t.name = name) = none := by
  have hkeys := congrArg (List.map Prod.fst) (refreshStaleStates_keys env workspace e)
  rw [List.map_map, List.map_map] at hkeys
  rw [List.find?_eq_none]
  intro s hs
  have hmem : s.name ∈ e.steps.map (Prod.fst ∘ (·.key)) := hkeys ▸ List.mem_map_of_mem hs
  obtain ⟨t, ht, hname⟩ := List.mem_map.mp hmem
  rw [decide_eq_true_eq, ← hname]
  exact h t ht

/-- `run_step` executes exactly when the flow has the step and, refreshed, either a rerun is asked
for or the step is not in state Success. However the handler, the quality writes and the output
fingerprint end, a run that executes saves a finished record beside consistent quality files; a run
that does not execute changes nothing beyond the refresh. -/
theorem runStep_settled (run : StepRun) (name : StepEnum) (rerun : Bool) (e : EngineFlow) :
    ((runStep env workspace run name rerun e).executed = true ↔
      ∃ s, (refreshStaleStates env workspace e).2.steps.find? (fun t => t.name = name) = some s ∧
        (rerun = true ∨ s.hasState .Success = false)) ∧
    ((runStep env workspace run name rerun e).executed = true →
      ∃ s, (runStep env workspace run name rerun e).engine.saved.find? (fun t => t.name = name) =
          some s ∧
        s.hasState .Ongoing = false ∧ s.infoDict.get "runtime_operation" = none ∧
        (s.hasState .Success = true →
          (runStep env workspace run name rerun e).outcome = .returned .Success) ∧
        Consistent ((runStep env workspace run name rerun e).engine.artifacts s.directory)) ∧
      ((runStep env workspace run name rerun e).executed = false →
        (runStep env workspace run name rerun e).engine = e ∨
          (runStep env workspace run name rerun e).outcome = .returned .Success ∧
            (runStep env workspace run name rerun e).engine =
              (refreshStaleStates env workspace e).2) := by
  have hcases := runStep_cases env workspace run name rerun e
  revert hcases
  generalize runStep env workspace run name rerun e = r
  intro hcases
  cases hcases with
  | absent habs =>
    refine ⟨?_, fun h => absurd h (by simp), fun _ => .inl rfl⟩
    rw [find?_refreshStaleStates_eq_none env workspace habs]
    simp
  | skipped _ s _ hloc hrerun hsuccess =>
    refine ⟨?_, fun h => absurd h (by simp), fun _ => .inr ⟨rfl, rfl⟩⟩
    rw [hloc.find_name]
    simp [hrerun, hsuccess]
  | executed pre s post s' post' result hloc hrun hexec =>
    refine ⟨?_, fun _ => ?_, fun h => absurd h (by simp)⟩
    · rw [hloc.find_name]
      simpa using hrun
    obtain ⟨hongoing, hmarker, hsuccess⟩ := hexec.record.settled env workspace
    refine ⟨s', ?_, hongoing, hmarker, hsuccess, ?_⟩
    · rw [hexec.saved]
      exact (hexec.located hloc).find_name
    · have hdir : s'.directory = s.directory := by
        have hkey := hexec.record.key_eq env workspace
        rw [StepRecord.directory, StepRecord.directory, show s'.name = s.name from
          congrArg Prod.fst hkey, show s'.tool = s.tool from congrArg Prod.snd hkey]
      rw [hdir]
      exact hexec.files

end

def freshEngine (kind : DesignKind) : EngineFlow :=
  ⟨freshSteps kind, freshSteps kind, fun _ => Artifacts.absent⟩

theorem runStep_settled_interrupted :
    ∃ s, (runStep (Env.ofNodes []) [] (.undisturbed (.error .interruption)) .PREPARE false
          (freshEngine .CPU_CORE)).engine.saved.find? (fun t => t.name = .PREPARE) = some s ∧
      s.hasState .Ongoing = false ∧ s.infoDict.get "runtime_operation" = none := by
  obtain ⟨s, hfind, hongoing, hmarker, -⟩ :=
    (runStep_settled (Env.ofNodes []) [] (.undisturbed (.error .interruption)) .PREPARE false
      (freshEngine .CPU_CORE)).2.1 (by rfl)
  exact ⟨s, hfind, hongoing, hmarker⟩

end EccFe.Engine
