/-
EccFe.Engine.RunAll — running the flow twice.

While `run_all` goes through the flow, the records before the one it is at are
`Settled`: successful and current. A step keeps that for the records before it
and adds its own (`runStep_settles`), so a `run_all` that returns success leaves
a settled flow, on which a second one finds nothing to do.

The exception is an untracked flow, one written without provenance: its first
successes are taken as they are until a later step stores the first record.
-/
import EccFe.Engine.RunStep

namespace EccFe.Engine

open Python Analysis Tools.RtlInputs

/-! ## 1. Locating by position -/

theorem Located.of_nodup {steps pre post : List StepRecord} {s : StepRecord}
    (hsplit : steps = pre ++ s :: post) (h : (steps.map (·.name)).Nodup) :
    Located s.name steps pre s post := by
  refine ⟨hsplit, rfl, ?_⟩
  intro t ht hname
  rw [hsplit, List.map_append, List.map_cons, List.nodup_append] at h
  exact h.2.2 t.name (List.mem_map_of_mem ht) s.name (by simp) hname

theorem Located.unique {name : StepEnum} {s t : StepRecord} {post post' : List StepRecord} :
    ∀ {steps pre pre' : List StepRecord}, Located name steps pre s post →
      Located name steps pre' t post' → pre = pre' ∧ s = t ∧ post = post'
  | _, [], [], h, h' => by
      have := h.split.symm.trans h'.split
      simpa using this
  | _, [], u :: pre', h, h' => by
      obtain ⟨rfl, -⟩ := List.cons.inj (h.split.symm.trans h'.split)
      exact absurd h.name_eq (h'.before s (by simp))
  | _, u :: pre, [], h, h' => by
      obtain ⟨rfl, -⟩ := List.cons.inj (h.split.symm.trans h'.split)
      exact absurd h'.name_eq (h.before _ (by simp))
  | _, u :: pre, v :: pre', h, h' => by
      obtain ⟨rfl, htail⟩ := List.cons.inj (h.split.symm.trans h'.split)
      have hrest : Located name (pre ++ s :: post) pre s post :=
        ⟨rfl, h.name_eq, fun t ht => h.before t (List.mem_cons_of_mem _ ht)⟩
      have hrest' : Located name (pre ++ s :: post) pre' t post' :=
        ⟨htail, h'.name_eq, fun t ht => h'.before t (List.mem_cons_of_mem _ ht)⟩
      obtain ⟨rfl, rfl, rfl⟩ := hrest.unique hrest'
      exact ⟨rfl, rfl, rfl⟩

theorem names_eq_of_keys {steps steps' : List StepRecord}
    (h : steps'.map (·.key) = steps.map (·.key)) : steps'.map (·.name) = steps.map (·.name) := by
  have hmap := congrArg (List.map Prod.fst) h
  simpa [List.map_map, Function.comp_def, StepRecord.key] using hmap

/-- Records of other names are invalidated. -/
theorem downstream_not_success {name : StepEnum} {post post' : List StepRecord}
    (h : List.Forall₂ (Downstream name) post post') (hne : ∀ t ∈ post, t.name ≠ name) :
    ∀ t ∈ post', t.hasState .Success = false := by
  induction h with
  | nil => simp
  | cons hs _ ih =>
    rw [List.forall_mem_cons] at hne ⊢
    rw [Downstream, if_neg hne.1] at hs
    exact ⟨hs.not_success, ih hne.2⟩

section

variable (env : Env) (workspace : Workspace)

/-! ## 2. Records after the one that ran -/

/-- After an executed run of `name` no later record is successful. -/
theorem runStep_executed_downstream (run : StepRun) (name : StepEnum) (rerun : Bool)
    {e : EngineFlow} (hnodup : (e.steps.map (·.name)).Nodup)
    (hexec : (runStep env workspace run name rerun e).executed = true) :
    ∃ pre s post, (runStep env workspace run name rerun e).engine.steps = pre ++ s :: post ∧
      s.name = name ∧ ∀ t ∈ post, t.hasState .Success = false := by
  have hcases := runStep_cases env workspace run name rerun e
  revert hexec hcases
  generalize runStep env workspace run name rerun e = r
  intro hexec hcases
  cases hcases with
  | absent _ => cases hexec
  | skipped _ _ _ _ _ _ => cases hexec
  | executed pre s post s' post' result hloc _ hran =>
    refine ⟨pre, s', post', hran.steps, (hran.located hloc).name_eq, ?_⟩
    refine downstream_not_success hran.downstream ?_
    rw [← names_eq_of_keys (refreshStaleStates_keys env workspace e), hloc.split, List.map_append,
      List.map_cons, List.nodup_append, List.nodup_cons] at hnodup
    intro t ht hname
    exact hnodup.2.1.1 (hname ▸ List.mem_map_of_mem ht)

/-! ## 3. Settled records -/

/-- Every record is successful and current. -/
structure Settled (pre : List StepRecord) : Prop where
  success : ∀ s ∈ pre, s.hasState .Success = true
  noFailing : NoFailing env workspace none pre

variable {env workspace}

theorem Settled.nil : Settled env workspace [] := ⟨by simp, trivial⟩

theorem Settled.append {pre : List StepRecord} {s : StepRecord} (h : Settled env workspace pre)
    (hs : s.hasState .Success = true) (hcurrent : Current env workspace (upstreamAfter none pre) s) :
    Settled env workspace (pre ++ [s]) where
  success := by
    rw [List.forall_mem_append]
    exact ⟨h.success, by simpa using hs⟩
  noFailing := (noFailing_append pre [s] none).mpr ⟨h.noFailing, fun hf => hf.2 hcurrent, trivial⟩

/-- A settled beginning carries provenance. -/
theorem Settled.tracked {pre post : List StepRecord} (h : Settled env workspace pre)
    (hne : pre ≠ []) : trackedFlow (pre ++ post) = true := by
  cases pre with
  | nil => exact absurd rfl hne
  | cons s pre =>
    have hcurrent : Current env workspace none s := by
      by_contra hnot
      exact h.noFailing.1 ⟨h.success s (by simp), hnot⟩
    obtain ⟨provenance, hprov, -⟩ := hcurrent
    simp [trackedFlow, hprov]

/-- Refreshing keeps a settled beginning. -/
theorem Settled.refresh {e : EngineFlow} {pre post : List StepRecord}
    (h : Settled env workspace pre) (hsplit : e.steps = pre ++ post) :
    ∃ post', (refreshStaleStates env workspace e).2.steps = pre ++ post' ∧
      List.Forall₂ KeptOrInvalidated post post' := by
  rw [refreshStaleStates_eq, hsplit, refreshLoop_append, refreshLoop_kept _ pre _ rfl h.noFailing]
  exact ⟨_, rfl, refreshLoop_records env workspace _ _ _⟩

variable (env workspace) in
theorem refreshStaleStates_noFailing {e : EngineFlow} (h : trackedFlow e.steps = true) :
    NoFailing env workspace none (refreshStaleStates env workspace e).2.steps := by
  rw [refreshStaleStates_eq, h]
  exact refreshLoop_noFailing e.steps rfl rfl

/-- A run that returns success settles its own record. -/
theorem runStep_settles (run : StepRun) (rerun : Bool) {e : EngineFlow}
    {pre post : List StepRecord} {s : StepRecord} (hsplit : e.steps = pre ++ s :: post)
    (hnodup : (e.steps.map (·.name)).Nodup) (hpre : Settled env workspace pre)
    (hbase : trackedFlow e.steps = true ∨ rerun = true ∨ s.hasState .Success = false)
    (hret : (runStep env workspace run s.name rerun e).outcome = .returned .Success) :
    ∃ s' post', (runStep env workspace run s.name rerun e).engine.steps = pre ++ s' :: post' ∧
      Settled env workspace (pre ++ [s']) ∧
      (s' :: post').map (·.key) = (s :: post).map (·.key) := by
  obtain ⟨rest, hrefresh, hrecords⟩ := hpre.refresh hsplit
  cases hrecords with
  | @cons _ s₁ _ post₁ hs₁ hpost₁ =>
    have hkeys₁ : (s₁ :: post₁).map (·.key) = (s :: post).map (·.key) :=
      keys_of_forall₂ (fun _ _ => KeptOrInvalidated.key) (.cons hs₁ hpost₁)
    have hloc₁ : Located s.name (refreshStaleStates env workspace e).2.steps pre s₁ post₁ := by
      have hname : s₁.name = s.name := congrArg Prod.fst hs₁.key
      rw [← hname]
      refine .of_nodup hrefresh ?_
      rw [names_eq_of_keys (refreshStaleStates_keys env workspace e)]
      exact hnodup
    have hcases := runStep_cases env workspace run s.name rerun e
    revert hret hcases
    generalize runStep env workspace run s.name rerun e = r
    intro hret hcases
    cases hcases with
    | absent _ => exact absurd hret (by simp)
    | skipped pre' s' post' hloc hrerun hsuccess =>
      obtain ⟨rfl, rfl, rfl⟩ := hloc₁.unique hloc
      refine ⟨s₁, post₁, hrefresh, hpre.append hsuccess ?_, hkeys₁⟩
      have htracked : trackedFlow e.steps = true := by
        rcases hbase with h | h | h
        · exact h
        · exact absurd h (by simp [hrerun])
        · rcases hs₁ with rfl | hinv
          · exact absurd hsuccess (by simp [h])
          · exact absurd hsuccess (by simp [hinv.not_success])
      have hnone := refreshStaleStates_noFailing env workspace htracked
      by_contra hnot
      exact (noFailing_iff _ _).mp hnone pre s₁ post₁ hrefresh ⟨hsuccess, hnot⟩
    | executed pre' s' post' s₂ post₂ result hloc _ hran =>
      obtain ⟨rfl, rfl, rfl⟩ := hloc₁.unique hloc
      have hpost₂ := keys_of_forall₂ (fun _ _ => Downstream.key) hran.downstream
      have hs₂ := hran.record.key_eq env workspace
      refine ⟨s₂, post₂, hran.steps, ?_, ?_⟩
      · have hrecord := hran.record
        revert hrecord hret
        generalize result.1 = outcome
        intro hret hrecord
        cases hrecord with
        | failure outcome hne => exact absurd hret hne
        | success provenance hsig =>
          refine hpre.append ?_ ⟨provenance, rfl, hsig⟩
          simp [succeeded, finishStep, StepRecord.hasState]
      · rw [List.map_cons, hs₂, hpost₂, ← List.map_cons, hkeys₁]

/-! ## 4. The two runs -/

/-- The loop of `run_all` settles the records it goes through. -/
theorem runAllLoop_settles (runs : StepEnum → StepRun) (rerun : Bool)
    {allReports : List (StepEnum × StateEnum)} : ∀ (names : List StepEnum)
    (reports : List (StepEnum × StateEnum)) (executed : List StepEnum) (e : EngineFlow)
    (pre post : List StepRecord), e.steps = pre ++ post → post.map (·.name) = names →
      (e.steps.map (·.name)).Nodup → Settled env workspace pre →
      (trackedFlow e.steps = true ∨ rerun = true ∨ ∀ s ∈ post.head?, s.hasState .Success = false) →
      (runAllLoop env workspace runs rerun names reports executed e).outcome =
        .returned true allReports →
      Settled env workspace (runAllLoop env workspace runs rerun names reports executed e).engine.steps
  | [], _, _, e, pre, post, hsplit, hnames, _, hpre, _, _ => by
      rw [List.map_eq_nil_iff.mp hnames, List.append_nil] at hsplit
      rw [runAllLoop, hsplit]
      exact hpre
  | name :: names, reports, executed, e, pre, post, hsplit, hnames, hnodup, hpre, hbase, hret => by
      obtain ⟨s, rest, rfl, rfl, hrest⟩ := List.map_eq_cons_iff.mp hnames
      rw [runAllLoop] at hret ⊢
      dsimp only at hret ⊢
      have hstep := runStep_settles (runs s.name) rerun hsplit hnodup hpre
        (hbase.imp_right (Or.imp_right fun h => h s (by simp)))
      revert hret hstep
      generalize runStep env workspace (runs s.name) s.name rerun e = r
      intro hret hstep
      cases hout : r.outcome with
      | raised raised => simp [hout] at hret
      | returned state =>
        rw [hout] at hret hstep
        dsimp only at hret ⊢
        by_cases hstate : state = .Success
        · obtain ⟨s', post', hsteps, hsettled, hkeys'⟩ := hstep (by rw [hstate])
          rw [if_neg (not_not_intro hstate)] at hret ⊢
          have hnames' := names_eq_of_keys hkeys'
          rw [List.map_cons, List.map_cons, List.cons.injEq] at hnames'
          have hsplit' : r.engine.steps = (pre ++ [s']) ++ post' := by rw [hsteps]; simp
          refine runAllLoop_settles runs rerun names _ _ r.engine (pre ++ [s']) post' hsplit'
            (hnames'.2.trans hrest) ?_ hsettled (.inl ?_) hret
          · rw [hsplit, List.map_append, List.map_cons] at hnodup
            rw [hsteps, List.map_append, List.map_cons, hnames'.1, hnames'.2]
            exact hnodup
          · rw [hsplit']
            exact hsettled.tracked (by simp)
        · rw [if_pos hstate] at hret
          simp at hret

/-- On a flow of current successes `run_step` does nothing. -/
theorem runStep_quiet (run : StepRun) {name : StepEnum} {e : EngineFlow}
    (hrefresh : refreshStaleStates env workspace e = (false, e))
    (hsuccess : ∀ s ∈ e.steps, s.hasState .Success = true) (hname : ∃ s ∈ e.steps, s.name = name) :
    runStep env workspace run name false e = ⟨.returned .Success, e, false⟩ := by
  have hcases := runStep_cases env workspace run name false e
  revert hcases
  generalize runStep env workspace run name false e = r
  intro hcases
  cases hcases with
  | absent habs =>
    obtain ⟨s, hs, hname⟩ := hname
    exact absurd hname (habs s hs)
  | skipped _ _ _ _ _ _ => rw [hrefresh]
  | executed pre s post s' post' result hloc hrun _ =>
    rw [hrefresh] at hloc
    have hs := hsuccess s (by rw [hloc.split]; simp)
    simp [hs] at hrun

theorem runAllLoop_quiet (runs : StepEnum → StepRun) {e : EngineFlow}
    (hrefresh : refreshStaleStates env workspace e = (false, e))
    (hsuccess : ∀ s ∈ e.steps, s.hasState .Success = true) : ∀ (names : List StepEnum)
    (reports : List (StepEnum × StateEnum)) (executed : List StepEnum),
      (∀ name ∈ names, ∃ s ∈ e.steps, s.name = name) →
      runAllLoop env workspace runs false names reports executed e =
        ⟨.returned true (reports ++ names.map fun name => (name, .Success)), e, executed⟩
  | [], reports, _, _ => by simp [runAllLoop]
  | name :: names, reports, executed, hnames => by
      rw [List.forall_mem_cons] at hnames
      rw [runAllLoop, runStep_quiet (runs name) hrefresh hsuccess hnames.1]
      have ih := runAllLoop_quiet runs hrefresh hsuccess names (reports ++ [(name, .Success)])
        executed hnames.2
      simpa using ih

/-- A flow of current successes is left alone by `run_all`. -/
theorem runAll_quiet (runs : StepEnum → StepRun) {e : EngineFlow}
    (hrefresh : refreshStaleStates env workspace e = (false, e))
    (hsuccess : ∀ s ∈ e.steps, s.hasState .Success = true) :
    runAll env workspace runs false e =
      ⟨.returned true (e.steps.map fun s => (s.name, .Success)), e, []⟩ := by
  have h := runAllLoop_quiet runs hrefresh hsuccess (e.steps.map (·.name)) [] []
    (by simp only [List.mem_map]; rintro name ⟨s, hs, rfl⟩; exact ⟨s, hs, rfl⟩)
  rw [runAll, if_neg (by decide), h]
  simp [Function.comp_def]

/-! ## 5. Untracked flows -/

/-- An untracked flow to be continued after a success. -/
structure Mixed (rerun : Bool) (steps : List StepRecord) : Prop where
  continued : rerun = false
  untracked : trackedFlow steps = false
  first : ∃ s ∈ steps.head?, s.hasState .Success = true
  rest : ∃ s ∈ steps, s.hasState .Success = false

theorem provenanceDict_of_untracked {steps : List StepRecord} (h : trackedFlow steps = false) :
    ∀ s ∈ steps, s.provenanceDict = none := by
  simpa [trackedFlow] using h

/-- The pass leaves an untracked flow alone. -/
theorem refreshLoop_untracked : ∀ (steps : List StepRecord) (st : RefreshState),
    st.staleFrom = "" → st.upstream = none → (∀ s ∈ steps, s.provenanceDict = none) →
      refreshLoop env workspace false st steps = (st, steps)
  | [], _, _, _, _ => rfl
  | s :: rest, st, hst, hup, h => by
      rw [List.forall_mem_cons] at h
      have hstep : refreshStep env workspace false st s = (st, s) := by
        have hsame : ({ st with upstream := none } : RefreshState) = st := by rw [← hup]
        rw [refreshStep, if_neg (by simp [hst]), h.1, hsame]
        simp
      rw [refreshLoop, hstep]
      simp only [refreshLoop_untracked rest st hst hup h.2]

variable (env workspace) in
theorem refreshStaleStates_untracked {e : EngineFlow} (h : trackedFlow e.steps = false) :
    refreshStaleStates env workspace e = (false, e) := by
  rw [refreshStaleStates, h, refreshLoop_untracked e.steps _ rfl rfl (provenanceDict_of_untracked h)]
  rfl

/-- What a successful `run_all` leaves. -/
theorem runAll_leaves_quiet (runs : StepEnum → StepRun) (rerun : Bool) {e : EngineFlow}
    (hnodup : (e.steps.map (·.name)).Nodup) (hmixed : ¬Mixed rerun e.steps)
    {reports : List (StepEnum × StateEnum)}
    (hret : (runAll env workspace runs rerun e).outcome = .returned true reports) :
    refreshStaleStates env workspace (runAll env workspace runs rerun e).engine =
        (false, (runAll env workspace runs rerun e).engine) ∧
      ∀ s ∈ (runAll env workspace runs rerun e).engine.steps, s.hasState .Success = true := by
  have hsettled : ∀ e' : EngineFlow, (e'.steps.map (·.name)).Nodup →
      (trackedFlow e'.steps = true ∨ rerun = true ∨
        ∀ s ∈ e'.steps.head?, s.hasState .Success = false) →
      (runAllLoop env workspace runs rerun (e'.steps.map (·.name)) [] [] e').outcome =
        .returned true reports →
      Settled env workspace
        (runAllLoop env workspace runs rerun (e'.steps.map (·.name)) [] [] e').engine.steps :=
    fun e' hnodup hbase hret =>
      runAllLoop_settles runs rerun _ [] [] e' [] e'.steps rfl rfl hnodup Settled.nil hbase hret
  have hquiet : ∀ e' : EngineFlow, Settled env workspace e'.steps →
      refreshStaleStates env workspace e' = (false, e') ∧
        ∀ s ∈ e'.steps, s.hasState .Success = true :=
    fun e' h => ⟨refreshStaleStates_of_noFailing h.noFailing, h.success⟩
  cases rerun with
  | true =>
    refine hquiet _ (hsettled (clearStates e) ?_ (.inr (.inl rfl)) hret)
    simpa [clearStates, EngineFlow.save, resetStep, Function.comp_def] using hnodup
  | false =>
    cases htracked : trackedFlow e.steps with
    | true => exact hquiet _ (hsettled e hnodup (.inl htracked) hret)
    | false =>
      by_cases hall : ∀ s ∈ e.steps, s.hasState .Success = true
      · have hrefresh := refreshStaleStates_untracked env workspace htracked
        rw [runAll_quiet runs hrefresh hall]
        exact ⟨hrefresh, hall⟩
      · refine hquiet _ (hsettled e hnodup (.inr (.inr fun s hs => ?_)) hret)
        by_contra hsuccess
        push Not at hall
        obtain ⟨t, ht, hnot⟩ := hall
        exact hmixed ⟨rfl, htracked, ⟨s, hs, by simpa using hsuccess⟩, t, ht, by simpa using hnot⟩

variable (env workspace)

/-- The no-op law and the invalidation law: a `run_all` after a successful one returns
success for every step without a handler and without a change, unless the first one
continued an untracked flow; and an executed run leaves no success after its step. -/
theorem runAll_again_and_downstream :
    (∀ (runs again : StepEnum → StepRun) (rerun : Bool) (e : EngineFlow)
        (reports : List (StepEnum × StateEnum)), (e.steps.map (·.name)).Nodup →
      ¬Mixed rerun e.steps →
      (runAll env workspace runs rerun e).outcome = .returned true reports →
        runAll env workspace again false (runAll env workspace runs rerun e).engine =
          ⟨.returned true ((runAll env workspace runs rerun e).engine.steps.map
              fun s => (s.name, .Success)),
            (runAll env workspace runs rerun e).engine, []⟩) ∧
      ∀ (run : StepRun) (name : StepEnum) (rerun : Bool) (e : EngineFlow),
        (e.steps.map (·.name)).Nodup →
        (runStep env workspace run name rerun e).executed = true →
          ∃ pre s post, (runStep env workspace run name rerun e).engine.steps = pre ++ s :: post ∧
            s.name = name ∧ ∀ t ∈ post, t.hasState .Success = false := by
  constructor
  · intro runs again rerun e reports hnodup hmixed hret
    obtain ⟨hrefresh, hsuccess⟩ := runAll_leaves_quiet runs rerun hnodup hmixed hret
    exact runAll_quiet again hrefresh hsuccess
  · intro run name rerun e hnodup hexec
    exact runStep_executed_downstream env workspace run name rerun hnodup hexec

/-! ## 6. Runs without a fault -/

theorem executeStep_undisturbed (s : StepRecord) (e : EngineFlow) :
    (executeStep env workspace (.undisturbed (.ok true)) s e).1 = .returned .Success := rfl

theorem runStep_undisturbed (name : StepEnum) (rerun : Bool) {e : EngineFlow}
    (h : name ∈ e.steps.map (·.name)) :
    (runStep env workspace (.undisturbed (.ok true)) name rerun e).outcome =
      .returned .Success := by
  rw [runStep, getWorkspaceStep]
  rcases located_or_absent name e.steps with habs | ⟨pre₀, s₀, post₀, h₀⟩
  · obtain ⟨s, hs, hname⟩ := List.mem_map.mp h
    exact absurd hname (habs s hs)
  · obtain ⟨pre, s, post, hloc, -, hkey, -⟩ :=
      h₀.congr_keys (refreshStaleStates_keys env workspace e)
    rw [h₀.find_name]
    dsimp only
    rw [← hkey, hloc.getStep_eq]
    dsimp only
    split
    · rfl
    · exact executeStep_undisturbed env workspace s (refreshStaleStates env workspace e).2

theorem runAllLoop_undisturbed (rerun : Bool) : ∀ (names : List StepEnum)
    (reports : List (StepEnum × StateEnum)) (executed : List StepEnum) (e : EngineFlow),
    (∀ name ∈ names, name ∈ e.steps.map (·.name)) →
      ∃ all, (runAllLoop env workspace (fun _ => .undisturbed (.ok true)) rerun names reports
        executed e).outcome = .returned true all
  | [], reports, _, _, _ => ⟨reports, rfl⟩
  | name :: names, reports, executed, e, h => by
      rw [List.forall_mem_cons] at h
      rw [runAllLoop]
      dsimp only
      rw [runStep_undisturbed env workspace name rerun h.1]
      refine runAllLoop_undisturbed rerun names _ _ _ ?_
      rw [names_eq_of_keys (runStep_keys env workspace _ name rerun e)]
      exact h.2

theorem runAll_undisturbed (e : EngineFlow) :
    ∃ all, (runAll env workspace (fun _ => .undisturbed (.ok true)) false e).outcome =
      .returned true all :=
  runAllLoop_undisturbed env workspace false _ [] [] e fun _ h => h

end

theorem runAll_again_fresh :
    let r := runAll (Env.ofNodes []) [] (fun _ => .undisturbed (.ok true)) false
      (freshEngine .CPU_CORE)
    runAll (Env.ofNodes []) [] (fun _ => .undisturbed (.ok false)) false r.engine =
      ⟨.returned true (r.engine.steps.map fun s => (s.name, .Success)), r.engine, []⟩ := by
  obtain ⟨reports, hret⟩ := runAll_undisturbed (Env.ofNodes []) [] (freshEngine .CPU_CORE)
  refine (runAll_again_and_downstream (Env.ofNodes []) []).1 _ _ false _ reports ?_ ?_ hret
  · exact flowStepsFor_names_nodup .CPU_CORE
  · intro hmixed
    have hfirst : ∃ s ∈ (freshSteps .CPU_CORE).head?, s.hasState .Success = true := hmixed.first
    revert hfirst
    decide

/-- A flow from before provenance whose last step has not run. -/
def legacyEngine : EngineFlow :=
  let steps := (freshSteps .GENERIC_RTL).map fun s =>
    if s.name = .LINT then s else s.withState .Success
  ⟨steps, steps, fun _ => Artifacts.absent⟩

/-- The flow is continued with success; then the first step runs again. -/
theorem runAll_again_legacy :
    let r := runAll (Env.ofNodes []) [] (fun _ => .undisturbed (.ok true)) false legacyEngine
    r.outcome.isSuccess = true ∧
      (runAll (Env.ofNodes []) [] (fun _ => .undisturbed (.ok false)) false r.engine).executed =
        [.PREPARE] := by
  decide

end EccFe.Engine
