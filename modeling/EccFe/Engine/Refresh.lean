/-
EccFe.Engine.Refresh — what `refresh_stale_states` does to an arbitrary flow.

`Current` is the condition the pass checks on a successful record, `Failing` its
failure. The pass keeps the records before the first failing one and invalidates
the rest (`refreshLoop_first_failing`); nothing it leaves is failing, so running
it again is the identity.
-/
import EccFe.Engine.Flow

namespace EccFe.Engine

open Python Analysis Tools.RtlInputs

/-! ## 1. Marking one record -/

/-- What marking leaves of a record: an ongoing one as it was, any other without
a result. -/
structure Invalidated (s s' : StepRecord) : Prop where
  key : s'.key = s.key
  ongoing : s.hasState .Ongoing = true → s' = s
  reset : s.hasState .Ongoing = false → s'.hasState .Unstart = true ∧ s'.provenance = none

theorem StepRecord.stateText_success (s : StepRecord) :
    s.stateText = StateEnum.Success.value ↔ s.hasState .Success = true := by
  rw [hasState_iff]
  cases h : s.state with
  | none => simp [stateText, h, StateEnum.value]
  | some v =>
    rw [stateText, h, Option.getD_some, Option.some.injEq]
    exact Json.pyStr_eq_iff (show _ = 'S' :: "uccess".toList by decide) (by decide)

theorem StepRecord.provenanceDict_of_none {s : StepRecord} (h : s.provenance = none) :
    s.provenanceDict = none := by rw [provenanceDict, h]

section Marking

variable (reason staleFrom : String) (s : StepRecord)

/-- A step that runs is not marked. -/
theorem markStepStale_ongoing (h : s.hasState .Ongoing = true) :
    markStepStale reason staleFrom s = (false, s) := by rw [markStepStale, if_pos h]

/-- Marking a step invalidates it. -/
theorem markStepStale_invalidated : Invalidated s (markStepStale reason staleFrom s).2 where
  key := by
    unfold markStepStale
    dsimp only
    split_ifs <;> rfl
  ongoing h := by rw [markStepStale_ongoing reason staleFrom s h]
  reset h := by
    rw [markStepStale, if_neg (by simp [h])]
    dsimp only
    split_ifs with hfresh hstale
    · simp only [Bool.and_eq_true, Option.isNone_iff_eq_none] at hfresh
      exact hfresh.1
    · simp only [Bool.and_eq_true, Option.isNone_iff_eq_none] at hstale
      exact ⟨hstale.1.1.1.1, hstale.2⟩
    · exact ⟨by simp [StepRecord.hasState], rfl⟩

end Marking

/-- An invalidated record is not successful. -/
theorem Invalidated.not_success {s s' : StepRecord} (h : Invalidated s s') :
    s'.hasState .Success = false := by
  rw [Bool.eq_false_iff]
  intro hs
  cases ho : s.hasState .Ongoing with
  | true => exact absurd (StepRecord.hasState_unique (h.ongoing ho ▸ hs) ho) (by decide)
  | false => exact absurd (StepRecord.hasState_unique hs (h.reset ho).1) (by decide)

/-- An invalidated step is not in state Success. -/
theorem not_success_of_invalidated {steps steps' : List StepRecord}
    (h : List.Forall₂ Invalidated steps steps') : ∀ s ∈ steps', s.hasState .Success = false := by
  induction h with
  | nil => simp
  | cons hs _ ih =>
    rw [List.forall_mem_cons]
    exact ⟨hs.not_success, ih⟩

/-! ## 2. The condition the pass checks -/

/-- The provenance a step takes as upstream when the records `pre` come before it
and `upstream` before them. -/
def upstreamAfter (upstream : Option Dict) (pre : List StepRecord) : Option Dict :=
  match pre.getLast? with
  | none => upstream
  | some s => nextUpstream s

@[simp] theorem upstreamAfter_nil (upstream : Option Dict) : upstreamAfter upstream [] = upstream :=
  rfl

@[simp] theorem upstreamAfter_cons (upstream : Option Dict) (s : StepRecord)
    (pre : List StepRecord) :
    upstreamAfter upstream (s :: pre) = upstreamAfter (nextUpstream s) pre := by
  rw [upstreamAfter, upstreamAfter, List.getLast?_cons]
  cases pre.getLast? <;> rfl

section

variable (env : Env) (workspace : Workspace)

/-- The stored record of `s` has the signature `build_step_provenance` gives now. -/
def Current (upstream : Option Dict) (s : StepRecord) : Prop :=
  ∃ provenance, s.provenanceDict = some provenance ∧
    provenance.textAt "signature" =
      expectedSignature env workspace s.name.value s.tool upstream

/-- A success that cannot be kept. -/
def Failing (upstream : Option Dict) (s : StepRecord) : Prop :=
  s.hasState .Success = true ∧ ¬Current env workspace upstream s

/-- No record of the list fails. -/
def NoFailing : Option Dict → List StepRecord → Prop
  | _, [] => True
  | upstream, s :: rest =>
      ¬Failing env workspace upstream s ∧ NoFailing (nextUpstream s) rest

/-- `s` is the first failing record of the flow. -/
structure FirstFailing (steps pre : List StepRecord) (s : StepRecord) (post : List StepRecord) :
    Prop where
  split : steps = pre ++ s :: post
  before : NoFailing env workspace none pre
  failing : Failing env workspace (upstreamAfter none pre) s

variable {env workspace}

/-- No check fails when none does at its own place. -/
theorem noFailing_iff : ∀ (steps : List StepRecord) (upstream : Option Dict),
    NoFailing env workspace upstream steps ↔
      ∀ pre s post, steps = pre ++ s :: post →
        ¬Failing env workspace (upstreamAfter upstream pre) s
  | [], _ => by simp [NoFailing]
  | s :: rest, upstream => by
      rw [NoFailing, noFailing_iff rest]
      constructor
      · rintro ⟨hs, hrest⟩ pre t post heq
        cases pre with
        | nil =>
          obtain ⟨rfl, -⟩ := List.cons.inj heq
          exact hs
        | cons u pre =>
          obtain ⟨rfl, htail⟩ := List.cons.inj heq
          rw [upstreamAfter_cons]
          exact hrest pre t post htail
      · intro h
        refine ⟨h [] s rest rfl, ?_⟩
        intro pre t post heq
        have := h (s :: pre) t post (by rw [heq]; rfl)
        rwa [upstreamAfter_cons] at this

/-- Records without a success cannot fail. -/
theorem noFailing_of_forall_not_success (steps : List StepRecord) (upstream : Option Dict)
    (h : ∀ s ∈ steps, s.hasState .Success = false) : NoFailing env workspace upstream steps := by
  rw [noFailing_iff]
  rintro pre s post rfl ⟨hs, -⟩
  rw [h s (by simp)] at hs
  cases hs

theorem noFailing_append : ∀ (pre post : List StepRecord) (upstream : Option Dict),
    NoFailing env workspace upstream (pre ++ post) ↔
      NoFailing env workspace upstream pre ∧
        NoFailing env workspace (upstreamAfter upstream pre) post
  | [], post, upstream => by simp [NoFailing]
  | s :: pre, post, upstream => by
      rw [List.cons_append, NoFailing, NoFailing, noFailing_append pre post, upstreamAfter_cons,
        and_assoc]

/-- Some check is the first to fail, or none fails. -/
theorem noFailing_or_firstFailing (env : Env) (workspace : Workspace) (steps : List StepRecord) :
    NoFailing env workspace none steps ∨
      ∃ pre s post, FirstFailing env workspace steps pre s post := by
  induction steps using List.reverseRecOn with
  | nil => exact .inl trivial
  | append_singleton steps s ih =>
    rcases ih with hkept | ⟨pre, t, post, hfirst⟩
    · by_cases hs : Failing env workspace (upstreamAfter none steps) s
      · exact .inr ⟨steps, s, [], rfl, hkept, hs⟩
      · exact .inl ((noFailing_append _ _ _).mpr ⟨hkept, hs, trivial⟩)
    · exact .inr ⟨pre, t, post ++ [s], by rw [hfirst.split]; simp, hfirst.before, hfirst.failing⟩

/-! ## 3. The pass -/

/-- A record that does not fail is left alone, and is the next one's upstream. -/
theorem refreshStep_kept (tracked : Bool) {st : RefreshState} {s : StepRecord}
    (hst : st.staleFrom = "") (h : ¬Failing env workspace st.upstream s) :
    refreshStep env workspace tracked st s = ({ st with upstream := nextUpstream s }, s) := by
  rw [refreshStep, if_neg (by simp [hst])]
  cases hs : s.hasState .Success with
  | false =>
    rw [if_pos (by rw [ne_eq, StepRecord.stateText_success, hs]; decide), nextUpstream, hs]
    rfl
  | true =>
    rw [if_neg (not_not_intro (s.stateText_success.mpr hs)), nextUpstream, hs, if_pos rfl]
    have hcurrent : Current env workspace st.upstream s := by
      by_contra hnot
      exact h ⟨hs, hnot⟩
    obtain ⟨provenance, hprov, hsig⟩ := hcurrent
    rw [hprov]
    exact if_neg (not_not_intro hsig)

/-- In a tracked flow a failing record is marked, and named as the source of staleness. -/
theorem refreshStep_failing (st : RefreshState) {s : StepRecord} (hst : st.staleFrom = "")
    (h : Failing env workspace st.upstream s) :
    ∃ reason, refreshStep env workspace true st s =
      RefreshState.mark { st with staleFrom := s.name.value } reason s.name.value s := by
  rw [refreshStep, if_neg (by simp [hst]),
    if_neg (not_not_intro (s.stateText_success.mpr h.1))]
  cases hprov : s.provenanceDict with
  | none => exact ⟨"step result has no provenance", by simp⟩
  | some provenance =>
    refine ⟨provenanceChangeReason provenance (buildFor env workspace s st.upstream), ?_⟩
    exact if_pos fun hsig => h.2 ⟨provenance, hprov, hsig⟩

/-- Whatever the flow, the pass keeps a record or invalidates it. -/
def KeptOrInvalidated (s s' : StepRecord) : Prop := s' = s ∨ Invalidated s s'

theorem KeptOrInvalidated.key {s s' : StepRecord} (h : KeptOrInvalidated s s') :
    s'.key = s.key := by
  rcases h with rfl | h
  · rfl
  · exact h.key

variable (env workspace) in
/-- A step is kept or invalidated. -/
theorem refreshStep_record (tracked : Bool) (st : RefreshState) (s : StepRecord) :
    KeptOrInvalidated s (refreshStep env workspace tracked st s).2 := by
  have hmark : ∀ (st : RefreshState) (reason staleFrom : String),
      KeptOrInvalidated s (st.mark reason staleFrom s).2 :=
    fun _ reason staleFrom => .inr (markStepStale_invalidated reason staleFrom s)
  rw [refreshStep]
  split
  · exact hmark _ _ _
  split
  · exact .inl rfl
  dsimp only
  split
  · split
    · exact hmark _ _ _
    · exact .inl rfl
  · split
    · exact hmark _ _ _
    · exact .inl rfl

variable (env workspace) in
/-- The pass keeps or invalidates each step. -/
theorem refreshLoop_records (tracked : Bool) : ∀ (steps : List StepRecord) (st : RefreshState),
    List.Forall₂ KeptOrInvalidated steps (refreshLoop env workspace tracked st steps).2
  | [], _ => .nil
  | s :: rest, st =>
      .cons (refreshStep_record env workspace tracked st s)
        (refreshLoop_records tracked rest (refreshStep env workspace tracked st s).1)

theorem keys_of_forall₂ {R : StepRecord → StepRecord → Prop} (hR : ∀ s s', R s s' → s'.key = s.key)
    {steps steps' : List StepRecord} (h : List.Forall₂ R steps steps') :
    steps'.map (·.key) = steps.map (·.key) := by
  induction h with
  | nil => rfl
  | cons hs _ ih => rw [List.map_cons, List.map_cons, hR _ _ hs, ih]

/-- Up to the first failing check nothing changes. -/
theorem refreshLoop_kept (tracked : Bool) : ∀ (steps : List StepRecord) (st : RefreshState),
    st.staleFrom = "" → NoFailing env workspace st.upstream steps →
      refreshLoop env workspace tracked st steps =
        ({ st with upstream := upstreamAfter st.upstream steps }, steps)
  | [], st, _, _ => by simp [refreshLoop]
  | s :: rest, st, hst, h => by
      have hrest := refreshLoop_kept tracked rest { st with upstream := nextUpstream s } hst h.2
      rw [refreshLoop, refreshStep_kept tracked hst h.1]
      simp only [hrest, upstreamAfter_cons]

/-- After a failing record every later one is marked. -/
theorem refreshLoop_stale (tracked : Bool) : ∀ (steps : List StepRecord) (st : RefreshState),
    st.staleFrom ≠ "" →
      List.Forall₂ Invalidated steps (refreshLoop env workspace tracked st steps).2
  | [], _, _ => .nil
  | s :: rest, st, hst => by
      rw [refreshLoop, refreshStep, if_pos hst]
      exact .cons (markStepStale_invalidated _ _ s) (refreshLoop_stale tracked rest _ hst)

/-- The pass over a list goes on from its first part. -/
theorem refreshLoop_append (tracked : Bool) : ∀ (pre post : List StepRecord) (st : RefreshState),
    refreshLoop env workspace tracked st (pre ++ post) =
      ((refreshLoop env workspace tracked (refreshLoop env workspace tracked st pre).1 post).1,
        (refreshLoop env workspace tracked st pre).2 ++
          (refreshLoop env workspace tracked (refreshLoop env workspace tracked st pre).1 post).2)
  | [], _, _ => rfl
  | s :: pre, post, st => by simp [refreshLoop, refreshLoop_append tracked pre post]

/-- What the pass makes of a flow with a failing record. -/
theorem refreshLoop_first_failing {steps pre post : List StepRecord} {s : StepRecord}
    (h : FirstFailing env workspace steps pre s post) {st : RefreshState}
    (hst : st.staleFrom = "") (hupstream : st.upstream = none) :
    ∃ s' post', (refreshLoop env workspace true st steps).2 = pre ++ s' :: post' ∧
      Invalidated s s' ∧ List.Forall₂ Invalidated post post' := by
  have hpre := refreshLoop_kept true pre st hst (by rw [hupstream]; exact h.before)
  obtain ⟨reason, hs⟩ := refreshStep_failing { st with upstream := upstreamAfter st.upstream pre }
    hst (by rw [hupstream]; exact h.failing)
  rw [h.split, refreshLoop_append, hpre, refreshLoop, hs]
  refine ⟨_, _, rfl, markStepStale_invalidated reason s.name.value s, ?_⟩
  exact refreshLoop_stale true post _ s.name.value_ne_empty

/-- Nothing the pass leaves of a tracked flow is failing. -/
theorem refreshLoop_noFailing (steps : List StepRecord) {st : RefreshState}
    (hst : st.staleFrom = "") (hupstream : st.upstream = none) :
    NoFailing env workspace none (refreshLoop env workspace true st steps).2 := by
  rcases noFailing_or_firstFailing env workspace steps with
    hkept | ⟨pre, s, post, hfirst⟩
  · rw [refreshLoop_kept true steps st hst (by rw [hupstream]; exact hkept)]
    exact hkept
  · obtain ⟨s', post', heq, hs, hpost⟩ := refreshLoop_first_failing hfirst hst hupstream
    rw [heq, noFailing_append]
    refine ⟨hfirst.before, noFailing_of_forall_not_success _ _ ?_⟩
    rw [List.forall_mem_cons]
    exact ⟨hs.not_success, not_success_of_invalidated hpost⟩

/-! ## 4. The operation -/

theorem refreshStaleStates_eq (e : EngineFlow) :
    (refreshStaleStates env workspace e).2.steps =
      (refreshLoop env workspace (trackedFlow e.steps) ⟨false, none, "", e.artifacts⟩ e.steps).2 := by
  rw [refreshStaleStates]
  dsimp only
  split <;> rfl

variable (env workspace) in
/-- The refresh keeps or invalidates each step. -/
theorem refreshStaleStates_records (e : EngineFlow) :
    List.Forall₂ KeptOrInvalidated e.steps (refreshStaleStates env workspace e).2.steps := by
  rw [refreshStaleStates_eq]
  exact refreshLoop_records env workspace _ _ _

variable (env workspace) in
/-- The refresh keeps the steps and their order. -/
theorem refreshStaleStates_keys (e : EngineFlow) :
    (refreshStaleStates env workspace e).2.steps.map (·.key) = e.steps.map (·.key) :=
  keys_of_forall₂ (fun _ _ => KeptOrInvalidated.key) (refreshStaleStates_records env workspace e)

/-- A flow without a failing record is left alone. -/
theorem refreshStaleStates_of_noFailing {e : EngineFlow}
    (h : NoFailing env workspace none e.steps) :
    refreshStaleStates env workspace e = (false, e) := by
  rw [refreshStaleStates, refreshLoop_kept _ e.steps _ rfl h]
  rfl

variable (env workspace) in
/-- The refreshed flow: every success kept is current, the records before the first
failing one are untouched, that one and the rest are invalidated, and there is nothing
left to do. -/
theorem refreshStaleStates_sound {e : EngineFlow} (h : trackedFlow e.steps = true) :
    (∀ pre s post, (refreshStaleStates env workspace e).2.steps = pre ++ s :: post →
        s.hasState .Success = true → Current env workspace (upstreamAfter none pre) s) ∧
      (NoFailing env workspace none e.steps →
        (refreshStaleStates env workspace e).2.steps = e.steps) ∧
      (∀ pre s post, FirstFailing env workspace e.steps pre s post →
        ∃ s' post', (refreshStaleStates env workspace e).2.steps = pre ++ s' :: post' ∧
          Invalidated s s' ∧ List.Forall₂ Invalidated post post') ∧
      refreshStaleStates env workspace (refreshStaleStates env workspace e).2 =
        (false, (refreshStaleStates env workspace e).2) := by
  have hnone : NoFailing env workspace none (refreshStaleStates env workspace e).2.steps := by
    rw [refreshStaleStates_eq, h]
    exact refreshLoop_noFailing e.steps rfl rfl
  refine ⟨?_, ?_, ?_, refreshStaleStates_of_noFailing hnone⟩
  · intro pre s post heq hs
    by_contra hnot
    exact (noFailing_iff _ _).mp hnone pre s post heq ⟨hs, hnot⟩
  · intro hkept
    rw [refreshStaleStates_of_noFailing hkept]
  · intro pre s post hfirst
    rw [refreshStaleStates_eq, h]
    exact refreshLoop_first_failing hfirst rfl rfl

end

/-- A flow no run leaves: a success with an empty record before an ongoing step and a
failure that kept its record. -/
def strayFlow : List StepRecord :=
  [storeProvenance [] ((StepRecord.fresh .PREPARE "fe").withState .Success),
    (StepRecord.fresh .REVIEW "fe").withState .Ongoing,
    storeProvenance [] ((StepRecord.fresh .ELAB "slang").withState .Incomplete)]

def strayEngine : EngineFlow := ⟨strayFlow, strayFlow, fun _ => Artifacts.absent⟩

theorem refreshStaleStates_sound_stray :
    trackedFlow strayEngine.steps = true ∧
      (∀ pre s post,
        (refreshStaleStates (Env.ofNodes []) [] strayEngine).2.steps = pre ++ s :: post →
          s.hasState .Success = true → Current (Env.ofNodes []) [] (upstreamAfter none pre) s) ∧
      refreshStaleStates (Env.ofNodes []) [] (refreshStaleStates (Env.ofNodes []) [] strayEngine).2 =
        (false, (refreshStaleStates (Env.ofNodes []) [] strayEngine).2) :=
  have htracked : trackedFlow strayEngine.steps = true := by decide
  have hsound := refreshStaleStates_sound (Env.ofNodes []) [] htracked
  ⟨htracked, hsound.1, hsound.2.2.2⟩

end EccFe.Engine
