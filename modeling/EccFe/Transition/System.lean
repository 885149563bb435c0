/-
EccFe.Transition.System — runs of a system that takes labelled steps.

A step may be refused. `Run step ok` are the runs whose steps all meet `ok` in the
state before; `Run.invariant` is the induction over them.
-/

namespace EccFe.Transition

variable {σ ι : Type}

/-- A run from the first state to the last one by the labels in order. -/
inductive Run (step : σ → ι → Option σ) (ok : σ → ι → Prop) : σ → List ι → σ → Prop
  | nil (s : σ) : Run step ok s [] s
  | cons {s t u : σ} {label : ι} {labels : List ι} (hok : ok s label)
      (hstep : step s label = some t) (rest : Run step ok t labels u) :
      Run step ok s (label :: labels) u

namespace Run

variable {step : σ → ι → Option σ} {ok : σ → ι → Prop} {s u : σ} {labels : List ι}

/-- What every allowed step keeps holds in the last state. -/
theorem invariant {Inv : σ → Prop}
    (hkeeps : ∀ s label t, Inv s → ok s label → step s label = some t → Inv t)
    (h : Run step ok s labels u) : Inv s → Inv u := by
  induction h with
  | nil => exact id
  | cons hok hstep _ ih => exact fun hs => ih (hkeeps _ _ _ hs hok hstep)

end Run

/-- The state after the labels in order, unless one is refused. -/
def exec (step : σ → ι → Option σ) (s : σ) (labels : List ι) : Option σ := labels.foldlM step s

theorem run_of_exec {step : σ → ι → Option σ} {u : σ} {labels : List ι} : ∀ {s : σ},
    exec step s labels = some u → Run step (fun _ _ => True) s labels u := by
  induction labels with
  | nil =>
    intro s h
    cases h
    exact .nil _
  | cons label labels ih =>
    intro s h
    rw [exec, List.foldlM_cons] at h
    obtain ⟨t, hstep, hrest⟩ := Option.bind_eq_some_iff.mp h
    exact .cons trivial hstep (ih hrest)

/-- The state after the labels in order, unless one is refused or fails the check. -/
def execChecked (step : σ → ι → Option σ) (check : σ → ι → Bool) (s : σ) (labels : List ι) :
    Option σ :=
  labels.foldlM (fun s label => if check s label then step s label else none) s

/-- A check that is sound along a run shows that the run is allowed. -/
theorem run_of_execChecked {step : σ → ι → Option σ} {ok : σ → ι → Prop} {check : σ → ι → Bool}
    {Inv : σ → Prop}
    (hkeeps : ∀ s label t, Inv s → check s label = true → step s label = some t → Inv t)
    (hsound : ∀ s label, Inv s → check s label = true → ok s label) {u : σ} {labels : List ι} :
    ∀ {s : σ}, Inv s → execChecked step check s labels = some u → Run step ok s labels u ∧ Inv u := by
  induction labels with
  | nil =>
    intro s hs h
    cases h
    exact ⟨.nil _, hs⟩
  | cons label labels ih =>
    intro s hs h
    rw [execChecked, List.foldlM_cons] at h
    obtain ⟨t, hstep, hrest⟩ := Option.bind_eq_some_iff.mp h
    split at hstep
    · rename_i hcheck
      obtain ⟨hrun, hu⟩ := ih (hkeeps _ _ _ hs hcheck hstep) hrest
      exact ⟨.cons (hsound _ _ hs hcheck) hstep hrun, hu⟩
    · cases hstep

end EccFe.Transition
