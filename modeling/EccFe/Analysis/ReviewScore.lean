/-
EccFe.Analysis.ReviewScore — `_rtl_review_score` of `fecompiler/analysis/qor.py`.

Three measures of the structure are compared with their targets; each earns its share of the
headroom points in proportion to the target over the measure, and never more than the share. The
targets come from the report: one that is too large for a float over its measure raises an
`OverflowError`, and nothing else does (`rtlReviewScore_sound`).
-/
import EccFe.Analysis.PrepareScore

namespace EccFe.Analysis

open Python

/-! ## 1. The points -/

/-- A measure of the structure, its target, and the points it can earn. -/
structure HeadroomPart where
  measured : Nat
  target : Nat
  possible : ℚ

/-- What `_rtl_review_score` reads off a review. -/
structure Review where
  errors : Nat
  warnings : Nat
  fanout : HeadroomPart
  fanin : HeadroomPart
  depth : HeadroomPart

variable (F : FloatModel)

/-- `int(thresholds[field]) / max(int(structural[field]), 1)`. -/
def HeadroomPart.headroom (part : HeadroomPart) : Except ArithmeticError ℚ :=
  F.divide part.target (max part.measured 1 : Nat)

/-- `possible * min(1.0, headroom)`; the points are a literal of the source. -/
def HeadroomPart.earned (part : HeadroomPart) : Except ArithmeticError ℚ := do
  let headroom ← part.headroom F
  return F.nearest (F.nearest part.possible * min 1 headroom)

namespace Review

variable (r : Review) (precheck : Dict) (precheckState : String)

def headroomEarned : Except ArithmeticError ℚ :=
  if precheckState = "pass" then do
    let fanout ← r.fanout.earned F
    let fanin ← r.fanin.earned F
    let depth ← r.depth.earned F
    return F.sum [fanout, fanin, depth]
  else return 0

def headroomSummary : String :=
  let fanout := r.fanout.measured
  let fanoutTarget := r.fanout.target
  let fanin := r.fanin.measured
  let faninTarget := r.fanin.target
  let depth := r.depth.measured
  let depthTarget := r.depth.target
  if precheckState = "pass" then
    s!"Fanout {fanout}/{fanoutTarget}, fanin {fanin}/{faninTarget}, depth {depth}/{depthTarget} (measured/target)."
  else "Structural headroom is unavailable because the precheck did not pass."

def precheckSummary : String :=
  if precheckState = "pass" then
    if precheck.getD "scope" .null = .str "design" then
      "Yosys completed the design structural precheck."
    else "Yosys completed the CPU-only structural precheck."
  else s!"Yosys precheck state is {precheckState}."

def components : Except ArithmeticError (List ScoreComponent) := do
  let errors := r.errors
  let warnings := r.warnings
  let errorPlural := plural errors
  let warningPlural := plural warnings
  let headroom ← r.headroomEarned F precheckState
  return [scoreComponent F "structural_precheck" "Structural precheck"
      (if precheckState = "pass" then 30 else 0) 30 (precheckSummary precheck precheckState),
    scoreComponent F "actionable_errors" "Actionable errors" (max 0 (30 - errors * 10)) 30
      s!"{errors} actionable RTL error{errorPlural} reported.",
    scoreComponent F "warning_hygiene" "Warning hygiene" (max 0 (15 - warnings * 3)) 15
      s!"{warnings} actionable RTL warning{warningPlural} reported.",
    scoreComponent F "structural_headroom" "Structural headroom" headroom 25
      (r.headroomSummary precheckState)]

end Review

/-- Points that fall with a count stay between zero and what was there to earn. -/
theorem max_zero_sub_inRange (possible loss : ℚ) (hpossible : 0 ≤ possible) (hloss : 0 ≤ loss) :
    0 ≤ max 0 (possible - loss) ∧ max 0 (possible - loss) ≤ possible :=
  ⟨le_max_left _ _, max_le hpossible (by linarith)⟩

section

variable {F : FloatModel} (hF : F.Lawful)

include hF

omit hF in
theorem HeadroomPart.headroom_eq_overflow {part : HeadroomPart} {e : ArithmeticError}
    (h : part.headroom F = .error e) : e = .overflow := by
  have hne : ((max part.measured 1 : Nat) : Int) ≠ 0 := by
    have hpos : 1 ≤ max part.measured 1 := le_max_right _ _
    omega
  rw [headroom, FloatModel.divide, if_neg hne] at h
  split at h
  · cases h
  · cases h
    rfl

theorem HeadroomPart.headroom_nonneg {part : HeadroomPart} {q : ℚ} (h : part.headroom F = .ok q) :
    0 ≤ q := by
  rw [headroom, FloatModel.divide] at h
  split at h
  · cases h
  · split at h
    · rename_i x hround
      cases h
      refine hF.nonneg _ _ ?_ hround
      positivity
    · cases h

/-- A part that is computed earns up to its share. -/
theorem HeadroomPart.earned_inRange {part : HeadroomPart} (hpossible : 0 ≤ part.possible)
    (hle : part.possible ≤ 10) (h : part.headroom F ≠ .error .overflow) :
    ∃ q, part.earned F = .ok q ∧ 0 ≤ q ∧ q ≤ part.possible + 2 / 2 ^ 40 := by
  cases hheadroom : part.headroom F with
  | error e =>
    rw [headroom_eq_overflow hheadroom] at hheadroom
    exact absurd hheadroom h
  | ok headroom =>
    have hmin0 : 0 ≤ min 1 headroom := le_min zero_le_one (headroom_nonneg hF hheadroom)
    have hmin1 : min 1 headroom ≤ 1 := min_le_left _ _
    have hshare := abs_le.mp (hF.abs_nearest_sub_le (q := part.possible)
      (by rw [abs_of_nonneg hpossible]; linarith))
    have hshare0 : 0 ≤ F.nearest part.possible := hF.nearest_nonneg hpossible
    have hproduct0 : 0 ≤ F.nearest part.possible * min 1 headroom := mul_nonneg hshare0 hmin0
    have hproduct1 : F.nearest part.possible * min 1 headroom ≤ F.nearest part.possible :=
      mul_le_of_le_one_right hshare0 hmin1
    have hround := abs_le.mp (hF.abs_nearest_sub_le
      (q := F.nearest part.possible * min 1 headroom) (by
        rw [abs_of_nonneg hproduct0]
        norm_num at hshare
        linarith [hshare.2]))
    refine ⟨_, by rw [earned, hheadroom]; rfl, hF.nearest_nonneg hproduct0, ?_⟩
    linarith [hshare.2, hround.2]

/-- Three parts added. -/
theorem sum_three_inRange {a b c bound : ℚ} (ha : 0 ≤ a) (hb : 0 ≤ b) (hc : 0 ≤ c)
    (hsum : a + b + c ≤ bound + 1 / 2 ^ 30) (hbound : bound ≤ 100) :
    0 ≤ F.sum [a, b, c] ∧ F.sum [a, b, c] < bound + 1 / 20 := by
  norm_num at hsum
  have hstep : ∀ x y : ℚ, 0 ≤ x → 0 ≤ y → x + y ≤ 101 →
      0 ≤ F.nearest (x + y) ∧ F.nearest (x + y) ≤ x + y + 1 / 2 ^ 40 := by
    intro x y hx hy hxy
    have hnear := hF.abs_nearest_sub_le (q := x + y) (by rw [abs_of_nonneg (by linarith)]; linarith)
    exact ⟨hF.nearest_nonneg (by linarith), by linarith [(abs_le.mp hnear).2]⟩
  norm_num at hstep
  show 0 ≤ F.nearest (F.nearest (F.nearest (0 + a) + b) + c) ∧ _ < _
  obtain ⟨h0, h1⟩ := hstep 0 a le_rfl ha (by linarith)
  obtain ⟨h2, h3⟩ := hstep _ b h0 hb (by linarith)
  obtain ⟨h4, h5⟩ := hstep _ c h2 hc (by linarith)
  refine ⟨h4, ?_⟩
  show F.nearest (F.nearest (F.nearest (0 + a) + b) + c) < _
  linarith

namespace Review

variable {r : Review}

/-- The shares of the three measures, which add up to 25. -/
structure HasShares (r : Review) : Prop where
  fanout : r.fanout.possible = 83 / 10
  fanin : r.fanin.possible = 83 / 10
  depth : r.depth.possible = 84 / 10

theorem headroomEarned_inRange (h : r.HasShares) {precheckState : String}
    (hfits : precheckState = "pass" →
      ∀ part ∈ [r.fanout, r.fanin, r.depth], part.headroom F ≠ .error .overflow) :
    ∃ q, r.headroomEarned F precheckState = .ok q ∧ 0 ≤ q ∧ q < 25 + 1 / 20 := by
  unfold headroomEarned
  split
  · rename_i hpass
    have hfits := hfits hpass
    obtain ⟨fanout, hfanout, hfanout0, hfanout1⟩ := HeadroomPart.earned_inRange hF
      (by rw [h.fanout]; norm_num) (by rw [h.fanout]; norm_num) (hfits r.fanout (by simp))
    obtain ⟨fanin, hfanin, hfanin0, hfanin1⟩ := HeadroomPart.earned_inRange hF
      (by rw [h.fanin]; norm_num) (by rw [h.fanin]; norm_num) (hfits r.fanin (by simp))
    obtain ⟨depth, hdepth, hdepth0, hdepth1⟩ := HeadroomPart.earned_inRange hF
      (by rw [h.depth]; norm_num) (by rw [h.depth]; norm_num) (hfits r.depth (by simp))
    rw [hfanout, hfanin, hdepth]
    rw [h.fanout] at hfanout1
    rw [h.fanin] at hfanin1
    rw [h.depth] at hdepth1
    refine ⟨F.sum [fanout, fanin, depth], rfl, ?_⟩
    refine sum_three_inRange hF hfanout0 hfanin0 hdepth0 ?_ (by norm_num)
    norm_num at hfanout1 hfanin1 hdepth1 ⊢
    linarith
  · exact ⟨0, rfl, le_rfl, by norm_num⟩

theorem components_rounded (h : r.HasShares) (precheck : Dict) {precheckState : String}
    (hfits : precheckState = "pass" →
      ∀ part ∈ [r.fanout, r.fanin, r.depth], part.headroom F ≠ .error .overflow) :
    ∃ cs, r.components F precheck precheckState = .ok cs ∧ (∀ c ∈ cs, c.Rounded F) ∧
      cs.length = 4 ∧ (cs.map (·.possible)).sum = 100 := by
  obtain ⟨headroom, hheadroom, hlow, hhigh⟩ := headroomEarned_inRange hF h hfits
  unfold components
  rw [hheadroom]
  refine ⟨_, rfl, ?_, rfl, by norm_num [scoreComponent]⟩
  simp only [List.forall_mem_cons]
  refine ⟨?_, ?_, ?_, ?_, fun c hc => absurd hc List.not_mem_nil⟩
  · refine scoreComponent_rounded hF (by decide) ?_ ?_ <;> split <;> norm_num
  · obtain ⟨h0, h1⟩ := max_zero_sub_inRange 30 (r.errors * 10) (by norm_num) (by positivity)
    exact scoreComponent_rounded hF (by decide) h0 (by linarith)
  · obtain ⟨h0, h1⟩ := max_zero_sub_inRange 15 (r.warnings * 3) (by norm_num) (by positivity)
    exact scoreComponent_rounded hF (by decide) h0 (by linarith)
  · exact scoreComponent_rounded hF (by decide) hlow hhigh

end Review

end

end EccFe.Analysis
