/-
EccFe.Analysis.PrepareScore — when a score is well formed, and `_prepare_readiness_score` of
`fecompiler/analysis/qor.py`.

A score is well formed when each component earns between nothing and all of its points, the
points add up to 100, and the value is the sum of what was earned, to one decimal. Points are
floats: each operation may be off by a little (`FloatModel.Lawful`), and rounding to one decimal
takes the error away again (`scoreComponent_inRange`, `scoreOf_wellFormed`). Ratios are computed
with `divide`, which raises on a zero divisor and on a quotient that is no float.
-/
import EccFe.Analysis.Score

namespace EccFe.Analysis

open Python

/-! ## 1. Well-formed scores -/

/-- The earned points lie between zero and the possible ones. -/
def ScoreComponent.InRange (c : ScoreComponent) : Prop := 0 ≤ c.earned ∧ c.earned ≤ c.possible

/-- `value` speaks of the exact sum: how the floats are added does not matter. -/
structure Score.WellFormed (F : FloatModel) (s : Score) : Prop where
  earned : ∀ c ∈ s.components, c.InRange
  possible : (s.components.map (·.possible)).sum = 100
  value : s.value = F.roundScore (s.components.map (·.earned)).sum
  range : 0 ≤ s.value ∧ s.value ≤ 100

/-- A score is computed without an error, and what is returned is well formed. -/
def Sound (F : FloatModel) (result : Except ArithmeticError (Option Score)) : Prop :=
  ∃ score, result = .ok score ∧ ∀ s ∈ score, s.WellFormed F

/-- The points are a number of tenths, as a float, and in range. -/
structure ScoreComponent.Rounded (F : FloatModel) (c : ScoreComponent) : Prop where
  tenths : ∃ n : Int, 0 ≤ n ∧ (n : ℚ) / 10 ≤ c.possible ∧ c.earned = F.nearest ((n : ℚ) / 10)
  inRange : c.InRange

/-- The tenth that a number within one twentieth of it is rounded to. -/
theorem toTenth_of_near {q : ℚ} {n : Int} (h : |q - n / 10| < 1 / 20) : toTenth q = n / 10 := by
  have hten : |q * 10 - n| < 1 / 2 := by
    rw [abs_lt] at h ⊢
    constructor <;> linarith [h.1, h.2]
  rw [toTenth, roundHalfEven_of_near hten]

section

variable {F : FloatModel} (hF : F.Lawful)

include hF

/-- Points that exceed the possible ones by less than half a tenth are rounded into range. -/
theorem scoreComponent_rounded {id label summary : String} {earned : ℚ} {n : Nat} [n.AtLeastTwo]
    (hn : n ≤ 100) (hlow : 0 ≤ earned) (hhigh : earned < OfNat.ofNat n + 1 / 20) :
    (scoreComponent F id label earned (OfNat.ofNat n) summary).Rounded F := by
  have hcast : ((OfNat.ofNat n : Int) : ℚ) = OfNat.ofNat n := Int.cast_ofNat n
  have hbound : (OfNat.ofNat n : Int) ≤ 100 := by
    show (n : Int) ≤ 100
    exact_mod_cast hn
  rw [← hcast] at hhigh ⊢
  have htenths : roundHalfEven (earned * 10) ≤ 10 * (OfNat.ofNat n : Int) := by
    refine roundHalfEven_le_of_lt ?_
    push_cast
    push_cast at hhigh
    linarith
  have hcastTenths : (roundHalfEven (earned * 10) : ℚ) ≤ 10 * ((OfNat.ofNat n : Int) : ℚ) := by
    exact_mod_cast htenths
  refine ⟨⟨roundHalfEven (earned * 10), le_roundHalfEven (by push_cast; linarith), ?_, rfl⟩,
    hF.roundScore_nonneg hlow, hF.roundScore_le hlow hbound hhigh⟩
  show (roundHalfEven (earned * 10) : ℚ) / 10 ≤ ((OfNat.ofNat n : Int) : ℚ)
  linarith

/-- The sum of rounded points, as floats and exactly, is near the sum of the tenths. -/
theorem exists_tenths_sum {components : List ScoreComponent}
    (h : ∀ c ∈ components, c.Rounded F) (hpossible : (components.map (·.possible)).sum ≤ 100) :
    ∃ n : Int, 0 ≤ n ∧ (n : ℚ) / 10 ≤ (components.map (·.possible)).sum ∧
      |(components.map (·.earned)).sum - n / 10| ≤ components.length / 2 ^ 40 ∧
      ∀ total exact error : ℚ, |total - exact| ≤ error → 0 ≤ exact → exact + n / 10 ≤ 100 →
        error + 2 * components.length / 2 ^ 40 ≤ 1 →
        |(components.map (·.earned)).foldl (fun total q => F.nearest (total + q)) total -
          (exact + n / 10)| ≤ error + 2 * components.length / 2 ^ 40 := by
  induction components with
  | nil =>
    refine ⟨0, le_rfl, by simp, by simp, fun total exact error herror _ _ _ => ?_⟩
    simpa using herror
  | cons c rest ih =>
    obtain ⟨⟨m, hm0, hmle, hearned⟩, hrange⟩ := h c List.mem_cons_self
    have hrest : ∀ d ∈ rest, d.Rounded F := fun d hd => h d (List.mem_cons_of_mem c hd)
    rw [List.map_cons, List.sum_cons] at hpossible
    have hm : (0 : ℚ) ≤ m := by exact_mod_cast hm0
    obtain ⟨n, hn0, hnle, hsum, hfold⟩ := ih hrest (by linarith [div_nonneg hm (by norm_num : (0 : ℚ) ≤ 10)])
    have hn : (0 : ℚ) ≤ n := by exact_mod_cast hn0
    have hnear := hF.abs_nearest_sub_le (q := (m : ℚ) / 10)
      (by rw [abs_of_nonneg (by positivity)]; linarith)
    rw [← hearned] at hnear
    refine ⟨m + n, by omega, ?_, ?_, fun total exact error herror hexact hle hbudget => ?_⟩
    · rw [List.map_cons, List.sum_cons]
      push_cast
      linarith
    · rw [List.map_cons, List.sum_cons, List.length_cons]
      push_cast
      rw [abs_le] at hsum hnear ⊢
      constructor <;> linarith [hsum.1, hsum.2, hnear.1, hnear.2]
    · rw [List.map_cons, List.foldl_cons, List.length_cons]
      rw [List.length_cons] at hbudget
      push_cast at hle hbudget ⊢
      have hlength : (0 : ℚ) ≤ rest.length := Nat.cast_nonneg _
      -- one more addition: the error of the points and that of the addition
      have hstep : |F.nearest (total + c.earned) - (exact + m / 10)| ≤ error + 2 / 2 ^ 40 := by
        rw [abs_le] at herror hnear
        have hround := abs_le.mp (hF.abs_nearest_sub_le (q := total + c.earned) (by
          rw [abs_le]
          norm_num at hbudget hnear
          constructor <;> linarith [herror.1, herror.2, hnear.1, hnear.2]))
        rw [abs_le]
        constructor <;> linarith [herror.1, herror.2, hnear.1, hnear.2, hround.1, hround.2]
      have htail := hfold (F.nearest (total + c.earned)) (exact + m / 10) (error + 2 / 2 ^ 40) hstep
        (by positivity) (by linarith) (by linarith)
      rw [show exact + (↑m + ↑n) / 10 = exact + (m : ℚ) / 10 + n / 10 by ring]
      exact htail.trans (le_of_eq (by ring))

theorem scoreOf_wellFormed {label : String} {components : List ScoreComponent}
    (h : ∀ c ∈ components, c.Rounded F) (hlength : components.length ≤ 5)
    (hpossible : (components.map (·.possible)).sum = 100) :
    (scoreOf F label components).WellFormed F := by
  obtain ⟨n, hn0, hnle, hsum, hfold⟩ := exists_tenths_sum hF h hpossible.le
  have hshort : (components.length : ℚ) ≤ 5 := by exact_mod_cast hlength
  have hn : (0 : ℚ) ≤ n := by exact_mod_cast hn0
  have hfloat := hfold 0 0 0 (by simp) le_rfl (by linarith) (by norm_num; linarith)
  have htenthExact : toTenth (components.map (·.earned)).sum = n / 10 := by
    refine toTenth_of_near (lt_of_le_of_lt hsum ?_)
    norm_num
    linarith
  have htenthFloat : toTenth (F.sum (components.map (·.earned))) = n / 10 := by
    rw [zero_add, zero_add] at hfloat
    refine toTenth_of_near (lt_of_le_of_lt hfloat ?_)
    norm_num
    linarith
  have hvalue : F.roundScore (F.sum (components.map (·.earned))) = F.nearest ((n : ℚ) / 10) := by
    rw [FloatModel.roundScore, htenthFloat]
  refine ⟨fun c hc => (h c hc).inRange, hpossible, ?_, ?_, ?_⟩
  · show F.roundScore (F.sum (components.map (·.earned))) =
      F.nearest (toTenth (components.map (·.earned)).sum)
    rw [hvalue, htenthExact]
  · show 0 ≤ F.roundScore (F.sum (components.map (·.earned)))
    rw [hvalue]
    exact hF.nearest_nonneg (by positivity)
  · show F.roundScore (F.sum (components.map (·.earned))) ≤ 100
    have hexact : F.roundScore ((n : ℚ) / 10) = F.nearest ((n : ℚ) / 10) := by
      rw [FloatModel.roundScore, toTenth_of_near (n := n) (by norm_num)]
    rw [hvalue, ← hexact]
    have htenths : (0 : ℚ) ≤ n / 10 := div_nonneg hn (by norm_num)
    have hle := hF.roundScore_le (n := 100) htenths le_rfl (by push_cast; linarith)
    exact_mod_cast hle

end

/-! ## 2. Reading the readiness facts -/

/-- What `_prepare_readiness_score` reads off the readiness facts. -/
structure Readiness where
  rtlTotal : Nat
  rtlResolved : Nat
  incdirTotal : Nat
  incdirResolved : Nat
  topRequired : Bool
  topDefinitions : Nat
  topSourceInInputs : Bool
  interfaceApplicable : Bool
  interfaceVerified : Bool
  expectedPorts : Nat
  matchedPorts : Nat
  missingPorts : Nat
  extraPorts : Nat
  mismatchedPorts : Nat
  inputFingerprint : Bool
  mergedFilelist : Bool
  preparedManifest : Bool

def countAt? (d : Dict) (field : String) : Option Nat := count? (d.getD field .null)

def booleanAt? (d : Dict) (field : String) : Option Bool := boolean? (d.getD field .null)

/-- The facts, when every field has its type. -/
def readiness? (value : Json) : Option Readiness := do
  let readiness := value.asDict
  let sources := readiness.dictAt "sources"
  let top := readiness.dictAt "top"
  let interface := readiness.dictAt "interface"
  let reproducibility := readiness.dictAt "reproducibility"
  let r : Readiness := {
    rtlTotal := ← countAt? sources "rtl_total"
    rtlResolved := ← countAt? sources "rtl_resolved"
    incdirTotal := ← countAt? sources "include_dir_total"
    incdirResolved := ← countAt? sources "include_dir_resolved"
    topDefinitions := ← countAt? top "definitions"
    expectedPorts := ← countAt? interface "expected_ports"
    matchedPorts := ← countAt? interface "matched_ports"
    missingPorts := ← countAt? interface "missing_ports"
    extraPorts := ← countAt? interface "extra_ports"
    mismatchedPorts := ← countAt? interface "mismatched_ports"
    topRequired := ← booleanAt? top "required"
    topSourceInInputs := ← booleanAt? top "source_in_inputs"
    interfaceApplicable := ← booleanAt? interface "applicable"
    interfaceVerified := ← booleanAt? interface "verified"
    inputFingerprint := ← booleanAt? reproducibility "input_fingerprint"
    mergedFilelist := ← booleanAt? reproducibility "merged_filelist"
    preparedManifest := ← booleanAt? reproducibility "prepared_manifest" }
  if equalsInt (readiness.getD "schema_version" .null) 1 then return r else none

namespace Readiness

variable (r : Readiness)

/-- The counts are consistent with each other. -/
def coherent : Bool :=
  decide (0 < r.rtlTotal) && decide (r.rtlResolved ≤ r.rtlTotal) &&
    decide (r.incdirResolved ≤ r.incdirTotal) &&
    decide (r.matchedPorts ≤ r.expectedPorts) &&
    !(r.interfaceVerified && r.expectedPorts == 0) &&
    !(r.interfaceVerified && r.matchedPorts + r.missingPorts + r.mismatchedPorts != r.expectedPorts) &&
    !(!r.interfaceVerified && [r.expectedPorts, r.matchedPorts, r.missingPorts,
      r.mismatchedPorts].any (· != 0))

/-! ## 3. The points -/

variable (F : FloatModel)

def sourceEarned : Except ArithmeticError ℚ := do
  let sources ← F.divide (20 * r.rtlResolved) r.rtlTotal
  if r.incdirTotal = 0 then return F.nearest (sources + 10)
  else
    let incdirs ← F.divide (10 * r.incdirResolved) r.incdirTotal
    return F.nearest (sources + incdirs)

def topEarned : ℚ :=
  if !r.topRequired then 20
  else (if r.topDefinitions = 1 then 15 else 0) + (if r.topSourceInInputs then 5 else 0)

def interfaceEarned : Except ArithmeticError ℚ :=
  if !r.interfaceApplicable then return 40
  else if !r.interfaceVerified then return 0
  else do
    let ports ← F.divide (35 * r.matchedPorts) r.expectedPorts
    return F.nearest (ports + (if r.extraPorts = 0 then 5 else 0))

def interfaceSummary : String :=
  let matched := r.matchedPorts
  let expected := r.expectedPorts
  let extra := r.extraPorts
  if !r.interfaceApplicable then "Interface contract is not required for this workspace."
  else if !r.interfaceVerified then "No expected CPU interface contract was available to verify."
  else s!"{matched} of {expected} required ports matched; {extra} unexpected."

/-- Integers and halves, which floats add exactly. -/
def reproducibilityEarned : ℚ :=
  (if r.inputFingerprint then 5 else 0) + (if r.mergedFilelist then 5 / 2 else 0) +
    (if r.preparedManifest then 5 / 2 else 0)

def components : Except ArithmeticError (List ScoreComponent) := do
  let rtlResolved := r.rtlResolved
  let rtlTotal := r.rtlTotal
  let incdirResolved := r.incdirResolved
  let incdirTotal := r.incdirTotal
  let definitions := r.topDefinitions
  let inInputs := if r.topSourceInInputs then "is" else "is not"
  let tracked := if r.inputFingerprint then "tracked" else "not tracked"
  let persisted := if r.mergedFilelist && r.preparedManifest then "persisted" else "incomplete"
  let sources ← r.sourceEarned F
  let interface ← r.interfaceEarned F
  return [scoreComponent F "source_resolution" "Source resolution" sources 30
      s!"{rtlResolved} of {rtlTotal} RTL sources and {incdirResolved} of {incdirTotal} include directories resolved.",
    scoreComponent F "top_resolution" "Top resolution" r.topEarned 20
      (if !r.topRequired then "Top-module validation is not required for this workspace."
      else s!"{definitions} matching definition found; source {inInputs} in prepared inputs."),
    scoreComponent F "interface_contract" "Interface contract" interface 40 r.interfaceSummary,
    scoreComponent F "reproducibility" "Reproducibility" r.reproducibilityEarned 10
      s!"Input snapshot {tracked}; normalized input manifest and file list {persisted}."]

end Readiness

def prepareReadinessScore (F : FloatModel) (value : Json) : Except ArithmeticError (Option Score) :=
  match readiness? value with
  | none => .ok none
  | some r =>
      if r.coherent then (r.components F).map fun cs => some (scoreOf F "Preparation readiness" cs)
      else .ok none

/-! ## 4. The points are in range -/

namespace Readiness

variable {r : Readiness}

/-- What `coherent` says, in one place. -/
theorem coherent_iff : r.coherent = true ↔
    0 < r.rtlTotal ∧ r.rtlResolved ≤ r.rtlTotal ∧ r.incdirResolved ≤ r.incdirTotal ∧
      r.matchedPorts ≤ r.expectedPorts ∧
      (r.interfaceVerified = true → 0 < r.expectedPorts ∧
        r.matchedPorts + r.missingPorts + r.mismatchedPorts = r.expectedPorts) ∧
      (r.interfaceVerified = false → r.expectedPorts = 0 ∧ r.matchedPorts = 0 ∧
        r.missingPorts = 0 ∧ r.mismatchedPorts = 0) := by
  cases hverified : r.interfaceVerified <;> simp [coherent, hverified, Nat.pos_iff_ne_zero] <;> tauto

section

variable {F : FloatModel} (hF : F.Lawful)

include hF

/-- A share of the points: `weight * part / total`. -/
theorem share_inRange (weight : Nat) (hweight : weight ≤ 100) {part total : Nat}
    (htotal : 0 < total) (hpart : part ≤ total) :
    ∃ q, F.divide ((weight : Int) * part) total = .ok q ∧ 0 ≤ q ∧ q ≤ weight + 1 / 2 ^ 40 := by
  have hne : (total : Int) ≠ 0 := by exact_mod_cast htotal.ne'
  have hpos : (0 : ℚ) < (total : Int) := by exact_mod_cast htotal
  have hlow : (0 : ℚ) ≤ (((weight : Int) * part : Int) : ℚ) / (total : Int) := by positivity
  have hhigh : (((weight : Int) * part : Int) : ℚ) / (total : Int) ≤ weight := by
    rw [div_le_iff₀ hpos]
    push_cast
    exact mul_le_mul_of_nonneg_left (by exact_mod_cast hpart) (by positivity)
  have hsmall : (weight : ℚ) ≤ 100 := by exact_mod_cast hweight
  obtain ⟨q, hq, hnear⟩ := hF.divide_near hne (by rw [abs_of_nonneg hlow]; linarith)
  refine ⟨q, hq, ?_, by linarith [(abs_le.mp hnear).2]⟩
  rw [FloatModel.divide, if_neg hne] at hq
  split at hq
  · rename_i x hround
    cases hq
    exact hF.nonneg _ _ hlow hround
  · cases hq

/-- Two parts of the points, added. -/
theorem add_inRange {a b bound : ℚ} (ha : 0 ≤ a) (hb : 0 ≤ b) (hsum : a + b ≤ bound + 1 / 2 ^ 30)
    (hbound : bound ≤ 100) :
    0 ≤ F.nearest (a + b) ∧ F.nearest (a + b) < bound + 1 / 20 := by
  refine ⟨hF.nearest_nonneg (by linarith), ?_⟩
  have hnear := abs_le.mp (hF.abs_nearest_sub_le (q := a + b) (by
    rw [abs_of_nonneg (by linarith)]
    norm_num at hsum
    linarith))
  norm_num at hsum hnear
  linarith [hnear.2]

theorem sourceEarned_inRange (h : r.coherent = true) :
    ∃ q, r.sourceEarned F = .ok q ∧ 0 ≤ q ∧ q < 30 + 1 / 20 := by
  obtain ⟨htotal, hresolved, hincdirs, -⟩ := coherent_iff.mp h
  obtain ⟨sources, hsources, hlow, hhigh⟩ := share_inRange hF 20 (by decide) htotal hresolved
  rw [sourceEarned, show (20 : Int) = (20 : Nat) from rfl, hsources]
  norm_num at hhigh
  by_cases hnone : r.incdirTotal = 0
  · refine ⟨F.nearest (sources + 10), by simp [hnone, bind, Except.bind, pure, Except.pure], ?_⟩
    exact add_inRange hF hlow (by norm_num) (by norm_num; linarith) (by norm_num)
  · obtain ⟨incdirs, hdivide, hlow', hhigh'⟩ :=
      share_inRange hF 10 (by decide) (Nat.pos_of_ne_zero hnone) hincdirs
    rw [show (10 : Int) = (10 : Nat) from rfl, hdivide]
    norm_num at hhigh'
    refine ⟨F.nearest (sources + incdirs), by simp [hnone, bind, Except.bind, pure, Except.pure], ?_⟩
    exact add_inRange hF hlow hlow' (by norm_num; linarith) (by norm_num)

omit hF in
theorem topEarned_inRange : 0 ≤ r.topEarned ∧ r.topEarned ≤ 20 := by
  unfold topEarned
  split
  · norm_num
  · split <;> split <;> norm_num

theorem interfaceEarned_inRange (h : r.coherent = true) :
    ∃ q, r.interfaceEarned F = .ok q ∧ 0 ≤ q ∧ q < 40 + 1 / 20 := by
  obtain ⟨-, -, -, hmatched, hverified, -⟩ := coherent_iff.mp h
  unfold interfaceEarned
  split
  · exact ⟨40, rfl, by norm_num, by norm_num⟩
  · split
    · exact ⟨0, rfl, le_rfl, by norm_num⟩
    · rename_i hv
      have hexpected := (hverified (by simpa using hv)).1
      obtain ⟨ports, hports, hlow, hhigh⟩ :=
        share_inRange hF 35 (by decide) hexpected hmatched
      rw [show (35 : Int) = (35 : Nat) from rfl, hports]
      norm_num at hhigh
      refine ⟨_, rfl, ?_⟩
      refine add_inRange hF hlow ?_ ?_ (by norm_num)
      · split <;> norm_num
      · split <;> norm_num <;> linarith

omit hF in
theorem reproducibilityEarned_inRange :
    0 ≤ r.reproducibilityEarned ∧ r.reproducibilityEarned ≤ 10 := by
  unfold reproducibilityEarned
  split <;> split <;> split <;> norm_num

theorem components_rounded (h : r.coherent = true) :
    ∃ cs, r.components F = .ok cs ∧ (∀ c ∈ cs, c.Rounded F) ∧ cs.length = 4 ∧
      (cs.map (·.possible)).sum = 100 := by
  obtain ⟨sources, hsources, hsources0, hsources30⟩ := sourceEarned_inRange hF h
  obtain ⟨interface, hinterface, hinterface0, hinterface40⟩ := interfaceEarned_inRange hF h
  have htop := topEarned_inRange (r := r)
  have hreproducibility := reproducibilityEarned_inRange (r := r)
  unfold components
  rw [hsources, hinterface]
  refine ⟨_, rfl, ?_, rfl, by norm_num [scoreComponent]⟩
  simp only [List.forall_mem_cons]
  refine ⟨?_, ?_, ?_, ?_, fun c hc => absurd hc List.not_mem_nil⟩
  · exact scoreComponent_rounded hF (by decide) hsources0 hsources30
  · exact scoreComponent_rounded hF (by decide) htop.1 (by linarith [htop.2])
  · exact scoreComponent_rounded hF (by decide) hinterface0 hinterface40
  · exact scoreComponent_rounded hF (by decide) hreproducibility.1 (by linarith [hreproducibility.2])

end

end Readiness

section

variable {F : FloatModel} (hF : F.Lawful)

include hF

/-- Consistent facts have a score. -/
theorem prepareReadinessScore_of_coherent {value : Json} {r : Readiness}
    (hread : readiness? value = some r) (h : r.coherent = true) :
    ∃ s, prepareReadinessScore F value = .ok (some s) ∧ s.WellFormed F := by
  obtain ⟨cs, hcs, hrounded, hlength, hpossible⟩ := Readiness.components_rounded hF h
  refine ⟨scoreOf F "Preparation readiness" cs, ?_,
    scoreOf_wellFormed hF hrounded (by omega) hpossible⟩
  simp only [prepareReadinessScore, hread, h, if_true, hcs]
  rfl

end

end EccFe.Analysis
