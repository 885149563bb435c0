/-
EccFe.Analysis.Arithmetic — true division, the floats it returns, and rounding to a tenth.

A float is the rational it stands for, and an infinity is `none`. `FloatModel.double` is IEEE
binary64 with ties to even: the quotient of two integers is the double nearest to the exact
quotient, an `OverflowError` when there is none, and a product that is too large is an infinity.

Of an arithmetic the scores need little (`FloatModel.Lawful`), and doubles have it
(`double_lawful`): numbers up to a thousand are held within 2⁻⁴⁰, with their sign, and integers and
their halves exactly.
-/
import Mathlib.Data.Rat.Floor
import Mathlib.Algebra.Order.Field.Power
import Mathlib.Algebra.Order.Field.Rat
import Mathlib.Algebra.Group.Nat.Defs
import Mathlib.Tactic.FieldSimp
import Mathlib.Tactic.Linarith
import Mathlib.Tactic.Positivity

namespace EccFe.Analysis

/-! ## 1. Rounding -/

/-- The nearest integer, the even one of two. -/
def roundHalfEven (q : ℚ) : Int :=
  let below := ⌊q⌋
  if q - below < 1 / 2 then below
  else if 1 / 2 < q - below then below + 1
  else if below % 2 = 0 then below else below + 1

/-- The nearest number with one decimal. -/
def toTenth (value : ℚ) : ℚ := roundHalfEven (value * 10) / 10

theorem roundHalfEven_intCast (n : Int) : roundHalfEven n = n := by
  simp [roundHalfEven]

theorem floor_le_roundHalfEven (q : ℚ) : ⌊q⌋ ≤ roundHalfEven q := by
  unfold roundHalfEven
  dsimp only
  split
  · exact le_rfl
  · split
    · omega
    · split <;> omega

/-- An integer on one side of a number stays on that side of its rounding. -/
theorem le_roundHalfEven {n : Int} {q : ℚ} (h : (n : ℚ) ≤ q) : n ≤ roundHalfEven q :=
  le_trans (Int.le_floor.mpr h) (floor_le_roundHalfEven q)

/-- Rounding moves a number by half at most. -/
theorem abs_roundHalfEven_sub_le (q : ℚ) : |(roundHalfEven q : ℚ) - q| ≤ 1 / 2 := by
  have hfloor : (⌊q⌋ : ℚ) ≤ q := Int.floor_le q
  have hlt : q < ⌊q⌋ + 1 := Int.lt_floor_add_one q
  rw [abs_le]
  unfold roundHalfEven
  dsimp only
  split
  · constructor <;> linarith
  · split
    · push_cast
      constructor <;> linarith
    · split
      · constructor <;> linarith
      · push_cast
        constructor <;> linarith

/-- A number nearer to an integer than one half is rounded to it. -/
theorem roundHalfEven_of_near {n : Int} {q : ℚ} (h : |q - n| < 1 / 2) : roundHalfEven q = n := by
  have hround := abs_le.mp (abs_roundHalfEven_sub_le q)
  rw [abs_lt] at h
  have hlow : (n : ℚ) < roundHalfEven q + 1 := by linarith
  have hhigh : (roundHalfEven q : ℚ) < n + 1 := by linarith
  have hlow' : n < roundHalfEven q + 1 := by exact_mod_cast hlow
  have hhigh' : roundHalfEven q < n + 1 := by exact_mod_cast hhigh
  omega

theorem roundHalfEven_le_of_lt {n : Int} {q : ℚ} (h : q < n + 1 / 2) : roundHalfEven q ≤ n := by
  have hround := abs_le.mp (abs_roundHalfEven_sub_le q)
  have hlt : (roundHalfEven q : ℚ) < n + 1 := by linarith
  have hlt' : roundHalfEven q < n + 1 := by exact_mod_cast hlt
  omega

theorem toTenth_nonneg {q : ℚ} (h : 0 ≤ q) : 0 ≤ toTenth q := by
  have hle : (0 : Int) ≤ roundHalfEven (q * 10) := le_roundHalfEven (by push_cast; linarith)
  have hcast : (0 : ℚ) ≤ roundHalfEven (q * 10) := by exact_mod_cast hle
  unfold toTenth
  linarith

/-! ## 2. Floats -/

inductive ArithmeticError where
  | zeroDivision
  | overflow
  deriving DecidableEq

/-- How the result of an operation is held; `none` when it is too large to be finite. -/
structure FloatModel where
  round : ℚ → Option ℚ

namespace FloatModel

/-- The exponent of the last bit of the double nearest to a positive number. -/
def lastBit (q : ℚ) : Int :=
  let guess : Int := Nat.log2 q.num.natAbs - Nat.log2 q.den
  let exponent := if (2 : ℚ) ^ guess ≤ q then guess else guess - 1
  max (exponent - 52) (-1074)

/-- The nearest double to a number that is not negative, however large. -/
def magnitude (q : ℚ) : ℚ :=
  if q = 0 then 0 else roundHalfEven (q / 2 ^ lastBit q) * 2 ^ lastBit q

def double : FloatModel where
  round q :=
    let m := magnitude |q|
    if 2 ^ 1024 ≤ m then none else some (if q < 0 then -m else m)

variable (F : FloatModel)

/-- `a / b` for two integers. -/
def divide (a b : Int) : Except ArithmeticError ℚ :=
  if b = 0 then .error .zeroDivision
  else
    match F.round ((a : ℚ) / b) with
    | some q => .ok q
    | none => .error .overflow

/-- `float(n)` for an integer. -/
def ofInt (n : Int) : Except ArithmeticError ℚ :=
  match F.round n with
  | some q => .ok q
  | none => .error .overflow

/-- `math.isclose(a, b)` with its default tolerances. -/
def isClose (a b : ℚ) : Bool :=
  a == b || match F.round (b - a), F.round (1 / 10 ^ 9) with
    | some diff, some tolerance =>
        let within (x : ℚ) : Bool := (F.round (tolerance * x)).all fun bound => |diff| ≤ |bound|
        within b || within a || diff == 0
    | _, _ => false

theorem isClose_self (a : ℚ) : F.isClose a a = true := by simp [isClose]


/-! ## 3. Small numbers -/

variable {F : FloatModel}

/-- Numbers up to a thousand are held closely, their signs and the integers among them exactly. -/
structure Lawful (F : FloatModel) : Prop where
  near : ∀ q, |q| ≤ 1000 → ∃ x, F.round q = some x ∧ |x - q| ≤ 1 / 2 ^ 40
  nonneg : ∀ q x, 0 ≤ q → F.round q = some x → 0 ≤ x
  halves : ∀ n : Int, 0 ≤ n → n ≤ 2000 → F.round ((n : ℚ) / 2) = some ((n : ℚ) / 2)

/-- The result of an operation on points, none of which is large. -/
def nearest (F : FloatModel) (q : ℚ) : ℚ := (F.round q).getD 0

/-- `sum(values)`, from the left; later interpreters sum more precisely. -/
def sum (F : FloatModel) (values : List ℚ) : ℚ := values.foldl (fun total q => F.nearest (total + q)) 0

/-- `_round_score(value)`: `round(value, 1)`, as an integer when it is one. -/
def roundScore (F : FloatModel) (value : ℚ) : ℚ := F.nearest (toTenth value)

namespace Lawful

variable (h : F.Lawful)

include h

/-- A double is close to the number it stands for. -/
theorem abs_nearest_sub_le {q : ℚ} (hq : |q| ≤ 1000) : |F.nearest q - q| ≤ 1 / 2 ^ 40 := by
  obtain ⟨x, hx, hnear⟩ := h.near q hq
  rwa [nearest, hx, Option.getD_some]

theorem nearest_nonneg {q : ℚ} (hq : 0 ≤ q) : 0 ≤ F.nearest q := by
  rw [nearest]
  cases hx : F.round q with
  | none => exact le_rfl
  | some x => exact h.nonneg q x hq hx

/-- Small halves are doubles. -/
theorem nearest_half {n : Int} (h0 : 0 ≤ n) (h1 : n ≤ 2000) :
    F.nearest ((n : ℚ) / 2) = (n : ℚ) / 2 := by
  rw [nearest, h.halves n h0 h1, Option.getD_some]

/-- Small integers are doubles. -/
theorem nearest_intCast {n : Int} (h0 : 0 ≤ n) (h1 : n ≤ 1000) : F.nearest n = n := by
  have hhalf := h.nearest_half (n := 2 * n) (by omega) (by omega)
  rwa [show ((2 * n : Int) : ℚ) / 2 = n by push_cast; ring] at hhalf

/-- A division that stays within the points succeeds. -/
theorem divide_near {a b : Int} (hb : b ≠ 0) (hq : |(a : ℚ) / b| ≤ 1000) :
    ∃ x, F.divide a b = .ok x ∧ |x - (a : ℚ) / b| ≤ 1 / 2 ^ 40 := by
  obtain ⟨x, hx, hnear⟩ := h.near _ hq
  exact ⟨x, by rw [divide, if_neg hb, hx], hnear⟩

/-- Rounded to a tenth, what exceeds an integer by less than half a tenth does not exceed it. -/
theorem roundScore_le {q : ℚ} {n : Int} (h0 : 0 ≤ q) (hn : n ≤ 100) (hq : q < n + 1 / 20) :
    F.roundScore q ≤ n := by
  have hround : roundHalfEven (q * 10) ≤ 10 * n := by
    refine roundHalfEven_le_of_lt ?_
    push_cast
    linarith
  have hpos : 0 ≤ roundHalfEven (q * 10) := le_roundHalfEven (by push_cast; linarith)
  rw [roundScore, toTenth]
  generalize roundHalfEven (q * 10) = m at hround hpos ⊢
  have hm : (0 : ℚ) ≤ m := by exact_mod_cast hpos
  have hmn : (m : ℚ) ≤ 10 * n := by exact_mod_cast hround
  have hn100 : (n : ℚ) ≤ 100 := by exact_mod_cast hn
  by_cases heq : m = 10 * n
  · rw [heq, show ((10 * n : Int) : ℚ) / 10 = n by push_cast; ring,
      h.nearest_intCast (by omega) (by omega)]
  · have hlt : (m : ℚ) + 1 ≤ 10 * n := by
      have : m + 1 ≤ 10 * n := by omega
      exact_mod_cast this
    have hnear := abs_le.mp (h.abs_nearest_sub_le (q := (m : ℚ) / 10)
      (by rw [abs_of_nonneg (by positivity)]; linarith))
    norm_num at hnear
    linarith [hnear.2]

theorem roundScore_nonneg {q : ℚ} (hq : 0 ≤ q) : 0 ≤ F.roundScore q :=
  h.nearest_nonneg (toTenth_nonneg hq)

end Lawful

/-! ## 4. Doubles -/

/-- The binade of a positive number begins at most at the number. -/
theorem two_zpow_binade_le {q : ℚ} (hq : 0 < q) {guess : Int}
    (hguess : guess = Nat.log2 q.num.natAbs - Nat.log2 q.den) :
    (2 : ℚ) ^ (if (2 : ℚ) ^ guess ≤ q then guess else guess - 1) ≤ q := by
  have hnum : (2 : ℚ) ^ Nat.log2 q.num.natAbs ≤ q.num.natAbs := by
    exact_mod_cast Nat.log2_self_le (Int.natAbs_ne_zero.mpr (Rat.num_pos.mpr hq).ne')
  have hden : (q.den : ℚ) < 2 ^ (Nat.log2 q.den + 1) := by
    exact_mod_cast Nat.lt_log2_self
  have hquotient : (q.num.natAbs : ℚ) / q.den = q := by
    rw [Nat.cast_natAbs, abs_of_pos (Rat.num_pos.mpr hq), Rat.num_div_den]
  split
  · assumption
  · have hpow : (2 : ℚ) ^ (guess - 1) =
        2 ^ Nat.log2 q.num.natAbs / 2 ^ (Nat.log2 q.den + 1) := by
      rw [hguess, ← zpow_natCast, ← zpow_natCast, ← zpow_sub₀ two_ne_zero]
      congr 1
      push_cast
      ring
    rw [hpow]
    refine le_of_le_of_eq ?_ hquotient
    exact div_le_div₀ (by positivity) hnum (by exact_mod_cast q.den_pos) hden.le

theorem two_zpow_max_le (a b : Int) : (2 : ℚ) ^ max a b ≤ 2 ^ a + 2 ^ b := by
  have ha : (0 : ℚ) ≤ 2 ^ a := zpow_nonneg two_pos.le a
  have hb : (0 : ℚ) ≤ 2 ^ b := zpow_nonneg two_pos.le b
  rcases le_total a b with hle | hle
  · rw [max_eq_right hle]
    exact le_add_of_nonneg_left ha
  · rw [max_eq_left hle]
    exact le_add_of_nonneg_right hb

theorem two_zpow_lastBit_le {q : ℚ} (hq : 0 < q) :
    (2 : ℚ) ^ lastBit q ≤ q / 2 ^ 52 + 2 ^ (-1074 : Int) := by
  have hbinade := two_zpow_binade_le hq rfl
  rw [lastBit]
  refine (two_zpow_max_le _ _).trans (add_le_add_left ?_ _)
  rw [zpow_sub₀ two_ne_zero]
  exact div_le_div_of_nonneg_right hbinade (by positivity)

/-- Rounding to 53 bits errs by half of the last bit. -/
theorem abs_magnitude_sub_le {q : ℚ} (hq : 0 ≤ q) :
    |magnitude q - q| ≤ q / 2 ^ 53 + 2 ^ (-1074 : Int) := by
  have htiny : (0 : ℚ) ≤ 2 ^ (-1074 : Int) := zpow_nonneg two_pos.le _
  rcases hq.eq_or_lt with rfl | hpos
  · simp [magnitude]
  · have hbit := two_zpow_lastBit_le hpos
    rw [magnitude, if_neg hpos.ne']
    generalize lastBit q = bit at hbit ⊢
    have hscale : (0 : ℚ) < 2 ^ bit := zpow_pos two_pos bit
    have hround := abs_roundHalfEven_sub_le (q / 2 ^ bit)
    have hsplit : (roundHalfEven (q / 2 ^ bit) : ℚ) * 2 ^ bit - q =
        ((roundHalfEven (q / 2 ^ bit) : ℚ) - q / 2 ^ bit) * 2 ^ bit := by
      rw [sub_mul, div_mul_cancel₀ _ hscale.ne']
    rw [hsplit, abs_mul, abs_of_pos hscale]
    calc |(roundHalfEven (q / 2 ^ bit) : ℚ) - q / 2 ^ bit| * 2 ^ bit
        ≤ 1 / 2 * 2 ^ bit := mul_le_mul_of_nonneg_right hround hscale.le
      _ ≤ 1 / 2 * (q / 2 ^ 52 + 2 ^ (-1074 : Int)) := by linarith
      _ ≤ q / 2 ^ 53 + 2 ^ (-1074 : Int) := by
        generalize (2 : ℚ) ^ (-1074 : Int) = tiny at htiny ⊢
        norm_num
        linarith

theorem magnitude_nonneg {q : ℚ} (hq : 0 ≤ q) : 0 ≤ magnitude q := by
  unfold magnitude
  split
  · exact le_rfl
  · have hscale : (0 : ℚ) < 2 ^ lastBit q := zpow_pos two_pos _
    have hround : 0 ≤ roundHalfEven (q / 2 ^ lastBit q) :=
      le_roundHalfEven (by push_cast; positivity)
    exact mul_nonneg (by exact_mod_cast hround) hscale.le

/-- A number that is an integer in units of its last bit is held exactly. -/
theorem magnitude_of_bits {q : ℚ} {n : Int} (h : q = n * 2 ^ lastBit q) : magnitude q = q := by
  unfold magnitude
  split
  · rename_i hzero
    exact hzero.symm
  · have hscale : (2 : ℚ) ^ lastBit q ≠ 0 := zpow_ne_zero _ two_ne_zero
    have hbits : q / 2 ^ lastBit q = n := by
      rw [div_eq_iff hscale]
      exact h
    rw [hbits, roundHalfEven_intCast]
    exact h.symm

theorem magnitude_near {q : ℚ} (hq : 0 ≤ q) (hle : q ≤ 1000) :
    |magnitude q - q| ≤ 1 / 2 ^ 40 ∧ magnitude q < 2 ^ 1024 := by
  have htiny : (2 : ℚ) ^ (-1074 : Int) ≤ 2 ^ (-50 : Int) :=
    zpow_le_zpow_right₀ one_le_two (by decide)
  have herror := abs_magnitude_sub_le hq
  have hsmall : |magnitude q - q| ≤ 1 / 2 ^ 40 := by
    refine herror.trans ?_
    refine (add_le_add_right htiny _).trans ?_
    norm_num
    linarith
  refine ⟨hsmall, ?_⟩
  have hthousand : magnitude q < 2 ^ 10 := by
    have := (abs_le.mp hsmall).2
    norm_num at this ⊢
    linarith
  exact hthousand.trans_le (pow_le_pow_right₀ one_le_two (by decide))

/-- A half of an integer up to two thousand has few bits. -/
theorem magnitude_half {n : Int} (h0 : 0 < n) (h1 : n ≤ 2000) :
    magnitude ((n : ℚ) / 2) = (n : ℚ) / 2 := by
  have hpos : (0 : ℚ) < (n : ℚ) / 2 := by
    have : (0 : ℚ) < n := by exact_mod_cast h0
    positivity
  have hbit : lastBit ((n : ℚ) / 2) ≤ -1 := by
    have hbinade := two_zpow_binade_le hpos rfl
    have hlt : (n : ℚ) / 2 < 2 ^ (10 : Int) := by
      have : (n : ℚ) ≤ 2000 := by exact_mod_cast h1
      norm_num
      linarith
    have hexponent := (zpow_lt_zpow_iff_right₀ (one_lt_two : (1 : ℚ) < 2)).mp (hbinade.trans_lt hlt)
    rw [lastBit]
    omega
  obtain ⟨k, hk⟩ : ∃ k : Nat, lastBit ((n : ℚ) / 2) = -1 - k :=
    ⟨(-1 - lastBit ((n : ℚ) / 2)).toNat, by omega⟩
  refine magnitude_of_bits (n := n * 2 ^ k) ?_
  rw [hk, zpow_sub₀ two_ne_zero, zpow_natCast]
  push_cast
  field_simp

/-- Doubles are a lawful arithmetic. -/
theorem double_lawful : double.Lawful where
  near q hq := by
    obtain ⟨hnear, hfinite⟩ := magnitude_near (abs_nonneg q) hq
    refine ⟨_, if_neg (not_le.mpr hfinite), ?_⟩
    split
    · rename_i hneg
      rw [abs_of_neg hneg] at hnear ⊢
      rwa [← abs_neg, neg_sub', neg_neg]
    · rename_i hneg
      rw [abs_of_nonneg (not_lt.mp hneg)] at hnear ⊢
      exact hnear
  nonneg q x hq hx := by
    simp only [double] at hx
    split at hx
    · cases hx
    · rw [if_neg (not_lt.mpr hq), Option.some.injEq] at hx
      exact hx ▸ magnitude_nonneg (abs_nonneg q)
  halves n h0 h1 := by
    have hhalf : (0 : ℚ) ≤ (n : ℚ) / 2 := by
      have : (0 : ℚ) ≤ n := by exact_mod_cast h0
      positivity
    have hle : (n : ℚ) / 2 ≤ 1000 := by
      have : (n : ℚ) ≤ 2000 := by exact_mod_cast h1
      linarith
    have hexact : magnitude ((n : ℚ) / 2) = (n : ℚ) / 2 := by
      rcases h0.eq_or_lt with rfl | hpos
      · simp [magnitude]
      · exact magnitude_half hpos h1
    simp only [double, abs_of_nonneg hhalf]
    rw [if_neg (not_le.mpr (magnitude_near hhalf hle).2), if_neg (not_lt.mpr hhalf), hexact]

end FloatModel

end EccFe.Analysis
