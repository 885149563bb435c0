/-
EccFe.Python.Equality — Python's `==` on the values `json.load` returns.

`True == 1 == 1.0` holds although the three are different values, a dict is compared without
regard to the order of its items, and `NaN` equals nothing. Two floats are compared by the numbers
they stand for, so `0.0 == -0.0`.
-/
import EccFe.Python.Json

namespace EccFe.Python

namespace Json

/-- The number a value stands for in a comparison. -/
def rat? : Json → Option ℚ
  | bool b => some (if b then 1 else 0)
  | int n => some n
  | float x => x.toRat?
  | _ => none

/-- Both are finite numbers and stand for the same one. -/
def sameNumber (a b : Json) : Bool :=
  match a.rat?, b.rat? with
  | some p, some q => p = q
  | _, _ => false

mutual

/-- `a == b`. -/
def eqPy : Json → Json → Bool
  | null, null => true
  | str s, str t => s == t
  | arr xs, arr ys => eqItems xs ys
  | obj f, obj g => f.length == g.length && eqFields f g
  | float x, float y => (x.text == y.text && x.text != "NaN") || sameNumber (float x) (float y)
  | a, b => sameNumber a b

def eqItems : List Json → List Json → Bool
  | [], [] => true
  | a :: as, b :: bs => eqPy a b && eqItems as bs
  | _, _ => false

def eqFields : List (String × Json) → List (String × Json) → Bool
  | [], _ => true
  | (key, a) :: rest, g =>
      (match Dict.get g key with
      | some b => eqPy a b
      | none => false) && eqFields rest g

end

theorem eqPy_str_self (s : String) : eqPy (str s) (str s) = true := by
  rw [eqPy, beq_self_eq_true]

theorem eqPy_int_self (n : Int) : eqPy (int n) (int n) = true := by
  simp [eqPy, sameNumber, rat?]

theorem eqPy_bool_self (b : Bool) : eqPy (bool b) (bool b) = true := by
  simp [eqPy, sameNumber, rat?]

theorem eqPy_float_self {x : PyFloat} (h : x.toRat?.isSome = true) : eqPy (float x) (float x) = true := by
  obtain ⟨q, hq⟩ := Option.isSome_iff_exists.mp h
  simp [eqPy, sameNumber, rat?, hq]

theorem eqItems_self : ∀ {items : List Json}, (∀ v ∈ items, eqPy v v = true) → eqItems items items = true
  | [], _ => rfl
  | v :: rest, h => by
      rw [eqItems, h v List.mem_cons_self, eqItems_self fun w hw => h w (List.mem_cons_of_mem _ hw)]
      rfl

example : eqPy (bool true) (int 1) = true := by decide
example : eqPy (str "1") (int 1) = false := by decide

end Json

end EccFe.Python
