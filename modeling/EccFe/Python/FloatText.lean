/-
EccFe.Python.FloatText — `float(text)`.

The text is stripped and its digits are made ASCII, as for `int(text)`. What is left is `inf`,
`infinity` or `nan` in any case, or a decimal number: digits on at least one side of an optional
point, then an optional exponent, with single underscores between digits.
-/
import EccFe.Python.Number

namespace EccFe.Python

/-- What a float text says, before it is rounded to a float. -/
inductive FloatText where
  | finite (q : ℚ)
  | infinite (negative : Bool)
  | nan
  deriving DecidableEq

/-- Digits that may be absent. -/
def optionalDigits (cs : List Char) : Option (List Nat) :=
  if cs = [] then some [] else digitRun 10 cs

/-- The digits before and after the point. -/
def decimalParts (cs : List Char) : Option (List Nat × List Nat) :=
  let whole := cs.takeWhile (· != '.')
  let fraction := (cs.dropWhile (· != '.')).drop 1
  if whole = [] ∧ fraction = [] then none
  else
    match optionalDigits whole, optionalDigits fraction with
    | some ds, some es => some (ds, es)
    | _, _ => none

/-- The exponent after `e`; none is zero. -/
def exponentOf : List Char → Option Int
  | [] => some 0
  | _ :: cs =>
      let (negative, digits) := splitSign cs
      (digitRun 10 digits).map fun ds => signed negative (ofDigits 10 ds)

def isExponentMark (c : Char) : Bool := c == 'e' || c == 'E'

/-- `float(text)`; `none` is the `ValueError`. -/
def floatOfText (text : String) : Option FloatText :=
  let (negative, body) := splitSign ((stripBy isSpace text.toList).map asciiDigit)
  let word := String.ofList (lowerText body)
  if word = "inf" ∨ word = "infinity" then some (.infinite negative)
  else if word = "nan" then some .nan
  else
    match decimalParts (body.takeWhile (!isExponentMark ·)),
      exponentOf (body.dropWhile (!isExponentMark ·)) with
    | some (whole, fraction), some exponent =>
        let magnitude : ℚ := ofDigits 10 (whole ++ fraction) * 10 ^ (exponent - fraction.length)
        some (.finite (if negative then -magnitude else magnitude))
    | _, _ => none

example : floatOfText " 1_0.25e1 " = some (.finite 102.5) := by decide +kernel
example : floatOfText "." = none := by decide +kernel

end EccFe.Python
