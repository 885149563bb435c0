/-
EccFe.Python.Unicode — Python's `str` as code points, and UTF-8.

A Lean `String` holds no surrogates and a Python `str` may: an escape such as
`\ud800` in a JSON text gives one. `decodeUtf8` is `bytes.decode("utf-8")` and never
gives a surrogate, `encodeUtf8` is `str.encode("utf-8")` and refuses one.
-/
import Mathlib.Data.List.Basic
import Mathlib.Tactic.Common

namespace EccFe.Python

/-- A character of a `str`. -/
abbrev CodePoint := Fin 0x110000

abbrev PyStr := List CodePoint

theorem toNat_lt_codePoints (c : Char) : c.toNat < 0x110000 := by
  have hvalid := c.valid
  simp only [UInt32.isValidChar, Nat.isValidChar] at hvalid
  show c.val.toNat < 0x110000
  omega

def codePointOf (c : Char) : CodePoint := ⟨c.toNat, toNat_lt_codePoints c⟩

def pyStrOf (cs : List Char) : PyStr := cs.map codePointOf

/-- A literal of the source. -/
def pyStr (s : String) : PyStr := pyStrOf s.toList

def isSurrogate (c : CodePoint) : Bool := 0xD800 ≤ c.val && c.val ≤ 0xDFFF

/-- The character of a code point that is one. -/
def scalar? (c : CodePoint) : Option Char :=
  if isSurrogate c then none else some (Char.ofNat c.val)

/-- `text.encode("utf-8")`; `none` when it raises. -/
def encodeUtf8 (text : PyStr) : Option (List UInt8) :=
  (text.mapM scalar?).map fun cs => cs.flatMap String.utf8EncodeChar

/-- `payload.decode("utf-8")`; `none` when it raises. -/
def decodeUtf8 (payload : List UInt8) : Option (List Char) :=
  payload.toByteArray.utf8Decode?.map (·.toList)

/-! ## 1. Surrogates -/

theorem isSurrogate_codePointOf (c : Char) : isSurrogate (codePointOf c) = false := by
  have hvalid := c.valid
  simp only [UInt32.isValidChar, Nat.isValidChar] at hvalid
  rw [Bool.eq_false_iff]
  intro h
  simp only [isSurrogate, codePointOf, Bool.and_eq_true] at h
  have hlow : 0xD800 ≤ c.val.toNat := of_decide_eq_true h.1
  have hhigh : c.val.toNat ≤ 0xDFFF := of_decide_eq_true h.2
  omega

theorem any_isSurrogate_pyStrOf (cs : List Char) : (pyStrOf cs).any isSurrogate = false := by
  rw [List.any_eq_false]
  intro c hc
  obtain ⟨d, -, rfl⟩ := List.mem_map.mp hc
  simp [isSurrogate_codePointOf]

theorem mapM_scalar? : ∀ text : PyStr,
    (text.mapM scalar?).isSome = !text.any isSurrogate
  | [] => rfl
  | c :: rest => by
      rw [List.mapM_cons, List.any_cons]
      cases hc : isSurrogate c with
      | true => simp [scalar?, hc]
      | false =>
        have ih := mapM_scalar? rest
        cases hrest : rest.mapM scalar? with
        | none =>
          rw [hrest] at ih
          simpa [scalar?, hc] using ih
        | some cs =>
          rw [hrest] at ih
          simpa [scalar?, hc] using ih

/-- A text can be written exactly when it has no surrogate. -/
theorem encodeUtf8_isSome (text : PyStr) :
    (encodeUtf8 text).isSome = !text.any isSurrogate := by
  rw [encodeUtf8, Option.isSome_map, mapM_scalar?]

end EccFe.Python
