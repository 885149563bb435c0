/-
EccFe.Bus.Bytes — little-endian words over a store of bytes.

`leRead` assembles consecutive bytes into a word, and `writeLanes` stores the selected bytes of a
word. The lemmas say which byte of which word is where: `byteAt_leRead` reads one byte back, and
`writeLanes_apply` is the store after a write.
-/
import Mathlib.Algebra.Group.Nat.Defs
import Mathlib.Logic.Function.Basic
import Mathlib.Data.List.Range
import Mathlib.Tactic.Common

namespace EccFe.Bus

abbrev Byte := BitVec 8

/-- Byte `lane` of a word, the lowest one first. -/
def byteAt {w : Nat} (word : BitVec w) (lane : Nat) : Byte := (word >>> (8 * lane)).setWidth 8

/-- The word whose byte `i` is `byte i`, for the first `n` bytes. -/
def leRead (w : Nat) (byte : Nat → Byte) (n : Nat) : BitVec w :=
  (List.range n).foldl (fun value i => value ||| ((byte i).setWidth w <<< (8 * i))) 0

/-- The store after the lanes of a word that `mask` selects are written from `first` on. -/
def writeLanes {w : Nat} (store : Nat → Byte) (first : Nat) (mask : Nat → Bool) (word : BitVec w)
    (n : Nat) : Nat → Byte :=
  (List.range n).foldl
    (fun store lane => if mask lane then Function.update store (first + lane) (byteAt word lane)
      else store) store

theorem leRead_succ (w : Nat) (byte : Nat → Byte) (n : Nat) :
    leRead w byte (n + 1) = leRead w byte n ||| ((byte n).setWidth w <<< (8 * n)) := by
  simp [leRead, List.range_succ]

theorem getLsbD_leRead (w : Nat) (byte : Nat → Byte) (n bit : Nat) :
    (leRead w byte n).getLsbD bit =
      (decide (bit < w) && decide (bit / 8 < n) && (byte (bit / 8)).getLsbD (bit % 8)) := by
  induction n with
  | zero => simp [leRead]
  | succ n ih =>
    rw [leRead_succ, BitVec.getLsbD_or, ih, BitVec.getLsbD_shiftLeft, BitVec.getLsbD_setWidth]
    by_cases hbit : bit < w
    · rcases Nat.lt_trichotomy (bit / 8) n with hlt | heq | hgt
      · have hlow : bit < 8 * n := by omega
        simp [hbit, hlt, hlow, Nat.lt_succ_of_lt hlt]
      · have hmod : bit - 8 * n = bit % 8 := by omega
        have hlow : ¬ bit < 8 * n := by omega
        have hin : bit % 8 < w := by omega
        simp [hbit, heq, hmod, hlow, hin]
      · have hhigh : 8 ≤ bit - 8 * n := by omega
        have hmore : ¬ bit / 8 < n + 1 := by omega
        simp [hmore, Nat.not_lt.2 (Nat.le_of_lt hgt), BitVec.getLsbD_of_ge _ _ hhigh]
    · simp [hbit]

/-- A byte of the assembled word. -/
theorem byteAt_leRead {w n lane : Nat} (byte : Nat → Byte) (hlane : lane < n) (hfits : 8 * n ≤ w) :
    byteAt (leRead w byte n) lane = byte lane := by
  ext bit hbit
  have hdiv : (8 * lane + bit) / 8 = lane := by omega
  have hmod : (8 * lane + bit) % 8 = bit := by omega
  have hin : 8 * lane + bit < w := by omega
  rw [← BitVec.getLsbD_eq_getElem, byteAt, BitVec.getLsbD_setWidth, BitVec.getLsbD_ushiftRight,
    getLsbD_leRead, hdiv, hmod]
  simp [hbit, hin, hlane]

theorem writeLanes_succ {w : Nat} (store : Nat → Byte) (first : Nat) (mask : Nat → Bool)
    (word : BitVec w) (n : Nat) : writeLanes store first mask word (n + 1) =
      if mask n then
        Function.update (writeLanes store first mask word n) (first + n) (byteAt word n)
      else writeLanes store first mask word n := by
  simp [writeLanes, List.range_succ]

/-- The store after a write: the selected lanes hold the bytes of the word. -/
theorem writeLanes_apply {w : Nat} (store : Nat → Byte) (first : Nat) (mask : Nat → Bool)
    (word : BitVec w) (n i : Nat) : writeLanes store first mask word n i =
      if first ≤ i ∧ i < first + n ∧ mask (i - first) = true then byteAt word (i - first)
      else store i := by
  induction n with
  | zero =>
    rw [if_neg (by omega)]
    rfl
  | succ n ih =>
    rw [writeLanes_succ]
    by_cases hi : i = first + n
    · subst hi
      by_cases hmask : mask n = true
      · simp [hmask]
      · simp [hmask, ih]
    · have hrange : first ≤ i ∧ i < first + (n + 1) ∧ mask (i - first) = true ↔
          first ≤ i ∧ i < first + n ∧ mask (i - first) = true := by
        constructor
        · intro h
          exact ⟨h.1, by omega, h.2.2⟩
        · intro h
          exact ⟨h.1, by omega, h.2.2⟩
      rw [if_congr hrange rfl rfl, ← ih]
      split
      · rw [Function.update_of_ne hi]
      · rfl

end EccFe.Bus
