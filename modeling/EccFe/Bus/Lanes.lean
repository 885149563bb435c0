/-
EccFe.Bus.Lanes — the bytes a single-beat transfer carries on a 32-bit data bus.

Lane `i` is bits `8 * i` to `8 * i + 7`; it carries byte `i` of the word around the address. A
transfer with address `addr` and size `size` is about the `2 ^ size` bytes from `addr` on: a write
may strobe no other lane, and a read is entitled to no other byte.

An access of `n` bytes at a multiple of `n` can be issued at the address of its word. That names
its bytes only where the access starts the word (`writeCovers_word_iff`, `readCovers_word_iff`).
-/
import Mathlib.Algebra.Group.Nat.Defs
import Mathlib.Data.Nat.Basic
import Mathlib.Tactic.Common

namespace EccFe.Bus

/-! ## 1. Lanes -/

def byteOf (data : BitVec 32) (lane : Nat) : BitVec 8 := data.extractLsb' (8 * lane) 8

def laneByte (addr : Nat) (lane : Nat) : Nat := addr / 4 * 4 + lane

/-- The strobes of `n` bytes from lane `low` on. -/
def laneMask (n low : Nat) : BitVec 4 := BitVec.ofNat 4 ((2 ^ n - 1) * 2 ^ low)

/-- `b` is one of the `n` bytes from `first` on. -/
def Within (first n b : Nat) : Prop := first ≤ b ∧ b < first + n

/-- What the core asks for: `n` bytes from an address on, and for a store their values. -/
structure ByteAccess where
  first : Nat
  n : Nat
  value : Nat → BitVec 8

/-- A byte, a half-word or a word, naturally aligned. -/
structure ByteAccess.Aligned (a : ByteAccess) : Prop where
  width : a.n = 1 ∨ a.n = 2 ∨ a.n = 4
  aligned : a.first % a.n = 0

/-- A write transfer stores the bytes of the access and keeps to its own bytes. -/
structure WriteCovers (a : ByteAccess) (addr size : Nat) (strb : BitVec 4) (data : BitVec 32) :
    Prop where
  entitled : ∀ lane < 4, strb.getLsbD lane = true → Within addr (2 ^ size) (laneByte addr lane)
  bytes : ∀ b, (∃ lane < 4, strb.getLsbD lane = true ∧ laneByte addr lane = b) ↔ Within a.first a.n b
  values : ∀ lane < 4, strb.getLsbD lane = true →
    byteOf data lane = a.value (laneByte addr lane - a.first)

/-- A read transfer returns the bytes of the access. -/
def ReadCovers (a : ByteAccess) (addr size : Nat) : Prop :=
  ∀ b, Within a.first a.n b → Within addr (2 ^ size) b

/-! ## 2. Strobes -/

theorem getLsbD_laneMask {n low lane : Nat} (hn : n = 1 ∨ n = 2 ∨ n = 4) (hlow : low < 4)
    (hlane : lane < 4) :
    (laneMask n low).getLsbD lane = true ↔ low ≤ lane ∧ lane < low + n := by
  have hcheck : ∀ n ∈ [1, 2, 4], ∀ low < 4, ∀ lane < 4,
      ((laneMask n low).getLsbD lane = true ↔ low ≤ lane ∧ lane < low + n) := by decide
  exact hcheck n (by rcases hn with rfl | rfl | rfl <;> simp) low hlow lane hlane

section

variable {a : ByteAccess}

/-- An aligned access does not leave its word. -/
theorem ByteAccess.Aligned.fits (h : a.Aligned) : a.first % 4 + a.n ≤ 4 := by
  obtain ⟨hwidth, haligned⟩ := h
  rcases hwidth with hn | hn | hn <;> rw [hn] at haligned ⊢ <;> omega

/-! ## 3. Accesses issued at their word -/

variable {size : Nat} {data : BitVec 32}

/-- A read issued at the word, with the size of the access. -/
theorem readCovers_word_iff (h : a.Aligned) (hsize : 2 ^ size = a.n) :
    ReadCovers a (a.first / 4 * 4) size ↔ a.first % 4 = 0 := by
  have hpos : 0 < a.n := by rcases h.width with hn | hn | hn <;> omega
  unfold ReadCovers Within
  rw [hsize]
  constructor
  · intro hcovers
    have hlast := hcovers (a.first + a.n - 1) (by omega)
    omega
  · intro hzero b hb
    omega

/-- A write issued at the word, with the size, strobes and lanes of the access. -/
theorem writeCovers_word_iff (h : a.Aligned) (hsize : 2 ^ size = a.n)
    (hdata : ∀ k < a.n, byteOf data (a.first % 4 + k) = a.value k) :
    WriteCovers a (a.first / 4 * 4) size (laneMask a.n (a.first % 4)) data ↔ a.first % 4 = 0 := by
  have hfits := h.fits
  have hlow : a.first % 4 < 4 := Nat.mod_lt _ (by decide)
  have hpos : 0 < a.n := by rcases h.width with hn | hn | hn <;> omega
  have hlane : ∀ lane, laneByte (a.first / 4 * 4) lane = a.first / 4 * 4 + lane := by
    intro lane
    rw [laneByte, Nat.mul_div_cancel _ (by decide)]
  constructor
  · intro hcovers
    have hlast := hcovers.entitled (a.first % 4 + a.n - 1) (by omega)
      ((getLsbD_laneMask h.width hlow (by omega)).mpr (by omega))
    rw [hlane, hsize, Within] at hlast
    omega
  · intro hzero
    refine ⟨fun lane hlt hstrobe => ?_, fun b => ⟨?_, fun hb => ?_⟩, fun lane hlt hstrobe => ?_⟩
    · have hmask := (getLsbD_laneMask h.width hlow hlt).mp hstrobe
      rw [hlane, hsize, Within]
      omega
    · rintro ⟨lane, hlt, hstrobe, rfl⟩
      have hmask := (getLsbD_laneMask h.width hlow hlt).mp hstrobe
      rw [hlane, Within]
      omega
    · rw [Within] at hb
      refine ⟨b - a.first / 4 * 4, by omega, (getLsbD_laneMask h.width hlow (by omega)).mpr (by omega),
        ?_⟩
      rw [hlane]
      omega
    · have hmask := (getLsbD_laneMask h.width hlow hlt).mp hstrobe
      have hindex : laneByte (a.first / 4 * 4) lane - a.first = lane - a.first % 4 := by
        rw [hlane]
        omega
      rw [hindex, ← hdata (lane - a.first % 4) (by omega)]
      congr 1
      omega

end

end EccFe.Bus
