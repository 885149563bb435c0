/-
EccFe.Search.Recursion — programs that call themselves.

A program is its body: what it makes of a call when `self` answers the calls it makes in turn.
`run` allows `fuel` calls inside one another and has no answer when they are used up. A program
whose calls only make calls of a lower rank has one answer to each call, whatever the fuel above
the rank of the call (`run_total`), and it agrees with a program that is defined for every fuel
(`run_eq`).
-/
import Mathlib.Logic.Basic
import Mathlib.Logic.Nonempty

namespace EccFe.Search

variable {γ ρ : Type}

/-- A program through `fuel` levels of calls. -/
def run (body : (γ → Option ρ) → γ → Option ρ) : Nat → γ → Option ρ
  | 0, _ => none
  | fuel + 1, c => body (run body fuel) c

/-- `hcalls`: calls go down. `hbody`: when its calls are answered, the body answers, and the answer
depends on nothing else. -/
theorem run_total [Nonempty ρ] {body : (γ → Option ρ) → γ → Option ρ} {Inv : γ → Prop}
    {Calls : γ → γ → Prop} {rank : γ → Nat}
    (hcalls : ∀ c c', Inv c → Calls c c' → Inv c' ∧ rank c' < rank c)
    (hbody : ∀ (answer : γ → ρ) (c : γ), ∃ r, ∀ self : γ → Option ρ,
      (∀ c', Calls c c' → self c' = some (answer c')) → body self c = some r)
    {c : γ} (h : Inv c) : ∃ r, ∀ fuel, rank c < fuel → run body fuel c = some r := by
  induction hrank : rank c using Nat.strongRecOn generalizing c with
  | ind n ih =>
    have hlower : ∀ c', Calls c c' → ∃ r, ∀ fuel, rank c' < fuel → run body fuel c' = some r := by
      intro c' hcall
      obtain ⟨hinv, hlt⟩ := hcalls c c' h hcall
      exact ih (rank c') (hrank ▸ hlt) hinv rfl
    let answer : γ → ρ := fun c' =>
      Classical.epsilon fun r => ∀ fuel, rank c' < fuel → run body fuel c' = some r
    obtain ⟨r, hr⟩ := hbody answer c
    refine ⟨r, fun fuel hfuel => ?_⟩
    cases fuel with
    | zero => exact absurd hfuel (Nat.not_lt_zero n)
    | succ fuel =>
      refine hr (run body fuel) fun c' hcall => ?_
      obtain ⟨-, hlt⟩ := hcalls c c' h hcall
      exact Classical.epsilon_spec (hlower c' hcall) fuel (by omega)

/-- A program without failure that makes the same of its calls gives the same answers. -/
theorem run_eq {body : (γ → Option ρ) → γ → Option ρ} {loop : (γ → ρ) → γ → ρ}
    {total : Nat → γ → ρ} {Inv : γ → Prop} {Calls : γ → γ → Prop} {rank : γ → Nat}
    (hcalls : ∀ c c', Inv c → Calls c c' → Inv c' ∧ rank c' < rank c)
    (hbody : ∀ (answer : γ → ρ) (c : γ) (self : γ → Option ρ),
      (∀ c', Calls c c' → self c' = some (answer c')) → body self c = some (loop answer c))
    (htotal : ∀ fuel c, total (fuel + 1) c = loop (total fuel) c) {fuel : Nat} {c : γ} (h : Inv c)
    (hfuel : rank c < fuel) : run body fuel c = some (total fuel c) := by
  induction fuel generalizing c with
  | zero => exact absurd hfuel (Nat.not_lt_zero _)
  | succ fuel ih =>
    rw [run, htotal]
    refine hbody (total fuel) c (run body fuel) fun c' hcall => ?_
    obtain ⟨hinv, hlt⟩ := hcalls c c' h hcall
    exact ih hinv (by omega)

end EccFe.Search
