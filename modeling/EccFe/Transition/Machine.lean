/-
EccFe.Transition.Machine — synchronous machines.

`next` gives the registers after a clock edge and `out` what is seen in the cycle
before it. `trace_induct` carries an invariant of the past cycles and the registers
through a run; `trace_of_simulates` moves the trace of one machine to another.
-/

namespace EccFe.Transition

structure Machine (σ ι ω : Type) where
  next : ι → σ → σ
  out : ι → σ → ω

namespace Machine

variable {σ τ ι κ ω : Type}

/-- The registers after a sequence of inputs. -/
def run (m : Machine σ ι ω) (s : σ) : List ι → σ
  | [] => s
  | i :: inputs => m.run (m.next i s) inputs

/-- What is seen in each cycle. -/
def trace (m : Machine σ ι ω) (s : σ) : List ι → List ω
  | [] => []
  | i :: inputs => m.out i s :: m.trace (m.next i s) inputs

/-- An invariant of the cycles seen so far and the registers. -/
theorem trace_induct (m : Machine σ ι ω) {Inv : List ω → σ → Prop}
    (hkeeps : ∀ past s i, Inv past s → Inv (past ++ [m.out i s]) (m.next i s)) {s : σ}
    (hstart : Inv [] s) (inputs : List ι) : Inv (m.trace s inputs) (m.run s inputs) := by
  have hfrom : ∀ (inputs : List ι) (past : List ω) (s : σ), Inv past s →
      Inv (past ++ m.trace s inputs) (m.run s inputs) := by
    intro inputs
    induction inputs with
    | nil => simp [trace, run]
    | cons i inputs ih =>
      intro past s h
      have hnext := ih _ _ (hkeeps past s i h)
      rwa [List.append_assoc, List.singleton_append] at hnext
  exact hfrom inputs [] s hstart

/-- Machine `m` goes through the states of `m'` along `rel`; `input` says what `m'` is given. -/
structure Simulates (m : Machine σ ι ω) (m' : Machine τ κ ω) (rel : σ → τ → Prop)
    (input : σ → ι → κ) : Prop where
  out : ∀ s t i, rel s t → m.out i s = m'.out (input s i) t
  next : ∀ s t i, rel s t → rel (m.next i s) (m'.next (input s i) t)

/-- The inputs `m'` is given along a run of `m`. -/
def inputs (m : Machine σ ι ω) (input : σ → ι → κ) (s : σ) : List ι → List κ
  | [] => []
  | i :: rest => input s i :: m.inputs input (m.next i s) rest

theorem trace_of_simulates {m : Machine σ ι ω} {m' : Machine τ κ ω} {rel : σ → τ → Prop}
    {input : σ → ι → κ} (h : m.Simulates m' rel input) {s : σ} {t : τ} (hst : rel s t)
    (is : List ι) : m.trace s is = m'.trace t (m.inputs input s is) ∧
      rel (m.run s is) (m'.run t (m.inputs input s is)) := by
  induction is generalizing s t with
  | nil => exact ⟨rfl, hst⟩
  | cons i is ih =>
    have hrest := ih (h.next s t i hst)
    exact ⟨by rw [trace, h.out s t i hst, hrest.1]; rfl, hrest.2⟩

end Machine

end EccFe.Transition
