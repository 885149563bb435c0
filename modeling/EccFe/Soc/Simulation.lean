/-
EccFe.Soc.Simulation — how a simulation ends, `main` of
`fecompiler/thirdparty/SoC/driver/main.cpp`.

What the design does in a cycle is a parameter (`Tick`): the `difftest_step` calls it makes, whether
it calls `$fatal` on their results, which ends the process, whether it calls `$finish`, and its
trap outputs. `main` does not look at the results: a design that ignores them can differ from the
reference and end with 0. Only for a design that stops on a result other than 0
(`StopsOnRejection`, what the adapter in `examples/ysyx_00000000/rtl` does) has a run that passes
accepted every call. Option parsing, the waveform and the 20 cycles under reset, in which no call
is made, are left out.
-/
import EccFe.Soc.Difftest

namespace EccFe.Soc

open Difftest

/-- What is seen of the design in one cycle. -/
structure Tick where
  calls : List (List Slot)
  /-- Whether the design calls `$fatal`, seeing these results of its calls. -/
  fatal : List Nat → Bool
  /-- `contextp->gotFinish()` after the cycle. -/
  finish : Bool
  /-- `trap_code` when `trap_valid` is set. -/
  trap : Option (BitVec 32)

/-- The arguments `main` uses after it has parsed them. -/
structure SimArgs where
  maxCycles : Nat
  diff : Bool
  timeoutOk : Bool

/-- What the loop leaves: the cycles, the trap, the difftest globals. -/
structure LoopResult (R : Type) where
  cycles : Nat
  trap : Option (BitVec 32)
  st : State R

inductive Outcome (R : Type) where
  | fatal
  | exit (code : Nat) (st : State R)

variable {R : Type} (ref : Ref R) (ticks : Nat → Tick)

/-- The calls of a cycle, made one after another: their results and the globals they leave. -/
def stepCalls (st : State R) : List (List Slot) → List Nat × State R
  | [] => ([], st)
  | slots :: calls =>
      let (code, st) := difftestStep ref st slots
      let (codes, st) := stepCalls st calls
      (code :: codes, st)

/-- `while (!contextp->gotFinish() && cycles < args.max_cycles)`, with `remaining` cycles to go;
`none` after `$fatal`. -/
def simLoop (remaining cycles : Nat) (gotFinish : Bool) (st : State R) : Option (LoopResult R) :=
  match remaining with
  | 0 => some ⟨cycles, none, st⟩
  | remaining + 1 =>
      if gotFinish then some ⟨cycles, none, st⟩
      else
        let (codes, st) := stepCalls ref st (ticks cycles).calls
        if (ticks cycles).fatal codes then none
        else
          match (ticks cycles).trap with
          | some code => some ⟨cycles + 1, some code, st⟩
          | none => simLoop remaining (cycles + 1) (ticks cycles).finish st

/-- The exit code that `main` returns after the loop. -/
def exitCode (args : SimArgs) (result : LoopResult R) : Nat :=
  match result.trap with
  | some code =>
      if code = 0#32 then
        if args.diff && !difftestCheckComplete result.st then 1 else 0
      else 1
  | none =>
      if result.cycles ≥ args.maxCycles then if args.timeoutOk then 0 else 1
      else if args.diff && !difftestCheckComplete result.st then 1 else 0

/-- `main`, from the difftest globals that it has configured. -/
def simMain (args : SimArgs) (st : State R) : Outcome R :=
  match simLoop ref ticks args.maxCycles 0 false st with
  | none => .fatal
  | some result => .exit (exitCode args result) result.st

/-- The calls of the first `n` cycles. -/
def callsUpTo (n : Nat) : List (List Slot) := (List.range n).flatMap fun k => (ticks k).calls

/-- The design calls `$fatal` when a call has not returned 0. -/
def StopsOnRejection : Prop := ∀ k codes, (∃ code ∈ codes, code ≠ 0) → (ticks k).fatal codes = true

/-- The design goes on after cycle `k`. -/
def GoesOnAfter (k : Nat) : Prop := (ticks k).trap = none ∧ (ticks k).finish = false

/-- Why a simulation of `n` cycles ends. -/
inductive Ends (args : SimArgs) (n : Nat) : Option (BitVec 32) → Prop
  | timeout (h : n = args.maxCycles) : Ends args n none
  | finish (k : Nat) (h : n = k + 1) (hfinish : (ticks k).finish = true) : Ends args n none
  | trap (k : Nat) (code : BitVec 32) (h : n = k + 1) (htrap : (ticks k).trap = some code) :
      Ends args n (some code)

variable {ref ticks}

theorem accepts_append (calls more : List (List Slot)) {st st' st'' : State R}
    (h : accepts ref st calls = some st') (h' : accepts ref st' more = some st'') :
    accepts ref st (calls ++ more) = some st'' := by
  induction calls generalizing st with
  | nil =>
    cases h
    exact h'
  | cons slots calls ih =>
    rw [accepts] at h
    split at h
    · rename_i st₁ hstep
      rw [List.cons_append, accepts_of_accepted _ hstep]
      exact ih h
    · cases h

/-- Calls that all return 0 are accepted. -/
theorem accepts_of_stepCalls (calls : List (List Slot)) {st : State R}
    (h : ∀ code ∈ (stepCalls ref st calls).1, code = 0) :
    accepts ref st calls = some (stepCalls ref st calls).2 := by
  induction calls generalizing st with
  | nil => rfl
  | cons slots calls ih =>
    have hstep : difftestStep ref st slots = (0, (difftestStep ref st slots).2) :=
      Prod.ext (h _ List.mem_cons_self) rfl
    rw [accepts_of_accepted calls hstep]
    exact ih fun code hcode => h code (List.mem_cons_of_mem _ hcode)

theorem callsUpTo_succ (n : Nat) : callsUpTo ticks (n + 1) = callsUpTo ticks n ++ (ticks n).calls := by
  simp [callsUpTo, List.range_succ]

/-- The loop from cycle `cycles` on, with a design that stops on a rejected call: every call was
accepted, the design went on before the last cycle, and there is a reason to stop. -/
theorem simLoop_ends (hstops : StopsOnRejection ticks) (args : SimArgs) (remaining cycles : Nat) {st st₀ : State R} {gotFinish : Bool}
    {result : LoopResult R} (hloop : simLoop ref ticks remaining cycles gotFinish st = some result)
    (hpast : accepts ref st₀ (callsUpTo ticks cycles) = some st)
    (hcycles : cycles + remaining = args.maxCycles)
    (hgo : ∀ k, k + 1 < cycles → GoesOnAfter ticks k)
    (hfinish : ∀ k, cycles = k + 1 → (ticks k).trap = none ∧ (ticks k).finish = gotFinish)
    (hzero : cycles = 0 → gotFinish = false) :
    result.cycles ≤ args.maxCycles ∧
      accepts ref st₀ (callsUpTo ticks result.cycles) = some result.st ∧
      (∀ k, k + 1 < result.cycles → GoesOnAfter ticks k) ∧
      Ends ticks args result.cycles result.trap := by
  induction remaining generalizing cycles st gotFinish with
  | zero =>
    cases hloop
    exact ⟨by dsimp only; omega, hpast, hgo, .timeout hcycles⟩
  | succ remaining ih =>
    unfold simLoop at hloop
    split at hloop
    · rename_i hgot
      cases hloop
      obtain ⟨k, rfl⟩ := Nat.exists_eq_succ_of_ne_zero
        (fun h : cycles = 0 => by simp [hzero h] at hgot)
      exact ⟨by dsimp only; omega, hpast, hgo, .finish k rfl ((hfinish k rfl).2.trans hgot)⟩
    · rename_i hgot
      have hgoes : ∀ k, k + 1 < cycles + 1 → GoesOnAfter ticks k := by
        intro k hk
        by_cases hlast : cycles = k + 1
        · exact ⟨(hfinish k hlast).1, (hfinish k hlast).2.trans (by simpa using hgot)⟩
        · exact hgo k (by omega)
      dsimp only at hloop
      split at hloop
      · cases hloop
      · rename_i hrunning
        have hcodes : ∀ code ∈ (stepCalls ref st (ticks cycles).calls).1, code = 0 := by
          intro code hcode
          by_contra hne
          exact hrunning (hstops cycles _ ⟨code, hcode, hne⟩)
        have hpast' := accepts_append _ _ hpast (accepts_of_stepCalls _ hcodes)
        rw [← callsUpTo_succ] at hpast'
        split at hloop
        · rename_i code htrap
          cases hloop
          exact ⟨by dsimp only; omega, hpast', hgoes, .trap cycles code rfl htrap⟩
        · rename_i htrap
          refine ih (cycles + 1) hloop hpast' (by omega) hgoes ?_ (by omega)
          intro k hk
          obtain rfl : k = cycles := by omega
          exact ⟨htrap, rfl⟩

/-- A simulation of such a design that exits with 0 after `n` cycles has accepted every call of
these cycles. It has hit the good trap or called `$finish`, with a complete comparison under
`--diff`, or it has run out of cycles where that is allowed. -/
theorem simMain_ok (hstops : StopsOnRejection ticks) (args : SimArgs) {st₀ st : State R} (h : simMain ref ticks args st₀ = .exit 0 st) :
    ∃ n ≤ args.maxCycles, accepts ref st₀ (callsUpTo ticks n) = some st ∧
      (∀ k, k + 1 < n → GoesOnAfter ticks k) ∧
      ((n = args.maxCycles ∧ args.timeoutOk = true) ∨
        (args.diff = true → difftestCheckComplete st = true) ∧
          ∃ k, n = k + 1 ∧ ((ticks k).trap = some 0#32 ∨ (ticks k).finish = true)) := by
  unfold simMain at h
  split at h
  · cases h
  · rename_i result hloop
    injection h with hcode hst
    subst hst
    obtain ⟨hle, haccepts, hgo, hends⟩ := @simLoop_ends R ref ticks hstops args args.maxCycles 0 st₀ st₀
      false result hloop rfl (Nat.zero_add _) (by omega) (by omega) (fun _ => rfl)
    refine ⟨result.cycles, hle, haccepts, hgo, ?_⟩
    unfold exitCode at hcode
    generalize htrap : result.trap = trap at hcode hends
    cases hends with
    | timeout hmax =>
      rw [if_pos (Nat.le_of_eq hmax.symm)] at hcode
      exact .inl ⟨hmax, by simpa using hcode⟩
    | finish k hn hfinish =>
      by_cases hmax : result.cycles ≥ args.maxCycles
      · rw [if_pos hmax] at hcode
        exact .inl ⟨by omega, by simpa using hcode⟩
      · rw [if_neg hmax] at hcode
        refine .inr ⟨?_, k, hn, .inr hfinish⟩
        intro hdiff
        simpa [hdiff] using hcode
    | trap k code hn hcycle =>
      by_cases hgood : code = 0#32
      · subst hgood
        refine .inr ⟨?_, k, hn, .inl hcycle⟩
        intro hdiff
        simpa [hdiff] using hcode
      · simp [hgood] at hcode

/-- A differential simulation of such a design that exits with 0 before its limit: the reference has
followed every commit of the run, at least one instruction was compared, and both register files
are equal. -/
theorem simMain_diff_ok (hlawful : ref.Lawful) (hstops : StopsOnRejection ticks) (image : R)
    (resetVector : UInt32) (args : SimArgs)
    (hdiff : args.diff = true) (hlimit : args.timeoutOk = false) {st : State R}
    (h : simMain ref ticks args (difftestConfigure ref image resetVector) = .exit 0 st) :
    (∃ n ≤ args.maxCycles,
      accepts ref (difftestConfigure ref image resetVector) (callsUpTo ticks n) = some st ∧
      (∀ k, k + 1 < n → GoesOnAfter ticks k) ∧
      ∃ k, n = k + 1 ∧ ((ticks k).trap = some 0#32 ∨ (ticks k).finish = true)) ∧
    0 < st.compareCount ∧ st.compareCount ≤ st.commitCount ∧
      st.dut.gpr = (ref.regs st.machine).gpr := by
  obtain ⟨n, hle, haccepts, hgo, ⟨_, htimeout⟩ | ⟨hcomplete, hends⟩⟩ := simMain_ok hstops args h
  · rw [hlimit] at htimeout
    cases htimeout
  · obtain ⟨_, hcompared, hcounts, hequal⟩ :=
      difftest_complete hlawful image resetVector _ haccepts (hcomplete hdiff)
    exact ⟨⟨n, hle, haccepts, hgo, hends⟩, hcompared, hcounts, hequal⟩

/-- Three additions, the last with the good trap; `fatal` is what the design makes of the results. -/
def addiTicks (fatal : List Nat → Bool) (wdata : UInt32) (k : Nat) : Tick where
  calls := [[addiSlot (0x80000000 + 4 * UInt32.ofNat k) (if k = 1 then wdata else UInt32.ofNat k + 1)]]
  fatal := fatal
  finish := false
  trap := if k = 2 then some 0#32 else none

def stopsOnNonzero (codes : List Nat) : Bool := codes.any (· ≠ 0)

theorem addiTicks_stops (wdata : UInt32) : StopsOnRejection (addiTicks stopsOnNonzero wdata) := by
  intro k codes hcodes
  obtain ⟨code, hmem, hne⟩ := hcodes
  exact List.any_eq_true.mpr ⟨code, hmem, by simpa using hne⟩

theorem isExit_addiTicks : ∃ st, simMain addiRef (addiTicks stopsOnNonzero 2) ⟨5, true, false⟩
    (difftestConfigure addiRef (.initial 0) 0) = .exit 0 st :=
  ⟨_, rfl⟩

theorem simMain_diff_ok_addi :
    ∃ st, simMain addiRef (addiTicks stopsOnNonzero 2) ⟨5, true, false⟩
      (difftestConfigure addiRef (.initial 0) 0) = .exit 0 st ∧
        0 < st.compareCount ∧ st.compareCount ≤ st.commitCount := by
  obtain ⟨st, hst⟩ := isExit_addiTicks
  obtain ⟨-, hcompared, hcounts, -⟩ := simMain_diff_ok addiRef_lawful (addiTicks_stops 2)
    (.initial 0) 0 ⟨5, true, false⟩ rfl rfl hst
  exact ⟨st, hst, hcompared, hcounts⟩

/-- A wrong write-back is not accepted, and a design that ignores the results still ends with 0. -/
theorem isExit_ignored : (∃ st, simMain addiRef (addiTicks (fun _ => false) 7) ⟨5, true, false⟩
      (difftestConfigure addiRef (.initial 0) 0) = .exit 0 st) ∧
    accepts addiRef (difftestConfigure addiRef (.initial 0) 0)
      (callsUpTo (addiTicks (fun _ => false) 7) 3) = none :=
  ⟨⟨_, rfl⟩, rfl⟩

end EccFe.Soc
