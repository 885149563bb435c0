/-
EccFe.Soc.Difftest — the differential test of `fecompiler/thirdparty/SoC/driver/difftest.cpp`.

The simulated core reports the instructions it commits, and `difftest_step` lets a reference
machine execute the same instructions. The reference is a shared object: what it does is the
parameter `Ref`, of which only the general registers of `difftest_regcpy` are specified
(`Ref.Lawful`).

A call is accepted when it returns 0. As long as no slot forces a resynchronisation, the accepted
calls are those of a lockstep (`Lockstep`): each committed instruction is one step of the
reference that ends at the reported next pc with the reported register, and after each call all
registers are equal. A core that reports its instructions truthfully is accepted however its
commits are cut into calls; with one commit port, no other core is.

Counters are natural numbers. A register number has five bits, as
`examples/ysyx_00000000/rtl/ysyx_00000000_difftest.sv` drives it.
-/
import EccFe.Python.Text
import EccFe.Transition.Machine

namespace EccFe.Soc.Difftest

/-! ## 1. Contexts and slots -/

structure CoreContext where
  gpr : Fin 32 → UInt32
  csr : Fin 16 → UInt32
  pc : UInt32

/-- One commit port of a call. -/
structure Slot where
  pc : UInt32
  npc : UInt32
  inst : UInt32
  rdidx : Fin 32
  wen : UInt16
  wdata : UInt32
  commit : UInt16
  skip : UInt16
  csrWen : UInt16
  csrWdata : UInt32
  csrWaddr : UInt16
  irqEn : UInt16

/-- The reference: `difftest_regcpy` in both directions and `difftest_exec(1)`, `none` when it
throws. -/
structure Ref (R : Type) where
  regs : R → CoreContext
  setRegs : CoreContext → R → R
  exec : R → Option R

/-- The general registers that were copied to the reference are read back from it; it may keep
register 0 at zero and have control registers of its own. -/
structure Ref.Lawful {R : Type} (ref : Ref R) : Prop where
  gpr_setRegs : ∀ context machine, context.gpr 0 = 0 →
    (ref.regs (ref.setRegs context machine)).gpr = context.gpr

/-- The globals of the file; `machine` is the state of the reference. -/
structure State (R : Type) where
  dut : CoreContext
  ref : CoreContext
  machine : R
  resetVector : UInt32
  enabled : Bool
  started : Bool
  seenCommit : Bool
  commitCount : Nat
  compareCount : Nat
  lastPc : UInt32
  lastNpc : UInt32
  lastInst : UInt32

/-! ## 2. The simulated core's context -/

def updateCsr (context : CoreContext) (address : UInt16) (value : UInt32) : CoreContext :=
  let store (index : Fin 16) : CoreContext :=
    { context with csr := Function.update context.csr index value }
  if address = 0x341 then store 0
  else if address = 0x342 then store 1
  else if address = 0x305 then store 2
  else if address = 0x300 then store 3
  else if address = 0x343 then store 4
  else context

def applyCommitState (context : CoreContext) (slot : Slot) : CoreContext :=
  let written := if slot.wen ≠ 0 ∧ slot.rdidx ≠ 0 then
      Function.update context.gpr slot.rdidx slot.wdata
    else context.gpr
  let context := { context with gpr := Function.update written 0 0 }
  if slot.csrWen ≠ 0 then updateCsr context slot.csrWaddr slot.csrWdata else context

def shouldSkipCsr (csr : UInt16) : Bool :=
  [0x300, 0x305, 0x341, 0x342, 0x343, 0xf12, 0xf13].contains csr

/-- `should_skip_inst(instruction)`: `ecall` and `mret`. -/
def shouldSkipInst (instruction : UInt32) : Bool :=
  instruction == 0x00000073 || instruction == 0x30200073

/-- `decode_store_imm(instruction)`, the twelve bits sign-extended. -/
def decodeStoreImm (instruction : UInt32) : UInt32 :=
  let low : UInt32 := instruction >>> 7
  let high : UInt32 := instruction >>> 25
  let upper : UInt32 := (high &&& 0x7f) <<< 5
  let imm := (low &&& 0x1f) ||| upper
  if imm < 0x800 then imm else imm ||| 0xfffff000

/-- `should_skip_mmio_store(instruction)`: a store to one of the two serial ports. -/
def shouldSkipMmioStore (context : CoreContext) (instruction : UInt32) : Bool :=
  if instruction &&& (0x7f : UInt32) ≠ 0x23 then false
  else
    let rs1 : UInt32 := (instruction >>> 15) &&& (0x1f : UInt32)
    let addr := context.gpr (Fin.ofNat 32 rs1.toNat) + decodeStoreImm instruction
    addr == 0x10000000 || addr == 0xa00003f8

/-- The instruction is not executed by the reference. -/
def skipped (context : CoreContext) (slot : Slot) : Bool :=
  slot.skip != 0 || shouldSkipInst slot.inst || (slot.csrWen != 0 && shouldSkipCsr slot.csrWaddr) ||
    shouldSkipMmioStore context slot.inst || slot.irqEn != 0

section

variable {R : Type} (ref : Ref R)

namespace State

variable (st : State R)

def isBootOrMromPc (pc : UInt32) : Bool := pc < st.resetVector

/-- `record_commit(pc, npc, inst)`, then `apply_commit_state`. -/
def record (slot : Slot) : State R :=
  { st with
    seenCommit := true
    commitCount := st.commitCount + 1
    lastPc := slot.pc
    lastNpc := slot.npc
    lastInst := slot.inst
    dut := applyCommitState st.dut slot }

/-- The remaining commits of a call, applied without being executed; the last of them says where
the program goes on. -/
def applyRemaining (context : CoreContext) (npc : UInt32) : List Slot → CoreContext × UInt32
  | [] => (context, npc)
  | slot :: rest =>
      if slot.commit ≠ 0 ∧ !st.isBootOrMromPc slot.pc then
        applyRemaining (applyCommitState context slot) slot.npc rest
      else applyRemaining context npc rest

/-- The context of the simulated core is given to the reference. -/
def resync (slot : Slot) (rest : List Slot) : State R :=
  let (context, npc) := st.applyRemaining st.dut slot.npc rest
  let dut := { context with pc := npc }
  let machine := ref.setRegs dut st.machine
  { st with dut := dut, machine := machine, ref := ref.regs machine }

end State

/-! ## 3. One call -/

/-- The register the instruction wrote is the one the reference has. -/
def rdAgrees (context : CoreContext) (slot : Slot) : Bool :=
  slot.wen == 0 || slot.rdidx == 0 || slot.wdata == context.gpr slot.rdidx

/-- How the loop over the slots ends: the call returns, or the registers are compared. -/
inductive LoopEnd (R : Type) where
  | returned (code : Nat) (st : State R)
  | finished (sawCommit : Bool) (st : State R)

/-- The loop over the slots. -/
def loop (st : State R) (sawCommit : Bool) : List Slot → LoopEnd R
  | [] => .finished sawCommit st
  | slot :: rest =>
      if slot.commit = 0 then loop st sawCommit rest
      else
        let st := st.record slot
        if st.isBootOrMromPc slot.pc then loop st true rest
        else if !st.started then .returned 0 (State.resync ref { st with started := true } slot rest)
        else if skipped st.dut slot then .finished true (st.resync ref slot rest)
        else
          match ref.exec st.machine with
          | none => .returned 1 st
          | some machine =>
              let st : State R := { st with
                machine := machine, ref := ref.regs machine, compareCount := st.compareCount + 1 }
              if st.ref.pc = slot.npc ∧ rdAgrees st.ref slot = true then loop st true rest
              else .returned 1 st

/-- `difftest_step(n, pc, npc, ...)`: its result and the globals it leaves. -/
def difftestStep (st : State R) (slots : List Slot) : Nat × State R :=
  if !st.enabled then (0, st)
  else
    match loop ref st false slots with
    | .returned code st => (code, st)
    | .finished sawCommit st =>
        if !sawCommit || !st.started then (0, st)
        else if ∀ i, st.dut.gpr i = st.ref.gpr i then (0, st)
        else (1, st)

def CoreContext.initial (resetVector : UInt32) : CoreContext where
  gpr := fun _ => 0
  csr := Function.update (fun _ => 0) 3 0x1800
  pc := resetVector

/-- What `difftest_configure` leaves, once the reference has its image. -/
def difftestConfigure (machine : R) (resetVector : UInt32) : State R :=
  let resetVector := if resetVector = 0 then 0x80000000 else resetVector
  let context := CoreContext.initial resetVector
  let machine := ref.setRegs context machine
  { dut := context, ref := context, machine := machine, resetVector := resetVector,
    enabled := true, started := false, seenCommit := false, commitCount := 0, compareCount := 0,
    lastPc := 0, lastNpc := 0, lastInst := 0 }

def difftestCheckComplete (st : State R) : Bool := st.enabled && st.compareCount != 0

/-- Calls made one after another, as long as they return 0. -/
def accepts (st : State R) : List (List Slot) → Option (State R)
  | [] => some st
  | slots :: calls =>
      match difftestStep ref st slots with
      | (0, st) => accepts st calls
      | _ => none

/-! ## 4. What every accepted call keeps -/

variable {ref}

/-- The register file after the write-back of a slot. -/
def writeBack (gpr : Fin 32 → UInt32) (slot : Slot) : Fin 32 → UInt32 :=
  Function.update
    (if slot.wen ≠ 0 ∧ slot.rdidx ≠ 0 then Function.update gpr slot.rdidx slot.wdata else gpr) 0 0

/-- Register 0 stays 0. -/
@[simp] theorem writeBack_zero (gpr : Fin 32 → UInt32) (slot : Slot) : writeBack gpr slot 0 = 0 := by
  simp [writeBack]

/-- A CSR write leaves the general registers. -/
@[simp] theorem updateCsr_gpr (context : CoreContext) (address : UInt16) (value : UInt32) :
    (updateCsr context address value).gpr = context.gpr := by
  unfold updateCsr
  dsimp only
  repeat' split
  all_goals rfl

/-- A committed slot writes its register back. -/
@[simp] theorem applyCommitState_gpr (context : CoreContext) (slot : Slot) :
    (applyCommitState context slot).gpr = writeBack context.gpr slot := by
  unfold applyCommitState
  dsimp only
  split
  · simp [writeBack]
  · rfl

/-- Register 0 is zero, and nothing is compared before the comparison starts; from then on the
globals describe the reference. -/
structure Tracks (ref : Ref R) (st : State R) : Prop where
  enabled : st.enabled = true
  current : st.started = true → st.ref = ref.regs st.machine
  zero : st.dut.gpr 0 = 0
  counted : st.compareCount ≤ st.commitCount
  waiting : st.started = false → st.compareCount = 0

/-- Once the comparison has started the register files are equal. -/
structure Synced (ref : Ref R) (st : State R) : Prop extends Tracks ref st where
  equal : st.started = true → st.dut.gpr = st.ref.gpr

theorem tracks_record {st : State R} (h : Tracks ref st) (slot : Slot) :
    Tracks ref (st.record slot) where
  enabled := h.enabled
  current := h.current
  zero := by simp [State.record]
  counted := Nat.le_succ_of_le h.counted
  waiting := h.waiting

theorem applyRemaining_zero (st : State R) (slots : List Slot) {context : CoreContext}
    (h : context.gpr 0 = 0) (npc : UInt32) :
    (st.applyRemaining context npc slots).1.gpr 0 = 0 := by
  induction slots generalizing context npc with
  | nil => exact h
  | cons slot rest ih =>
    rw [State.applyRemaining]
    split
    · exact ih (by simp) slot.npc
    · exact ih h npc

/-- A resynchronised state has the same registers on both sides. -/
theorem synced_resync (hlawful : ref.Lawful) {st : State R} (henabled : st.enabled = true)
    (hzero : st.dut.gpr 0 = 0) (hcounted : st.compareCount ≤ st.commitCount)
    (hstarted : st.started = true) (slot : Slot) (rest : List Slot) :
    Synced ref (st.resync ref slot rest) where
  enabled := henabled
  current := fun _ => rfl
  zero := applyRemaining_zero st rest hzero slot.npc
  counted := hcounted
  waiting := by
    intro hwaiting
    have : st.started = false := hwaiting
    simp [hstarted] at this
  equal := by
    intro _
    exact (hlawful.gpr_setRegs (st.resync ref slot rest).dut st.machine
      (applyRemaining_zero st rest hzero slot.npc)).symm

/-- A step of the reference keeps the invariant while there is a commit to compare. -/
theorem tracks_exec {st : State R} (h : Tracks ref st) (hcounted : st.compareCount < st.commitCount)
    (hstarted : st.started = true) (machine : R) :
    Tracks ref { st with
      machine := machine, ref := ref.regs machine, compareCount := st.compareCount + 1 } where
  enabled := h.enabled
  current := fun _ => rfl
  zero := h.zero
  counted := hcounted
  waiting := by
    intro hwaiting
    have : st.started = false := hwaiting
    simp [hstarted] at this

/-- What the loop leaves: a returning call is synchronised, a finished one is still to be compared,
and without a commit nothing has changed. -/
def Kept (ref : Ref R) (sawCommit : Bool) (st : State R) : LoopEnd R → Prop
  | .returned code st' => code = 0 → Synced ref st'
  | .finished saw st' =>
      Tracks ref st' ∧ (sawCommit = true → saw = true) ∧ (saw = false → st' = st)

/-- A call keeps the invariant, whatever its slots are. -/
theorem loop_keeps (hlawful : ref.Lawful) (slots : List Slot) {st : State R} (h : Tracks ref st)
    (sawCommit : Bool) :
    Kept ref sawCommit st (loop ref st sawCommit slots) := by
  induction slots generalizing st sawCommit with
  | nil => exact ⟨h, id, fun _ => rfl⟩
  | cons slot rest ih =>
    have hrecord := tracks_record h slot
    -- after a commit the flag is set for good
    have hcommitted : ∀ {st₁ : State R}, Tracks ref st₁ →
        Kept ref sawCommit st (loop ref st₁ true rest) := by
      intro st₁ htracks
      have hrest := ih htracks true
      cases hend : loop ref st₁ true rest with
      | returned code st' =>
        rw [hend] at hrest
        exact hrest
      | finished saw st' =>
        rw [hend] at hrest
        obtain ⟨hkeeps, hsaw, _⟩ := hrest
        exact ⟨hkeeps, fun _ => hsaw rfl, by simp [hsaw rfl]⟩
    rw [loop]
    by_cases hcommit : slot.commit = 0
    · simpa only [hcommit, if_pos] using ih h sawCommit
    rw [if_neg hcommit]
    dsimp only
    by_cases hboot : (st.record slot).isBootOrMromPc slot.pc = true
    · rw [if_pos hboot]
      exact hcommitted hrecord
    rw [if_neg hboot]
    by_cases hstarted : (st.record slot).started = true
    · rw [if_neg (by simp [hstarted])]
      by_cases hskip : skipped (st.record slot).dut slot = true
      · rw [if_pos hskip]
        exact ⟨(synced_resync hlawful hrecord.enabled hrecord.zero hrecord.counted hstarted slot
          rest).toTracks, by simp, by simp⟩
      · rw [if_neg hskip]
        cases hexec : ref.exec (st.record slot).machine with
        | none => exact fun hcode => absurd hcode (by decide)
        | some machine =>
          have hcounted : (st.record slot).compareCount < (st.record slot).commitCount :=
            Nat.lt_succ_of_le h.counted
          dsimp only
          split
          · exact hcommitted (tracks_exec hrecord hcounted hstarted machine)
          · exact fun hcode => absurd hcode (by decide)
    · rw [if_pos (by simp [hstarted])]
      intro _
      exact @synced_resync _ ref hlawful { st.record slot with started := true } hrecord.enabled
        hrecord.zero hrecord.counted rfl slot rest

/-- An accepted call leaves both sides in step. -/
theorem synced_step (hlawful : ref.Lawful) {st st' : State R} (h : Synced ref st)
    {slots : List Slot} (hstep : difftestStep ref st slots = (0, st')) : Synced ref st' := by
  have hkeeps := loop_keeps hlawful slots h.toTracks false
  unfold difftestStep at hstep
  rw [h.enabled] at hstep
  cases hloop : loop ref st false slots with
  | returned code st₁ =>
    rw [hloop] at hkeeps hstep
    obtain ⟨rfl, rfl⟩ := Prod.mk.injEq _ _ _ _ ▸ hstep
    exact hkeeps rfl
  | finished saw st₁ =>
    rw [hloop] at hkeeps hstep
    obtain ⟨htracks, _, hsame⟩ := hkeeps
    simp only [Bool.not_true, Bool.false_eq_true, if_false] at hstep
    split at hstep
    · rename_i hquiet
      obtain ⟨_, rfl⟩ := Prod.mk.injEq _ _ _ _ ▸ hstep
      cases saw with
      | false =>
        rw [hsame rfl]
        exact h
      | true => exact { htracks with equal := by simp_all }
    · split at hstep
      · rename_i hequal
        obtain ⟨_, rfl⟩ := Prod.mk.injEq _ _ _ _ ▸ hstep
        exact { htracks with equal := fun _ => funext hequal }
      · simp at hstep

/-- So does any sequence of accepted calls. -/
theorem synced_accepts (hlawful : ref.Lawful) (calls : List (List Slot)) {st st' : State R}
    (h : Synced ref st) (haccepts : accepts ref st calls = some st') : Synced ref st' := by
  induction calls generalizing st with
  | nil =>
    cases haccepts
    exact h
  | cons slots calls ih =>
    rw [accepts] at haccepts
    split at haccepts
    · rename_i st₁ hstep
      exact ih (synced_step hlawful h hstep) haccepts
    · simp at haccepts

/-- The configuration starts both sides in step. -/
theorem synced_difftestConfigure (machine : R) (resetVector : UInt32) :
    Synced ref (difftestConfigure ref machine resetVector) where
  enabled := rfl
  current := fun hstarted => absurd hstarted Bool.false_ne_true
  zero := rfl
  counted := Nat.le_refl _
  waiting := fun _ => rfl
  equal := fun _ => rfl

/-! ## 5. Lockstep -/

/-- The slots the call reports as committed. -/
def committed (slots : List Slot) : List Slot := slots.filter (·.commit ≠ 0)

/-- None of the slots is below the reset vector or forces a resynchronisation. -/
def Plain (resetVector : UInt32) (context : CoreContext) : List Slot → Prop
  | [] => True
  | slot :: rest =>
      let context := applyCommitState context slot
      ¬ slot.pc < resetVector ∧ skipped context slot = false ∧ Plain resetVector context rest

/-- The reference executes the slots one after another, and `Reports` holds of each step. -/
inductive Executes (ref : Ref R) (Reports : R → Slot → R → Prop) : R → List Slot → R → Prop
  | nil (machine : R) : Executes ref Reports machine [] machine
  | cons {before after last : R} {slot : Slot} {rest : List Slot}
      (exec : ref.exec before = some after) (reports : Reports before slot after)
      (next : Executes ref Reports after rest last) : Executes ref Reports before (slot :: rest) last

/-- The reference executes a list of slots in one way. -/
theorem executes_unique {Reports : R → Slot → R → Prop} {machine last other : R}
    {slots : List Slot} (h : Executes ref Reports machine slots other)
    (h' : Executes ref Reports machine slots last) : other = last := by
  induction h with
  | nil machine =>
    cases h'
    rfl
  | cons exec _ _ ih =>
    cases h' with
    | cons exec' _ next' =>
      rw [exec] at exec'
      cases exec'
      exact ih next'

/-- What the loop checks of a step: the next pc, and the register the slot says it wrote. -/
def Checked (ref : Ref R) (_ : R) (slot : Slot) (after : R) : Prop :=
  (ref.regs after).pc = slot.npc ∧ rdAgrees (ref.regs after) slot = true

/-- The slot says all that the step did to the pc and the registers. -/
def Truthful (ref : Ref R) (before : R) (slot : Slot) (after : R) : Prop :=
  (ref.regs after).pc = slot.npc ∧ (ref.regs after).gpr = writeBack (ref.regs before).gpr slot

/-- A call that the reference can follow, from `machine` to `last`. -/
def Followed (ref : Ref R) (machine : R) (slots : List Slot) (last : R) : Prop :=
  Executes ref (Checked ref) machine (committed slots) last ∧
    (ref.regs last).gpr = (committed slots).foldl writeBack (ref.regs machine).gpr

/-- Call by call: every step as `Checked`, and all registers equal at the end of the call. -/
def Lockstep (ref : Ref R) (machine : R) : List (List Slot) → Prop
  | [] => True
  | slots :: calls => ∃ last, Followed ref machine slots last ∧ Lockstep ref last calls

theorem committed_cons (slot : Slot) (rest : List Slot) : committed (slot :: rest) =
    if slot.commit = 0 then committed rest else slot :: committed rest := by
  by_cases hcommit : slot.commit = 0 <;> simp [committed, hcommit]

/-- Only committed slots are applied. -/
theorem applyRemaining_committed (st : State R) (slots : List Slot) (context : CoreContext)
    (npc : UInt32) :
    st.applyRemaining context npc (committed slots) = st.applyRemaining context npc slots := by
  induction slots generalizing context npc with
  | nil => rfl
  | cons slot rest ih =>
    rw [committed_cons]
    by_cases hcommit : slot.commit = 0
    · simpa [State.applyRemaining, hcommit] using ih context npc
    · rw [if_neg hcommit, State.applyRemaining, State.applyRemaining]
      simp only [ih]

theorem resync_committed (st : State R) (slot : Slot) (rest : List Slot) :
    st.resync ref slot (committed rest) = st.resync ref slot rest := by
  simp only [State.resync, applyRemaining_committed]

/-- Slots that are not committed do not matter. -/
theorem loop_committed (slots : List Slot) (st : State R) (sawCommit : Bool) :
    loop ref st sawCommit (committed slots) = loop ref st sawCommit slots := by
  induction slots generalizing st sawCommit with
  | nil => rfl
  | cons slot rest ih =>
    rw [committed_cons]
    by_cases hcommit : slot.commit = 0
    · rw [if_pos hcommit, loop, if_pos hcommit]
      exact ih st sawCommit
    · rw [if_neg hcommit, loop, loop, if_neg hcommit, if_neg hcommit]
      simp only [ih, resync_committed]

/-- The globals after the reference has executed a slot and ended in `machine`. -/
def State.executed (st : State R) (ref : Ref R) (slot : Slot) (machine : R) : State R :=
  { st.record slot with
    machine := machine, ref := ref.regs machine, compareCount := st.compareCount + 1 }

/-- One plain slot after the comparison has started. -/
theorem loop_cons {st : State R} (hstarted : st.started = true) {slot : Slot} {rest : List Slot}
    (hcommit : slot.commit ≠ 0) (hpc : ¬ slot.pc < st.resetVector)
    (hskip : skipped (applyCommitState st.dut slot) slot = false) (sawCommit : Bool) :
    loop ref st sawCommit (slot :: rest) =
      match ref.exec st.machine with
      | none => .returned 1 (st.record slot)
      | some after =>
          if (ref.regs after).pc = slot.npc ∧ rdAgrees (ref.regs after) slot = true then
            loop ref (st.executed ref slot after) true rest
          else .returned 1 (st.executed ref slot after) := by
  have hboot : ¬ (st.record slot).isBootOrMromPc slot.pc = true :=
    fun hlow => hpc (of_decide_eq_true hlow)
  rw [loop, if_neg hcommit]
  dsimp only
  rw [if_neg hboot,
    if_neg (by simp [State.record, hstarted]),
    if_neg (by simpa [State.record] using hskip)]
  rfl

/-- Either the reference executes the slots as they say, and the loop gets to the end with the
written-back registers, or the call fails. -/
theorem loop_lockstep (slots : List Slot) {st : State R} (hstarted : st.started = true)
    (hcommitted : ∀ slot ∈ slots, slot.commit ≠ 0) (hplain : Plain st.resetVector st.dut slots)
    (hcurrent : st.ref = ref.regs st.machine) (sawCommit : Bool) :
    (∃ last st', Executes ref (Checked ref) st.machine slots last ∧
      loop ref st sawCommit slots = .finished (sawCommit || !slots.isEmpty) st' ∧
      st'.machine = last ∧ st'.ref = ref.regs last ∧ st'.started = true ∧
      st'.dut = slots.foldl applyCommitState st.dut ∧ st'.resetVector = st.resetVector ∧
      st'.compareCount = st.compareCount + slots.length) ∨
    ((∀ last, ¬ Executes ref (Checked ref) st.machine slots last) ∧
      ∃ st', loop ref st sawCommit slots = .returned 1 st') := by
  induction slots generalizing st sawCommit with
  | nil => exact .inl ⟨st.machine, st, .nil _, by simp [loop], rfl, hcurrent, hstarted, rfl, rfl, rfl⟩
  | cons slot rest ih =>
    obtain ⟨hpc, hskip, hrest⟩ := hplain
    rw [loop_cons hstarted (hcommitted slot List.mem_cons_self) hpc hskip]
    cases hexec : ref.exec st.machine with
    | none =>
      refine .inr ⟨?_, _, rfl⟩
      intro last hexecutes
      cases hexecutes with
      | cons exec _ _ => simp [hexec] at exec
    | some after =>
      dsimp only
      by_cases hchecked : (ref.regs after).pc = slot.npc ∧ rdAgrees (ref.regs after) slot = true
      · rw [if_pos hchecked]
        obtain ⟨last, st', hrun, hloop, hmachine, href, hstarted', hdut, hreset, hcount⟩ | ⟨hnone, hend⟩ :=
          @ih (st.executed ref slot after) hstarted
            (fun slot hslot => hcommitted slot (List.mem_cons_of_mem _ hslot)) hrest rfl true
        · refine .inl ⟨last, st', .cons hexec hchecked hrun, by simpa using hloop, hmachine, href,
            hstarted', hdut, hreset, ?_⟩
          simp only [State.executed] at hcount
          rw [hcount, List.length_cons]
          omega
        · refine .inr ⟨?_, hend⟩
          intro last hexecutes
          cases hexecutes with
          | cons exec _ next =>
            rw [hexec] at exec
            cases exec
            exact hnone last next
      · rw [if_neg hchecked]
        refine .inr ⟨?_, _, rfl⟩
        intro last hexecutes
        cases hexecutes with
        | cons exec reports _ =>
          rw [hexec] at exec
          cases exec
          exact hchecked reports

/-- The registers after a list of slots are those written back. -/
theorem foldl_applyCommitState_gpr (slots : List Slot) (context : CoreContext) :
    (slots.foldl applyCommitState context).gpr = slots.foldl writeBack context.gpr := by
  induction slots generalizing context with
  | nil => rfl
  | cons slot rest ih => simp [ih]

/-- One call in lockstep, or a failed one. -/
theorem difftestStep_lockstep (hlawful : ref.Lawful) {st : State R} (h : Synced ref st)
    (hstarted : st.started = true) (slots : List Slot)
    (hplain : Plain st.resetVector st.dut (committed slots)) :
    (∃ last st', Followed ref st.machine slots last ∧ difftestStep ref st slots = (0, st') ∧
      Synced ref st' ∧ st'.machine = last ∧ st'.started = true ∧
      st'.dut = (committed slots).foldl applyCommitState st.dut ∧
      st'.resetVector = st.resetVector ∧
      st'.compareCount = st.compareCount + (committed slots).length) ∨
    ((∀ last, ¬ Followed ref st.machine slots last) ∧
      ∃ st', difftestStep ref st slots = (1, st')) := by
  have hequal : st.dut.gpr = (ref.regs st.machine).gpr := by
    rw [h.equal hstarted, h.current hstarted]
  have hcommitted : ∀ slot ∈ committed slots, slot.commit ≠ 0 := by
    intro slot hslot
    simpa using (List.mem_filter.1 hslot).2
  obtain ⟨last, st', hrun, hloop, hmachine, href, hstarted', hdut, hreset, hcount⟩ | ⟨hnone, st', hend⟩ :=
    loop_lockstep (committed slots) hstarted hcommitted hplain (h.current hstarted) false
  · rw [loop_committed] at hloop
    have hgpr : st'.dut.gpr = (committed slots).foldl writeBack (ref.regs st.machine).gpr := by
      rw [hdut, foldl_applyCommitState_gpr, hequal]
    by_cases hsame : (ref.regs last).gpr = (committed slots).foldl writeBack (ref.regs st.machine).gpr
    · have hstep : difftestStep ref st slots = (0, st') := by
        unfold difftestStep
        simp only [h.enabled, Bool.not_true, Bool.false_eq_true, if_false, hloop]
        split
        · rfl
        · rw [if_pos]
          intro i
          rw [hgpr, href, hsame]
      exact .inl ⟨last, st', ⟨hrun, hsame⟩, hstep, synced_step hlawful h hstep, hmachine,
        hstarted', hdut, hreset, hcount⟩
    · refine .inr ⟨?_, st', ?_⟩
      · intro other hfollowed
        obtain ⟨hexecutes, hregs⟩ := hfollowed
        rw [executes_unique hexecutes hrun] at hregs
        exact hsame hregs
      · have hnonempty : (committed slots).isEmpty = false := by
          cases hslots : committed slots with
          | nil =>
            rw [hslots] at hrun hsame
            cases hrun
            exact absurd rfl hsame
          | cons slot rest => rfl
        have hdiffer : ¬ ∀ i, st'.dut.gpr i = st'.ref.gpr i := by
          intro hall
          apply hsame
          rw [← href, ← hgpr]
          exact (funext hall).symm
        unfold difftestStep
        simp only [h.enabled, Bool.not_true, Bool.false_eq_true, if_false, hloop, hnonempty,
          Bool.not_false, Bool.or_true, hstarted', Bool.or_self, if_neg hdiffer]
  · refine .inr ⟨fun last hfollowed => hnone last hfollowed.1, st', ?_⟩
    rw [loop_committed] at hend
    unfold difftestStep
    simp only [h.enabled, Bool.not_true, Bool.false_eq_true, if_false, hend]

/-- Slots are plain one after the other. -/
theorem plain_append {resetVector : UInt32} (slots more : List Slot) (context : CoreContext) :
    Plain resetVector context (slots ++ more) ↔ Plain resetVector context slots ∧
      Plain resetVector (slots.foldl applyCommitState context) more := by
  induction slots generalizing context with
  | nil => simp [Plain]
  | cons slot rest ih => simp [Plain, ih, and_assoc]

/-- The committed slots of two calls. -/
theorem committed_append (slots more : List Slot) :
    committed (slots ++ more) = committed slots ++ committed more := List.filter_append ..

theorem accepts_of_accepted {st st₁ : State R} {slots : List Slot} (calls : List (List Slot))
    (hstep : difftestStep ref st slots = (0, st₁)) :
    accepts ref st (slots :: calls) = accepts ref st₁ calls := by
  simp [accepts, hstep]

theorem accepts_of_failed {st st₁ : State R} {slots : List Slot} (calls : List (List Slot))
    (hstep : difftestStep ref st slots = (1, st₁)) : accepts ref st (slots :: calls) = none := by
  simp [accepts, hstep]

/-- Calls in lockstep are the accepted ones, and every committed slot is counted. -/
theorem accepts_iff_lockstep (hlawful : ref.Lawful) (calls : List (List Slot)) {st : State R}
    (h : Synced ref st) (hstarted : st.started = true)
    (hplain : Plain st.resetVector st.dut (committed calls.flatten)) :
    (Lockstep ref st.machine calls ↔ (accepts ref st calls).isSome = true) ∧
      ∀ st' ∈ accepts ref st calls,
        st'.compareCount = st.compareCount + (committed calls.flatten).length := by
  induction calls generalizing st with
  | nil => simp [Lockstep, accepts, committed]
  | cons slots calls ih =>
    rw [List.flatten_cons, committed_append, plain_append] at hplain
    obtain ⟨hslots, hcalls⟩ := hplain
    rw [Lockstep, List.flatten_cons, committed_append, List.length_append]
    obtain ⟨last, st₁, hfollowed, hstep, hsynced, rfl, hstarted₁, hdut, hreset, hcount⟩ | ⟨hnone, st₁, hstep⟩ :=
      difftestStep_lockstep hlawful h hstarted slots hslots
    · rw [← hdut, ← hreset] at hcalls
      obtain ⟨hiff, hcounts⟩ := ih hsynced hstarted₁ hcalls
      rw [accepts_of_accepted calls hstep]
      refine ⟨?_, ?_⟩
      · rw [← hiff]
        constructor
        · intro hlock
          obtain ⟨other, hother, hrest⟩ := hlock
          rwa [executes_unique hother.1 hfollowed.1] at hrest
        · intro hrest
          exact ⟨st₁.machine, hfollowed, hrest⟩
      · intro st' hst'
        rw [hcounts st' hst', hcount]
        omega
    · rw [accepts_of_failed calls hstep]
      refine ⟨⟨?_, ?_⟩, ?_⟩
      · intro hlock
        obtain ⟨last, hfollowed, _⟩ := hlock
        exact absurd hfollowed (hnone last)
      · intro haccepted
        simp at haccepted
      · intro st' hst'
        simp at hst'

/-- Truthful slots pass the checks, and the write-backs give the registers. -/
theorem followed_of_truthful {machine last : R} {slots : List Slot}
    (h : Executes ref (Truthful ref) machine slots last) :
    Executes ref (Checked ref) machine slots last ∧
      (ref.regs last).gpr = slots.foldl writeBack (ref.regs machine).gpr := by
  induction h with
  | nil machine => exact ⟨.nil machine, rfl⟩
  | @cons before after last slot rest exec reports _ ih =>
    obtain ⟨hpc, hgpr⟩ := reports
    have hrd : rdAgrees (ref.regs after) slot = true := by
      unfold rdAgrees
      by_cases hwrites : slot.wen ≠ 0 ∧ slot.rdidx ≠ 0
      · simp [hgpr, writeBack, hwrites]
      · rw [not_and_or, not_not, not_not] at hwrites
        rcases hwrites with hwen | hrdidx <;> simp_all
    exact ⟨.cons exec ⟨hpc, hrd⟩ ih.1, by rw [ih.2, hgpr]; rfl⟩

/-- A list is executed by executing its parts. -/
theorem executes_append {Reports : R → Slot → R → Prop} (slots more : List Slot) {machine last : R} :
    Executes ref Reports machine (slots ++ more) last ↔
      ∃ middle, Executes ref Reports machine slots middle ∧ Executes ref Reports middle more last := by
  induction slots generalizing machine with
  | nil =>
    constructor
    · intro h
      exact ⟨machine, .nil machine, h⟩
    · intro h
      obtain ⟨middle, hslots, hmore⟩ := h
      cases hslots
      exact hmore
  | cons slot rest ih =>
    constructor
    · intro h
      cases h with
      | cons exec reports next =>
        obtain ⟨middle, hrest, hmore⟩ := ih.1 next
        exact ⟨middle, .cons exec reports hrest, hmore⟩
    · intro h
      obtain ⟨middle, hslots, hmore⟩ := h
      cases hslots with
      | cons exec reports next => exact .cons exec reports (ih.2 ⟨middle, next, hmore⟩)

/-- A truthful stream is followed however it is cut into calls. -/
theorem lockstep_of_truthful (calls : List (List Slot)) {machine last : R}
    (h : Executes ref (Truthful ref) machine (committed calls.flatten) last) :
    Lockstep ref machine calls := by
  induction calls generalizing machine with
  | nil => trivial
  | cons slots calls ih =>
    rw [List.flatten_cons, committed_append, executes_append] at h
    obtain ⟨middle, hslots, hcalls⟩ := h
    exact ⟨middle, followed_of_truthful hslots, ih hcalls⟩

/-- With one commit port what is followed is truthful. -/
theorem truthful_of_lockstep (calls : List (List Slot))
    (hport : ∀ slots ∈ calls, (committed slots).length ≤ 1) {machine : R}
    (h : Lockstep ref machine calls) :
    ∃ last, Executes ref (Truthful ref) machine (committed calls.flatten) last := by
  induction calls generalizing machine with
  | nil => exact ⟨machine, .nil machine⟩
  | cons slots calls ih =>
    obtain ⟨middle, ⟨hexecutes, hregs⟩, hcalls⟩ := h
    obtain ⟨last, hlast⟩ := ih (fun s hs => hport s (List.mem_cons_of_mem _ hs)) hcalls
    refine ⟨last, ?_⟩
    rw [List.flatten_cons, committed_append, executes_append]
    refine ⟨middle, ?_, hlast⟩
    have hone := hport slots List.mem_cons_self
    cases hslots : committed slots with
    | nil =>
      rw [hslots] at hexecutes
      cases hexecutes
      exact .nil _
    | cons slot rest =>
      rw [hslots, List.length_cons] at hone
      obtain rfl : rest = [] := List.length_eq_zero_iff.1 (by omega)
      rw [hslots] at hexecutes hregs
      cases hexecutes with
      | cons exec reports next =>
        cases next
        exact .cons exec ⟨reports.1, hregs⟩ (.nil _)

end

/-! ## 6. Whole simulations -/

/-- A reference whose only instruction is `addi x1, x1, 1`. -/
def addiRef : Ref CoreContext where
  regs := id
  setRegs := fun context _ => context
  exec := fun context => some { context with
    gpr := Function.update context.gpr 1 (context.gpr 1 + 1), pc := context.pc + 4 }

/-- The reference of the example is lawful. -/
theorem addiRef_lawful : addiRef.Lawful := ⟨fun _ _ _ => rfl⟩

def addiSlot (pc wdata : UInt32) : Slot where
  pc := pc
  npc := pc + 4
  inst := 0x00108093
  rdidx := 1
  wen := 1
  wdata := wdata
  commit := 1
  skip := 0
  csrWen := 0
  csrWdata := 0
  csrWaddr := 0
  irqEn := 0

/-- The globals after the instruction at the reset vector, which starts the comparison. -/
def addiStarted : State CoreContext :=
  State.resync addiRef { (difftestConfigure addiRef (.initial 0) 0).record
    (addiSlot 0x80000000 1) with started := true } (addiSlot 0x80000000 1) []

/-- A simulation that passes: every call was accepted and `difftest_check_complete` holds. Then
the comparison has started, no more instructions were compared than committed, and the simulated
core has the registers of the reference. -/
theorem difftest_complete {R : Type} {ref : Ref R} (hlawful : ref.Lawful) (image : R)
    (resetVector : UInt32) (calls : List (List Slot)) {st : State R}
    (haccepts : accepts ref (difftestConfigure ref image resetVector) calls = some st)
    (hcomplete : difftestCheckComplete st = true) :
    st.started = true ∧ 0 < st.compareCount ∧ st.compareCount ≤ st.commitCount ∧
      st.dut.gpr = (ref.regs st.machine).gpr := by
  have hsynced : Synced ref st :=
    synced_accepts hlawful calls (synced_difftestConfigure image resetVector) haccepts
  have hcompared : st.compareCount ≠ 0 := by
    simp only [difftestCheckComplete, Bool.and_eq_true, bne_iff_ne] at hcomplete
    exact hcomplete.2
  have hstarted : st.started = true := by
    by_contra hwaiting
    exact hcompared (hsynced.waiting (by simpa using hwaiting))
  refine ⟨hstarted, by omega, hsynced.counted, ?_⟩
  rw [hsynced.equal hstarted, hsynced.current hstarted]

/-- From every state that accepted calls reach after the configuration, and for every further
sequence of plain calls: it is accepted exactly when it is in lockstep with the reference, it is
when the core is truthful, and with one commit port only then. -/
theorem difftest_correct {R : Type} {ref : Ref R} (hlawful : ref.Lawful) (image : R)
    (resetVector : UInt32) (past calls : List (List Slot)) {st : State R}
    (hpast : accepts ref (difftestConfigure ref image resetVector) past = some st)
    (hstarted : st.started = true)
    (hplain : Plain st.resetVector st.dut (committed calls.flatten)) :
    let truthful := ∃ last, Executes ref (Truthful ref) st.machine (committed calls.flatten) last
    let accepted := (accepts ref st calls).isSome = true
    (accepted ↔ Lockstep ref st.machine calls) ∧ (truthful → accepted) ∧
      ((∀ slots ∈ calls, (committed slots).length ≤ 1) → (accepted ↔ truthful)) := by
  have hsynced : Synced ref st :=
    synced_accepts hlawful past (synced_difftestConfigure image resetVector) hpast
  have hiff := (accepts_iff_lockstep hlawful calls hsynced hstarted hplain).1
  refine ⟨hiff.symm, ?_, ?_⟩
  · intro htruthful
    obtain ⟨last, hlast⟩ := htruthful
    exact hiff.1 (lockstep_of_truthful calls hlast)
  · intro hport
    constructor
    · intro haccepted
      exact truthful_of_lockstep calls hport (hiff.2 haccepted)
    · intro htruthful
      obtain ⟨last, hlast⟩ := htruthful
      exact hiff.1 (lockstep_of_truthful calls hlast)

/-- Two more additions, one in each call. -/
def addiCalls : List (List Slot) := [[addiSlot 0x80000004 2], [addiSlot 0x80000008 3]]

/-- They are accepted, so the core has reported the reference's steps. -/
theorem difftest_correct_addi :
    ∃ last, Executes addiRef (Truthful addiRef) addiStarted.machine (committed addiCalls.flatten)
      last :=
  ((@difftest_correct _ addiRef addiRef_lawful (.initial 0) 0 [[addiSlot 0x80000000 1]] addiCalls
    addiStarted rfl rfl ⟨by decide, by decide, by decide, by decide, trivial⟩).2.2 (by decide)).1 rfl

end EccFe.Soc.Difftest
