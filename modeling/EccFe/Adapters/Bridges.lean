/-
EccFe.Adapters.Bridges — what the CPU bridges keep in every run from reset.

Ibex and CV32E40P are the machine of `Adapters.Obi`, SERV and VexRiscv that of
`Adapters.Wishbone`; each data transfer carries the id of its wrapper.
-/
import EccFe.Adapters.Picorv32
import EccFe.Adapters.Scr1
import EccFe.Adapters.Obi
import EccFe.Adapters.Wishbone

namespace EccFe.Adapters

open Bus Transition

/-! ## 1. AXI rules -/

/-- `io_master_awid` of the Ibex wrapper. -/
def ibexDataId : BitVec 4 := 2

/-- `io_master_awid` of the CV32E40P wrapper. -/
def cv32e40pDataId : BitVec 4 := 2

/-- Each bridge keeps the rules of an AXI master, whatever its core and the slave do. -/
theorem bridges_axi_safe :
    (∀ core io s inputs, MasterSafe
      (Picorv32.socketMachine.trace (Picorv32.posedge core io s true) inputs)) ∧
    (∀ wires io s inputs, MasterSafe
      (Wishbone.serv.socketMachine.trace (Wishbone.serv.posedge wires io s true) inputs)) ∧
    (∀ core io s inputs, MasterSafe
      ((Obi.socketMachine ibexDataId).trace (Obi.posedge core io s true) inputs)) ∧
    (∀ (Cmd Resp : Type) [DecidableEq Cmd] (memif : Scr1.Memif Cmd Resp) core io s inputs,
      MasterSafe
        ((Scr1.socketMachine memif).trace (Scr1.posedge memif core io s true) inputs)) :=
  ⟨Picorv32.safe, Wishbone.serv.safe, Obi.safe ibexDataId, fun _ _ _ memif => Scr1.safe memif⟩

/-! ## 2. Services -/

/-- Ibex and CV32E40P serve every grant once, in order, and do nothing without one. -/
theorem ibex_cv32e40p_exactlyOnce (core : Obi.Core) (io : Socket) (s : Obi.Regs)
    (inputs : List (Obi.Core × Socket)) :
    (∃ done current, ExactlyOnce (plan ibexDataId)
      ((Obi.machine ibexDataId).trace (Obi.posedge core io s true) inputs).flatten done current) ∧
    (∃ done current, ExactlyOnce (plan cv32e40pDataId)
      ((Obi.machine cv32e40pDataId).trace (Obi.posedge core io s true) inputs).flatten done
        current) :=
  ⟨Obi.exactlyOnce _ core io s inputs, Obi.exactlyOnce _ core io s inputs⟩

/-- A run serves every held request once and answers it once, and nothing is under way when
the wrapper is at rest. -/
def ServesHeld (plan : Plan Grant Port AddressChannel WriteChannel ReadChannel (BitVec 32) Effect)
    (trace : List Wishbone.PortSeen) (last : Wishbone.Regs) : Prop :=
  ∃ done current, ExactlyOnce (β := ResponseChannel) plan (eventsOf trace) done current ∧
    Answered plan trace done current ∧ (Wishbone.Wrapper.AtRest last → current = [])

/-- SERV and VexRiscv serve every held request once, and answer it once. -/
theorem serv_vexriscv_exactlyOnce :
    (∀ wires io s inputs,
      Held (portsOf (Wishbone.serv.machine.trace (Wishbone.serv.posedge wires io s true) inputs)) →
        ServesHeld (plan 0)
          (Wishbone.serv.machine.trace (Wishbone.serv.posedge wires io s true) inputs)
          (Wishbone.serv.machine.run (Wishbone.serv.posedge wires io s true) inputs)) ∧
    (∀ wires io s inputs,
      Held (portsOf
        (Wishbone.vexriscv.machine.trace (Wishbone.vexriscv.posedge wires io s true) inputs)) →
        ServesHeld (plan 0)
          (Wishbone.vexriscv.machine.trace (Wishbone.vexriscv.posedge wires io s true) inputs)
          (Wishbone.vexriscv.machine.run (Wishbone.vexriscv.posedge wires io s true) inputs)) :=
  ⟨Wishbone.serv.exactlyOnce, Wishbone.vexriscv.exactlyOnce⟩

/-! ### A misaligned address -/

/-- The plan of a transfer at the address that the port presents. -/
def presentedPlan : Plan Grant Port AddressChannel WriteChannel ReadChannel (BitVec 32) Effect :=
  { plan 0 with request := fun g => AxiRegs.captured 0 0 2 g.we g.addr g.wdata g.be }

/-- A data read at 0x80000001. -/
def misalignedRead : Wishbone.ServWires where
  ibusAddr := 0
  ibusCyc := false
  dbusAddr := 0x80000001
  dbusWdata := 0
  dbusSel := 2
  dbusWe := false
  dbusCyc := true

/-- A slave that takes every address and answers nothing. -/
def takingSlave : Socket := ⟨true, true, false, default, true, false, default⟩

def consoleStore : Wishbone.ServWires where
  ibusAddr := 0
  ibusCyc := false
  dbusAddr := uartAddr
  dbusWdata := 65
  dbusSel := 1
  dbusWe := true
  dbusCyc := true

theorem serv_vexriscv_exactlyOnce_console :
    ServesHeld (plan 0)
      (Wishbone.serv.machine.trace (Wishbone.serv.posedge consoleStore takingSlave .reset true)
        [(consoleStore, takingSlave), (consoleStore, takingSlave)])
      (Wishbone.serv.machine.run (Wishbone.serv.posedge consoleStore takingSlave .reset true)
        [(consoleStore, takingSlave), (consoleStore, takingSlave)]) :=
  serv_vexriscv_exactlyOnce.1 consoleStore takingSlave .reset _
    (.cons_cons (fun _ _ hrequest _ => hrequest) (.singleton _))

/-- SERV reads the word of a misaligned address, not the address itself. -/
theorem serv_misaligned : ¬∀ wires io s inputs,
    Held (portsOf (Wishbone.serv.machine.trace (Wishbone.serv.posedge wires io s true) inputs)) →
      ServesHeld presentedPlan
        (Wishbone.serv.machine.trace (Wishbone.serv.posedge wires io s true) inputs)
        (Wishbone.serv.machine.run (Wishbone.serv.posedge wires io s true) inputs) := by
  intro hall
  obtain ⟨done, current, honce, -, -⟩ := hall misalignedRead takingSlave .reset
    [(misalignedRead, takingSlave), (misalignedRead, takingSlave)]
    (.cons_cons (fun _ _ hrequest _ => hrequest) (.singleton _))
  have hevents : eventsOf (Wishbone.serv.machine.trace
      (Wishbone.serv.posedge misalignedRead takingSlave .reset true)
      [(misalignedRead, takingSlave), (misalignedRead, takingSlave)]) =
      [.accept (Wishbone.dbusRequest (Wishbone.serv.core misalignedRead)),
        .beat (.ar (addressChannel 0x80000000 0 2))] := by rfl
  rw [hevents] at honce
  have hdone : done = [] := List.map_eq_nil_iff.mp honce.responded.symm
  have hcurrent := honce.events
  rw [hdone, List.flatMap_nil, List.nil_append] at hcurrent
  subst hcurrent
  rcases honce.begun with hnil | ⟨⟨k, events, hserves⟩, rest, -, heq⟩
  · cases hnil
  · cases hserves with
    | effect heffect data => simp at heq
    | read heffect hread r =>
      -- The address on the bus is not the one presented.
      simp only [List.cons_append, List.cons.injEq, Event.accept.injEq, Event.beat.injEq,
        Beat.ar.injEq] at heq
      obtain ⟨rfl, haddress, -⟩ := heq
      exact absurd (congrArg AddressChannel.addr haddress) (by decide)
    | write heffect hwrite hbeats b data =>
      simp only [List.cons_append, List.cons.injEq, Event.beat.injEq] at heq
      obtain ⟨-, rfl, -⟩ := heq
      simpa using hbeats.subset (List.mem_cons_self ..)

/-! ## 3. Completions in the last beat -/

/-- PicoRV32 requests are held until `mem_ready`; a run serves each of them once, completes
it once, and leaves nothing under way when the wrapper is idle. -/
def PicorvServes (trace : List Picorv32.PicoSeen) (last : AxiRegs) : Prop :=
  ∃ done current,
    ExactlyOnce (β := ResponseChannel) Picorv32.plan (eventsOf trace) done current ∧
    Answered Picorv32.plan trace done current ∧ (last.stateQ = stIdle → current = [])

/-- PicoRV32 serves every held request once, SCR1 every request that it acknowledges. -/
theorem picorv32_scr1_exactlyOnce :
    (∀ core io s inputs,
      Held (portsOf (Picorv32.machine.trace (Picorv32.posedge core io s true) inputs)) →
        PicorvServes (Picorv32.machine.trace (Picorv32.posedge core io s true) inputs)
          (Picorv32.machine.run (Picorv32.posedge core io s true) inputs)) ∧
    (∀ (Cmd Resp : Type) [DecidableEq Cmd] [DecidableEq Resp] (memif : Scr1.Memif Cmd Resp),
      memif.respNotrdy ≠ memif.respRdyOk → ∀ core io s inputs,
        ∃ done current, ExactlyOnce (Scr1.plan memif)
          ((Scr1.machine memif).trace (Scr1.posedge memif core io s true) inputs).flatten
          done current) :=
  ⟨Picorv32.exactlyOnce, fun _ _ _ _ memif hresp => Scr1.exactlyOnce memif hresp⟩

/-- A console store of PicoRV32. -/
def picorvStore : Picorv32.Core := ⟨true, uartAddr, 65, 1⟩

/-- Constants in the order of an enumeration. -/
def countedMemif : Scr1.Memif Bool (BitVec 2) := ⟨true, 0, 1, 2, 0, 1⟩

def scr1Store : Scr1.Core Bool := ⟨false, 0, true, true, 0, uartAddr, 65⟩

theorem picorv32_scr1_exactlyOnce_console :
    PicorvServes
      (Picorv32.machine.trace (Picorv32.posedge picorvStore takingSlave .reset true)
        [(picorvStore, takingSlave), (picorvStore, takingSlave)])
      (Picorv32.machine.run (Picorv32.posedge picorvStore takingSlave .reset true)
        [(picorvStore, takingSlave), (picorvStore, takingSlave)]) ∧
    ∃ done current, ExactlyOnce (Scr1.plan countedMemif)
      ((Scr1.machine countedMemif).trace
        (Scr1.posedge countedMemif scr1Store takingSlave (.reset countedMemif) true)
        [(scr1Store, takingSlave), (scr1Store, takingSlave)]).flatten done current :=
  ⟨picorv32_scr1_exactlyOnce.1 picorvStore takingSlave .reset _
      (.cons_cons (fun _ _ hrequest _ => hrequest) (.singleton _)),
    picorv32_scr1_exactlyOnce.2 Bool (BitVec 2) countedMemif (by decide) scr1Store takingSlave _ _⟩

end EccFe.Adapters
