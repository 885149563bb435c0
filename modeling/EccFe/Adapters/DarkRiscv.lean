/-
EccFe.Adapters.DarkRiscv — `darkriscv/ecos_darkriscv_cpu_wrapper.v`.

The core has an instruction and a data bus. Its low addresses are an alias of the memory window,
and it takes no request in the cycle of an acknowledgement.
-/
import EccFe.Adapters.Socket

namespace EccFe.Adapters.DarkRiscv

open Bus Transition

structure Core where
  instrReq : Bool
  instrAddr : BitVec 32
  dataReq : Bool
  dataAddr : BitVec 32
  dataLen : BitVec 3
  dataBe : BitVec 4
  dataRd : Bool
  dataWr : Bool
  dataWdata : BitVec 32

structure Regs extends AxiRegs where
  servingDataQ : Bool
  axiSizeQ : BitVec 3
  instrRdataQ : BitVec 32
  instrAckQ : Bool
  dataRdataQ : BitVec 32
  dataAckQ : Bool

def Regs.reset : Regs := ⟨.reset, false, 2, 0, false, 0, false⟩

/-! ## 1. Addresses and sizes -/

def lowAliasLimit : BitVec 32 := 0x10000000
def lowAliasBase : BitVec 32 := 0x20000000

def ecosBusAddr (addr : BitVec 32) : BitVec 32 :=
  if addr < lowAliasLimit then addr + lowAliasBase else addr

def darkLenToAxiSize (len : BitVec 3) : BitVec 3 :=
  if len.getLsbD 0 then 0 else if len.getLsbD 1 then 1 else 2

/-! ## 2. The wrapper -/

section

variable (core : Core) (io : Socket) (s : Regs)

def dataWriteReq : Bool := core.dataReq && core.dataWr
def dataReadReq : Bool := core.dataReq && core.dataRd
def readyForNewReq : Bool := !s.dataAckQ && !s.instrAckQ

def localUartWrite : Bool :=
  readyForNewReq s && s.stateQ == stIdle && dataWriteReq core && core.dataAddr == uartAddr

def localHaltWrite : Bool :=
  readyForNewReq s && s.stateQ == stIdle && dataWriteReq core && core.dataAddr == haltAddr

def localWrite : Bool := localUartWrite core s || localHaltWrite core s

/-- The console and halt effects of the cycle. -/
def effects : List Effect :=
  (if localUartWrite core s then [.console (wstrbByte core.dataWdata core.dataBe)] else []) ++
    (if localHaltWrite core s then [haltEffect core.dataWdata] else [])

/-- `always @(posedge clock)`. -/
def posedge (reset : Bool) : Regs :=
  let s₁ : Regs := { s with instrAckQ := false, dataAckQ := localWrite core s }
  if reset then .reset
  else if s.stateQ = stIdle then
    if readyForNewReq s && !localWrite core s then
      if core.dataReq then
        let taken : Regs := { s₁ with
          toAxiRegs := s.capture (dataWriteReq core) (wordAligned (ecosBusAddr core.dataAddr))
            core.dataWdata core.dataBe
          servingDataQ := true
          axiSizeQ := darkLenToAxiSize core.dataLen }
        if dataWriteReq core || dataReadReq core then taken
        else { taken with stateQ := stIdle, dataAckQ := true }
      else if core.instrReq then
        { s₁ with
          toAxiRegs := s.capture false (wordAligned (ecosBusAddr core.instrAddr)) 0 0
          servingDataQ := false
          axiSizeQ := 2 }
      else { s₁ with toAxiRegs := s.idle }
    else { s₁ with toAxiRegs := s.idle }
  else if s.stateQ = stReadData ∧ io.rvalid then
    if s.servingDataQ then
      { s₁ with toAxiRegs := s.transfer io, dataRdataQ := io.r.data, dataAckQ := true }
    else
      { s₁ with toAxiRegs := s.transfer io, instrRdataQ := io.r.data, instrAckQ := true }
  else if s.stateQ = stWriteResp ∧ io.bvalid then
    { s₁ with toAxiRegs := s.transfer io, dataAckQ := true }
  else { s₁ with toAxiRegs := s.transfer io }

/-- The `io_master_*` signals. -/
def socketCycle (io : Socket) (s : Regs) : SocketCycle :=
  s.cycle io 2 (if s.servingDataQ then 2 else 0) s.axiSizeQ

end

end EccFe.Adapters.DarkRiscv
