/-
EccFe.Adapters.Socket — the AXI side shared by the wrappers of
`fecompiler/adapters/*/ecos_*_cpu_wrapper.{v,sv}`.

Every wrapper has the same registers and the same `case (state_q)` arms for a
transfer under way; the ST_IDLE arm and the response registers are its own.
`AxiRegs.Shows` says that the registers are those of the one-at-a-time master.
-/
import EccFe.Bus.Master

namespace EccFe.Adapters

open Bus Transition

/-! ## 1. Signals -/

/-- The signals of AW or AR. -/
structure AddressChannel where
  addr : BitVec 32
  id : BitVec 4
  len : BitVec 8
  size : BitVec 3
  burst : BitVec 2
  lock : BitVec 1
  cache : BitVec 4
  prot : BitVec 3
  qos : BitVec 4
  region : BitVec 4
  deriving DecidableEq

/-- The signals of W. -/
structure WriteChannel where
  data : BitVec 32
  strb : BitVec 4
  last : Bool
  deriving DecidableEq

/-- The signals of R. -/
structure ReadChannel where
  data : BitVec 32
  resp : BitVec 2
  last : Bool
  id : BitVec 4
  deriving DecidableEq, Inhabited

/-- The signals of B. -/
structure ResponseChannel where
  resp : BitVec 2
  id : BitVec 4
  deriving DecidableEq, Inhabited

abbrev SocketCycle := Cycle AddressChannel WriteChannel ReadChannel ResponseChannel
abbrev SocketMaster := Master AddressChannel WriteChannel

/-- The `io_master_*` inputs. -/
abbrev Socket := SlaveSide ReadChannel ResponseChannel

def haltAddr : BitVec 32 := 0x1000000c
def uartAddr : BitVec 32 := 0x10000000

def stIdle : BitVec 3 := 0
def stReadAddr : BitVec 3 := 1
def stReadData : BitVec 3 := 2
def stWriteAddrData : BitVec 3 := 3
def stWriteResp : BitVec 3 := 4

/-- `{addr[31:2], 2'b00}`. -/
def wordAligned (addr : BitVec 32) : BitVec 32 := addr.extractLsb' 2 30 ++ 0#2

/-- `wstrb_byte`: the lowest byte the strobes select. -/
def wstrbByte (data : BitVec 32) (strb : BitVec 4) : BitVec 8 :=
  if strb.getLsbD 0 then data.extractLsb' 0 8
  else if strb.getLsbD 1 then data.extractLsb' 8 8
  else if strb.getLsbD 2 then data.extractLsb' 16 8
  else if strb.getLsbD 3 then data.extractLsb' 24 8
  else data.extractLsb' 0 8

/-- What a local store does in simulation. -/
inductive Effect where
  /-- `$write("%c", byte)`. -/
  | console (byte : BitVec 8)
  /-- `HIT GOOD TRAP`. -/
  | goodTrap
  /-- `HIT BAD TRAP, code=…`. -/
  | badTrap (code : BitVec 32)
  deriving DecidableEq

/-- What a store to the halt address does. -/
def haltEffect (wdata : BitVec 32) : Effect := if wdata = 0 then .goodTrap else .badTrap wdata

/-! ## 2. Registers -/

structure AxiRegs where
  stateQ : BitVec 3
  axiAddrQ : BitVec 32
  axiWdataQ : BitVec 32
  axiWstrbQ : BitVec 4
  awDoneQ : Bool
  wDoneQ : Bool

/-- An address channel of a single 4-byte or narrower beat. -/
def addressChannel (addr : BitVec 32) (id : BitVec 4) (size : BitVec 3) : AddressChannel where
  addr := addr
  id := id
  len := 0
  size := size
  burst := 1
  lock := 0
  cache := 0
  prot := 0
  qos := 0
  region := 0

namespace AxiRegs

def reset : AxiRegs := ⟨stIdle, 0, 0, 0, false, false⟩

section

variable (io : Socket) (s : AxiRegs)

def awvalid : Bool := s.stateQ == stWriteAddrData && !s.awDoneQ
def wvalid : Bool := s.stateQ == stWriteAddrData && !s.wDoneQ
def awFire : Bool := s.awvalid && io.awready
def wFire : Bool := s.wvalid && io.wready
def awDoneNext : Bool := s.awDoneQ || s.awFire io
def wDoneNext : Bool := s.wDoneQ || s.wFire io

/-- The `io_master_*` signals; `awid`, `arid` and `size` are the wrapper's. -/
def cycle (awid arid : BitVec 4) (size : BitVec 3) : SocketCycle where
  awvalid := s.awvalid
  awready := io.awready
  aw := addressChannel s.axiAddrQ awid size
  wvalid := s.wvalid
  wready := io.wready
  w := ⟨s.axiWdataQ, s.axiWstrbQ, true⟩
  bvalid := io.bvalid
  bready := s.stateQ == stWriteResp
  b := io.b
  arvalid := s.stateQ == stReadAddr
  arready := io.arready
  ar := addressChannel s.axiAddrQ arid size
  rvalid := io.rvalid
  rready := s.stateQ == stReadData
  r := io.r

/-- The arms of `case (state_q)` other than ST_IDLE. -/
def transfer : AxiRegs :=
  if s.stateQ = stReadAddr then
    { s with stateQ := if io.arready then stReadData else s.stateQ }
  else if s.stateQ = stReadData then
    { s with stateQ := if io.rvalid then stIdle else s.stateQ }
  else if s.stateQ = stWriteAddrData then
    { s with
      awDoneQ := s.awDoneNext io
      wDoneQ := s.wDoneNext io
      stateQ := if s.awDoneNext io && s.wDoneNext io then stWriteResp else s.stateQ }
  else if s.stateQ = stWriteResp then
    { s with stateQ := if io.bvalid then stIdle else s.stateQ }
  else { s with stateQ := stIdle }

/-- What every ST_IDLE arm starts with. -/
def idle : AxiRegs := { s with awDoneQ := false, wDoneQ := false }

/-- A request is taken over. -/
def capture (write : Bool) (addr wdata : BitVec 32) (wstrb : BitVec 4) : AxiRegs :=
  { s.idle with
    axiAddrQ := addr
    axiWdataQ := wdata
    axiWstrbQ := wstrb
    stateQ := if write then stWriteAddrData else stReadAddr }

end

end AxiRegs

/-! ## 3. The registers of the one-at-a-time master -/

def code : Phase → BitVec 3
  | .idle => stIdle
  | .readAddr => stReadAddr
  | .readData => stReadData
  | .writeAddrData => stWriteAddrData
  | .writeResp => stWriteResp

namespace AxiRegs

/-- The registers are those of the master. -/
structure Shows (awid arid : BitVec 4) (size : BitVec 3) (s : AxiRegs) (m : SocketMaster) : Prop where
  stateQ : s.stateQ = code m.phase
  awDoneQ : s.awDoneQ = m.awDone
  wDoneQ : s.wDoneQ = m.wDone
  aw : m.shown.aw = addressChannel s.axiAddrQ awid size
  ar : m.shown.ar = addressChannel s.axiAddrQ arid size
  w : m.shown.w = ⟨s.axiWdataQ, s.axiWstrbQ, true⟩

variable {awid arid : BitVec 4} {size : BitVec 3} {s : AxiRegs} {m : SocketMaster}

theorem code_inj {phase phase' : Phase} : code phase = code phase' ↔ phase = phase' := by
  cases phase <;> cases phase' <;> decide

theorem Shows.phase_iff (h : Shows awid arid size s m) (phase : Phase) :
    s.stateQ = code phase ↔ m.phase = phase := by
  rw [h.stateQ, code_inj]

theorem Shows.cycle_eq (h : Shows awid arid size s m) (io : Socket) :
    s.cycle io awid arid size = m.cycle io := by
  unfold cycle awvalid wvalid Master.cycle
  rw [h.stateQ, h.awDoneQ, h.wDoneQ, h.aw, h.ar, h.w]
  cases m.phase <;> rfl

theorem Shows.transfer (h : Shows awid arid size s m) (hbusy : m.phase ≠ .idle) (io : Socket)
    (request : Option (Request AddressChannel WriteChannel)) :
    Shows awid arid size (s.transfer io) (m.next io request) := by
  obtain ⟨hstate, hawDone, hwDone, haw, har, hw⟩ := h
  unfold AxiRegs.transfer awDoneNext wDoneNext awFire wFire awvalid wvalid Master.next
  cases hphase : m.phase with
  | idle => exact absurd hphase hbusy
  | readAddr =>
    rw [hphase, code] at hstate
    rw [if_pos hstate]
    cases io.arready with
    | true => exact ⟨rfl, hawDone, hwDone, haw, har, hw⟩
    | false => exact ⟨by simp [hstate, hphase, code], hawDone, hwDone, haw, har, hw⟩
  | readData =>
    rw [hphase, code] at hstate
    rw [if_neg (by rw [hstate]; decide), if_pos hstate]
    cases io.rvalid with
    | true => exact ⟨rfl, hawDone, hwDone, haw, har, hw⟩
    | false => exact ⟨by simp [hstate, hphase, code], hawDone, hwDone, haw, har, hw⟩
  | writeAddrData =>
    rw [hphase, code] at hstate
    rw [if_neg (by rw [hstate]; decide), if_neg (by rw [hstate]; decide), if_pos hstate, hstate,
      hawDone, hwDone]
    refine ⟨?_, ?_, ?_, haw, har, hw⟩
    · cases m.awDone <;> cases m.wDone <;> cases io.awready <;> cases io.wready <;> rfl
    · cases m.awDone <;> cases io.awready <;> rfl
    · cases m.wDone <;> cases io.wready <;> rfl
  | writeResp =>
    rw [hphase, code] at hstate
    rw [if_neg (by rw [hstate]; decide), if_neg (by rw [hstate]; decide),
      if_neg (by rw [hstate]; decide), if_pos hstate]
    cases io.bvalid with
    | true => exact ⟨rfl, hawDone, hwDone, haw, har, hw⟩
    | false => exact ⟨by simp [hstate, hphase, code], hawDone, hwDone, haw, har, hw⟩

/-- An idle cycle without a request. -/
theorem Shows.idle (h : Shows awid arid size s m) (hidle : m.phase = .idle) (io : Socket) :
    Shows awid arid size s.idle (m.next io none) := by
  unfold Master.next
  rw [hidle]
  exact ⟨h.stateQ.trans (congrArg code hidle), rfl, rfl, h.aw, h.ar, h.w⟩

/-- The request that `capture` stands for. -/
def captured (awid arid : BitVec 4) (size : BitVec 3) (write : Bool) (addr wdata : BitVec 32)
    (wstrb : BitVec 4) : Request AddressChannel WriteChannel where
  write := write
  ar := addressChannel addr arid size
  aw := addressChannel addr awid size
  w := ⟨wdata, wstrb, true⟩

/-- An idle cycle with a request. -/
theorem shows_capture (hidle : m.phase = .idle) (io : Socket) (write : Bool)
    (addr wdata : BitVec 32) (wstrb : BitVec 4) :
    Shows awid arid size (s.capture write addr wdata wstrb)
      (m.next io (some (captured awid arid size write addr wdata wstrb))) := by
  unfold Master.next
  rw [hidle]
  refine ⟨?_, rfl, rfl, rfl, rfl, rfl⟩
  cases write <;> rfl

theorem shows_reset (awid arid : BitVec 4) (size : BitVec 3) :
    Shows awid arid size reset (.start (captured awid arid size false 0 0 0)) :=
  ⟨rfl, rfl, rfl, rfl, rfl, rfl⟩

end AxiRegs

end EccFe.Adapters
