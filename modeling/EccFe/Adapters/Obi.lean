/-
EccFe.Adapters.Obi — `ibex/ecos_ibex_cpu_wrapper.sv` and
`cv32e40p/ecos_cv32e40p_cpu_wrapper.sv`.

The two wrappers are the same machine: a request is granted while the machine is idle
and no local response is visible, and answered one cycle after it is served.
-/
import EccFe.Adapters.TwoPort

namespace EccFe.Adapters.Obi

open Bus Transition

/-! ## 1. The wrappers -/

structure Core where
  instrReq : Bool
  instrAddr : BitVec 32
  dataReq : Bool
  dataWe : Bool
  dataBe : BitVec 4
  dataAddr : BitVec 32
  dataWdata : BitVec 32

structure Regs extends AxiRegs where
  servingDataQ : Bool
  instrRvalidQ : Bool
  instrRdataQ : BitVec 32
  dataRvalidQ : Bool
  localWriteRespQ : Bool
  dataRdataQ : BitVec 32

def Regs.reset : Regs := ⟨.reset, false, false, 0, false, false, 0⟩

section

variable (core : Core) (io : Socket) (s : Regs)

def dataWriteReq : Bool := core.dataReq && core.dataWe

def localUartWriteReq : Bool :=
  s.stateQ == stIdle && dataWriteReq core && core.dataAddr == uartAddr

def localHaltWriteReq : Bool :=
  s.stateQ == stIdle && dataWriteReq core && core.dataAddr == haltAddr

def localWriteReq : Bool := localUartWriteReq core s || localHaltWriteReq core s
def localUartWrite : Bool := localUartWriteReq core s && !s.localWriteRespQ
def localHaltWrite : Bool := localHaltWriteReq core s && !s.localWriteRespQ

def dataGnt : Bool := s.stateQ == stIdle && core.dataReq && !s.localWriteRespQ

def instrGnt : Bool :=
  s.stateQ == stIdle && !core.dataReq && core.instrReq && !s.localWriteRespQ

/-- `data_rvalid_i`. -/
def dataRvalid : Bool := s.dataRvalidQ || s.localWriteRespQ

def effects : List Effect :=
  (if localUartWrite core s then [.console (wstrbByte core.dataWdata core.dataBe)] else []) ++
    (if localHaltWrite core s then [haltEffect core.dataWdata] else [])

/-- `always @(posedge clock)`. -/
def posedge (reset : Bool) : Regs :=
  let s₁ : Regs := { s with
    instrRvalidQ := false
    dataRvalidQ := false
    localWriteRespQ := localUartWrite core s || localHaltWrite core s }
  if reset then .reset
  else if s.stateQ = stIdle then
    if !localWriteReq core s && !s.localWriteRespQ then
      if core.dataReq then
        { s₁ with
          toAxiRegs :=
            s.capture core.dataWe (wordAligned core.dataAddr) core.dataWdata core.dataBe
          servingDataQ := true }
      else if core.instrReq then
        { s₁ with
          toAxiRegs := s.capture false (wordAligned core.instrAddr) 0 0
          servingDataQ := false }
      else { s₁ with toAxiRegs := s.idle }
    else { s₁ with toAxiRegs := s.idle }
  else if s.stateQ = stReadData ∧ io.rvalid then
    if s.servingDataQ then
      { s₁ with toAxiRegs := s.transfer io, dataRdataQ := io.r.data, dataRvalidQ := true }
    else { s₁ with toAxiRegs := s.transfer io, instrRdataQ := io.r.data, instrRvalidQ := true }
  else if s.stateQ = stWriteResp ∧ io.bvalid then
    { s₁ with toAxiRegs := s.transfer io, dataRvalidQ := true }
  else { s₁ with toAxiRegs := s.transfer io }

end

def dataGrant (core : Core) : Grant :=
  .dataOf core.dataWe core.dataBe core.dataAddr core.dataWdata

def instrGrant (core : Core) : Grant := .fetchOf core.instrAddr

section

variable (dataId : BitVec 4) (core : Core) (io : Socket) (s : Regs)

/-- The `io_master_*` signals. -/
def socketCycle : SocketCycle := s.cycle io dataId (if s.servingDataQ then dataId else 0) 2

/-- Responses, grants, local effects and handshakes of a cycle. -/
def events : List PortEvent :=
  (if s.instrRvalidQ then [.respond .instr s.instrRdataQ] else []) ++
    (if dataRvalid s then [.respond .data s.dataRdataQ] else []) ++
    (if dataGnt core s then [.accept (dataGrant core)] else []) ++
    (if instrGnt core s then [.accept (instrGrant core)] else []) ++
    (effects core s).map .effect ++
    (socketCycle dataId io s).beats.map .beat

end

/-- The wrapper with reset low, seen from the socket. -/
def socketMachine (dataId : BitVec 4) : Machine Regs (Core × Socket) SocketCycle where
  next i s := posedge i.1 i.2 s false
  out i s := socketCycle dataId i.2 s

/-- The wrapper with reset low, seen from its ports, the console and the socket. -/
def machine (dataId : BitVec 4) : Machine Regs (Core × Socket) (List PortEvent) where
  next i s := posedge i.1 i.2 s false
  out i s := events dataId i.1 i.2 s

/-! ## 2. What the ports see -/

def Regs.view (s : Regs) : TwoPort where
  axi := s.toAxiRegs
  servingData := s.servingDataQ
  instrResp := s.instrRvalidQ
  instrRdata := s.instrRdataQ
  dataResp := dataRvalid s
  dataRdata := s.dataRdataQ

/-- The request granted in a cycle. -/
def granted (core : Core) (s : Regs) : Option Grant :=
  if dataGnt core s then some (dataGrant core)
  else if instrGnt core s then some (instrGrant core)
  else none

section

variable {core : Core} {io : Socket} {s : Regs}

theorem granted_idle (hidle : s.stateQ = stIdle) : granted core s =
    if s.localWriteRespQ then none
    else if core.dataReq then some (dataGrant core)
    else if core.instrReq then some (instrGrant core)
    else none := by
  unfold granted dataGnt instrGnt
  rw [hidle]
  cases s.localWriteRespQ <;> cases core.dataReq <;> cases core.instrReq <;> rfl

theorem granted_busy (hbusy : s.stateQ ≠ stIdle) : granted core s = none := by
  simp [granted, dataGnt, instrGnt, hbusy]

theorem accepts_eq : (if dataGnt core s then [.accept (dataGrant core)] else []) ++
    (if instrGnt core s then [.accept (instrGrant core)] else []) =
    ((granted core s).map Event.accept).toList (α := PortEvent) := by
  unfold granted
  cases hdata : dataGnt core s with
  | true =>
    have hinstr : instrGnt core s = false := by
      unfold dataGnt at hdata
      unfold instrGnt
      cases hreq : core.dataReq <;> simp_all
    simp [hinstr]
  | false => cases instrGnt core s <;> rfl

theorem effects_eq : effects core s = ((granted core s).bind Grant.effect?).toList := by
  unfold effects localUartWrite localHaltWrite localUartWriteReq localHaltWriteReq dataWriteReq
  by_cases hidle : s.stateQ = stIdle
  · rw [granted_idle hidle, hidle]
    cases s.localWriteRespQ with
    | true => simp
    | false =>
      cases core.dataReq with
      | true => simp [dataGrant, Grant.effect?_dataOf]
      | false => cases core.instrReq <;> simp [instrGrant, Grant.effect?_fetchOf]
  · rw [granted_busy hidle]
    simp [hidle]

theorem events_eq (dataId : BitVec 4) :
    events dataId core io s = s.view.events dataId io (granted core s) := by
  unfold events TwoPort.events
  rw [← accepts_eq, effects_eq, Option.toList_map]
  simp only [List.append_assoc]
  rfl

theorem localWrite_eq : (localUartWrite core s || localHaltWrite core s) =
    (localWriteReq core s && !s.localWriteRespQ) := by
  unfold localUartWrite localHaltWrite localWriteReq
  rw [Bool.and_or_distrib_right]

/-- A data request is local when its grant has an effect. -/
theorem localWriteReq_data (hidle : s.stateQ = stIdle) (hreq : core.dataReq = true) :
    localWriteReq core s = ((dataGrant core).effect?).isSome := by
  unfold localWriteReq localUartWriteReq localHaltWriteReq dataWriteReq dataGrant
  rw [Grant.effect?_isSome_dataOf, hidle, hreq]
  rfl

theorem localWriteReq_instr (hreq : core.dataReq = false) : localWriteReq core s = false := by
  simp [localWriteReq, localUartWriteReq, localHaltWriteReq, dataWriteReq, hreq]

/-- A clock edge of the wrapper, as the ports see it. -/
theorem view_posedge : (posedge core io s false).view = s.view.next io (granted core s) := by
  by_cases hidle : s.stateQ = stIdle
  · have hview : s.view.axi.stateQ = stIdle := hidle
    have hgranted : granted core s = _ := granted_idle hidle
    rw [posedge, localWrite_eq, if_neg Bool.false_ne_true, if_pos hidle]
    cases hresp : s.localWriteRespQ with
    | true =>
      rw [hresp, if_pos rfl] at hgranted
      rw [hgranted, TwoPort.next_none hview, Bool.not_true, Bool.and_false, Bool.and_false]
      rfl
    | false =>
      rw [hresp, if_neg Bool.false_ne_true] at hgranted
      rw [Bool.not_false, Bool.and_true, Bool.and_true]
      cases hreq : core.dataReq with
      | true =>
        rw [hreq, if_pos rfl] at hgranted
        rw [hgranted, if_pos rfl, localWriteReq_data hidle hreq]
        cases heffect : (dataGrant core).effect? with
        | some e =>
          rw [TwoPort.next_local hview (by rw [heffect]; rfl)]
          rfl
        | none =>
          rw [TwoPort.next_capture hview heffect]
          rfl
      | false =>
        rw [hreq, if_neg Bool.false_ne_true] at hgranted
        rw [hgranted, if_neg Bool.false_ne_true, localWriteReq_instr hreq]
        cases core.instrReq with
        | true =>
          have heffect : (instrGrant core).effect? = none := Grant.effect?_fetchOf _
          rw [if_pos rfl, if_pos rfl, TwoPort.next_capture hview heffect]
          rfl
        | false =>
          rw [if_neg Bool.false_ne_true, if_neg Bool.false_ne_true, TwoPort.next_none hview]
          rfl
  · have hview : s.view.axi.stateQ ≠ stIdle := hidle
    have hlocal : (localUartWrite core s || localHaltWrite core s) = false := by
      simp [localUartWrite, localHaltWrite, localUartWriteReq, localHaltWriteReq, hidle]
    unfold posedge TwoPort.next
    rw [hlocal, if_neg Bool.false_ne_true, if_neg hidle, if_neg hview]
    by_cases hread : s.stateQ = stReadData ∧ io.rvalid
    · have hviewRead : s.view.axi.stateQ = stReadData ∧ io.rvalid := hread
      rw [if_pos hread, if_pos hviewRead]
      cases hserving : s.servingDataQ <;> simp [Regs.view, dataRvalid, hserving]
    · have hviewRead : ¬(s.view.axi.stateQ = stReadData ∧ io.rvalid) := hread
      rw [if_neg hread, if_neg hviewRead]
      by_cases hwrite : s.stateQ = stWriteResp ∧ io.bvalid
      · have hviewWrite : s.view.axi.stateQ = stWriteResp ∧ io.bvalid := hwrite
        rw [if_pos hwrite, if_pos hviewWrite]
        rfl
      · have hviewWrite : ¬(s.view.axi.stateQ = stWriteResp ∧ io.bvalid) := hwrite
        rw [if_neg hwrite, if_neg hviewWrite]
        rfl

end

theorem shows_reset (dataId : BitVec 4) :
    Regs.reset.view.Shows dataId (TwoPort.serverStart dataId) := TwoPort.shows_reset dataId

/-! ## 3. Runs -/

/-- The wrapper goes through the states of the server. -/
theorem simulates (dataId : BitVec 4) : (machine dataId).Simulates
    (Server.machine ResponseChannel (plan dataId)) (fun s m => s.view.Shows dataId m)
    (fun s i => (i.2, granted i.1 s)) where
  out s m i h := (events_eq dataId).trans (h.events_eq granted_busy)
  next s m i h := by
    show (posedge i.1 i.2 s false).view.Shows dataId _
    rw [view_posedge]
    exact h.next

theorem socket_simulates (dataId : BitVec 4) : (socketMachine dataId).Simulates
    (Server.socketMachine ReadChannel ResponseChannel (plan dataId))
    (fun s m => s.view.Shows dataId m) (fun s i => (i.2, granted i.1 s)) where
  out _ _ i h := h.axi.cycle_eq i.2
  next := (simulates dataId).next

theorem safe (dataId : BitVec 4) (core : Core) (io : Socket) (s : Regs)
    (inputs : List (Core × Socket)) :
    MasterSafe ((socketMachine dataId).trace (posedge core io s true) inputs) := by
  show MasterSafe ((socketMachine dataId).trace .reset inputs)
  rw [(Machine.trace_of_simulates (socket_simulates dataId) (shows_reset dataId) inputs).1]
  exact Server.safe _ _ _ _

/-- In every run from reset, the responses, local effects and transfers are those of the
grants, once each and in their order. -/
theorem exactlyOnce (dataId : BitVec 4) (core : Core) (io : Socket) (s : Regs)
    (inputs : List (Core × Socket)) : ∃ done current, ExactlyOnce (plan dataId)
      ((machine dataId).trace (posedge core io s true) inputs).flatten done current := by
  show ∃ done current, ExactlyOnce (plan dataId)
    ((machine dataId).trace .reset inputs).flatten done current
  rw [(Machine.trace_of_simulates (simulates dataId) (shows_reset dataId) inputs).1]
  exact Server.exactlyOnce _ _ _ _

end EccFe.Adapters.Obi
