/-
EccFe.Adapters.Scr1 — `scr1/ecos_scr1_cpu_wrapper.sv`.

The memory interface constants of the core come from `scr1_memif.svh`, which is not in
the repository; `Memif` stands for them.
-/
import EccFe.Adapters.TwoPort

namespace EccFe.Adapters.Scr1

open Bus Transition

/-- The constants of `scr1_memif.svh`. -/
structure Memif (Cmd Resp : Type) where
  cmdWr : Cmd
  widthByte : BitVec 2
  widthHword : BitVec 2
  widthWord : BitVec 2
  respNotrdy : Resp
  respRdyOk : Resp

structure Core (Cmd : Type) where
  imemReq : Bool
  imemAddr : BitVec 32
  dmemReq : Bool
  dmemCmd : Cmd
  dmemWidth : BitVec 2
  dmemAddr : BitVec 32
  dmemWdata : BitVec 32

structure Regs (Resp : Type) extends AxiRegs where
  servingDmemQ : Bool
  axiSizeQ : BitVec 3
  axiAddrLowQ : BitVec 2
  reqWidthQ : BitVec 2
  imemRdataQ : BitVec 32
  imemRespQ : Resp
  dmemRdataQ : BitVec 32
  dmemRespQ : Resp

section

variable {Cmd Resp : Type} (memif : Memif Cmd Resp)

def Regs.reset : Regs Resp :=
  ⟨.reset, false, 2, 0, memif.widthWord, 0, memif.respNotrdy, 0, memif.respNotrdy⟩

/-! ## 1. Lanes -/

def widthToAxiSize (width : BitVec 2) : BitVec 3 :=
  if width = memif.widthByte then 0
  else if width = memif.widthHword then 1
  else 2

/-- `8 * {addr_low[1], 1'b0}` and the like, as a shift in bits. -/
def laneShift (addrLow : BitVec 2) : Nat := 8 * addrLow.toNat

/-- `{addr_low[1], 1'b0}`. -/
def halfLane (addrLow : BitVec 2) : BitVec 2 := addrLow &&& 2

def widthToWstrb (width addrLow : BitVec 2) : BitVec 4 :=
  if width = memif.widthByte then 1 <<< addrLow.toNat
  else if width = memif.widthHword then 3 <<< (halfLane addrLow).toNat
  else 15

def alignWriteData (data : BitVec 32) (width addrLow : BitVec 2) : BitVec 32 :=
  if width = memif.widthByte then (data &&& 0xff) <<< laneShift addrLow
  else if width = memif.widthHword then (data &&& 0xffff) <<< laneShift (halfLane addrLow)
  else data

def alignReadData (data : BitVec 32) (width addrLow : BitVec 2) : BitVec 32 :=
  if width = memif.widthByte then data >>> laneShift addrLow
  else if width = memif.widthHword then data >>> laneShift (halfLane addrLow)
  else data

/-! ## 2. The wrapper -/

variable [DecidableEq Cmd] (core : Core Cmd) (io : Socket) (s : Regs Resp)

/-- `addr[1:0]`. -/
def addrLow (addr : BitVec 32) : BitVec 2 := addr.extractLsb' 0 2

def dmemWriteReq : Bool := core.dmemCmd = memif.cmdWr

def localUartWrite : Bool :=
  s.stateQ == stIdle && core.dmemReq && dmemWriteReq memif core && core.dmemAddr == uartAddr

def localHaltWrite : Bool :=
  s.stateQ == stIdle && core.dmemReq && dmemWriteReq memif core && core.dmemAddr == haltAddr

def localWrite : Bool := localUartWrite memif core s || localHaltWrite memif core s

def imemReqAck : Bool := s.stateQ == stIdle && !core.dmemReq && core.imemReq
def dmemReqAck : Bool := s.stateQ == stIdle && core.dmemReq

/-- The console and halt effects of the cycle. -/
def effects : List Effect :=
  (if localUartWrite memif core s then
      [.console (wstrbByte core.dmemWdata
        (widthToWstrb memif core.dmemWidth (addrLow core.dmemAddr)))]
    else []) ++
    (if localHaltWrite memif core s then [haltEffect core.dmemWdata] else [])

/-- `always @(posedge clock)`. -/
def posedge (reset : Bool) : Regs Resp :=
  let s₁ : Regs Resp := { s with
    imemRespQ := memif.respNotrdy
    dmemRespQ := if localWrite memif core s then memif.respRdyOk else memif.respNotrdy }
  if reset then .reset memif
  else if s.stateQ = stIdle then
    if !localWrite memif core s then
      if core.dmemReq then
        { s₁ with
          toAxiRegs := s.capture (dmemWriteReq memif core) (wordAligned core.dmemAddr)
            (alignWriteData memif core.dmemWdata core.dmemWidth (addrLow core.dmemAddr))
            (widthToWstrb memif core.dmemWidth (addrLow core.dmemAddr))
          servingDmemQ := true
          axiSizeQ := widthToAxiSize memif core.dmemWidth
          axiAddrLowQ := addrLow core.dmemAddr
          reqWidthQ := core.dmemWidth }
      else if core.imemReq then
        { s₁ with
          toAxiRegs := s.capture false (wordAligned core.imemAddr) 0 0
          servingDmemQ := false
          axiSizeQ := 2
          axiAddrLowQ := addrLow core.imemAddr
          reqWidthQ := memif.widthWord }
      else { s₁ with toAxiRegs := s.idle }
    else { s₁ with toAxiRegs := s.idle }
  else if s.stateQ = stReadData ∧ io.rvalid then
    if s.servingDmemQ then
      { s₁ with
        toAxiRegs := s.transfer io
        dmemRdataQ := alignReadData memif io.r.data s.reqWidthQ s.axiAddrLowQ
        dmemRespQ := memif.respRdyOk }
    else
      { s₁ with
        toAxiRegs := s.transfer io
        imemRdataQ := io.r.data
        imemRespQ := memif.respRdyOk }
  else if s.stateQ = stWriteResp ∧ io.bvalid then
    { s₁ with toAxiRegs := s.transfer io, dmemRespQ := memif.respRdyOk }
  else { s₁ with toAxiRegs := s.transfer io }

/-- The `io_master_*` signals. -/
def socketCycle (io : Socket) (s : Regs Resp) : SocketCycle :=
  s.cycle io 1 (if s.servingDmemQ then 1 else 0) s.axiSizeQ

/-- The wrapper with reset low, seen from the socket. -/
def socketMachine : Machine (Regs Resp) (Core Cmd × Socket) SocketCycle where
  next i s := posedge memif i.1 i.2 s false
  out i s := socketCycle i.2 s

/-! ## 3. The one-at-a-time master -/

/-- The request the master is given. -/
def request : Option (Request AddressChannel WriteChannel) :=
  if localWrite memif core s then none
  else if core.dmemReq then
    some (AxiRegs.captured 1 1 (widthToAxiSize memif core.dmemWidth) (dmemWriteReq memif core)
      (wordAligned core.dmemAddr)
      (alignWriteData memif core.dmemWdata core.dmemWidth (addrLow core.dmemAddr))
      (widthToWstrb memif core.dmemWidth (addrLow core.dmemAddr)))
  else if core.imemReq then
    some (AxiRegs.captured 1 0 2 false (wordAligned core.imemAddr) 0 0)
  else none

/-- The registers are those of the master. -/
def Shows (s : Regs Resp) (m : SocketMaster) : Prop :=
  AxiRegs.Shows 1 (if s.servingDmemQ then 1 else 0) s.axiSizeQ s.toAxiRegs m

theorem simulates : (socketMachine memif).Simulates (Master.machine ..) Shows
    (fun s i => (i.2, request memif i.1 s)) where
  out s m i h := h.cycle_eq i.2
  next := by
    intro s m ⟨core, io⟩ h
    show Shows (posedge memif core io s false) (m.next io (request memif core s))
    by_cases hidle : m.phase = .idle
    · have hstate : s.stateQ = stIdle := (h.phase_iff .idle).mpr hidle
      unfold posedge request
      rw [if_neg Bool.false_ne_true, if_pos hstate]
      cases localWrite memif core s with
      | true => exact h.idle hidle io
      | false =>
        cases hdmem : core.dmemReq with
        | true => exact AxiRegs.shows_capture hidle io ..
        | false =>
          cases himem : core.imemReq with
          | true => exact AxiRegs.shows_capture hidle io ..
          | false => exact h.idle hidle io
    · have hstate : s.stateQ ≠ stIdle := fun heq => hidle ((h.phase_iff .idle).mp heq)
      have htransfer := h.transfer hidle io (request memif core s)
      unfold posedge
      rw [if_neg Bool.false_ne_true, if_neg hstate]
      split
      · cases hserving : s.servingDmemQ <;> simpa [Shows, hserving] using htransfer
      · split <;> exact htransfer

theorem safe (core : Core Cmd) (io : Socket) (s : Regs Resp) (inputs : List (Core Cmd × Socket)) :
    MasterSafe ((socketMachine memif).trace (posedge memif core io s true) inputs) := by
  have hstart : Shows (Regs.reset memif) (.start (AxiRegs.captured 1 0 2 false 0 0 0)) :=
    AxiRegs.shows_reset 1 0 2
  show MasterSafe ((socketMachine memif).trace (.reset memif) inputs)
  rw [(Machine.trace_of_simulates (simulates memif) hstart inputs).1]
  exact Master.safe _ _

end

/-! ## 4. Services -/

/-- A request as it is acknowledged; instruction requests are word reads. -/
structure Access where
  port : Port
  we : Bool
  width : BitVec 2
  addr : BitVec 32
  wdata : BitVec 32
  fetch : port = .instr → we = false

section

variable {Cmd Resp : Type} (memif : Memif Cmd Resp)

def Access.strobes (a : Access) : BitVec 4 := widthToWstrb memif a.width (addrLow a.addr)

/-- A store to the console or the halt address is served locally. -/
def Access.effect? (a : Access) : Option Effect :=
  (Grant.dataOf a.we (a.strobes memif) a.addr a.wdata).effect?

/-- What a request asks for, and what its port is shown of a read beat. -/
def plan : Plan Access Port AddressChannel WriteChannel ReadChannel (BitVec 32) Effect where
  port := Access.port
  effect? := Access.effect? memif
  request a :=
    match a.port with
    | .data =>
        AxiRegs.captured 1 1 (widthToAxiSize memif a.width) a.we (wordAligned a.addr)
          (alignWriteData memif a.wdata a.width (addrLow a.addr)) (a.strobes memif)
    | .instr => AxiRegs.captured 1 0 2 false (wordAligned a.addr) 0 0
  reads a beat :=
    match a.port with
    | .data => alignReadData memif beat.data a.width (addrLow a.addr)
    | .instr => beat.data

abbrev AccessEvent :=
  Event Access Port AddressChannel WriteChannel ReadChannel ResponseChannel (BitVec 32) Effect

abbrev AccessServer := Server Access Port AddressChannel WriteChannel (BitVec 32)

variable [DecidableEq Cmd] [DecidableEq Resp] (core : Core Cmd) (io : Socket) (s : Regs Resp)

def dmemAccess : Access :=
  ⟨.data, dmemWriteReq memif core, core.dmemWidth, core.dmemAddr, core.dmemWdata, nofun⟩

def imemAccess : Access := ⟨.instr, false, memif.widthWord, core.imemAddr, 0, fun _ => rfl⟩

/-- The request acknowledged in a cycle. -/
def accepted : Option Access :=
  if dmemReqAck core s then some (dmemAccess memif core)
  else if imemReqAck core s then some (imemAccess memif core)
  else none

/-- Responses, acknowledged requests, local effects and handshakes of a cycle. -/
def events : List AccessEvent :=
  (if s.imemRespQ = memif.respRdyOk then [.respond .instr s.imemRdataQ] else []) ++
    (if s.dmemRespQ = memif.respRdyOk then [.respond .data s.dmemRdataQ] else []) ++
    (if dmemReqAck core s then [.accept (dmemAccess memif core)] else []) ++
    (if imemReqAck core s then [.accept (imemAccess memif core)] else []) ++
    (effects memif core s).map .effect ++
    (socketCycle io s).beats.map .beat

/-- The wrapper with reset low, seen from its ports, the console and the socket. -/
def machine : Machine (Regs Resp) (Core Cmd × Socket) (List AccessEvent) where
  next i s := posedge memif i.1 i.2 s false
  out i s := events memif i.1 i.2 s

/-- `RDY_OK` in the cycle of a response, `NOTRDY` otherwise. -/
def respOf (port : Port) (m : AccessServer) : Resp :=
  if m.responding (plan memif) = some port then memif.respRdyOk else memif.respNotrdy

/-- The registers are those of the server. -/
structure PortShows (s : Regs Resp) (m : AccessServer) : Prop where
  axi : Shows s m.master
  serving : m.master.phase ≠ .idle → ∃ a, m.serving = some a ∧
    match a.port with
    | .data => s.servingDmemQ = true ∧ s.reqWidthQ = a.width ∧ s.axiAddrLowQ = addrLow a.addr
    | .instr => s.servingDmemQ = false
  write : m.master.phase = .writeAddrData ∨ m.master.phase = .writeResp → s.servingDmemQ = true
  imemResp : s.imemRespQ = respOf memif .instr m
  dmemResp : s.dmemRespQ = respOf memif .data m
  imemRdata : m.rdata .instr = s.imemRdataQ
  dmemRdata : m.rdata .data = s.dmemRdataQ

end

section

variable {Cmd Resp : Type} {memif : Memif Cmd Resp} [DecidableEq Cmd]
  {core : Core Cmd} {io : Socket} {s : Regs Resp} {m : AccessServer}

theorem accepted_idle (hidle : s.stateQ = stIdle) : accepted memif core s =
    if core.dmemReq then some (dmemAccess memif core)
    else if core.imemReq then some (imemAccess memif core)
    else none := by
  unfold accepted dmemReqAck imemReqAck
  rw [hidle]
  cases core.dmemReq <;> cases core.imemReq <;> rfl

theorem accepted_busy (hbusy : s.stateQ ≠ stIdle) : accepted memif core s = none := by
  simp [accepted, dmemReqAck, imemReqAck, hbusy]

theorem accepts_eq : (if dmemReqAck core s then [.accept (dmemAccess memif core)] else []) ++
    (if imemReqAck core s then [.accept (imemAccess memif core)] else []) =
    ((accepted memif core s).map Event.accept).toList (α := AccessEvent) := by
  unfold accepted
  cases hdata : dmemReqAck core s with
  | true =>
    have hinstr : imemReqAck core s = false := by
      unfold dmemReqAck at hdata
      unfold imemReqAck
      cases hreq : core.dmemReq <;> simp_all
    simp [hinstr]
  | false => cases imemReqAck core s <;> rfl

omit [DecidableEq Cmd] in
theorem effect?_imemAccess : (imemAccess memif core).effect? memif = none := rfl

/-- A data request is local when it has an effect. -/
theorem localWrite_data (hidle : s.stateQ = stIdle) (hreq : core.dmemReq = true) :
    localWrite memif core s = ((dmemAccess memif core).effect? memif).isSome := by
  unfold localWrite localUartWrite localHaltWrite Access.effect?
  rw [Grant.effect?_isSome_dataOf, hidle, hreq]
  rfl

theorem localWrite_instr (hreq : core.dmemReq = false) : localWrite memif core s = false := by
  simp [localWrite, localUartWrite, localHaltWrite, hreq]

theorem localWrite_busy (hbusy : s.stateQ ≠ stIdle) : localWrite memif core s = false := by
  simp [localWrite, localUartWrite, localHaltWrite, hbusy]

theorem effects_eq : effects memif core s =
    ((accepted memif core s).bind (Access.effect? memif)).toList := by
  unfold effects localUartWrite localHaltWrite
  by_cases hidle : s.stateQ = stIdle
  · rw [accepted_idle hidle, hidle]
    cases core.dmemReq with
    | true =>
      rw [if_pos rfl, Option.bind_some, Access.effect?, Grant.effect?_dataOf]
      rfl
    | false => cases core.imemReq <;> rfl
  · rw [accepted_busy hidle]
    simp [hidle]

/-- The server accepts only when it is idle. -/
theorem PortShows.accepted_eq (h : PortShows memif s m) :
    m.accepted (accepted memif core s) = accepted memif core s := by
  unfold Server.accepted
  split
  · rfl
  · rename_i hbusy
    exact (accepted_busy fun hidle => hbusy ((h.axi.phase_iff .idle).mp hidle)).symm

/-- The transfer the server starts is the one the master of the wrapper is asked for. -/
theorem PortShows.master_eq (h : PortShows memif s m) :
    (m.next (plan memif) io (accepted memif core s)).master =
      m.master.next io (request memif core s) := by
  show m.master.next io (m.started (plan memif) (accepted memif core s)) = _
  by_cases hidle : m.master.phase = .idle
  · have hstate : s.stateQ = stIdle := (h.axi.phase_iff .idle).mpr hidle
    refine congrArg (m.master.next io) ?_
    unfold Server.started request
    rw [h.accepted_eq, accepted_idle hstate]
    cases hreq : core.dmemReq with
    | true =>
      rw [localWrite_data hstate hreq, if_pos rfl, Option.bind_some]
      have heffect : (plan memif).effect? (dmemAccess memif core) =
          (dmemAccess memif core).effect? memif := rfl
      rw [heffect]
      cases (dmemAccess memif core).effect? memif <;> rfl
    | false =>
      rw [localWrite_instr hreq]
      cases core.imemReq <;> rfl
  · unfold Master.next
    cases hphase : m.master.phase with
    | idle => exact absurd hphase hidle
    | _ => rfl

/-- At rest only a local store is answered. -/
theorem posedge_idle (hidle : s.stateQ = stIdle) :
    (posedge memif core io s false).imemRespQ = memif.respNotrdy ∧
      (posedge memif core io s false).dmemRespQ =
        (if localWrite memif core s then memif.respRdyOk else memif.respNotrdy) ∧
      (posedge memif core io s false).imemRdataQ = s.imemRdataQ ∧
      (posedge memif core io s false).dmemRdataQ = s.dmemRdataQ := by
  unfold posedge
  rw [if_neg Bool.false_ne_true, if_pos hidle]
  cases localWrite memif core s <;> cases core.dmemReq <;> cases core.imemReq <;>
    exact ⟨rfl, rfl, rfl, rfl⟩

/-- The registers of a transfer that starts. -/
theorem posedge_starts (hidle : s.stateQ = stIdle) {a : Access}
    (haccepted : accepted memif core s = some a) (heffect : a.effect? memif = none) :
    match a.port with
    | .data => (posedge memif core io s false).servingDmemQ = true ∧
        (posedge memif core io s false).reqWidthQ = a.width ∧
        (posedge memif core io s false).axiAddrLowQ = addrLow a.addr
    | .instr => (posedge memif core io s false).servingDmemQ = false := by
  rw [accepted_idle hidle] at haccepted
  unfold posedge
  rw [if_neg Bool.false_ne_true, if_pos hidle]
  cases hreq : core.dmemReq with
  | true =>
    rw [hreq, if_pos rfl] at haccepted
    cases haccepted
    have hlocal : localWrite memif core s = false := by
      rw [localWrite_data hidle hreq, heffect]
      rfl
    rw [hlocal]
    exact ⟨rfl, rfl, rfl⟩
  | false =>
    rw [hreq, if_neg Bool.false_ne_true] at haccepted
    rw [localWrite_instr hreq]
    cases himem : core.imemReq with
    | true =>
      rw [himem, if_pos rfl] at haccepted
      cases haccepted
      rfl
    | false =>
      rw [himem, if_neg Bool.false_ne_true] at haccepted
      cases haccepted

/-- Who is answered after a cycle at rest. -/
theorem responding_idle (hidle : s.stateQ = stIdle) (hmaster : m.master.phase = .idle) :
    (m.next (plan memif) io (accepted memif core s)).responding (plan memif) =
      if localWrite memif core s then some .data else none := by
  rw [Server.next_idle hmaster, accepted_idle hidle]
  unfold Server.responding
  cases hreq : core.dmemReq with
  | true =>
    have heffect : (plan memif).effect? (dmemAccess memif core) =
        (dmemAccess memif core).effect? memif := rfl
    have hport : (plan memif).port (dmemAccess memif core) = .data := rfl
    rw [localWrite_data hidle hreq]
    cases hlocal : (dmemAccess memif core).effect? memif <;> simp [heffect, hport, hlocal]
  | false =>
    rw [localWrite_instr hreq]
    cases core.imemReq with
    | true => simp [plan, effect?_imemAccess]
    | false => rfl

omit [DecidableEq Cmd] in
/-- Only a request without a local effect starts a transfer. -/
theorem starts_of_busy {a? : Option Access} (hidle : m.master.phase = .idle)
    (hbusy : (m.next (plan memif) io a?).master.phase ≠ .idle) :
    ∃ a, a? = some a ∧ a.effect? memif = none := by
  rw [Server.next_idle hidle] at hbusy
  cases a? with
  | none => simp [Master.next, hidle] at hbusy
  | some a =>
    have heffect : (plan memif).effect? a = a.effect? memif := rfl
    cases hlocal : a.effect? memif with
    | none => exact ⟨a, rfl, hlocal⟩
    | some e => simp [heffect, hlocal, Master.next, hidle] at hbusy

/-- A cycle at rest: nothing is accepted, a store is served, or a transfer starts. -/
theorem PortShows.rests (h : PortShows memif s m) (hidle : m.master.phase = .idle) :
    PortShows memif (posedge memif core io s false)
      (m.next (plan memif) io (accepted memif core s)) := by
  have hstate : s.stateQ = stIdle := (h.axi.phase_iff .idle).mpr hidle
  have haxi : Shows (posedge memif core io s false)
      (m.next (plan memif) io (accepted memif core s)).master := by
    rw [h.master_eq]
    exact (simulates memif).next s m.master (core, io) h.axi
  have hresponding : (m.next (plan memif) io (accepted memif core s)).responding (plan memif) = _ :=
    responding_idle hstate hidle
  obtain ⟨himemResp, hdmemResp, himemRdata, hdmemRdata⟩ :
      (posedge memif core io s false).imemRespQ = memif.respNotrdy ∧ _ ∧ _ ∧ _ :=
    posedge_idle hstate
  refine ⟨haxi, ?_, ?_, ?_, ?_, ?_, ?_⟩
  · intro hbusy
    obtain ⟨a, haccepted, heffect⟩ := starts_of_busy hidle hbusy
    refine ⟨a, ?_, posedge_starts hstate haccepted heffect⟩
    rw [Server.next_idle hidle, haccepted]
    rfl
  · intro hwrite
    have hbusy : (m.next (plan memif) io (accepted memif core s)).master.phase ≠ .idle := by
      rcases hwrite with hwrite | hwrite
      · rw [hwrite]
        decide
      · rw [hwrite]
        decide
    obtain ⟨a, haccepted, heffect⟩ := starts_of_busy hidle hbusy
    have hstarts : match a.port with
      | .data => (posedge memif core io s false).servingDmemQ = true ∧ _ ∧ _
      | .instr => _ := posedge_starts hstate haccepted heffect
    cases hport : a.port with
    | data =>
      rw [hport] at hstarts
      exact hstarts.1
    | instr =>
      -- An instruction request starts a read.
      have hrequest : ((plan memif).request a).write = false := by simp [plan, hport, AxiRegs.captured]
      rw [Server.next_idle hidle, haccepted, Option.bind_some] at hwrite
      have heffect' : (plan memif).effect? a = none := heffect
      simp [heffect', Master.next, hidle, hrequest] at hwrite
  · rw [himemResp, respOf, hresponding]
    cases localWrite memif core s <;> rfl
  · rw [hdmemResp, respOf, hresponding]
    cases localWrite memif core s <;> rfl
  · rw [Server.next_idle hidle, himemRdata]
    exact h.imemRdata
  · rw [Server.next_idle hidle, hdmemRdata]
    exact h.dmemRdata

omit [DecidableEq Cmd] in
/-- The registers after the last beat of a transfer. -/
theorem portShows_ended {s' : Regs Resp} {m' : AccessServer} {a : Access} (haxi : Shows s' m'.master)
    (hidle : m'.master.phase = .idle) (hserving : m'.serving = some a) (hanswered : m'.answered = true)
    (himem : s'.imemRespQ = if a.port = .instr then memif.respRdyOk else memif.respNotrdy)
    (hdmem : s'.dmemRespQ = if a.port = .data then memif.respRdyOk else memif.respNotrdy)
    (himemRdata : m'.rdata .instr = s'.imemRdataQ) (hdmemRdata : m'.rdata .data = s'.dmemRdataQ) :
    PortShows memif s' m' := by
  have hresponding : m'.responding (plan memif) = some a.port := by
    simp [Server.responding, hserving, hanswered, plan]
  refine ⟨haxi, fun hbusy => absurd hidle hbusy, fun hwrite => ?_, ?_, ?_, himemRdata, hdmemRdata⟩
  · rw [hidle] at hwrite
    rcases hwrite with hwrite | hwrite <;> cases hwrite
  · rw [himem, respOf, hresponding]
    cases a.port <;> rfl
  · rw [hdmem, respOf, hresponding]
    cases a.port <;> rfl

/-- The beat of a read. -/
theorem posedge_read (hbusy : s.stateQ ≠ stIdle) (hread : s.stateQ = stReadData ∧ io.rvalid = true) :
    posedge memif core io s false =
      if s.servingDmemQ then
        { s with
          toAxiRegs := s.transfer io
          imemRespQ := memif.respNotrdy
          dmemRdataQ := alignReadData memif io.r.data s.reqWidthQ s.axiAddrLowQ
          dmemRespQ := memif.respRdyOk }
      else
        { s with
          toAxiRegs := s.transfer io
          imemRdataQ := io.r.data
          imemRespQ := memif.respRdyOk
          dmemRespQ := memif.respNotrdy } := by
  unfold posedge
  rw [if_neg Bool.false_ne_true, if_neg hbusy, if_pos hread, localWrite_busy hbusy]
  rfl

/-- The answer to a write. -/
theorem posedge_response (hbusy : s.stateQ ≠ stIdle)
    (hread : ¬(s.stateQ = stReadData ∧ io.rvalid = true))
    (hwrite : s.stateQ = stWriteResp ∧ io.bvalid = true) :
    posedge memif core io s false =
      { s with
        toAxiRegs := s.transfer io
        imemRespQ := memif.respNotrdy
        dmemRespQ := memif.respRdyOk } := by
  unfold posedge
  rw [if_neg Bool.false_ne_true, if_neg hbusy, if_neg hread, if_pos hwrite]

/-- Any other cycle of a transfer. -/
theorem posedge_goes (hbusy : s.stateQ ≠ stIdle)
    (hread : ¬(s.stateQ = stReadData ∧ io.rvalid = true))
    (hwrite : ¬(s.stateQ = stWriteResp ∧ io.bvalid = true)) :
    posedge memif core io s false =
      { s with
        toAxiRegs := s.transfer io
        imemRespQ := memif.respNotrdy
        dmemRespQ := memif.respNotrdy } := by
  unfold posedge
  rw [if_neg Bool.false_ne_true, if_neg hbusy, if_neg hread, if_neg hwrite, localWrite_busy hbusy]
  rfl

/-- A cycle of a transfer. -/
theorem PortShows.transfers (h : PortShows memif s m) (hbusy : m.master.phase ≠ .idle) :
    PortShows memif (posedge memif core io s false)
      (m.next (plan memif) io (accepted memif core s)) := by
  have hstate : s.stateQ ≠ stIdle := fun heq => hbusy ((h.axi.phase_iff .idle).mp heq)
  have hreadIff : (s.stateQ = stReadData ∧ io.rvalid = true) ↔
      (m.master.phase = .readData ∧ io.rvalid = true) := and_congr_left' (h.axi.phase_iff .readData)
  have hwriteIff : (s.stateQ = stWriteResp ∧ io.bvalid = true) ↔
      (m.master.phase = .writeResp ∧ io.bvalid = true) := and_congr_left' (h.axi.phase_iff .writeResp)
  obtain ⟨a, ha, hregs⟩ := h.serving hbusy
  have haxi : AxiRegs.Shows 1 (if s.servingDmemQ then 1 else 0) s.axiSizeQ (s.transfer io)
      (m.master.next io none) := h.axi.transfer hbusy io none
  by_cases hread : m.master.phase = .readData ∧ io.rvalid = true
  · have hended : (m.master.next io none).phase = .idle := by
      simp [Master.next, hread.1, hread.2]
    rw [posedge_read hstate (hreadIff.mpr hread), Server.next_read hread.1 hread.2 ha]
    cases hport : a.port with
    | data =>
      rw [hport] at hregs
      obtain ⟨hserving, hwidth, hlow⟩ := hregs
      rw [hserving, if_pos rfl] at haxi ⊢
      refine portShows_ended (a := a) haxi hended rfl rfl ?_ ?_ ?_ ?_
      · simp [hport]
      · simp [hport]
      · simp [plan, hport, h.imemRdata]
      · simp [plan, hport, hwidth, hlow]
    | instr =>
      rw [hport] at hregs
      rw [hregs, if_neg Bool.false_ne_true] at haxi ⊢
      refine portShows_ended (a := a) haxi hended rfl rfl ?_ ?_ ?_ ?_
      · simp [hport]
      · simp [hport]
      · simp [plan, hport]
      · simp [plan, hport, h.dmemRdata]
  have hreadState : ¬(s.stateQ = stReadData ∧ io.rvalid = true) := mt hreadIff.mp hread
  by_cases hwrite : m.master.phase = .writeResp ∧ io.bvalid = true
  · have hended : (m.master.next io none).phase = .idle := by
      simp [Master.next, hwrite.1, hwrite.2]
    have hserving := h.write (.inr hwrite.1)
    have hport : a.port = .data := by
      cases hport : a.port with
      | data => rfl
      | instr =>
        rw [hport] at hregs
        exact absurd (hserving.symm.trans hregs) (by decide)
    rw [posedge_response hstate hreadState (hwriteIff.mpr hwrite),
      Server.next_response hwrite.1 hwrite.2]
    refine portShows_ended haxi hended ha rfl ?_ ?_ h.imemRdata h.dmemRdata
    · simp [hport]
    · simp [hport]
  · rw [posedge_goes hstate hreadState (mt hwriteIff.mp hwrite),
      Server.next_goes hbusy hread hwrite]
    exact ⟨haxi, fun _ => ⟨a, ha, hregs⟩,
      fun hphase => h.write (Master.write_of_next hbusy hphase), rfl, rfl, h.imemRdata,
      h.dmemRdata⟩

/-- A clock edge is one of the server. -/
theorem PortShows.next (h : PortShows memif s m) :
    PortShows memif (posedge memif core io s false)
      (m.next (plan memif) io (accepted memif core s)) := by
  by_cases hidle : m.master.phase = .idle
  · exact h.rests hidle
  · exact h.transfers hidle

/-- The events of a cycle are those of the server. -/
theorem PortShows.events_eq [DecidableEq Resp] (hresp : memif.respNotrdy ≠ memif.respRdyOk)
    (h : PortShows memif s m) :
    events memif core io s = m.events (plan memif) io (accepted memif core s) := by
  have hresponds : (if s.imemRespQ = memif.respRdyOk then
        [Event.respond Port.instr s.imemRdataQ] else []) ++
      (if s.dmemRespQ = memif.respRdyOk then [.respond .data s.dmemRdataQ] else []) =
      ((m.responding (plan memif)).map fun port => .respond port (m.rdata port)).toList
        (α := AccessEvent) := by
    rw [h.imemResp, h.dmemResp, respOf, respOf]
    cases hport : m.responding (plan memif) with
    | none => simp [hresp]
    | some port => cases port <;> simp [hresp, h.imemRdata, h.dmemRdata]
  have hcycle : socketCycle io s = m.master.cycle io := h.axi.cycle_eq io
  unfold events Server.events
  rw [h.accepted_eq, ← hresponds, ← accepts_eq, effects_eq, ← Option.toList_map, ← hcycle]
  simp only [List.append_assoc]
  rfl

end

/-! ## 5. Runs -/

section

variable {Cmd Resp : Type} (memif : Memif Cmd Resp) [DecidableEq Cmd] [DecidableEq Resp]

/-- The server after reset. -/
def serverStart : AccessServer := .start (AxiRegs.captured 1 0 2 false 0 0 0) fun _ => 0

omit [DecidableEq Cmd] [DecidableEq Resp] in
theorem portShows_reset : PortShows memif (.reset memif) serverStart where
  axi := AxiRegs.shows_reset 1 0 2
  serving hbusy := absurd rfl hbusy
  write := by
    rintro (hwrite | hwrite) <;> cases hwrite
  imemResp := rfl
  dmemResp := rfl
  imemRdata := rfl
  dmemRdata := rfl

/-- The wrapper goes through the states of the server. -/
theorem ports_simulates (hresp : memif.respNotrdy ≠ memif.respRdyOk) :
    (machine memif).Simulates (Server.machine ResponseChannel (plan memif)) (PortShows memif)
      (fun s i => (i.2, accepted memif i.1 s)) where
  out _ _ _ h := h.events_eq hresp
  next _ _ _ h := h.next

/-- In every run from reset: the responses, local effects and transfers are those of the
acknowledged requests, once each and in their order. -/
theorem exactlyOnce (hresp : memif.respNotrdy ≠ memif.respRdyOk) (core : Core Cmd) (io : Socket)
    (s : Regs Resp) (inputs : List (Core Cmd × Socket)) :
    ∃ done current, ExactlyOnce (plan memif)
      ((machine memif).trace (posedge memif core io s true) inputs).flatten done current := by
  show ∃ done current, ExactlyOnce (plan memif)
    ((machine memif).trace (.reset memif) inputs).flatten done current
  rw [(Machine.trace_of_simulates (ports_simulates memif hresp) (portShows_reset memif) inputs).1]
  exact Server.exactlyOnce _ _ _ _

end

end EccFe.Adapters.Scr1
