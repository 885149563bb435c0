/-
EccFe.Adapters.Wishbone — `serv/ecos_serv_cpu_wrapper.v` and
`vexriscv/ecos_vexriscv_cpu_wrapper.v`.

A port holds its request until it sees its ack. The ack is visible in a cycle in which
the machine is idle again, so a request is accepted only when no ack is visible.
-/
import EccFe.Adapters.TwoPort
import EccFe.Bus.Held

namespace EccFe.Adapters.Wishbone

open Bus Transition

/-! ## 1. The wrappers -/

/-- The request wires of the two ports. -/
structure Core where
  ibusReq : Bool
  ibusAddr : BitVec 32
  dbusReq : Bool
  dbusWe : Bool
  dbusSel : BitVec 4
  dbusAddr : BitVec 32
  dbusWdata : BitVec 32

structure Regs extends AxiRegs where
  servingDbusQ : Bool
  ibusRdataQ : BitVec 32
  dbusRdataQ : BitVec 32
  ibusAckQ : Bool
  dbusAckQ : Bool

def Regs.reset : Regs := ⟨.reset, false, 0, 0, false, false⟩

section

variable (busAddr : BitVec 32 → BitVec 32) (core : Core) (io : Socket) (s : Regs)

/-- `serv_can_accept`, `ready_for_new_req && (state_q == ST_IDLE)`. -/
def canAccept : Bool := s.stateQ == stIdle && !(s.ibusAckQ || s.dbusAckQ)

def localUartWrite : Bool :=
  canAccept s && core.dbusReq && core.dbusWe && core.dbusAddr == uartAddr

def localHaltWrite : Bool :=
  canAccept s && core.dbusReq && core.dbusWe && core.dbusAddr == haltAddr

def localWrite : Bool := localUartWrite core s || localHaltWrite core s

def effects : List Effect :=
  (if localUartWrite core s then [.console (wstrbByte core.dbusWdata core.dbusSel)] else []) ++
    (if localHaltWrite core s then [haltEffect core.dbusWdata] else [])

/-- `always @(posedge clock)`; `busAddr` makes the AXI address. -/
def posedge (reset : Bool) : Regs :=
  let s₁ : Regs := { s with ibusAckQ := false, dbusAckQ := localWrite core s }
  if reset then .reset
  else if s.stateQ = stIdle then
    if canAccept s && !localWrite core s then
      if core.dbusReq then
        { s₁ with
          toAxiRegs := s.capture core.dbusWe (busAddr core.dbusAddr) core.dbusWdata core.dbusSel
          servingDbusQ := true }
      else if core.ibusReq then
        { s₁ with toAxiRegs := s.capture false (busAddr core.ibusAddr) 0 0, servingDbusQ := false }
      else { s₁ with toAxiRegs := s.idle }
    else { s₁ with toAxiRegs := s.idle }
  else if s.stateQ = stReadData ∧ io.rvalid then
    if s.servingDbusQ then
      { s₁ with toAxiRegs := s.transfer io, dbusRdataQ := io.r.data, dbusAckQ := true }
    else { s₁ with toAxiRegs := s.transfer io, ibusRdataQ := io.r.data, ibusAckQ := true }
  else if s.stateQ = stWriteResp ∧ io.bvalid then
    { s₁ with toAxiRegs := s.transfer io, dbusAckQ := true }
  else { s₁ with toAxiRegs := s.transfer io }

/-- The `io_master_*` signals. -/
def socketCycle : SocketCycle := s.cycle io 0 0 2

end

/-! ## 2. What the ports see -/

def Regs.view (s : Regs) : TwoPort where
  axi := s.toAxiRegs
  servingData := s.servingDbusQ
  instrResp := s.ibusAckQ
  instrRdata := s.ibusRdataQ
  dataResp := s.dbusAckQ
  dataRdata := s.dbusRdataQ

/-- The data request on the wires. -/
def dbusRequest (core : Core) : Grant := .dataOf core.dbusWe core.dbusSel core.dbusAddr core.dbusWdata

/-- The instruction request on the wires. -/
def ibusRequest (core : Core) : Grant := .fetchOf core.ibusAddr

/-- The request accepted in a cycle, the data port's first. -/
def accepted (core : Core) (s : Regs) : Option Grant :=
  if canAccept s then
    if core.dbusReq then some (dbusRequest core)
    else if core.ibusReq then some (ibusRequest core)
    else none
  else none

/-- Acks, acceptance, local effects and handshakes of a cycle. -/
def events (core : Core) (io : Socket) (s : Regs) : List PortEvent :=
  (if s.ibusAckQ then [.respond .instr s.ibusRdataQ] else []) ++
    (if s.dbusAckQ then [.respond .data s.dbusRdataQ] else []) ++
    ((accepted core s).map Event.accept).toList ++
    (effects core s).map .effect ++
    (socketCycle io s).beats.map .beat

section

variable {busAddr : BitVec 32 → BitVec 32} {core : Core} {io : Socket} {s : Regs}

theorem accepted_busy (hbusy : s.stateQ ≠ stIdle) : accepted core s = none := by
  simp [accepted, canAccept, hbusy]

theorem effects_eq : effects core s = ((accepted core s).bind Grant.effect?).toList := by
  unfold effects localUartWrite localHaltWrite accepted
  cases canAccept s with
  | false => rfl
  | true =>
    cases core.dbusReq with
    | true => simp [dbusRequest, Grant.effect?_dataOf]
    | false => cases core.ibusReq <;> simp [ibusRequest, Grant.effect?_fetchOf]

theorem socketCycle_eq : socketCycle io s = s.view.cycle 0 io := by
  unfold socketCycle TwoPort.cycle
  rw [ite_self]
  rfl

theorem events_eq : events core io s = s.view.events 0 io (accepted core s) := by
  unfold events TwoPort.events
  rw [effects_eq, ← Option.toList_map, socketCycle_eq]
  rfl

/-- A data request is local when it has an effect. -/
theorem localWrite_data (haccept : canAccept s = true) (hreq : core.dbusReq = true) :
    localWrite core s = ((dbusRequest core).effect?).isSome := by
  unfold localWrite localUartWrite localHaltWrite dbusRequest
  rw [Grant.effect?_isSome_dataOf, haccept, hreq]
  rfl

theorem localWrite_instr (hreq : core.dbusReq = false) : localWrite core s = false := by
  simp [localWrite, localUartWrite, localHaltWrite, hreq]

theorem localWrite_closed (haccept : canAccept s = false) : localWrite core s = false := by
  simp [localWrite, localUartWrite, localHaltWrite, haccept]

/-- A clock edge of the wrapper, as the ports see it, when the addresses on the bus are those
the ports present, word by word. -/
theorem view_posedge (hdbus : busAddr core.dbusAddr = wordAligned core.dbusAddr)
    (hibus : busAddr core.ibusAddr = wordAligned core.ibusAddr) :
    (posedge busAddr core io s false).view = s.view.next io (accepted core s) := by
  by_cases hidle : s.stateQ = stIdle
  · have hview : s.view.axi.stateQ = stIdle := hidle
    have haccepted : accepted core s = if canAccept s then
        if core.dbusReq then some (dbusRequest core)
        else if core.ibusReq then some (ibusRequest core) else none
      else none := rfl
    rw [posedge, hdbus, hibus, if_neg Bool.false_ne_true, if_pos hidle]
    cases haccept : canAccept s with
    | false =>
      rw [haccept, if_neg Bool.false_ne_true] at haccepted
      rw [haccepted, localWrite_closed haccept, TwoPort.next_none hview]
      rfl
    | true =>
      rw [haccept, if_pos rfl] at haccepted
      cases hreq : core.dbusReq with
      | true =>
        rw [hreq, if_pos rfl] at haccepted
        rw [haccepted, if_pos rfl, localWrite_data haccept hreq]
        cases heffect : (dbusRequest core).effect? with
        | some e =>
          rw [TwoPort.next_local hview (by rw [heffect]; rfl)]
          rfl
        | none =>
          rw [TwoPort.next_capture hview heffect]
          rfl
      | false =>
        rw [hreq, if_neg Bool.false_ne_true] at haccepted
        rw [haccepted, if_neg Bool.false_ne_true, localWrite_instr hreq]
        cases core.ibusReq with
        | true =>
          have heffect : (ibusRequest core).effect? = none := Grant.effect?_fetchOf _
          rw [if_pos rfl, if_pos rfl, TwoPort.next_capture hview heffect]
          rfl
        | false =>
          rw [if_neg Bool.false_ne_true, if_neg Bool.false_ne_true, TwoPort.next_none hview]
          rfl
  · have hview : s.view.axi.stateQ ≠ stIdle := hidle
    have hlocal : localWrite core s = false := localWrite_closed (by simp [canAccept, hidle])
    unfold posedge TwoPort.next
    rw [hlocal, if_neg Bool.false_ne_true, if_neg hidle, if_neg hview]
    by_cases hread : s.stateQ = stReadData ∧ io.rvalid
    · have hviewRead : s.view.axi.stateQ = stReadData ∧ io.rvalid := hread
      rw [if_pos hread, if_pos hviewRead]
      cases hserving : s.servingDbusQ <;> simp [Regs.view, hserving]
    · have hviewRead : ¬(s.view.axi.stateQ = stReadData ∧ io.rvalid) := hread
      rw [if_neg hread, if_neg hviewRead]
      by_cases hwrite : s.stateQ = stWriteResp ∧ io.bvalid
      · have hviewWrite : s.view.axi.stateQ = stWriteResp ∧ io.bvalid := hwrite
        rw [if_pos hwrite, if_pos hviewWrite]
        rfl
      · have hviewWrite : ¬(s.view.axi.stateQ = stWriteResp ∧ io.bvalid) := hwrite
        rw [if_neg hwrite, if_neg hviewWrite]
        rfl

end

/-! ## 3. SERV and VexRiscv -/

/-- A wrapper: how its wires make requests, and its AXI address of a request. -/
structure Wrapper (Wires : Type) where
  core : Wires → Core
  busAddr : BitVec 32 → BitVec 32
  dbus : ∀ wires, busAddr (core wires).dbusAddr = wordAligned (core wires).dbusAddr
  ibus : ∀ wires, busAddr (core wires).ibusAddr = wordAligned (core wires).ibusAddr

/-- The port wires of `serv_rf_top`. -/
structure ServWires where
  ibusAddr : BitVec 32
  ibusCyc : Bool
  dbusAddr : BitVec 32
  dbusWdata : BitVec 32
  dbusSel : BitVec 4
  dbusWe : Bool
  dbusCyc : Bool

def serv : Wrapper ServWires where
  core wires :=
    { ibusReq := wires.ibusCyc
      ibusAddr := wires.ibusAddr
      dbusReq := wires.dbusCyc
      dbusWe := wires.dbusWe
      dbusSel := wires.dbusSel
      dbusAddr := wires.dbusAddr
      dbusWdata := wires.dbusWdata }
  busAddr := wordAligned
  dbus _ := rfl
  ibus _ := rfl

structure VexRiscvWires where
  ibusCyc : Bool
  ibusStb : Bool
  ibusAdr : BitVec 30
  dbusCyc : Bool
  dbusStb : Bool
  dbusWe : Bool
  dbusAdr : BitVec 30
  dbusWdata : BitVec 32
  dbusSel : BitVec 4

theorem wordAligned_append (adr : BitVec 30) : wordAligned (adr ++ 0#2) = adr ++ 0#2 := by
  unfold wordAligned
  congr 1
  exact BitVec.extractLsb'_append_eq_left

def vexriscv : Wrapper VexRiscvWires where
  core wires :=
    { ibusReq := wires.ibusCyc && wires.ibusStb
      ibusAddr := wires.ibusAdr ++ 0#2
      dbusReq := wires.dbusCyc && wires.dbusStb
      dbusWe := wires.dbusWe
      dbusSel := wires.dbusSel
      dbusAddr := wires.dbusAdr ++ 0#2
      dbusWdata := wires.dbusWdata }
  busAddr := id
  dbus wires := (wordAligned_append wires.dbusAdr).symm
  ibus wires := (wordAligned_append wires.ibusAdr).symm

def requests (core : Core) : Port → Option Grant
  | .instr => if core.ibusReq then some (ibusRequest core) else none
  | .data => if core.dbusReq then some (dbusRequest core) else none

/-- The acks and the data with them. -/
def acks (s : Regs) : Port → Option (BitVec 32)
  | .instr => if s.ibusAckQ then some s.ibusRdataQ else none
  | .data => if s.dbusAckQ then some s.dbusRdataQ else none

abbrev PortSeen :=
  Seen Grant Port AddressChannel WriteChannel ReadChannel ResponseChannel (BitVec 32) Effect

namespace Wrapper

variable {Wires : Type} (w : Wrapper Wires)

def posedge (wires : Wires) (io : Socket) (s : Regs) (reset : Bool) : Regs :=
  Wishbone.posedge w.busAddr (w.core wires) io s reset

/-- The wrapper with reset low, seen from the socket. -/
def socketMachine : Machine Regs (Wires × Socket) SocketCycle where
  next i s := w.posedge i.1 i.2 s false
  out i s := socketCycle i.2 s

/-- The wrapper with reset low, seen from its ports, the console and the socket. -/
def machine : Machine Regs (Wires × Socket) PortSeen where
  next i s := w.posedge i.1 i.2 s false
  out i s := ⟨⟨requests (w.core i.1), Wishbone.acks s⟩, events (w.core i.1) i.2 s⟩

/-! ## 4. Runs -/

section

variable {w : Wrapper Wires} {wires : Wires} {io : Socket} {s : Regs} {m : PortServer}

theorem shows_next (h : s.view.Shows 0 m) : (w.posedge wires io s false).view.Shows 0
    (m.next (plan 0) io (accepted (w.core wires) s)) := by
  unfold posedge
  rw [view_posedge (w.dbus wires) (w.ibus wires)]
  exact h.next

/-- A cycle of the wrapper is a cycle of the server. -/
theorem out_eq (h : s.view.Shows 0 m) : w.machine.out (wires, io) s =
    m.seen (plan 0) io (accepted (w.core wires) s) (requests (w.core wires)) := by
  have hevents : events (w.core wires) io s = m.events (plan 0) io (accepted (w.core wires) s) :=
    events_eq.trans (h.events_eq accepted_busy)
  have hacks : Wishbone.acks s = fun port =>
      if m.responding (plan 0) = some port then some (m.rdata port) else none := by
    have hinstr : s.ibusAckQ = (m.responding (plan 0) == some .instr) := h.instr
    have hdata : s.dbusAckQ = (m.responding (plan 0) == some .data) := h.data
    funext port
    cases port with
    | instr =>
      unfold Wishbone.acks
      rw [hinstr, h.instrRdata]
      simp [Regs.view]
    | data =>
      unfold Wishbone.acks
      rw [hdata, h.dataRdata]
      simp [Regs.view]
  unfold Server.seen
  rw [← hevents, ← hacks]
  rfl

/-- The server takes its requests from the wires, and only while no ack is visible. -/
theorem takes (h : s.view.Shows 0 m) {k : Grant}
    (hk : m.accepted (accepted (w.core wires) s) = some k) :
    requests (w.core wires) k.port = some k ∧ m.responding (plan 0) = none := by
  have haccepted : accepted (w.core wires) s = some k := by
    unfold Server.accepted at hk
    split at hk
    · exact hk
    · cases hk
  unfold accepted at haccepted
  split at haccepted
  · rename_i hcan
    have hclosed : s.stateQ = stIdle ∧ s.ibusAckQ = false ∧ s.dbusAckQ = false := by
      simpa [canAccept] using hcan
    refine ⟨?_, ?_⟩
    · split at haccepted
      · rename_i hreq
        cases haccepted
        exact if_pos hreq
      · split at haccepted
        · rename_i hreq
          cases haccepted
          exact if_pos hreq
        · cases haccepted
    · exact h.responding_none hclosed.2.1 hclosed.2.2
  · cases haccepted

/-- What the past tells about the registers. -/
def Served (past : List PortSeen) (s : Regs) : Prop :=
  Held (portsOf past) → ∃ m done current, s.view.Shows 0 m ∧
    Server.HeldServed (β := ResponseChannel) (plan 0) past m done current

theorem served_next {past : List PortSeen} (h : Served past s) (i : Wires × Socket) :
    Served (past ++ [w.machine.out i s]) (w.machine.next i s) := by
  intro hheld
  have hpast : Held (portsOf past) := by
    unfold portsOf at *
    rw [List.map_append] at hheld
    exact (List.isChain_append.mp hheld).1
  obtain ⟨m, done, current, hshows, hserved⟩ := h hpast
  rw [out_eq hshows] at hheld ⊢
  obtain ⟨done', current', hnext⟩ := hserved.next hheld fun k hk => takes hshows hk
  exact ⟨_, done', current', shows_next hshows, hnext⟩

theorem served_reset : Served [] Regs.reset := fun _ =>
  ⟨_, [], [], TwoPort.shows_reset 0, Server.heldServed_start _ _ _⟩

end

/-- The registers are those of a server at rest. -/
def AtRest (s : Regs) : Prop := s.stateQ = stIdle ∧ s.ibusAckQ = false ∧ s.dbusAckQ = false

/-- In every run from reset in which the ports hold their requests: every request is served
once and answered once, in the order of its port, and nothing is under way at rest. -/
theorem exactlyOnce (wires : Wires) (io : Socket) (s : Regs) (inputs : List (Wires × Socket))
    (hheld : Held (portsOf (w.machine.trace (w.posedge wires io s true) inputs))) :
    ∃ done current,
      ExactlyOnce (β := ResponseChannel) (plan 0)
        (eventsOf (w.machine.trace (w.posedge wires io s true) inputs)) done current ∧
      Answered (plan 0) (w.machine.trace (w.posedge wires io s true) inputs) done current ∧
      (AtRest (w.machine.run (w.posedge wires io s true) inputs) → current = []) := by
  have hreset : w.posedge wires io s true = Regs.reset := rfl
  rw [hreset] at *
  have hkeeps : ∀ past s i, Served past s →
      Served (past ++ [w.machine.out i s]) (w.machine.next i s) := fun _ _ i h => served_next h i
  have hserves : Served (w.machine.trace Regs.reset inputs) (w.machine.run Regs.reset inputs) :=
    w.machine.trace_induct hkeeps served_reset inputs
  obtain ⟨m, done, current, hshows, hserved⟩ := hserves hheld
  refine ⟨done, current, ?_, hserved.answered, fun hrest => ?_⟩
  · rw [hserved.events]
    exact .of_events hserved.progress.begun
  · exact hserved.progress.eq_nil ((hshows.axi.phase_iff .idle).mp hrest.1)
      (hshows.responding_none hrest.2.1 hrest.2.2)

theorem socket_simulates : w.socketMachine.Simulates
    (Server.socketMachine ReadChannel ResponseChannel (plan 0)) (fun s m => s.view.Shows 0 m)
    (fun s i => (i.2, accepted (w.core i.1) s)) where
  out s m i h := by
    have hcycle : s.view.cycle 0 i.2 = m.master.cycle i.2 := h.axi.cycle_eq i.2
    exact socketCycle_eq.trans hcycle
  next _ _ _ h := shows_next h

theorem safe (wires : Wires) (io : Socket) (s : Regs) (inputs : List (Wires × Socket)) :
    MasterSafe (w.socketMachine.trace (w.posedge wires io s true) inputs) := by
  have hstart : Regs.reset.view.Shows 0 (TwoPort.serverStart 0) := TwoPort.shows_reset 0
  show MasterSafe (w.socketMachine.trace .reset inputs)
  rw [(Machine.trace_of_simulates w.socket_simulates hstart inputs).1]
  exact Server.safe _ _ _ _

end Wrapper

end EccFe.Adapters.Wishbone
