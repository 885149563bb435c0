/-
EccFe.Adapters.TwoPort — wrappers with an instruction port and a data port.

Apart from when they accept a request, the wrappers with registered responses differ
in names only: `TwoPort` is what their registers say. Each of them is shown to go
through it, and it goes through the server of `Bus.Server`.
-/
import EccFe.Adapters.Socket
import EccFe.Bus.Server

namespace EccFe.Adapters

open Bus Transition

/-! ## 1. Requests -/

inductive Port where
  | instr
  | data
  deriving DecidableEq

/-- A request as it is accepted; instruction requests are reads. -/
structure Grant where
  port : Port
  we : Bool
  be : BitVec 4
  addr : BitVec 32
  wdata : BitVec 32
  fetch : port = .instr → we = false

namespace Grant

def fetchOf (addr : BitVec 32) : Grant := ⟨.instr, false, 0, addr, 0, fun _ => rfl⟩

def dataOf (we : Bool) (be : BitVec 4) (addr wdata : BitVec 32) : Grant :=
  ⟨.data, we, be, addr, wdata, nofun⟩

/-- A store to the console or the halt address is served locally. -/
def effect? (g : Grant) : Option Effect :=
  if g.we && g.addr == uartAddr then some (.console (wstrbByte g.wdata g.be))
  else if g.we && g.addr == haltAddr then some (haltEffect g.wdata)
  else none

theorem effect?_fetchOf (addr : BitVec 32) : (fetchOf addr).effect? = none := rfl

/-- What the wrappers decode as two wires. -/
theorem effect?_dataOf (we : Bool) (be : BitVec 4) (addr wdata : BitVec 32) :
    ((dataOf we be addr wdata).effect?).toList =
      (if we && addr == uartAddr then [.console (wstrbByte wdata be)] else []) ++
        (if we && addr == haltAddr then [haltEffect wdata] else []) := by
  have huart : (uartAddr == haltAddr) = false := by decide
  have hhalt : (haltAddr == uartAddr) = false := by decide
  unfold effect? dataOf
  cases we with
  | false => rfl
  | true =>
    by_cases hu : addr = uartAddr
    · simp [hu, huart]
    · by_cases hh : addr = haltAddr
      · simp [hh, hhalt]
      · simp [hu, hh]

theorem effect?_isSome_dataOf (we : Bool) (be : BitVec 4) (addr wdata : BitVec 32) :
    ((dataOf we be addr wdata).effect?).isSome =
      ((we && addr == uartAddr) || (we && addr == haltAddr)) := by
  unfold effect? dataOf
  cases we && addr == uartAddr with
  | true => rfl
  | false => cases we && addr == haltAddr <;> rfl

/-- Only the data port stores. -/
theorem port_of_effect {g : Grant} {e : Effect} (h : g.effect? = some e) : g.port = .data := by
  cases hport : g.port with
  | data => rfl
  | instr => simp [effect?, g.fetch hport] at h

end Grant

/-- What a grant asks for; data transfers carry `dataId`. -/
def plan (dataId : BitVec 4) : Plan Grant Port AddressChannel WriteChannel ReadChannel (BitVec 32)
    Effect where
  port := Grant.port
  effect? := Grant.effect?
  request g := AxiRegs.captured dataId (if g.port = .data then dataId else 0) 2 g.we
    (wordAligned g.addr) g.wdata g.be
  reads _ beat := beat.data

abbrev PortEvent :=
  Event Grant Port AddressChannel WriteChannel ReadChannel ResponseChannel (BitVec 32) Effect

abbrev PortServer := Server Grant Port AddressChannel WriteChannel (BitVec 32)

/-! ## 2. Registers -/

/-- The registers of a wrapper as its ports see them. -/
structure TwoPort where
  axi : AxiRegs
  servingData : Bool
  instrResp : Bool
  instrRdata : BitVec 32
  dataResp : Bool
  dataRdata : BitVec 32

namespace TwoPort

def reset : TwoPort := ⟨.reset, false, false, 0, false, 0⟩

section

variable (dataId : BitVec 4) (io : Socket) (granted : Option Grant) (v : TwoPort)

/-- The registers after a clock edge at which `granted` is accepted. -/
def next : TwoPort :=
  let quiet := { v with instrResp := false, dataResp := false }
  if v.axi.stateQ = stIdle then
    match granted with
    | none => { quiet with axi := v.axi.idle }
    | some g =>
        if g.effect?.isSome then { quiet with axi := v.axi.idle, dataResp := true }
        else
          { quiet with
            axi := v.axi.capture g.we (wordAligned g.addr) g.wdata g.be
            servingData := g.port == .data }
  else if v.axi.stateQ = stReadData ∧ io.rvalid then
    if v.servingData then
      { quiet with axi := v.axi.transfer io, dataRdata := io.r.data, dataResp := true }
    else { quiet with axi := v.axi.transfer io, instrRdata := io.r.data, instrResp := true }
  else if v.axi.stateQ = stWriteResp ∧ io.bvalid then
    { quiet with axi := v.axi.transfer io, dataResp := true }
  else { quiet with axi := v.axi.transfer io }

/-- The `io_master_*` signals. -/
def cycle : SocketCycle := v.axi.cycle io dataId (if v.servingData then dataId else 0) 2

/-- Responses, acceptance, local effect and handshakes of a cycle. -/
def events : List PortEvent :=
  (if v.instrResp then [.respond .instr v.instrRdata] else []) ++
    (if v.dataResp then [.respond .data v.dataRdata] else []) ++
    (granted.map Event.accept).toList ++
    ((granted.bind Grant.effect?).map Event.effect).toList ++
    (v.cycle dataId io).beats.map .beat

end

section

variable {io : Socket} {v : TwoPort}

theorem next_none (hidle : v.axi.stateQ = stIdle) : v.next io none =
    { v with axi := v.axi.idle, instrResp := false, dataResp := false } := by
  rw [next, if_pos hidle]

/-- A local store. -/
theorem next_local (hidle : v.axi.stateQ = stIdle) {g : Grant} (heffect : g.effect?.isSome) :
    v.next io (some g) =
      { v with axi := v.axi.idle, instrResp := false, dataResp := true } := by
  rw [next, if_pos hidle]
  exact if_pos heffect

/-- A request that is carried out on the bus. -/
theorem next_capture (hidle : v.axi.stateQ = stIdle) {g : Grant} (heffect : g.effect? = none) :
    v.next io (some g) =
      { v with
        axi := v.axi.capture g.we (wordAligned g.addr) g.wdata g.be
        servingData := g.port == .data
        instrResp := false
        dataResp := false } := by
  rw [next, if_pos hidle]
  exact if_neg (by rw [heffect]; decide)

end

/-! ## 3. The registers of the server -/

/-- The registers are those of the server. -/
structure Shows (dataId : BitVec 4) (v : TwoPort) (m : PortServer) : Prop where
  axi : AxiRegs.Shows dataId (if v.servingData then dataId else 0) 2 v.axi m.master
  serving : m.master.phase ≠ .idle →
    ∃ g, m.serving = some g ∧ g.port = if v.servingData then .data else .instr
  write : m.master.phase = .writeAddrData ∨ m.master.phase = .writeResp → v.servingData = true
  instr : v.instrResp = (m.responding (plan dataId) == some .instr)
  data : v.dataResp = (m.responding (plan dataId) == some .data)
  instrRdata : m.rdata .instr = v.instrRdata
  dataRdata : m.rdata .data = v.dataRdata

section

variable {dataId : BitVec 4} {io : Socket} {granted : Option Grant} {v : TwoPort} {m : PortServer}

/-- A cycle is a cycle of the server, which accepts only when it is idle. -/
theorem Shows.events_eq (h : Shows dataId v m) (hgranted : v.axi.stateQ ≠ stIdle → granted = none) :
    v.events dataId io granted = m.events (plan dataId) io granted := by
  have haccepted : m.accepted granted = granted := by
    unfold Server.accepted
    split
    · rfl
    · rename_i hbusy
      exact (hgranted fun hidle => hbusy ((h.axi.phase_iff .idle).mp hidle)).symm
  have hresponds : (if v.instrResp then [.respond .instr v.instrRdata] else []) ++
      (if v.dataResp then [.respond .data v.dataRdata] else []) =
      ((m.responding (plan dataId)).map fun port => .respond port (m.rdata port)).toList
        (α := PortEvent) := by
    rw [h.instr, h.data]
    cases hport : m.responding (plan dataId) with
    | none => rfl
    | some port => cases port <;> simp [h.instrRdata, h.dataRdata]
  unfold events Server.events
  rw [haccepted, ← hresponds, cycle, h.axi.cycle_eq io]
  rfl

/-- No port sees a response. -/
theorem Shows.responding_none (h : Shows dataId v m) (hinstr : v.instrResp = false)
    (hdata : v.dataResp = false) : m.responding (plan dataId) = none := by
  rw [h.instr] at hinstr
  rw [h.data] at hdata
  cases hport : m.responding (plan dataId) with
  | none => rfl
  | some port =>
    rw [hport] at hinstr hdata
    cases port with
    | instr => cases hinstr
    | data => cases hdata

/-- An idle cycle in which nothing is captured. -/
theorem Shows.stays (h : Shows dataId v m) (hidle : m.master.phase = .idle) {g : Option Grant}
    (hlocal : ∀ k, g = some k → k.effect?.isSome) :
    Shows dataId { v with axi := v.axi.idle, instrResp := false, dataResp := g.isSome }
      (m.next (plan dataId) io g) := by
  have hmaster : (m.next (plan dataId) io g).master = m.master.next io none := by
    rw [Server.next_idle hidle]
    cases g with
    | none => rfl
    | some k =>
      obtain ⟨e, he⟩ := Option.isSome_iff_exists.mp (hlocal k rfl)
      simp [plan, he]
  have hphase : (m.next (plan dataId) io g).master.phase = .idle := by
    rw [hmaster]
    simp [Master.next, hidle]
  have hresponding : (m.next (plan dataId) io g).responding (plan dataId) =
      if g.isSome then some .data else none := by
    rw [Server.next_idle hidle]
    cases g with
    | none => rfl
    | some k =>
      obtain ⟨e, he⟩ := Option.isSome_iff_exists.mp (hlocal k rfl)
      simp [Server.responding, plan, he, Grant.port_of_effect he]
  refine ⟨?_, fun hbusy => absurd hphase hbusy, fun hwrite => ?_, ?_, ?_, ?_, ?_⟩
  · rw [hmaster]
    exact h.axi.idle hidle io
  · rw [hphase] at hwrite
    rcases hwrite with hwrite | hwrite <;> cases hwrite
  · rw [hresponding]
    cases g <;> rfl
  · rw [hresponding]
    cases g <;> rfl
  · rw [Server.next_idle hidle]
    exact h.instrRdata
  · rw [Server.next_idle hidle]
    exact h.dataRdata

/-- An idle cycle in which a request is captured. -/
theorem Shows.captures (h : Shows dataId v m) (hidle : m.master.phase = .idle) {g : Grant}
    (heffect : g.effect? = none) :
    Shows dataId
      { v with
        axi := v.axi.capture g.we (wordAligned g.addr) g.wdata g.be
        servingData := g.port == .data
        instrResp := false
        dataResp := false }
      (m.next (plan dataId) io (some g)) := by
  have hmaster : (m.next (plan dataId) io (some g)).master =
      m.master.next io (some ((plan dataId).request g)) := by
    rw [Server.next_idle hidle]
    simp [plan, heffect]
  have hresponding : (m.next (plan dataId) io (some g)).responding (plan dataId) = none := by
    rw [Server.next_idle hidle]
    simp [Server.responding, plan, heffect]
  refine ⟨?_, fun _ => ⟨g, ?_, ?_⟩, fun hwrite => ?_, ?_, ?_, ?_, ?_⟩
  · rw [hmaster]
    cases hg : g.port with
    | instr =>
      have hrequest : (plan dataId).request g =
          AxiRegs.captured dataId 0 2 g.we (wordAligned g.addr) g.wdata g.be := by
        simp [plan, hg]
      rw [hrequest]
      exact AxiRegs.shows_capture hidle io ..
    | data =>
      have hrequest : (plan dataId).request g =
          AxiRegs.captured dataId dataId 2 g.we (wordAligned g.addr) g.wdata g.be := by
        simp [plan, hg]
      rw [hrequest]
      exact AxiRegs.shows_capture hidle io ..
  · rw [Server.next_idle hidle]
    rfl
  · cases g.port <;> rfl
  · -- A write was captured, so it is not the instruction port's.
    rw [hmaster] at hwrite
    cases hg : g.port with
    | data => rfl
    | instr => simp [Master.next, hidle, plan, AxiRegs.captured, g.fetch hg] at hwrite
  · rw [hresponding]
    rfl
  · rw [hresponding]
    rfl
  · rw [Server.next_idle hidle]
    exact h.instrRdata
  · rw [Server.next_idle hidle]
    exact h.dataRdata

/-- The state after the last beat of a transfer. -/
theorem shows_ended {g : Grant}
    (haxi : AxiRegs.Shows dataId (if v.servingData then dataId else 0) 2 v.axi m.master)
    (hidle : m.master.phase = .idle) (hserving : m.serving = some g) (hanswered : m.answered = true)
    (hinstr : v.instrResp = (g.port == .instr)) (hdata : v.dataResp = (g.port == .data))
    (hinstrRdata : m.rdata .instr = v.instrRdata) (hdataRdata : m.rdata .data = v.dataRdata) :
    Shows dataId v m := by
  have hresponding : m.responding (plan dataId) = some g.port := by
    simp [Server.responding, hserving, hanswered, plan]
  refine ⟨haxi, fun hbusy => absurd hidle hbusy, fun hwrite => ?_, ?_, ?_, hinstrRdata, hdataRdata⟩
  · rw [hidle] at hwrite
    rcases hwrite with hwrite | hwrite <;> cases hwrite
  · rw [hresponding, hinstr]
    rfl
  · rw [hresponding, hdata]
    rfl

/-- A cycle of a transfer. -/
theorem Shows.transfers (h : Shows dataId v m) (hbusy : m.master.phase ≠ .idle) :
    Shows dataId (v.next io granted) (m.next (plan dataId) io granted) := by
  have hstate : v.axi.stateQ ≠ stIdle := fun heq => hbusy ((h.axi.phase_iff .idle).mp heq)
  have hreadIff : (v.axi.stateQ = stReadData ∧ io.rvalid) ↔
      (m.master.phase = .readData ∧ io.rvalid) := and_congr_left' (h.axi.phase_iff .readData)
  have hwriteIff : (v.axi.stateQ = stWriteResp ∧ io.bvalid) ↔
      (m.master.phase = .writeResp ∧ io.bvalid) := and_congr_left' (h.axi.phase_iff .writeResp)
  obtain ⟨g, hg, hport⟩ := h.serving hbusy
  have haxi := h.axi.transfer hbusy io none
  unfold next
  rw [if_neg hstate]
  by_cases hread : m.master.phase = .readData ∧ io.rvalid
  · have hended : (m.master.next io none).phase = .idle := by
      simp [Master.next, hread.1, hread.2]
    rw [if_pos (hreadIff.mpr hread), Server.next_read hread.1 hread.2 hg]
    cases hserving : v.servingData with
    | true =>
      rw [hserving, if_pos rfl] at hport
      refine shows_ended (g := g) ?_ hended rfl rfl ?_ ?_ ?_ ?_
      · simpa [hserving] using haxi
      all_goals simp [hport, plan, h.instrRdata]
    | false =>
      rw [hserving, if_neg Bool.false_ne_true] at hport
      refine shows_ended (g := g) ?_ hended rfl rfl ?_ ?_ ?_ ?_
      · simpa [hserving] using haxi
      all_goals simp [hport, plan, h.dataRdata]
  rw [if_neg fun hstate => hread (hreadIff.mp hstate)]
  by_cases hwrite : m.master.phase = .writeResp ∧ io.bvalid
  · have hended : (m.master.next io none).phase = .idle := by
      simp [Master.next, hwrite.1, hwrite.2]
    rw [h.write (.inr hwrite.1), if_pos rfl] at hport
    rw [if_pos (hwriteIff.mpr hwrite), Server.next_response hwrite.1 hwrite.2]
    refine shows_ended haxi hended hg rfl ?_ ?_ h.instrRdata h.dataRdata
    all_goals simp [hport]
  · rw [if_neg fun hstate => hwrite (hwriteIff.mp hstate), Server.next_goes hbusy hread hwrite]
    exact ⟨haxi, fun _ => ⟨g, hg, hport⟩, fun hphase => h.write (Master.write_of_next hbusy hphase),
      rfl, rfl, h.instrRdata, h.dataRdata⟩

/-- A clock edge is one of the server. -/
theorem Shows.next (h : Shows dataId v m) :
    Shows dataId (v.next io granted) (m.next (plan dataId) io granted) := by
  by_cases hidle : m.master.phase = .idle
  · have hstate : v.axi.stateQ = stIdle := (h.axi.phase_iff .idle).mpr hidle
    cases granted with
    | none =>
      rw [next_none hstate]
      exact h.stays (g := none) hidle (by simp)
    | some g =>
      cases heffect : g.effect? with
      | some e =>
        have hsome : g.effect?.isSome := by rw [heffect]; rfl
        rw [next_local hstate hsome]
        refine h.stays (g := some g) hidle fun k hk => ?_
        cases hk
        exact hsome
      | none =>
        rw [next_capture hstate heffect]
        exact h.captures hidle heffect
  · exact h.transfers hidle

end

/-- The server after reset. -/
def serverStart (dataId : BitVec 4) : PortServer :=
  .start (AxiRegs.captured dataId 0 2 false 0 0 0) fun _ => 0

theorem shows_reset (dataId : BitVec 4) : Shows dataId .reset (serverStart dataId) where
  axi := AxiRegs.shows_reset dataId 0 2
  serving hbusy := absurd rfl hbusy
  write := by
    rintro (hwrite | hwrite) <;> cases hwrite
  instr := rfl
  data := rfl
  instrRdata := rfl
  dataRdata := rfl

end TwoPort

end EccFe.Adapters
