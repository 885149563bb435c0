/-
EccFe.Adapters.Picorv32 — `picorv32/ecos_picorv32_cpu_wrapper.v`.
-/
import EccFe.Adapters.TwoPort
import EccFe.Bus.Direct

namespace EccFe.Adapters.Picorv32

open Bus Transition

structure Core where
  picoMemValid : Bool
  picoMemAddr : BitVec 32
  picoMemWdata : BitVec 32
  picoMemWstrb : BitVec 4

section

variable (core : Core) (io : Socket) (s : AxiRegs)

def picoWriteReq : Bool := core.picoMemValid && core.picoMemWstrb != 0
def picoReadReq : Bool := core.picoMemValid && core.picoMemWstrb == 0

def localUartWrite : Bool :=
  s.stateQ == stIdle && picoWriteReq core && core.picoMemAddr == uartAddr

def localHaltWrite : Bool :=
  s.stateQ == stIdle && picoWriteReq core && core.picoMemAddr == haltAddr

def localWrite : Bool := localUartWrite core s || localHaltWrite core s

def picoMemReady : Bool :=
  localWrite core s || (s.stateQ == stReadData && io.rvalid) ||
    (s.stateQ == stWriteResp && io.bvalid)

def picoMemRdata : BitVec 32 :=
  if s.stateQ == stReadData && io.rvalid then io.r.data else 0

/-- The console and halt effects of the cycle. -/
def effects : List Effect :=
  (if localUartWrite core s then [.console (wstrbByte core.picoMemWdata core.picoMemWstrb)] else []) ++
    (if localHaltWrite core s then [haltEffect core.picoMemWdata] else [])

/-- `always @(posedge clock)`. -/
def posedge (reset : Bool) : AxiRegs :=
  if reset then .reset
  else if s.stateQ = stIdle then
    if core.picoMemValid && !localWrite core s then
      if picoWriteReq core then
        s.capture true (wordAligned core.picoMemAddr) core.picoMemWdata core.picoMemWstrb
      else if picoReadReq core then
        s.capture false (wordAligned core.picoMemAddr) core.picoMemWdata core.picoMemWstrb
      else
        { s.idle with
          axiAddrQ := wordAligned core.picoMemAddr
          axiWdataQ := core.picoMemWdata
          axiWstrbQ := core.picoMemWstrb }
    else s.idle
  else s.transfer io

end

/-- The wrapper with reset low, seen from the socket. -/
def socketMachine : Machine AxiRegs (Core × Socket) SocketCycle where
  next i s := posedge i.1 i.2 s false
  out i s := s.cycle i.2 0 0 2

/-- The request the master is given. -/
def request (core : Core) (s : AxiRegs) : Option (Request AddressChannel WriteChannel) :=
  if core.picoMemValid && !localWrite core s then
    some (AxiRegs.captured 0 0 2 (core.picoMemWstrb != 0) (wordAligned core.picoMemAddr)
      core.picoMemWdata core.picoMemWstrb)
  else none

theorem simulates : socketMachine.Simulates (Master.machine ..) (AxiRegs.Shows 0 0 2)
    (fun s i => (i.2, request i.1 s)) where
  out s m i h := h.cycle_eq i.2
  next := by
    intro s m ⟨core, io⟩ h
    show AxiRegs.Shows 0 0 2 (posedge core io s false) (m.next io (request core s))
    by_cases hidle : m.phase = .idle
    · have hstate : s.stateQ = stIdle := (h.phase_iff .idle).mpr hidle
      unfold posedge request
      rw [if_neg Bool.false_ne_true, if_pos hstate]
      split
      · rename_i hvalid
        rw [Bool.and_eq_true] at hvalid
        unfold picoWriteReq picoReadReq
        by_cases hstrb : core.picoMemWstrb = 0
        · rw [hvalid.1, hstrb]
          exact AxiRegs.shows_capture hidle io false ..
        · have hne : (core.picoMemWstrb != 0) = true := by simpa using hstrb
          rw [hvalid.1, hne]
          exact AxiRegs.shows_capture hidle io true ..
      · exact h.idle hidle io
    · have hstate : s.stateQ ≠ stIdle := fun heq => hidle ((h.phase_iff .idle).mp heq)
      unfold posedge
      rw [if_neg Bool.false_ne_true, if_neg hstate]
      exact h.transfer hidle io _

theorem safe (core : Core) (io : Socket) (s : AxiRegs) (inputs : List (Core × Socket)) :
    MasterSafe (socketMachine.trace (posedge core io s true) inputs) := by
  have htrace := (Machine.trace_of_simulates simulates (AxiRegs.shows_reset 0 0 2) inputs).1
  show MasterSafe (socketMachine.trace .reset inputs)
  rw [htrace]
  exact Master.safe _ _

/-! ## Services -/

structure PicoRequest where
  addr : BitVec 32
  wdata : BitVec 32
  wstrb : BitVec 4

/-- `pico_write_req`. -/
def PicoRequest.write (k : PicoRequest) : Bool := k.wstrb != 0

/-- A store to the console or the halt address is served locally. -/
def PicoRequest.effect? (k : PicoRequest) : Option Effect :=
  (Grant.dataOf k.write k.wstrb k.addr k.wdata).effect?

/-- What a request asks for. -/
def plan : Plan PicoRequest Unit AddressChannel WriteChannel ReadChannel (BitVec 32) Effect where
  port _ := ()
  effect? := PicoRequest.effect?
  request k := AxiRegs.captured 0 0 2 k.write (wordAligned k.addr) k.wdata k.wstrb
  reads _ beat := beat.data

abbrev PicoEvent := Event PicoRequest Unit AddressChannel WriteChannel ReadChannel ResponseChannel
  (BitVec 32) Effect

abbrev PicoSeen := Seen PicoRequest Unit AddressChannel WriteChannel ReadChannel ResponseChannel
  (BitVec 32) Effect

abbrev PicoServer := Server PicoRequest Unit AddressChannel WriteChannel (BitVec 32)

/-- The request the core shows. -/
def presented (core : Core) : Option PicoRequest :=
  if core.picoMemValid then some ⟨core.picoMemAddr, core.picoMemWdata, core.picoMemWstrb⟩ else none

/-- The request taken in a cycle. -/
def accepted (core : Core) (s : AxiRegs) : Option PicoRequest :=
  if s.stateQ == stIdle then presented core else none

/-- Acceptance, local effect, handshakes and completion of a cycle. -/
def events (core : Core) (io : Socket) (s : AxiRegs) : List PicoEvent :=
  ((accepted core s).map Event.accept).toList ++ (effects core s).map .effect ++
    (s.cycle io 0 0 2).beats.map .beat ++
    (if picoMemReady core io s then [.respond () (picoMemRdata io s)] else [])

/-- The wrapper with reset low, seen from the core, the console and the socket. -/
def machine : Machine AxiRegs (Core × Socket) PicoSeen where
  next i s := posedge i.1 i.2 s false
  out i s :=
    { ports :=
        { request := fun _ => presented i.1
          ack := fun _ => if picoMemReady i.1 i.2 s then some (picoMemRdata i.2 s) else none }
      events := events i.1 i.2 s }

/-- The registers are those of a direct server that knows what it serves. -/
structure Shows (s : AxiRegs) (m : PicoServer) : Prop where
  axi : AxiRegs.Shows 0 0 2 s m.master
  serving : m.master.phase ≠ .idle → m.serving.isSome = true
  quiet : m.answered = false

section

variable {core : Core} {io : Socket} {s : AxiRegs} {m : PicoServer}

theorem effects_eq : effects core s = ((accepted core s).bind PicoRequest.effect?).toList := by
  unfold effects localUartWrite localHaltWrite picoWriteReq accepted presented
  cases s.stateQ == stIdle with
  | false => rfl
  | true =>
    cases core.picoMemValid with
    | false => rfl
    | true =>
      rw [if_pos rfl, if_pos rfl, Option.bind_some, PicoRequest.effect?, Grant.effect?_dataOf]
      rfl

/-- A request is local when it has an effect. -/
theorem localWrite_eq : localWrite core s = (accepted core s).any fun k => k.effect?.isSome := by
  unfold localWrite localUartWrite localHaltWrite picoWriteReq accepted presented
  cases s.stateQ == stIdle with
  | false => rfl
  | true =>
    cases core.picoMemValid with
    | false => rfl
    | true =>
      rw [if_pos rfl, if_pos rfl, Option.any_some, PicoRequest.effect?, Grant.effect?_isSome_dataOf]
      rfl

theorem Shows.accepted_eq (h : Shows s m) : m.accepted (accepted core s) = accepted core s := by
  unfold Server.accepted
  split
  · rfl
  · rename_i hbusy
    have hstate : (s.stateQ == stIdle) = false :=
      beq_eq_false_iff_ne.mpr fun heq => hbusy ((h.axi.phase_iff .idle).mp heq)
    rw [accepted, hstate]
    rfl

/-- The transfer the server starts is the one the master of the wrapper is asked for. -/
theorem Shows.master_eq (h : Shows s m) :
    (m.next plan io (accepted core s)).master = m.master.next io (request core s) := by
  show m.master.next io (m.started plan (accepted core s)) = _
  by_cases hidle : m.master.phase = .idle
  · have hstate : (s.stateQ == stIdle) = true := beq_iff_eq.mpr ((h.axi.phase_iff .idle).mpr hidle)
    refine congrArg (m.master.next io) ?_
    unfold Server.started request
    rw [h.accepted_eq, localWrite_eq, accepted, hstate, if_pos rfl, presented]
    cases core.picoMemValid with
    | false => rfl
    | true =>
      rw [if_pos rfl, Option.bind_some, Option.any_some]
      generalize hk : (⟨core.picoMemAddr, core.picoMemWdata, core.picoMemWstrb⟩ : PicoRequest) = k
      have heffect : plan.effect? k = k.effect? := rfl
      rw [heffect, ← hk]
      cases PicoRequest.effect? ⟨core.picoMemAddr, core.picoMemWdata, core.picoMemWstrb⟩ <;> rfl
  · unfold Master.next
    cases hphase : m.master.phase with
    | idle => exact absurd hphase hidle
    | _ => rfl

theorem Shows.next (h : Shows s m) :
    Shows (posedge core io s false) (m.directNext plan io (accepted core s)) where
  axi := by
    show AxiRegs.Shows 0 0 2 _ (m.next plan io (accepted core s)).master
    rw [h.master_eq]
    exact simulates.next s m.master (core, io) h.axi
  serving := by
    intro hbusy
    show ((m.accepted (accepted core s)).or m.serving).isSome = true
    by_cases hidle : m.master.phase = .idle
    · cases haccepted : m.accepted (accepted core s) with
      | some k => rfl
      | none =>
        -- Nothing was taken, so the master rests.
        refine absurd ?_ hbusy
        show (m.master.next io (m.started plan (accepted core s))).phase = .idle
        simp [Server.started, haccepted, Master.next, hidle]
    · simp [Server.accepted, hidle, h.serving hidle]
  quiet := rfl

/-- `mem_ready` is the completion of the server. -/
theorem Shows.completing_eq (h : Shows s m) : m.completing plan io (accepted core s) =
    if picoMemReady core io s then some () else none := by
  have hread : (s.stateQ == stReadData) = (m.master.phase == .readData) := by
    rw [Bool.eq_iff_iff, beq_iff_eq, beq_iff_eq]
    exact h.axi.phase_iff .readData
  have hwrite : (s.stateQ == stWriteResp) = (m.master.phase == .writeResp) := by
    rw [Bool.eq_iff_iff, beq_iff_eq, beq_iff_eq]
    exact h.axi.phase_iff .writeResp
  have hanswered : (m.next plan io (accepted core s)).answered = picoMemReady core io s := by
    unfold Server.next picoMemReady
    rw [h.accepted_eq, localWrite_eq, hread, hwrite]
    rfl
  unfold Server.completing Server.responding
  rw [hanswered]
  cases hready : picoMemReady core io s with
  | false => rfl
  | true =>
    -- Something is served whenever an answer is given.
    have hserving : ∃ k, (m.next plan io (accepted core s)).serving = some k := by
      show ∃ k, (m.accepted (accepted core s)).or m.serving = some k
      rw [h.accepted_eq]
      by_cases hidle : m.master.phase = .idle
      · rw [picoMemReady, hread, hwrite, hidle, localWrite_eq] at hready
        obtain ⟨k, hk, -⟩ := (Option.any_eq_true _ _).mp (by simpa using hready)
        exact ⟨k, by rw [hk]; rfl⟩
      · obtain ⟨k, hk⟩ := Option.isSome_iff_exists.mp (h.serving hidle)
        cases haccepted : accepted core s with
        | none => exact ⟨k, hk⟩
        | some k' => exact ⟨k', rfl⟩
    obtain ⟨k, hk⟩ := hserving
    rw [hk]
    rfl

/-- A cycle of the wrapper is a cycle of the direct server. -/
theorem Shows.out_eq (h : Shows s m) : machine.out (core, io) s =
    m.directSeen plan io (accepted core s) (fun _ => presented core) (picoMemRdata io s) := by
  have hevents : events core io s = m.directEvents plan io (accepted core s) (picoMemRdata io s) := by
    unfold events Server.directEvents Server.events
    rw [h.completing_eq, h.accepted_eq, Server.responding_quiet h.quiet, effects_eq,
      ← Option.toList_map, h.axi.cycle_eq io]
    cases picoMemReady core io s <;> simp [plan]
  unfold Server.directSeen
  rw [← hevents, h.completing_eq]
  cases hready : picoMemReady core io s <;> simp [machine, hready]

theorem Shows.showsBeat (h : Shows s m) : m.ShowsBeat plan io (picoMemRdata io s) := by
  intro hphase hvalid k hk
  have hstate : s.stateQ = stReadData := (h.axi.phase_iff .readData).mpr hphase
  unfold picoMemRdata
  rw [hstate, hvalid]
  rfl

/-- The server takes its requests from the wires. -/
theorem Shows.takes (h : Shows s m) {k : PicoRequest}
    (hk : m.accepted (accepted core s) = some k) : presented core = some k := by
  rw [h.accepted_eq] at hk
  unfold accepted at hk
  split at hk
  · exact hk
  · cases hk

end

/-- What the past tells about the registers. -/
def Served (past : List PicoSeen) (s : AxiRegs) : Prop :=
  Held (portsOf past) → ∃ m done current, Shows s m ∧
    Server.DirectServed (β := ResponseChannel) plan past m done current

theorem served_next {past : List PicoSeen} {s : AxiRegs} (h : Served past s) (i : Core × Socket) :
    Served (past ++ [machine.out i s]) (machine.next i s) := by
  obtain ⟨core, io⟩ := i
  intro hheld
  have hpast : Held (portsOf past) := by
    unfold portsOf at *
    rw [List.map_append] at hheld
    exact (List.isChain_append.mp hheld).1
  obtain ⟨m, done, current, hshows, hserved⟩ := h hpast
  rw [hshows.out_eq] at hheld ⊢
  obtain ⟨done', current', hnext⟩ :=
    hserved.next hheld hshows.showsBeat fun k hk => hshows.takes hk
  exact ⟨_, done', current', hshows.next, hnext⟩

/-- The server after reset. -/
def serverStart : PicoServer := .start (AxiRegs.captured 0 0 2 false 0 0 0) fun _ => 0

theorem served_reset : Served [] .reset := fun _ =>
  ⟨serverStart, [], [], ⟨AxiRegs.shows_reset 0 0 2, fun hbusy => absurd rfl hbusy, rfl⟩,
    Server.directServed_start _ _ _⟩

/-- In every run from reset in which the core holds its requests: every request is served
once and completed once, in order, and nothing is under way when the wrapper is idle. -/
theorem exactlyOnce (core : Core) (io : Socket) (s : AxiRegs) (inputs : List (Core × Socket))
    (hheld : Held (portsOf (machine.trace (posedge core io s true) inputs))) :
    ∃ done current,
      ExactlyOnce (β := ResponseChannel) plan
        (eventsOf (machine.trace (posedge core io s true) inputs)) done current ∧
      Answered plan (machine.trace (posedge core io s true) inputs) done current ∧
      ((machine.run (posedge core io s true) inputs).stateQ = stIdle → current = []) := by
  have hreset : posedge core io s true = .reset := rfl
  rw [hreset] at *
  have hkeeps : ∀ past s i, Served past s →
      Served (past ++ [machine.out i s]) (machine.next i s) := fun _ _ i h => served_next h i
  have hserves : Served (machine.trace .reset inputs) (machine.run .reset inputs) :=
    machine.trace_induct hkeeps served_reset inputs
  obtain ⟨m, done, current, hshows, hserved⟩ := hserves hheld
  refine ⟨done, current, ?_, hserved.answered, fun hidle => ?_⟩
  · rw [hserved.events]
    exact .of_events hserved.progress.begun
  · exact hserved.progress.eq_nil ((hshows.axi.phase_iff .idle).mp hidle)
      (Server.responding_quiet hshows.quiet)

end EccFe.Adapters.Picorv32
