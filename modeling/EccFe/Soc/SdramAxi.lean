/-
EccFe.Soc.SdramAxi — `fecompiler/thirdparty/SoC/perip/sdram/sdram_top_axi.v`, the AXI slave in
front of the memory of `Soc.Memory`.

The two directions have registers of their own and meet in the memory; in one clock edge the write
comes first. `sdram_serves`: whatever the master does, the slave serves bursts as `Bus.Burst` says,
and what it loads is what the memory holds after the stores before.

A run starts after reset. The wires to the SDRAM device are constant and left out.
-/
import EccFe.Bus.Burst
import EccFe.Soc.Memory
import EccFe.Transition.Machine

namespace EccFe.Soc.SdramAxi

open Bus Transition

/-! ## 1. The module -/

/-- The payload of `in_ar*` and of `in_aw*`. -/
structure Address where
  addr : BitVec 32
  id : BitVec 4
  len : BitVec 8
  size : BitVec 3
  burst : BitVec 2

structure Strobed where
  data : BitVec 32
  strb : BitVec 4

structure Inputs where
  awvalid : Bool
  aw : Address
  wvalid : Bool
  w : Strobed
  wlast : Bool
  bready : Bool
  arvalid : Bool
  ar : Address
  rready : Bool

structure WriteRegs where
  awActiveQ : Bool
  awAddrQ : BitVec 32
  awIdQ : BitVec 4
  awBeatsLeftQ : BitVec 8
  awSizeQ : BitVec 3
  awBurstQ : BitVec 2
  bvalidQ : Bool
  bidQ : BitVec 4

structure ReadRegs where
  arActiveQ : Bool
  arAddrQ : BitVec 32
  arIdQ : BitVec 4
  arBeatsLeftQ : BitVec 8
  arSizeQ : BitVec 3
  arBurstQ : BitVec 2
  rvalidQ : Bool
  ridQ : BitVec 4
  rdataQ : BitVec 32
  rlastQ : Bool

/-- The registers and the memory behind the two imported functions. -/
structure Regs where
  write : WriteRegs
  read : ReadRegs
  memory : Memory

def WriteRegs.reset : WriteRegs := ⟨false, 0, 0, 0, 0, 1, false, 0⟩

def ReadRegs.reset : ReadRegs := ⟨false, 0, 0, 0, 0, 1, false, 0, 0, false⟩

def nextAddr (addr : BitVec 32) (size : BitVec 3) (burst : BitVec 2) : BitVec 32 :=
  if burst = 1#2 then addr + (1#32 <<< size.toNat) else addr

/-- `mem_read(addr, {29'h0, size})`, of which the lower half is used. -/
def loadWord (m : Memory) (addr : BitVec 32) (size : BitVec 3) : BitVec 32 :=
  (m.memRead addr (size.setWidth 32)).setWidth 32

namespace WriteRegs

variable (i : Inputs) (s : WriteRegs)

def inAwready : Bool := !s.awActiveQ && !s.bvalidQ

def inWready : Bool := s.awActiveQ

def awFire : Bool := s.inAwready && i.awvalid

def wFire : Bool := s.inWready && i.wvalid

def bFire : Bool := s.bvalidQ && i.bready

/-- The write registers at a clock edge. -/
def posedge : WriteRegs :=
  let s₁ : WriteRegs :=
    if s.awFire i then
      { s with
        awActiveQ := true, awAddrQ := i.aw.addr, awIdQ := i.aw.id, awBeatsLeftQ := i.aw.len,
        awSizeQ := i.aw.size, awBurstQ := i.aw.burst }
    else s
  let s₂ : WriteRegs :=
    if s.wFire i then
      if s.awBeatsLeftQ = 0#8 ∨ i.wlast then
        { s₁ with awActiveQ := false, bvalidQ := true, bidQ := s.awIdQ }
      else
        { s₁ with
          awBeatsLeftQ := s.awBeatsLeftQ - 1#8, awAddrQ := nextAddr s.awAddrQ s.awSizeQ s.awBurstQ }
    else s₁
  if s.bFire i then { s₂ with bvalidQ := false } else s₂

/-- `mem_write(aw_addr_q, {28'h0, in_wstrb}, in_wdata)`. -/
def memory (m : Memory) : Memory :=
  if s.wFire i then (m.memWrite s.awAddrQ (i.w.strb.setWidth 32) i.w.data).1 else m

end WriteRegs

namespace ReadRegs

variable (i : Inputs) (m : Memory) (s : ReadRegs)

def inArready : Bool := !s.rvalidQ

def arFire : Bool := s.inArready && i.arvalid

def rFire : Bool := s.rvalidQ && i.rready

/-- The read registers at a clock edge; `m` is the memory after the write of the same edge. -/
def posedge : ReadRegs :=
  let s₁ : ReadRegs :=
    if s.arFire i then
      { arActiveQ := true, arAddrQ := i.ar.addr, arIdQ := i.ar.id, arBeatsLeftQ := i.ar.len,
        arSizeQ := i.ar.size, arBurstQ := i.ar.burst, rvalidQ := true, ridQ := i.ar.id,
        rdataQ := loadWord m i.ar.addr i.ar.size, rlastQ := i.ar.len == 0#8 }
    else s
  if s.rFire i then
    if s.arBeatsLeftQ = 0#8 then { s₁ with arActiveQ := false, rvalidQ := false, rlastQ := false }
    else
      let addrNext := nextAddr s.arAddrQ s.arSizeQ s.arBurstQ
      { s₁ with
        arAddrQ := addrNext, arBeatsLeftQ := s.arBeatsLeftQ - 1#8, ridQ := s.arIdQ,
        rdataQ := loadWord m addrNext s.arSizeQ, rlastQ := s.arBeatsLeftQ == 1#8, rvalidQ := true }
  else s₁

end ReadRegs

/-- `always @(posedge clock)`. -/
def Regs.posedge (i : Inputs) (s : Regs) : Regs :=
  let m := s.write.memory i s.memory
  { write := s.write.posedge i, read := s.read.posedge i m, memory := m }

def Regs.reset (m : Memory) : Regs := ⟨.reset, .reset, m⟩

/-! ## 2. Events -/

/-- An access to the memory has an address and a size. -/
abbrev Event := BurstEvent Address (BitVec 32 × BitVec 3) (BitVec 4) (BitVec 32) Strobed

/-- Beat `k` of a burst: `INCR` goes on by the size, any other type stays. -/
def beatAddr (a : Address) (k : Nat) : BitVec 32 :=
  if a.burst = 1#2 then a.addr + BitVec.ofNat 32 (k * 2 ^ a.size.toNat) else a.addr

def rules : BurstRules Address (BitVec 32 × BitVec 3) (BitVec 4) where
  id := Address.id
  last := fun a => a.len.toNat
  addr := fun a k => (beatAddr a k, a.size)

def WriteRegs.events (i : Inputs) (s : WriteRegs) : List Event :=
  (if s.awFire i then [.aw i.aw] else []) ++
    (if s.wFire i then [.w i.w i.wlast, .store (s.awAddrQ, s.awSizeQ) i.w] else []) ++
    (if s.bFire i then [.b s.bidQ] else [])

def ReadRegs.events (i : Inputs) (m : Memory) (s : ReadRegs) : List Event :=
  (if s.arFire i then [.ar i.ar, .load (i.ar.addr, i.ar.size) (loadWord m i.ar.addr i.ar.size)]
    else []) ++
    (if s.rFire i then
      .r s.ridQ s.rdataQ s.rlastQ ::
        if s.arBeatsLeftQ = 0#8 then []
        else
          let addrNext := nextAddr s.arAddrQ s.arSizeQ s.arBurstQ
          [.load (addrNext, s.arSizeQ) (loadWord m addrNext s.arSizeQ)]
    else [])

/-- The handshakes and the memory accesses of a cycle, in the order of the source. -/
def Regs.events (i : Inputs) (s : Regs) : List Event :=
  s.write.events i ++ s.read.events i (s.write.memory i s.memory)

def machine : Machine Regs Inputs (List Event) where
  next := Regs.posedge
  out := Regs.events

/-- The calls that change the memory. -/
def memOps (events : List Event) : List MemOp :=
  events.filterMap fun
    | .store (addr, _) w => some (.memWrite addr (w.strb.setWidth 32) w.data)
    | _ => none

theorem nextAddr_beatAddr (a : Address) (k : Nat) :
    nextAddr (beatAddr a k) a.size a.burst = beatAddr a (k + 1) := by
  unfold nextAddr beatAddr
  split
  · have hshift : (1#32 <<< a.size.toNat) = BitVec.ofNat 32 (2 ^ a.size.toNat) := by
      apply BitVec.eq_of_toNat_eq
      simp [Nat.shiftLeft_eq]
    rw [hshift, BitVec.add_assoc, ← BitVec.ofNat_add, Nat.succ_mul]
  · rfl

theorem beatAddr_zero (a : Address) : beatAddr a 0 = a.addr := by
  simp [beatAddr]

/-! ## 3. Reads -/

/-- What the read registers say of the beat that is shown. -/
def ReadRegs.Shows (s : ReadRegs) : Option (Address × Nat × BitVec 32) → Prop
  | none => s.rvalidQ = false
  | some (a, k, data) => s.rvalidQ = true ∧ s.rdataQ = data ∧ s.ridQ = a.id ∧ s.arIdQ = a.id ∧
      s.arSizeQ = a.size ∧ s.arBurstQ = a.burst ∧ s.arAddrQ = beatAddr a k ∧
      s.arBeatsLeftQ.toNat + k = a.len.toNat ∧ s.rlastQ = decide (k = a.len.toNat)

theorem toNat_ne_zero {b : BitVec 8} (h : ¬ b = 0#8) : b.toNat ≠ 0 := by
  intro hzero
  exact h (BitVec.eq_of_toNat_eq hzero)

theorem toNat_pred {b : BitVec 8} (h : ¬ b = 0#8) : (b - 1#8).toNat = b.toNat - 1 := by
  have hpos := toNat_ne_zero h
  have hone : (1#8).toNat = 1 := rfl
  rw [BitVec.toNat_sub_of_le (by rw [BitVec.le_def]; omega), hone]

/-- One cycle of the read direction. -/
theorem reads_next {events : List Event} {shown : Option (Address × Nat × BitVec 32)} {s : ReadRegs}
    (h : Reads rules events shown) (hshows : s.Shows shown) (i : Inputs) (m : Memory) :
    ∃ shown', Reads rules (events ++ s.events i m) shown' ∧ (s.posedge i m).Shows shown' := by
  cases shown with
  | none =>
    have hvalid : s.rvalidQ = false := hshows
    have hr : s.rFire i = false := by simp [ReadRegs.rFire, hvalid]
    cases har : i.arvalid with
    | false =>
      have hfire : s.arFire i = false := by simp [ReadRegs.arFire, har]
      refine ⟨none, ?_, ?_⟩
      · simpa [ReadRegs.events, hr, hfire] using h
      · simpa [ReadRegs.posedge, hr, hfire, ReadRegs.Shows] using hvalid
    | true =>
      have hfire : s.arFire i = true := by simp [ReadRegs.arFire, ReadRegs.inArready, har, hvalid]
      refine ⟨some (i.ar, 0, loadWord m i.ar.addr i.ar.size), ?_, ?_⟩
      · have hstart := h.start i.ar (loadWord m i.ar.addr i.ar.size)
        simpa [ReadRegs.events, hr, hfire, rules, beatAddr_zero] using hstart
      · have hlast : (i.ar.len == 0#8) = decide (0 = i.ar.len.toNat) := by
          rw [Bool.eq_iff_iff, beq_iff_eq, decide_eq_true_eq, ← BitVec.toNat_inj]
          exact eq_comm
        simp [ReadRegs.posedge, hr, hfire, ReadRegs.Shows, beatAddr_zero, hlast]
  | some beat =>
    obtain ⟨a, k, data⟩ := beat
    obtain ⟨hvalid, hdata, hrid, harid, hsize, hburst, haddr, hleft, hlast⟩ := hshows
    have hfire : s.arFire i = false := by simp [ReadRegs.arFire, ReadRegs.inArready, hvalid]
    cases hready : i.rready with
    | false =>
      have hr : s.rFire i = false := by simp [ReadRegs.rFire, hready]
      refine ⟨some (a, k, data), ?_, ?_⟩
      · simpa [ReadRegs.events, hr, hfire] using h
      · simp only [ReadRegs.posedge, hr, hfire, Bool.false_eq_true, if_false]
        exact ⟨hvalid, hdata, hrid, harid, hsize, hburst, haddr, hleft, hlast⟩
    | true =>
      have hr : s.rFire i = true := by simp [ReadRegs.rFire, hready, hvalid]
      by_cases hzero : s.arBeatsLeftQ = 0#8
      · have hk : k = a.len.toNat := by simpa [hzero] using hleft
        refine ⟨none, ?_, ?_⟩
        · have hdone := h.done hk
          simpa [ReadRegs.events, hr, hfire, hzero, hrid, hdata, hlast, hk, rules] using hdone
        · simp [ReadRegs.posedge, hr, hfire, hzero, ReadRegs.Shows]
      · have hpos := toNat_ne_zero hzero
        have hk : k ≠ a.len.toNat := by omega
        have hnext : nextAddr s.arAddrQ a.size s.arBurstQ = beatAddr a (k + 1) := by
          rw [haddr, hburst, nextAddr_beatAddr]
        have hone : (s.arBeatsLeftQ == 1#8) = decide (k + 1 = a.len.toNat) := by
          rw [Bool.eq_iff_iff, beq_iff_eq, decide_eq_true_eq, ← BitVec.toNat_inj]
          have : (1#8).toNat = 1 := rfl
          omega
        refine ⟨some (a, k + 1, loadWord m (beatAddr a (k + 1)) a.size), ?_, ?_⟩
        · have hbeat := h.next (loadWord m (beatAddr a (k + 1)) a.size) hk
          simpa [ReadRegs.events, hr, hfire, hzero, hrid, hdata, hlast, hk, rules, hnext, hsize]
            using hbeat
        · simp only [ReadRegs.posedge, hr, hfire, hzero, Bool.false_eq_true, if_false, if_true]
          refine ⟨rfl, by rw [hsize, hnext], harid, harid, hsize, hburst, by rw [hsize, hnext], ?_,
            hone⟩
          rw [toNat_pred hzero]
          omega

/-! ## 4. Writes -/

/-- What the write registers say of the burst under way. -/
def WriteRegs.At (s : WriteRegs) : WriteStage Address → Prop
  | .idle => s.awActiveQ = false ∧ s.bvalidQ = false
  | .data a k => s.awActiveQ = true ∧ s.bvalidQ = false ∧ s.awIdQ = a.id ∧ s.awSizeQ = a.size ∧
      s.awBurstQ = a.burst ∧ s.awAddrQ = beatAddr a k ∧ s.awBeatsLeftQ.toNat + k = a.len.toNat
  | .response a => s.awActiveQ = false ∧ s.bvalidQ = true ∧ s.bidQ = a.id

/-- One cycle of the write direction. -/
theorem writes_next {events : List Event} {stage : WriteStage Address} {s : WriteRegs}
    (h : Writes rules events stage) (hat : s.At stage) (i : Inputs) :
    ∃ stage', Writes rules (events ++ s.events i) stage' ∧ (s.posedge i).At stage' := by
  cases stage with
  | idle =>
    obtain ⟨hactive, hbvalid⟩ := hat
    have hw : s.wFire i = false := by simp [WriteRegs.wFire, WriteRegs.inWready, hactive]
    have hb : s.bFire i = false := by simp [WriteRegs.bFire, hbvalid]
    cases haw : i.awvalid with
    | false =>
      have hfire : s.awFire i = false := by simp [WriteRegs.awFire, haw]
      refine ⟨.idle, ?_, ?_⟩
      · simpa [WriteRegs.events, hw, hb, hfire] using h
      · simpa [WriteRegs.posedge, hw, hb, hfire, WriteRegs.At] using ⟨hactive, hbvalid⟩
    | true =>
      have hfire : s.awFire i = true := by
        simp [WriteRegs.awFire, WriteRegs.inAwready, haw, hactive, hbvalid]
      refine ⟨.data i.aw 0, ?_, ?_⟩
      · simpa [WriteRegs.events, hw, hb, hfire] using h.start i.aw
      · simp [WriteRegs.posedge, hw, hb, hfire, WriteRegs.At, beatAddr_zero, hbvalid]
  | data a k =>
    obtain ⟨hactive, hbvalid, hid, hsize, hburst, haddr, hleft⟩ := hat
    have hfire : s.awFire i = false := by simp [WriteRegs.awFire, WriteRegs.inAwready, hactive]
    have hb : s.bFire i = false := by simp [WriteRegs.bFire, hbvalid]
    cases hwvalid : i.wvalid with
    | false =>
      have hw : s.wFire i = false := by simp [WriteRegs.wFire, hwvalid]
      refine ⟨.data a k, ?_, ?_⟩
      · simpa [WriteRegs.events, hw, hb, hfire] using h
      · simp only [WriteRegs.posedge, hw, hb, hfire, Bool.false_eq_true, if_false]
        exact ⟨hactive, hbvalid, hid, hsize, hburst, haddr, hleft⟩
    | true =>
      have hw : s.wFire i = true := by simp [WriteRegs.wFire, WriteRegs.inWready, hactive, hwvalid]
      by_cases hend : s.awBeatsLeftQ = 0#8 ∨ i.wlast = true
      · have hk : k = a.len.toNat ∨ i.wlast = true := by
          rcases hend with hzero | hlast
          · exact .inl (by simpa [hzero] using hleft)
          · exact .inr hlast
        refine ⟨.response a, ?_, ?_⟩
        · have hfinal := h.final i.w i.wlast hk
          simpa [WriteRegs.events, hw, hb, hfire, haddr, hsize, rules] using hfinal
        · simp only [WriteRegs.posedge, hw, hb, hfire, Bool.false_eq_true, if_false, if_true,
            if_pos hend]
          exact ⟨rfl, rfl, hid⟩
      · rw [not_or, Bool.not_eq_true] at hend
        obtain ⟨hzero, hlast⟩ := hend
        have hpos := toNat_ne_zero hzero
        refine ⟨.data a (k + 1), ?_, ?_⟩
        · have hbeat := h.next i.w (by omega : k ≠ a.len.toNat)
          simpa [WriteRegs.events, hw, hb, hfire, haddr, hsize, hlast, rules] using hbeat
        · simp only [WriteRegs.posedge, hw, hb, hfire, hzero, hlast, Bool.false_eq_true, if_false,
            if_true, or_self]
          refine ⟨hactive, hbvalid, hid, hsize, hburst, ?_, ?_⟩
          · rw [haddr, hsize, hburst, nextAddr_beatAddr]
          · rw [toNat_pred hzero]
            omega
  | response a =>
    obtain ⟨hactive, hbvalid, hbid⟩ := hat
    have hfire : s.awFire i = false := by simp [WriteRegs.awFire, WriteRegs.inAwready, hbvalid]
    have hw : s.wFire i = false := by simp [WriteRegs.wFire, WriteRegs.inWready, hactive]
    cases hbready : i.bready with
    | false =>
      have hb : s.bFire i = false := by simp [WriteRegs.bFire, hbready]
      refine ⟨.response a, ?_, ?_⟩
      · simpa [WriteRegs.events, hw, hb, hfire] using h
      · simp only [WriteRegs.posedge, hw, hb, hfire, Bool.false_eq_true, if_false]
        exact ⟨hactive, hbvalid, hbid⟩
    | true =>
      have hb : s.bFire i = true := by simp [WriteRegs.bFire, hbready, hbvalid]
      refine ⟨.idle, ?_, ?_⟩
      · simpa [WriteRegs.events, hw, hb, hfire, hbid, rules] using h.done
      · simp [WriteRegs.posedge, hw, hb, hfire, WriteRegs.At, hactive]

/-! ## 5. Runs -/

/-- What the slave keeps over any run. -/
structure Serves (m : Memory) (events : List Event) (s : Regs) : Prop where
  reads : ∃ shown, Reads rules (events.filter BurstEvent.isRead) shown ∧ s.read.Shows shown
  writes : ∃ stage, Writes rules (events.filter (!·.isRead)) stage ∧ s.write.At stage
  memory : s.memory = m.run (memOps events)
  loads : ∀ past addr size data rest, events = past ++ .load (addr, size) data :: rest →
    data = loadWord (m.run (memOps past)) addr size

theorem isRead_readEvents (i : Inputs) (m : Memory) (s : ReadRegs) :
    ∀ event ∈ s.events i m, event.isRead = true := by
  intro event hevent
  unfold ReadRegs.events at hevent
  grind [BurstEvent.isRead]

theorem isRead_writeEvents (i : Inputs) (s : WriteRegs) :
    ∀ event ∈ s.events i, event.isRead = false := by
  intro event hevent
  unfold WriteRegs.events at hevent
  grind [BurstEvent.isRead]

theorem filter_isRead_events (i : Inputs) (s : Regs) :
    (s.events i).filter BurstEvent.isRead = s.read.events i (s.write.memory i s.memory) := by
  rw [Regs.events, List.filter_append, List.filter_eq_nil_iff.2, List.nil_append,
    List.filter_eq_self.2]
  · exact isRead_readEvents i _ s.read
  · intro event hevent
    simp [isRead_writeEvents i s.write event hevent]

theorem filter_not_isRead_events (i : Inputs) (s : Regs) :
    (s.events i).filter (!·.isRead) = s.write.events i := by
  rw [Regs.events, List.filter_append, List.filter_eq_self.2, List.filter_eq_nil_iff.2,
    List.append_nil]
  · intro event hevent
    simp [isRead_readEvents i _ s.read event hevent]
  · intro event hevent
    simp [isRead_writeEvents i s.write event hevent]

theorem run_append (m : Memory) (ops more : List MemOp) : m.run (ops ++ more) = (m.run ops).run more :=
  List.foldl_append ..

theorem memOps_append (events more : List Event) :
    memOps (events ++ more) = memOps events ++ memOps more := List.filterMap_append ..

theorem memOps_eq_nil {events : List Event} (h : ∀ event ∈ events, event.isRead = true) :
    memOps events = [] := by
  unfold memOps
  rw [List.filterMap_eq_nil_iff]
  intro event hevent
  have hread := h event hevent
  cases event with
  | store => cases hread
  | ar | load | r | aw | w | b => rfl

theorem memory_eq_run (i : Inputs) (s : WriteRegs) (m : Memory) :
    s.memory i m = m.run (memOps (s.events i)) := by
  unfold WriteRegs.memory WriteRegs.events memOps
  cases s.awFire i <;> cases s.wFire i <;> cases s.bFire i <;> rfl

/-- In one cycle every load comes after the store. -/
theorem loads_readEvents (i : Inputs) (m : Memory) (s : ReadRegs) {addr : BitVec 32}
    {size : BitVec 3} {data : BitVec 32} (h : .load (addr, size) data ∈ s.events i m) :
    data = loadWord m addr size := by
  unfold ReadRegs.events at h
  grind

/-- An element of an append is in the first list or in the second one. -/
theorem split_append {α : Type} {xs ys past rest : List α} {x : α} (h : xs ++ ys = past ++ x :: rest) :
    (∃ more, xs = past ++ x :: more) ∨ ∃ before, past = xs ++ before ∧ ys = before ++ x :: rest := by
  rcases List.append_eq_append_iff.1 h with ⟨before, hpast, hys⟩ | ⟨more, hxs, hrest⟩
  · exact .inr ⟨before, hpast, hys⟩
  · cases more with
    | nil => exact .inr ⟨[], by simpa using hxs.symm, hrest.symm⟩
    | cons y more =>
      rw [List.cons_append, List.cons.injEq] at hrest
      exact .inl ⟨more, by rw [hxs, hrest.1]⟩

theorem serves_next {m : Memory} {events : List Event} {s : Regs} (h : Serves m events s) (i : Inputs) :
    Serves m (events ++ s.events i) (s.posedge i) where
  reads := by
    obtain ⟨shown, hreads, hshows⟩ := h.reads
    rw [List.filter_append, filter_isRead_events]
    exact reads_next hreads hshows i _
  writes := by
    obtain ⟨stage, hwrites, hat⟩ := h.writes
    rw [List.filter_append, filter_not_isRead_events]
    exact writes_next hwrites hat i
  memory := by
    rw [memOps_append, run_append, ← h.memory, Regs.events, memOps_append,
      memOps_eq_nil (isRead_readEvents i _ s.read), List.append_nil, ← memory_eq_run]
    rfl
  loads := by
    intro past addr size data rest hsplit
    rcases split_append hsplit with ⟨more, hevents⟩ | ⟨before, rfl, hcycle⟩
    · exact h.loads past addr size data more hevents
    · rcases split_append hcycle with ⟨more, hwrite⟩ | ⟨earlier, rfl, hread⟩
      · have hmem : .load (addr, size) data ∈ s.write.events i := by simp [hwrite]
        have hload := isRead_writeEvents i s.write _ hmem
        cases hload
      · have hmem : .load (addr, size) data ∈ s.read.events i (s.write.memory i s.memory) := by
          simp [hread]
        have hearlier : ∀ event ∈ earlier, event.isRead = true := by
          intro event hevent
          exact isRead_readEvents i (s.write.memory i s.memory) s.read event (by simp [hread, hevent])
        rw [memOps_append, memOps_append, memOps_eq_nil hearlier, List.append_nil, run_append,
          ← h.memory, ← memory_eq_run]
        exact loads_readEvents i _ s.read hmem

theorem serves_run (m : Memory) (inputs : List Inputs) :
    Serves m (machine.trace (Regs.reset m) inputs).flatten (machine.run (Regs.reset m) inputs) := by
  refine @Machine.trace_induct _ _ _ machine (fun past s => Serves m past.flatten s) ?_ _ ?_ inputs
  · intro past s i h
    have hnext := serves_next h i
    rwa [List.flatten_append, List.flatten_singleton]
  · exact
      { reads := ⟨none, .nil, rfl⟩
        writes := ⟨.idle, .nil, rfl, rfl⟩
        memory := rfl
        loads := by simp }

/-- Over any run the slave serves whole read bursts and whole write bursts, one of each at a time:
every beat at its address, every burst with its id, one response for each write burst. The four
bytes of a load are the last ones that the stores before it left there. -/
theorem sdram_serves (m : Memory) (inputs : List Inputs) :
    let events := (machine.trace (Regs.reset m) inputs).flatten
    let s := machine.run (Regs.reset m) inputs
    (∃ (served : List (ReadBurst rules (BitVec 32))) (rest : List Event) (shown : _),
      events.filter BurstEvent.isRead = served.flatMap ReadBurst.events ++ rest ∧
        ReadsUnderWay rules rest shown ∧ s.read.Shows shown) ∧
    (∃ (served : List (WriteBurst rules Strobed)) (rest : List Event) (stage : _),
      events.filter (!·.isRead) = served.flatMap WriteBurst.answered ++ rest ∧
        WritesUnderWay rules rest stage ∧ s.write.At stage) ∧
    ∀ past addr size data rest, events = past ++ .load (addr, size) data :: rest → ∀ lane < 4,
      byteAt data lane =
        match memPlace m.preloaded addr lane with
        | .image i => m.mrom.getD i 0
        | .memory i => lastByte m.preloaded i (m.contents i) (memOps past)
        | .nowhere => 0 := by
  intro events s
  have hserves := serves_run m inputs
  obtain ⟨shown, hreads, hshows⟩ := hserves.reads
  obtain ⟨stage, hwrites, hat⟩ := hserves.writes
  obtain ⟨readsServed, readsRest, hreadEvents, hreadRest⟩ := hreads.bursts
  obtain ⟨writesServed, writesRest, hwriteEvents, hwriteRest⟩ := hwrites.bursts
  refine ⟨⟨readsServed, readsRest, shown, hreadEvents, hreadRest, hshows⟩,
    ⟨writesServed, writesRest, stage, hwriteEvents, hwriteRest, hat⟩, ?_⟩
  intro past addr size data rest hsplit lane hlane
  have hfour : 4 ≤ Memory.readWidth (size.setWidth 32) := by
    unfold Memory.readWidth
    split <;> omega
  rw [hserves.loads past addr size data rest hsplit, loadWord, byteAt_setWidth _ (by omega)]
  exact @read_run m (memOps past) (.memRead addr (size.setWidth 32)) _ _ lane rfl (by omega)

/-- One cycle of a read burst whose master is ready. -/
theorem read_ready {s : Regs} {i : Inputs} (hvalid : s.read.rvalidQ = true) (hready : i.rready = true) :
    (s.read.arBeatsLeftQ = 0#8 → (s.posedge i).read.rvalidQ = false) ∧
      (¬ s.read.arBeatsLeftQ = 0#8 → (s.posedge i).read.rvalidQ = true ∧
        (s.posedge i).read.arBeatsLeftQ = s.read.arBeatsLeftQ - 1#8) := by
  constructor
  · intro hzero
    simp [Regs.posedge, ReadRegs.posedge, ReadRegs.rFire, hvalid, hready, hzero]
  · intro hzero
    simp [Regs.posedge, ReadRegs.posedge, ReadRegs.arFire, ReadRegs.inArready, ReadRegs.rFire, hvalid,
      hready, hzero]

/-- A master that is always ready gets the rest of a read burst in one cycle for each beat,
whatever the write channels do. -/
theorem read_burst_ends (inputs : List Inputs) {s : Regs} (hvalid : s.read.rvalidQ = true)
    (hlength : inputs.length = s.read.arBeatsLeftQ.toNat + 1)
    (hready : ∀ i ∈ inputs, i.rready = true) : (machine.run s inputs).read.rvalidQ = false := by
  induction inputs generalizing s with
  | nil => simp at hlength
  | cons i inputs ih =>
    obtain ⟨hlast, hmore⟩ := read_ready hvalid (hready i List.mem_cons_self)
    rw [List.length_cons, Nat.add_right_cancel_iff] at hlength
    by_cases hzero : s.read.arBeatsLeftQ = 0#8
    · have hnil : inputs = [] := List.length_eq_zero_iff.1 (by simpa [hzero] using hlength)
      rw [hnil]
      exact hlast hzero
    · obtain ⟨hvalid', hleft⟩ := hmore hzero
      have hpos := toNat_ne_zero hzero
      refine ih hvalid' ?_ (fun i hi => hready i (List.mem_cons_of_mem _ hi))
      show inputs.length = (s.posedge i).read.arBeatsLeftQ.toNat + 1
      rw [hleft, toNat_pred hzero]
      omega

/-- A response stays until it is taken, exactly one of the three write channels can move, and a
master that is always ready gets the rest of a read burst in one cycle for each beat. -/
theorem sdram_holds (m : Memory) (inputs : List Inputs) (i : Inputs) :
    let s := machine.run (Regs.reset m) inputs
    let s' := s.posedge i
    (s.read.rvalidQ = true → i.rready = false → s'.read = s.read) ∧
      (s.write.bvalidQ = true → i.bready = false → s'.write = s.write) ∧
      [s.write.inAwready, s.write.inWready, s.write.bvalidQ].count true = 1 ∧
      ∀ more : List Inputs, s.read.rvalidQ = true → (∀ i ∈ more, i.rready = true) →
        more.length = s.read.arBeatsLeftQ.toNat + 1 → (machine.run s more).read.rvalidQ = false := by
  intro s s'
  have hserves := serves_run m inputs
  obtain ⟨stage, _, hat⟩ := hserves.writes
  have hresponse : s.write.bvalidQ = true → s.write.awActiveQ = false := by
    intro hbvalid
    cases stage with
    | idle => exact hat.1
    | data a k => exact absurd (hat.2.1.symm.trans hbvalid) (by decide)
    | response a => exact hat.1
  refine ⟨?_, ?_, ?_, ?_⟩
  · intro hvalid hready
    simp [s', Regs.posedge, ReadRegs.posedge, ReadRegs.arFire, ReadRegs.inArready, ReadRegs.rFire,
      hvalid, hready]
  · intro hvalid hready
    simp [s', Regs.posedge, WriteRegs.posedge, WriteRegs.awFire, WriteRegs.inAwready,
      WriteRegs.wFire, WriteRegs.inWready, WriteRegs.bFire, hvalid, hready, hresponse hvalid]
  · cases hactive : s.write.awActiveQ with
    | false => cases hbvalid : s.write.bvalidQ <;> simp [WriteRegs.inAwready, WriteRegs.inWready, *]
    | true =>
      have hbvalid : s.write.bvalidQ = false := by
        by_contra hvalid
        rw [hresponse (by simpa using hvalid)] at hactive
        cases hactive
      simp [WriteRegs.inAwready, WriteRegs.inWready, hactive, hbvalid]
  · intro more hvalid hready hlength
    exact read_burst_ends more hvalid hlength hready

end EccFe.Soc.SdramAxi
