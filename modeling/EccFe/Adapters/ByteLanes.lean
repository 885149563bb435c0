/-
EccFe.Adapters.ByteLanes — the lanes of the narrow transfers of SCR1 and DarkRISCV.

Both wrappers issue a data access at the address of its word and with the size of the access. The
strobes and the data are on the lanes of the access, so they leave the bytes that address and size
name unless the access starts its word (`narrow_lanes_iff`). The wrappers that always issue words
have no such transfer.
-/
import EccFe.Adapters.Bridges
import EccFe.Adapters.DarkRiscv
import EccFe.Bus.Lanes

namespace EccFe.Adapters

open Bus

/-! ## 1. Words and their low bits -/

theorem toNat_wordAligned (addr : BitVec 32) : (wordAligned addr).toNat = addr.toNat / 4 * 4 := by
  have hlt := addr.isLt
  simp only [wordAligned, BitVec.toNat_append, BitVec.extractLsb'_toNat, BitVec.toNat_ofNat,
    Nat.zero_mod, Nat.or_zero, Nat.shiftLeft_eq, Nat.shiftRight_eq_div_pow]
  omega

theorem toNat_addrLow (addr : BitVec 32) : (Scr1.addrLow addr).toNat = addr.toNat % 4 := by
  simp [Scr1.addrLow, BitVec.extractLsb'_toNat]

theorem addrLow_eq_zero_iff {addr : BitVec 32} : Scr1.addrLow addr = 0 ↔ addr.toNat % 4 = 0 := by
  rw [← toNat_addrLow, ← BitVec.toNat_inj]
  rfl

/-- A shift by whole bytes moves bytes to higher lanes. -/
theorem byteOf_shiftLeft (data : BitVec 32) {low k : Nat} (h : low + k < 4) :
    byteOf (data <<< (8 * low)) (low + k) = byteOf data k := by
  ext i hi
  simp only [byteOf, BitVec.getElem_extractLsb', BitVec.getLsbD_shiftLeft]
  have hin : 8 * (low + k) + i < 32 := by omega
  have hout : ¬ 8 * (low + k) + i < 8 * low := by omega
  simp only [hin, hout, decide_true, decide_false, Bool.true_and, Bool.not_false]
  congr 1
  omega

theorem byteOf_and {data mask : BitVec 32} {k : Nat}
    (h : ∀ i < 8, mask.getLsbD (8 * k + i) = true) : byteOf (data &&& mask) k = byteOf data k := by
  ext i hi
  simp [byteOf, h i hi]

/-- The channels of a cycle carry the access. -/
def Carries (write : Bool) (a : ByteAccess) (c : SocketCycle) : Prop :=
  if write then
    c.awvalid = true ∧ c.wvalid = true ∧
      WriteCovers a c.aw.addr.toNat c.aw.size.toNat c.w.strb c.w.data
  else c.arvalid = true ∧ ReadCovers a c.ar.addr.toNat c.ar.size.toNat

/-- A captured access is carried exactly when it starts its word. -/
theorem carries_capture_iff {write : Bool} {a : ByteAccess} (haligned : a.Aligned) {addr : BitVec 32}
    (hfirst : a.first = addr.toNat) {s : AxiRegs} {io : Socket} {awid arid : BitVec 4}
    {size : BitVec 3} (hsize : 2 ^ size.toNat = a.n) {wdata : BitVec 32} {wstrb : BitVec 4}
    (hstrb : write = true → wstrb = laneMask a.n (a.first % 4))
    (hdata : write = true → ∀ k < a.n, byteOf wdata (a.first % 4 + k) = a.value k) :
    Carries write a ((s.capture write (wordAligned addr) wdata wstrb).cycle io awid arid size) ↔
      Scr1.addrLow addr = 0 := by
  rw [addrLow_eq_zero_iff, ← hfirst]
  cases write with
  | true =>
    have hcovers := writeCovers_word_iff haligned hsize (hdata rfl)
    rw [← hstrb rfl, hfirst, ← toNat_wordAligned, ← hfirst] at hcovers
    show true = true ∧ true = true ∧ WriteCovers a (wordAligned addr).toNat size.toNat wstrb wdata ↔ _
    simpa using hcovers
  | false =>
    have hcovers := readCovers_word_iff haligned hsize
    rw [hfirst, ← toNat_wordAligned, ← hfirst] at hcovers
    show true = true ∧ ReadCovers a (wordAligned addr).toNat size.toNat ↔ _
    simpa using hcovers

/-! ## 2. SCR1 -/

namespace Scr1

variable {Cmd Resp : Type} {memif : Memif Cmd Resp}

/-- The three widths are three values. -/
structure Memif.Distinct (memif : Memif Cmd Resp) : Prop where
  byteHword : memif.widthByte ≠ memif.widthHword
  byteWord : memif.widthByte ≠ memif.widthWord
  hwordWord : memif.widthHword ≠ memif.widthWord

/-- The data access the core asks for; store data is right-aligned. -/
structure Asks (memif : Memif Cmd Resp) (core : Core Cmd) (a : ByteAccess) : Prop where
  first : a.first = core.dmemAddr.toNat
  width : (core.dmemWidth = memif.widthByte ∧ a.n = 1) ∨
    (core.dmemWidth = memif.widthHword ∧ a.n = 2) ∨ (core.dmemWidth = memif.widthWord ∧ a.n = 4)
  value : ∀ k < a.n, a.value k = byteOf core.dmemWdata k

theorem axiSize_of_width (hdistinct : memif.Distinct) {width : BitVec 2} {n : Nat}
    (h : (width = memif.widthByte ∧ n = 1) ∨ (width = memif.widthHword ∧ n = 2) ∨
      (width = memif.widthWord ∧ n = 4)) : 2 ^ (widthToAxiSize memif width).toNat = n := by
  rcases h with ⟨rfl, rfl⟩ | ⟨rfl, rfl⟩ | ⟨rfl, rfl⟩
  · rw [widthToAxiSize, if_pos rfl]
    rfl
  · rw [widthToAxiSize, if_neg (Ne.symm hdistinct.byteHword), if_pos rfl]
    rfl
  · rw [widthToAxiSize, if_neg (Ne.symm hdistinct.byteWord), if_neg (Ne.symm hdistinct.hwordWord)]
    rfl

theorem wstrb_of_width (hdistinct : memif.Distinct) {width low : BitVec 2} {n : Nat}
    (h : (width = memif.widthByte ∧ n = 1) ∨ (width = memif.widthHword ∧ n = 2) ∨
      (width = memif.widthWord ∧ n = 4)) (haligned : low.toNat % n = 0) :
    widthToWstrb memif width low = laneMask n low.toNat := by
  have hbyte : ∀ low : BitVec 2, (1 : BitVec 4) <<< low.toNat = laneMask 1 low.toNat := by decide
  have hhalf : ∀ low : BitVec 2, low.toNat % 2 = 0 →
      (3 : BitVec 4) <<< (halfLane low).toNat = laneMask 2 low.toNat := by decide
  have hword : ∀ low : BitVec 2, low.toNat % 4 = 0 → (15 : BitVec 4) = laneMask 4 low.toNat := by decide
  rcases h with ⟨rfl, rfl⟩ | ⟨rfl, rfl⟩ | ⟨rfl, rfl⟩
  · rw [widthToWstrb, if_pos rfl]
    exact hbyte low
  · rw [widthToWstrb, if_neg (Ne.symm hdistinct.byteHword), if_pos rfl]
    exact hhalf low haligned
  · rw [widthToWstrb, if_neg (Ne.symm hdistinct.byteWord), if_neg (Ne.symm hdistinct.hwordWord)]
    exact hword low haligned

theorem byteOf_alignWriteData (hdistinct : memif.Distinct) {data : BitVec 32} {width low : BitVec 2}
    {n : Nat} (h : (width = memif.widthByte ∧ n = 1) ∨ (width = memif.widthHword ∧ n = 2) ∨
      (width = memif.widthWord ∧ n = 4)) (haligned : low.toNat % n = 0) {k : Nat} (hk : k < n) :
    byteOf (alignWriteData memif data width low) (low.toNat + k) = byteOf data k := by
  have hlow : low.toNat < 4 := low.isLt
  rcases h with ⟨rfl, rfl⟩ | ⟨rfl, rfl⟩ | ⟨rfl, rfl⟩
  · rw [alignWriteData, if_pos rfl, laneShift, byteOf_shiftLeft _ (by omega)]
    obtain rfl : k = 0 := by omega
    exact byteOf_and (by decide)
  · have hhalf : ∀ low : BitVec 2, low.toNat % 2 = 0 → halfLane low = low := by decide
    rw [alignWriteData, if_neg (Ne.symm hdistinct.byteHword), if_pos rfl, hhalf low haligned, laneShift,
      byteOf_shiftLeft _ (by omega)]
    have hmask : ∀ k < 2, ∀ i < 8, (0xffff : BitVec 32).getLsbD (8 * k + i) = true := by decide
    exact byteOf_and (hmask k hk)
  · rw [alignWriteData, if_neg (Ne.symm hdistinct.byteWord), if_neg (Ne.symm hdistinct.hwordWord),
      show low.toNat = 0 by omega, Nat.zero_add]

variable [DecidableEq Cmd]

/-- A data access that is not local is captured. -/
theorem posedge_data {core : Core Cmd} (io : Socket) {s : Regs Resp} (hidle : s.stateQ = stIdle)
    (hreq : core.dmemReq = true) (hlocal : localWrite memif core s = false) :
    (posedge memif core io s false).toAxiRegs =
        s.capture (dmemWriteReq memif core) (wordAligned core.dmemAddr)
          (alignWriteData memif core.dmemWdata core.dmemWidth (addrLow core.dmemAddr))
          (widthToWstrb memif core.dmemWidth (addrLow core.dmemAddr)) ∧
      (posedge memif core io s false).axiSizeQ = widthToAxiSize memif core.dmemWidth := by
  unfold posedge
  simp [hidle, hreq, hlocal]

theorem carries_iff (hdistinct : memif.Distinct) {core : Core Cmd} {s : Regs Resp}
    (hidle : s.stateQ = stIdle) (hreq : core.dmemReq = true)
    (hlocal : localWrite memif core s = false) {a : ByteAccess} (hasks : Asks memif core a)
    (haligned : a.Aligned) (io io' : Socket) :
    Carries (dmemWriteReq memif core) a (socketCycle io' (posedge memif core io s false)) ↔
      addrLow core.dmemAddr = 0 := by
  obtain ⟨hregs, hsize⟩ := posedge_data io hidle hreq hlocal
  have hlow : (addrLow core.dmemAddr).toNat = a.first % 4 := by rw [toNat_addrLow, hasks.first]
  have hlowAligned : (addrLow core.dmemAddr).toNat % a.n = 0 := by
    have hzero := haligned.aligned
    rw [hlow]
    rcases haligned.width with hn | hn | hn <;> rw [hn] at hzero ⊢ <;> omega
  rw [socketCycle, hregs, hsize]
  refine carries_capture_iff haligned hasks.first (axiSize_of_width hdistinct hasks.width)
    (fun _ => ?_) (fun _ k hk => ?_)
  · rw [wstrb_of_width hdistinct hasks.width hlowAligned, hlow]
  · rw [← hlow, byteOf_alignWriteData hdistinct hasks.width hlowAligned hk, hasks.value k hk]

end Scr1

/-! ## 3. DarkRISCV -/

namespace DarkRiscv

/-- The data access the core asks for, on the bus; the byte enables and the lanes of store data match
its address and width. -/
structure Asks (core : Core) (a : ByteAccess) : Prop where
  first : a.first = (ecosBusAddr core.dataAddr).toNat
  width : (core.dataLen = 1 ∧ a.n = 1) ∨ (core.dataLen = 2 ∧ a.n = 2) ∨ (core.dataLen = 4 ∧ a.n = 4)
  strobes : core.dataWr = true → core.dataBe = laneMask a.n (a.first % 4)
  value : core.dataWr = true → ∀ k < a.n, a.value k = byteOf core.dataWdata (a.first % 4 + k)

/-- The alias keeps the place in the word. -/
theorem addrLow_ecosBusAddr (addr : BitVec 32) :
    Scr1.addrLow (ecosBusAddr addr) = 0 ↔ Scr1.addrLow addr = 0 := by
  rw [addrLow_eq_zero_iff, addrLow_eq_zero_iff, ecosBusAddr]
  split
  · rw [BitVec.toNat_add, show lowAliasBase.toNat = 0x20000000 from rfl]
    omega
  · rfl

theorem axiSize_of_len {len : BitVec 3} {n : Nat}
    (h : (len = 1 ∧ n = 1) ∨ (len = 2 ∧ n = 2) ∨ (len = 4 ∧ n = 4)) :
    2 ^ (darkLenToAxiSize len).toNat = n := by
  rcases h with ⟨rfl, rfl⟩ | ⟨rfl, rfl⟩ | ⟨rfl, rfl⟩ <;> rfl

/-- A read or a write that is not local is captured. -/
theorem posedge_data {core : Core} (io : Socket) {s : Regs} (hidle : s.stateQ = stIdle)
    (hready : readyForNewReq s = true) (hreq : core.dataReq = true)
    (hkind : (core.dataWr || core.dataRd) = true) (hlocal : localWrite core s = false) :
    (posedge core io s false).toAxiRegs =
        s.capture (dataWriteReq core) (wordAligned (ecosBusAddr core.dataAddr)) core.dataWdata
          core.dataBe ∧
      (posedge core io s false).axiSizeQ = darkLenToAxiSize core.dataLen := by
  unfold posedge
  simp [hidle, hready, hreq, hlocal, dataWriteReq, dataReadReq, hkind]

theorem carries_iff {core : Core} {s : Regs} (hidle : s.stateQ = stIdle)
    (hready : readyForNewReq s = true) (hreq : core.dataReq = true)
    (hkind : (core.dataWr || core.dataRd) = true) (hlocal : localWrite core s = false)
    {a : ByteAccess} (hasks : Asks core a) (haligned : a.Aligned) (io io' : Socket) :
    Carries (dataWriteReq core) a (socketCycle io' (posedge core io s false)) ↔
      Scr1.addrLow core.dataAddr = 0 := by
  obtain ⟨hregs, hsize⟩ := posedge_data io hidle hready hreq hkind hlocal
  have hwrite : dataWriteReq core = true → core.dataWr = true := by
    intro h
    simpa [dataWriteReq, hreq] using h
  rw [socketCycle, hregs, hsize, ← addrLow_ecosBusAddr]
  exact carries_capture_iff haligned hasks.first (axiSize_of_len hasks.width)
    (fun h => hasks.strobes (hwrite h)) (fun h k hk => (hasks.value (hwrite h) k hk).symm)

end DarkRiscv

/-! ## 4. Both wrappers -/

variable {Cmd Resp : Type} [DecidableEq Cmd]

/-- A narrow transfer carries its access exactly when the access starts its word. -/
theorem narrow_lanes_iff :
    (∀ (memif : Scr1.Memif Cmd Resp) (core : Scr1.Core Cmd) (s : Scr1.Regs Resp) (a : ByteAccess)
        (io io' : Socket), memif.Distinct → s.stateQ = stIdle → core.dmemReq = true →
      Scr1.localWrite memif core s = false → Scr1.Asks memif core a → a.Aligned →
      (Carries (Scr1.dmemWriteReq memif core) a
          (Scr1.socketCycle io' (Scr1.posedge memif core io s false)) ↔
        Scr1.addrLow core.dmemAddr = 0)) ∧
    ∀ (core : DarkRiscv.Core) (s : DarkRiscv.Regs) (a : ByteAccess) (io io' : Socket),
      s.stateQ = stIdle → DarkRiscv.readyForNewReq s = true → core.dataReq = true →
      (core.dataWr || core.dataRd) = true → DarkRiscv.localWrite core s = false →
      DarkRiscv.Asks core a → a.Aligned →
      (Carries (DarkRiscv.dataWriteReq core) a
          (DarkRiscv.socketCycle io' (DarkRiscv.posedge core io s false)) ↔
        Scr1.addrLow core.dataAddr = 0) :=
  ⟨fun _ _ _ _ io io' hdistinct hidle hreq hlocal hasks haligned =>
      Scr1.carries_iff hdistinct hidle hreq hlocal hasks haligned io io',
    fun _ _ _ io io' hidle hready hreq hkind hlocal hasks haligned =>
      DarkRiscv.carries_iff hidle hready hreq hkind hlocal hasks haligned io io'⟩

/-- SCR1 stores the byte `0x5a`. -/
def scr1ByteStore (addr : BitVec 32) : Scr1.Core Bool := ⟨false, 0, true, true, 0, addr, 0x5a⟩

/-- DarkRISCV loads a half-word. -/
def darkHalfLoad (addr : BitVec 32) : DarkRiscv.Core :=
  ⟨false, 0, true, addr, 2, 0, true, false, 0⟩

/-- A byte, as SCR1 places it. -/
def byteAt (addr : BitVec 32) : ByteAccess := ⟨addr.toNat, 1, byteOf 0x5a⟩

def halfAt (addr : BitVec 32) : ByteAccess := ⟨addr.toNat, 2, byteOf 0⟩

theorem narrow_lanes_word_start :
    Carries true (byteAt 0x80000004) (Scr1.socketCycle takingSlave
        (Scr1.posedge countedMemif (scr1ByteStore 0x80000004) takingSlave (.reset countedMemif)
          false)) ∧
      Carries false (halfAt 0x80000004) (DarkRiscv.socketCycle takingSlave
        (DarkRiscv.posedge (darkHalfLoad 0x80000004) takingSlave .reset false)) :=
  ⟨(narrow_lanes_iff.1 countedMemif (scr1ByteStore 0x80000004) (.reset countedMemif)
        (byteAt 0x80000004) takingSlave takingSlave ⟨by decide, by decide, by decide⟩ rfl rfl rfl
        ⟨rfl, .inl ⟨rfl, rfl⟩, fun _ _ => rfl⟩ ⟨.inl rfl, rfl⟩).mpr rfl,
    ((@narrow_lanes_iff Bool Bool _).2 (darkHalfLoad 0x80000004) .reset
        (halfAt 0x80000004) takingSlave takingSlave rfl rfl rfl rfl rfl
        ⟨rfl, .inr (.inl ⟨rfl, rfl⟩), nofun, nofun⟩ ⟨.inr (.inl rfl), rfl⟩).mpr rfl⟩

/-- A byte store to `0x80000001` strobes a lane outside its transfer, and a half-word load from
`0x80000002` asks for the half-word before. -/
theorem narrow_lanes_leave_transfer :
    ¬ Carries true (byteAt 0x80000001) (Scr1.socketCycle takingSlave
        (Scr1.posedge countedMemif (scr1ByteStore 0x80000001) takingSlave (.reset countedMemif)
          false)) ∧
      ¬ Carries false (halfAt 0x80000002) (DarkRiscv.socketCycle takingSlave
        (DarkRiscv.posedge (darkHalfLoad 0x80000002) takingSlave .reset false)) := by
  constructor
  · rintro ⟨-, -, hcovers⟩
    have hlane := hcovers.entitled 1 (by decide) (by decide)
    exact absurd hlane.2 (by decide)
  · rintro ⟨-, hcovers⟩
    have hbyte := hcovers 0x80000002 ⟨by decide, by decide⟩
    exact absurd hbyte.2 (by decide)

end EccFe.Adapters
