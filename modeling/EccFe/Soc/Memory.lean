/-
EccFe.Soc.Memory — the memory of the simulated SoC, `fecompiler/thirdparty/SoC/driver/dpi_mem.cpp`.

The memory is a vector that grows on writes, seen through three windows of `mem_read` and
`mem_write` and through the PSRAM. `read_run` says what it is for: 128 MiB of bytes, each of which
keeps the last byte written to it through any window, and the boot image, which writes never
reach. Log lines and their counters are left out; a file that cannot be opened ends the process.
-/
import EccFe.Bus.Bytes

namespace EccFe.Soc

open Bus

/-! ## 1. The image and the memory -/

def kMromBase : Nat := 0x20000000
def kExecBase : Nat := 0x80000000
def kUncachedAliasBase : Nat := 0x90000000
def kBootAliasBase : Nat := 0x20000000
def kSocUartData : BitVec 32 := 0x10000000#32
def kNemuSerialData : BitVec 32 := 0xa00003f8#32
def kBootAliasSize : Nat := 0x00100000
def kPmemSize : Nat := 0x08000000

/-- `g_mrom_image`, `g_pmem_image` and `g_pmem_preloaded_from_payload`. -/
structure Memory where
  mrom : List Byte
  pmem : List Byte
  preloaded : Bool
  sized : pmem.length ≤ kPmemSize

/-- `dpi_load_image(path)`, with what the file holds; `none` without a path. -/
def dpiLoadImage : Option (List Byte) → Memory
  | none => ⟨[], [], false, Nat.zero_le _⟩
  | some image => ⟨image, image.take kPmemSize, false, List.length_take_le ..⟩

/-- `dpi_preload_pmem_from_image(path, image_offset)`; `none` when the process ends. -/
def dpiPreloadPmemFromImage (m : Memory) (image : List Byte) (imageOffset : Nat) : Option Memory :=
  if imageOffset > image.length then none
  else some { m with
    pmem := (image.drop imageOffset).take kPmemSize, preloaded := true, sized := List.length_take_le .. }

def ensurePmemSize (pmem : List Byte) (offset width : Nat) : List Byte :=
  if offset ≥ kPmemSize then pmem
  else
    let required := offset + width
    let capped := if required > kPmemSize then kPmemSize else required
    if pmem.length < capped then pmem ++ List.replicate (capped - pmem.length) 0 else pmem

/-- `read_u32_le(image, offset)`; the index is a `uint32_t`. -/
def readU32Le (image : List Byte) (offset : Nat) : BitVec 32 :=
  leRead 32 (fun i => image.getD ((offset + i) % 2 ^ 32) 0) 4

/-- The address is in the window of `size` bytes at `base`. -/
def inWindow (base size : Nat) (addr : BitVec 32) : Bool := base ≤ addr.toNat && addr.toNat < base + size

def translatePmemAddr (addr : BitVec 32) : Option Nat :=
  if inWindow kExecBase kPmemSize addr then some (addr.toNat - kExecBase)
  else if inWindow kUncachedAliasBase kPmemSize addr then some (addr.toNat - kUncachedAliasBase)
  else if inWindow kBootAliasBase kBootAliasSize addr then some (addr.toNat - kBootAliasBase)
  else none

/-- `write_serial_byte(addr, mask, data)`: the character it prints. -/
def writeSerialByte (addr mask data : BitVec 32) : Option Byte :=
  if addr ≠ kSocUartData ∧ addr ≠ kNemuSerialData then none
  else
    let byte := (List.range 4).findIdx (mask.getLsbD ·)
    let byte := if byte = 4 then 0 else byte
    some (byteAt data byte)

/-- The loop of the two write functions. -/
def storeBytes (pmem : List Byte) (offset : Nat) (mask data : BitVec 32) : List Byte :=
  (List.range 4).foldl
    (fun pmem byte =>
      if mask.getLsbD byte then
        if offset + byte < pmem.length then pmem.set (offset + byte) (byteAt data byte) else pmem
      else pmem)
    pmem

/-! ## 2. The functions called from the RTL -/

theorem length_storeBytes (pmem : List Byte) (offset : Nat) (mask data : BitVec 32) :
    (storeBytes pmem offset mask data).length = pmem.length := by
  unfold storeBytes
  generalize List.range 4 = lanes
  induction lanes generalizing pmem with
  | nil => rfl
  | cons lane lanes ih =>
    rw [List.foldl_cons, ih]
    split
    · split <;> simp
    · rfl

/-- The memory grows to hold the window, within its size. -/
theorem length_ensurePmemSize (pmem : List Byte) (offset width : Nat) :
    (ensurePmemSize pmem offset width).length =
      if offset ≥ kPmemSize then pmem.length
      else max pmem.length (min (offset + width) kPmemSize) := by
  unfold ensurePmemSize
  grind

namespace Memory

variable (m : Memory)

/-- `ensure_pmem_size(offset, 4)` and the loop over the four bytes. -/
def store (offset : Nat) (mask data : BitVec 32) : Memory :=
  { m with
    pmem := storeBytes (ensurePmemSize m.pmem offset 4) offset mask data
    sized := by
      have := m.sized
      rw [length_storeBytes, length_ensurePmemSize]
      split <;> omega }

/-- The boot window shows the image, not the memory. -/
def bootIsImage (addr : BitVec 32) : Bool :=
  m.preloaded && inWindow kBootAliasBase kBootAliasSize addr

/-- The bytes `mem_read` returns. -/
def readWidth (size : BitVec 32) : Nat := if size = 3#32 then 8 else 4

def memRead (raddr size : BitVec 32) : BitVec 64 :=
  if m.bootIsImage raddr then
    leRead 64 (fun i => m.mrom.getD (raddr.toNat - kBootAliasBase + i) 0) (readWidth size)
  else
    match translatePmemAddr raddr with
    | none => 0
    | some offset =>
        if offset ≥ m.pmem.length then 0
        else leRead 64 (fun i => m.pmem.getD (offset + i) 0) (readWidth size)

/-- `mem_write(waddr, mask, wdata)`; a character that it prints is a second result. -/
def memWrite (waddr mask wdata : BitVec 32) : Memory × Option Byte :=
  match writeSerialByte waddr mask wdata with
  | some char => (m, some char)
  | none =>
      if m.bootIsImage waddr then (m, none)
      else
        match translatePmemAddr waddr with
        | none => (m, none)
        | some offset => if offset ≥ kPmemSize then (m, none) else (m.store offset mask wdata, none)

/-- `static_cast<uint32_t>(addr) & 0x00ffffffu`. -/
def psramOffset (addr : BitVec 32) : Nat := (addr &&& 0x00ffffff#32).toNat

def psramRead (addr : BitVec 32) : BitVec 32 := readU32Le m.pmem (psramOffset addr)

def psramWrite (addr mask data : BitVec 32) : Memory :=
  if psramOffset addr ≥ kPmemSize then m else m.store (psramOffset addr) mask data

def flashRead (addr : BitVec 32) : BitVec 32 := readU32Le m.mrom addr.toNat

def mromRead (raddr : BitVec 32) : BitVec 32 :=
  readU32Le m.mrom (if raddr.toNat ≥ kMromBase then raddr.toNat - kMromBase else raddr.toNat)

end Memory

/-! ## 3. What the memory holds -/

/-- A call from the RTL. -/
inductive MemOp where
  | memRead (raddr size : BitVec 32)
  | memWrite (waddr mask wdata : BitVec 32)
  | psramRead (addr : BitVec 32)
  | psramWrite (addr mask data : BitVec 32)
  | flashRead (addr : BitVec 32)
  | mromRead (raddr : BitVec 32)

namespace Memory

/-- The memory after a call. -/
def apply (m : Memory) : MemOp → Memory
  | .memWrite waddr mask wdata => (m.memWrite waddr mask wdata).1
  | .psramWrite addr mask data => m.psramWrite addr mask data
  | .memRead _ _ | .psramRead _ | .flashRead _ | .mromRead _ => m

def run (m : Memory) (ops : List MemOp) : Memory := ops.foldl apply m

/-- What a read returns, and how many bytes it has. -/
def read? (m : Memory) : MemOp → Option (BitVec 64 × Nat)
  | .memRead raddr size => some (m.memRead raddr size, readWidth size)
  | .psramRead addr => some ((m.psramRead addr).setWidth 64, 4)
  | .flashRead addr => some ((m.flashRead addr).setWidth 64, 4)
  | .mromRead raddr => some ((m.mromRead raddr).setWidth 64, 4)
  | .memWrite _ _ _ | .psramWrite _ _ _ => none

/-- The byte at an offset; what was never written is zero. -/
def contents (m : Memory) (i : Nat) : Byte := m.pmem.getD i 0

end Memory

/-- Where a byte comes from. -/
inductive Place where
  | image (i : Nat)
  | memory (i : Nat)
  | nowhere

/-- The place of the first byte that `mem_read` or `mem_write` names, and of those after it. -/
def memPlace (preloaded : Bool) (addr : BitVec 32) (lane : Nat) : Place :=
  if preloaded && inWindow kBootAliasBase kBootAliasSize addr then
    .image (addr.toNat - kBootAliasBase + lane)
  else if inWindow kExecBase kPmemSize addr then .memory (addr.toNat - kExecBase + lane)
  else if inWindow kUncachedAliasBase kPmemSize addr then
    .memory (addr.toNat - kUncachedAliasBase + lane)
  else if inWindow kBootAliasBase kBootAliasSize addr then .memory (addr.toNat - kBootAliasBase + lane)
  else .nowhere

namespace MemOp

/-- Where byte `lane` of a read comes from. -/
def place (preloaded : Bool) (lane : Nat) : MemOp → Place
  | .memRead raddr _ => memPlace preloaded raddr lane
  | .psramRead addr => .memory (addr.toNat % 2 ^ 24 + lane)
  | .flashRead addr => .image ((addr.toNat + lane) % 2 ^ 32)
  | .mromRead raddr =>
      .image (if raddr.toNat ≥ kMromBase then raddr.toNat - kMromBase + lane else raddr.toNat + lane)
  | .memWrite _ _ _ | .psramWrite _ _ _ => .nowhere

/-- The offset a write starts at, its mask and its data, if it reaches the memory. -/
def written? (preloaded : Bool) : MemOp → Option (Nat × BitVec 32 × BitVec 32)
  | .memWrite waddr mask wdata =>
      if waddr = kSocUartData ∨ waddr = kNemuSerialData then none
      else
        match memPlace preloaded waddr 0 with
        | .memory offset => some (offset, mask, wdata)
        | .image _ | .nowhere => none
  | .psramWrite addr mask data => some (addr.toNat % 2 ^ 24, mask, data)
  | .memRead _ _ | .psramRead _ | .flashRead _ | .mromRead _ => none

end MemOp

/-- What a write leaves at offset `i`, which held `old`. -/
def writtenByte (offset : Nat) (mask data : BitVec 32) (i : Nat) (old : Byte) : Byte :=
  if offset ≤ i ∧ i < offset + 4 ∧ i < kPmemSize ∧ mask.getLsbD (i - offset) = true then
    byteAt data (i - offset)
  else old

/-- The last byte the calls leave at offset `i`. -/
def lastByte (preloaded : Bool) (i : Nat) (initial : Byte) (ops : List MemOp) : Byte :=
  ops.foldl
    (fun byte op =>
      match op.written? preloaded with
      | some (offset, mask, data) => writtenByte offset mask data i byte
      | none => byte)
    initial

/-! ## 4. The vector as a store of bytes -/

/-- Growing reads as zero where nothing was. -/
theorem getD_ensurePmemSize (pmem : List Byte) (offset width i : Nat) :
    (ensurePmemSize pmem offset width).getD i 0 = pmem.getD i 0 := by
  unfold ensurePmemSize
  dsimp only
  generalize (if offset + width > kPmemSize then kPmemSize else offset + width) = capped
  split
  · rfl
  · split
    · simp only [List.getD_eq_getElem?_getD, List.getElem?_append]
      split
      · rfl
      · rename_i hi
        rw [List.getElem?_replicate, List.getElem?_eq_none (by omega)]
        split <;> rfl
    · rfl

/-- A store writes the bytes of its mask. -/
theorem getD_storeBytes (pmem : List Byte) (offset : Nat) (mask data : BitVec 32) :
    (fun i => (storeBytes pmem offset mask data).getD i 0) =
      writeLanes (fun i => pmem.getD i 0) offset
        (fun lane => mask.getLsbD lane && decide (offset + lane < pmem.length)) data 4 := by
  unfold storeBytes writeLanes
  generalize List.range 4 = lanes
  generalize hlength : pmem.length = size
  induction lanes generalizing pmem with
  | nil => rfl
  | cons lane lanes ih =>
    simp only [List.foldl_cons, hlength]
    by_cases hwritten : mask.getLsbD lane = true ∧ offset + lane < size
    · obtain ⟨hmask, hin⟩ := hwritten
      have hset : (fun i => (pmem.set (offset + lane) (byteAt data lane)).getD i 0) =
          Function.update (fun i => pmem.getD i 0) (offset + lane) (byteAt data lane) := by
        funext i
        by_cases hi : i = offset + lane
        · subst hi
          simp [List.getD_eq_getElem?_getD, hlength, hin]
        · rw [Function.update_of_ne hi]
          simp [List.getD_eq_getElem?_getD, List.getElem?_set_ne (Ne.symm hi)]
      simp only [hmask, hin, decide_true, Bool.and_self, if_true]
      rw [ih _ (by simpa using hlength), hset]
    · have hskip : ¬ (mask.getLsbD lane && decide (offset + lane < size)) = true := by
        simpa using hwritten
      rw [if_neg hskip, ← ih _ hlength]
      split
      · rw [if_neg (by tauto)]
      · rfl

/-- A store changes the bytes of its lanes only. -/
theorem contents_store (m : Memory) {offset : Nat} (hoffset : offset < kPmemSize)
    (mask data : BitVec 32) (i : Nat) :
    (m.store offset mask data).contents i = writtenByte offset mask data i (m.contents i) := by
  have hsized := m.sized
  have hlength := length_ensurePmemSize m.pmem offset 4
  rw [if_neg (Nat.not_le.2 hoffset)] at hlength
  have hstore := congrFun (getD_storeBytes (ensurePmemSize m.pmem offset 4) offset mask data) i
  rw [Memory.contents, Memory.store, hstore, writeLanes_apply, getD_ensurePmemSize, writtenByte,
    Memory.contents]
  refine if_congr ?_ rfl rfl
  rw [Bool.and_eq_true, decide_eq_true_eq, hlength]
  constructor
  · intro h
    exact ⟨h.1, h.2.1, by omega, h.2.2.1⟩
  · intro h
    exact ⟨h.1, h.2.1, h.2.2.2, by omega⟩

theorem inWindow_iff (base size : Nat) (addr : BitVec 32) :
    inWindow base size addr = true ↔ base ≤ addr.toNat ∧ addr.toNat < base + size := by
  simp [inWindow]

/-- A translated address is inside the memory. -/
theorem translatePmemAddr_lt {addr : BitVec 32} {offset : Nat}
    (h : translatePmemAddr addr = some offset) : offset < kPmemSize := by
  have hboot : kBootAliasSize ≤ kPmemSize := by decide
  unfold translatePmemAddr at h
  simp only [inWindow_iff] at h
  split at h
  · have := Option.some.inj h
    omega
  · split at h
    · have := Option.some.inj h
      omega
    · split at h
      · have := Option.some.inj h
        omega
      · cases h

/-- The place that a byte of an address is read from. -/
theorem memPlace_eq (m : Memory) (addr : BitVec 32) (lane : Nat) :
    memPlace m.preloaded addr lane =
      if m.bootIsImage addr then .image (addr.toNat - kBootAliasBase + lane)
      else (translatePmemAddr addr).elim .nowhere fun offset => .memory (offset + lane) := by
  unfold memPlace Memory.bootIsImage translatePmemAddr
  split
  · rfl
  · repeat' split
    all_goals rfl

theorem psramOffset_eq (addr : BitVec 32) : Memory.psramOffset addr = addr.toNat % 2 ^ 24 := by
  rw [Memory.psramOffset, BitVec.toNat_and]
  exact Nat.and_two_pow_sub_one_eq_mod addr.toNat 24

/-- An offset of the PSRAM is inside the memory. -/
theorem psramOffset_lt (addr : BitVec 32) : Memory.psramOffset addr < kPmemSize := by
  rw [psramOffset_eq, kPmemSize]
  omega

/-! ## 5. One call, and any sequence of calls -/

@[simp] theorem preloaded_apply (m : Memory) (op : MemOp) : (m.apply op).preloaded = m.preloaded := by
  cases op with
  | memWrite waddr mask wdata =>
    simp only [Memory.apply, Memory.memWrite]
    repeat' split
    all_goals rfl
  | psramWrite addr mask data =>
    simp only [Memory.apply, Memory.psramWrite]
    split <;> rfl
  | memRead | psramRead | flashRead | mromRead => rfl

@[simp] theorem mrom_apply (m : Memory) (op : MemOp) : (m.apply op).mrom = m.mrom := by
  cases op with
  | memWrite waddr mask wdata =>
    simp only [Memory.apply, Memory.memWrite]
    repeat' split
    all_goals rfl
  | psramWrite addr mask data =>
    simp only [Memory.apply, Memory.psramWrite]
    split <;> rfl
  | memRead | psramRead | flashRead | mromRead => rfl

/-- One call changes the bytes that `MemOp.written?` names. -/
theorem contents_apply (m : Memory) (op : MemOp) (i : Nat) :
    (m.apply op).contents i =
      match op.written? m.preloaded with
      | some (offset, mask, data) => writtenByte offset mask data i (m.contents i)
      | none => m.contents i := by
  cases op with
  | memWrite waddr mask wdata =>
    simp only [Memory.apply, Memory.memWrite, MemOp.written?, writeSerialByte, memPlace_eq]
    by_cases hserial : waddr = kSocUartData ∨ waddr = kNemuSerialData
    · rw [if_pos hserial, if_neg (by tauto)]
    · rw [if_neg hserial, if_pos (by tauto)]
      by_cases hboot : m.bootIsImage waddr = true
      · simp only [hboot, if_true]
      · simp only [hboot, Bool.false_eq_true, if_false]
        cases htranslate : translatePmemAddr waddr with
        | none => rfl
        | some offset =>
          have hoffset := translatePmemAddr_lt htranslate
          simp only [Option.elim_some, Nat.add_zero, if_neg (Nat.not_le.2 hoffset)]
          exact contents_store m hoffset mask wdata i
  | psramWrite addr mask data =>
    have hoffset := psramOffset_lt addr
    simp only [Memory.apply, Memory.psramWrite, MemOp.written?, if_neg (Nat.not_le.2 hoffset)]
    rw [contents_store m hoffset, psramOffset_eq]
  | memRead | psramRead | flashRead | mromRead => rfl

/-- After a run a byte is what was written last. -/
theorem contents_run (ops : List MemOp) (m : Memory) (i : Nat) :
    (m.run ops).contents i = lastByte m.preloaded i (m.contents i) ops := by
  induction ops generalizing m with
  | nil => rfl
  | cons op ops ih =>
    rw [Memory.run, List.foldl_cons, ← Memory.run, ih, preloaded_apply, contents_apply]
    rfl

theorem preloaded_run (ops : List MemOp) (m : Memory) : (m.run ops).preloaded = m.preloaded := by
  induction ops generalizing m with
  | nil => rfl
  | cons op ops ih => rw [Memory.run, List.foldl_cons, ← Memory.run, ih, preloaded_apply]

theorem mrom_run (ops : List MemOp) (m : Memory) : (m.run ops).mrom = m.mrom := by
  induction ops generalizing m with
  | nil => rfl
  | cons op ops ih => rw [Memory.run, List.foldl_cons, ← Memory.run, ih, mrom_apply]

/-- The byte at a place of the memory. -/
def Memory.at (m : Memory) : Place → Byte
  | .image i => m.mrom.getD i 0
  | .memory i => m.contents i
  | .nowhere => 0

theorem byteAt_setWidth {w w' lane : Nat} (word : BitVec w) (h : 8 * lane + 8 ≤ w') :
    byteAt (word.setWidth w') lane = byteAt word lane := by
  ext bit hbit
  simp only [byteAt, ← BitVec.getLsbD_eq_getElem, BitVec.getLsbD_setWidth,
    BitVec.getLsbD_ushiftRight]
  have : 8 * lane + bit < w' := by omega
  simp [this]

/-- The bytes of a read are those of its places. -/
theorem byteAt_read {m : Memory} {op : MemOp} {value : BitVec 64} {width lane : Nat}
    (h : m.read? op = some (value, width)) (hlane : lane < width) :
    byteAt value lane = m.at (op.place m.preloaded lane) := by
  cases op with
  | memWrite | psramWrite => cases h
  | memRead raddr size =>
    obtain ⟨rfl, rfl⟩ := Prod.mk.injEq _ _ _ _ ▸ Option.some.inj h
    have hfits : 8 * Memory.readWidth size ≤ 64 := by
      unfold Memory.readWidth
      split <;> omega
    rw [MemOp.place, memPlace_eq, Memory.memRead]
    by_cases hboot : m.bootIsImage raddr = true
    · rw [if_pos hboot, if_pos hboot, byteAt_leRead _ hlane hfits]
      rfl
    · rw [if_neg hboot, if_neg hboot]
      cases translatePmemAddr raddr with
      | none => simp [byteAt, Memory.at]
      | some offset =>
        dsimp only [Option.elim_some]
        split
        · rename_i hend
          simp [byteAt, Memory.at, Memory.contents, List.getD_eq_getElem?_getD,
            List.getElem?_eq_none (by omega : m.pmem.length ≤ offset + lane)]
        · rw [byteAt_leRead _ hlane hfits]
          rfl
  | psramRead addr =>
    obtain ⟨rfl, rfl⟩ := Prod.mk.injEq _ _ _ _ ▸ Option.some.inj h
    rw [byteAt_setWidth _ (by omega), Memory.psramRead, readU32Le,
      byteAt_leRead _ hlane (by omega), psramOffset_eq,
      Nat.mod_eq_of_lt (by omega : addr.toNat % 2 ^ 24 + lane < 2 ^ 32)]
    rfl
  | flashRead addr =>
    obtain ⟨rfl, rfl⟩ := Prod.mk.injEq _ _ _ _ ▸ Option.some.inj h
    rw [byteAt_setWidth _ (by omega), Memory.flashRead, readU32Le,
      byteAt_leRead _ hlane (by omega)]
    rfl
  | mromRead raddr =>
    obtain ⟨rfl, rfl⟩ := Prod.mk.injEq _ _ _ _ ▸ Option.some.inj h
    have hraddr := raddr.isLt
    rw [byteAt_setWidth _ (by omega), Memory.mromRead, readU32Le,
      byteAt_leRead _ hlane (by omega)]
    have hbase : kMromBase = 0x20000000 := rfl
    simp only [MemOp.place]
    split
    · rw [Nat.mod_eq_of_lt (by omega)]
      rfl
    · rw [Nat.mod_eq_of_lt (by omega)]
      rfl

/-- What any read returns after any calls: from the image its bytes, which no call changes, and from
the memory the last bytes written there through any window. -/
theorem read_run (m : Memory) (ops : List MemOp) {op : MemOp} {value : BitVec 64} {width lane : Nat}
    (h : (m.run ops).read? op = some (value, width)) (hlane : lane < width) :
    byteAt value lane =
      match op.place m.preloaded lane with
      | .image i => m.mrom.getD i 0
      | .memory i => lastByte m.preloaded i (m.contents i) ops
      | .nowhere => 0 := by
  rw [byteAt_read h hlane, preloaded_run]
  cases op.place m.preloaded lane with
  | image i => rw [Memory.at, mrom_run]
  | memory i => exact contents_run ops m i
  | nowhere => rfl

/-! ## 6. The start of a simulation -/

/-- `load_payload_image(path, image_offset)`: the image that the reference machine is given at its
reset vector, `none` when the process ends. -/
def loadPayloadImage (image : List Byte) (imageOffset : Nat) : Option (List Byte) :=
  if imageOffset > image.length then none
  else if image.length - imageOffset > kPmemSize then none
  else some (image.drop imageOffset)

/-- The memory that `main` sets up for `--diff`. -/
def diffMemory (image : List Byte) (imageOffset : Nat) : Option Memory :=
  if imageOffset ≠ 0 then dpiPreloadPmemFromImage (dpiLoadImage (some image)) image imageOffset
  else some (dpiLoadImage (some image))

/-- With difftest the memory holds the payload. -/
theorem pmem_diffMemory {image payload : List Byte} {imageOffset : Nat} {m : Memory}
    (hpayload : loadPayloadImage image imageOffset = some payload)
    (hmemory : diffMemory image imageOffset = some m) : m.pmem = payload := by
  unfold loadPayloadImage at hpayload
  split at hpayload
  · cases hpayload
  · split at hpayload
    · cases hpayload
    · rename_i hpast hlarge
      obtain rfl := Option.some.inj hpayload
      have hfits : (image.drop imageOffset).length ≤ kPmemSize := by
        rw [List.length_drop]
        omega
      unfold diffMemory at hmemory
      split at hmemory
      · unfold dpiPreloadPmemFromImage at hmemory
        rw [if_neg hpast] at hmemory
        obtain rfl := Option.some.inj hmemory
        exact List.take_of_length_le hfits
      · rename_i hzero
        obtain rfl := Option.some.inj hmemory
        rw [not_not] at hzero
        subst hzero
        exact List.take_of_length_le hfits

theorem mrom_diffMemory {image : List Byte} {imageOffset : Nat} {m : Memory}
    (hmemory : diffMemory image imageOffset = some m) : m.mrom = image := by
  unfold diffMemory at hmemory
  split at hmemory
  · unfold dpiPreloadPmemFromImage at hmemory
    split at hmemory
    · cases hmemory
    · obtain rfl := Option.some.inj hmemory
      rfl
  · obtain rfl := Option.some.inj hmemory
    rfl

/-- In a differential simulation the memory starts as the bytes that the reference is given. After
any calls a read returns, byte by byte, what the image holds, the last byte written to that offset
of the memory through any window, or zero outside of both. -/
theorem diff_read_run {image payload : List Byte} {imageOffset : Nat} {m : Memory}
    (hpayload : loadPayloadImage image imageOffset = some payload)
    (hmemory : diffMemory image imageOffset = some m) (ops : List MemOp) {op : MemOp}
    {value : BitVec 64} {width lane : Nat} (h : (m.run ops).read? op = some (value, width))
    (hlane : lane < width) :
    byteAt value lane =
      match op.place m.preloaded lane with
      | .image i => image.getD i 0
      | .memory i => lastByte m.preloaded i (payload.getD i 0) ops
      | .nowhere => 0 := by
  rw [read_run m ops h hlane]
  cases op.place m.preloaded lane with
  | image i => rw [mrom_diffMemory hmemory]
  | memory i => rw [← pmem_diffMemory hpayload hmemory]; rfl
  | nowhere => rfl

/-- A byte written through the uncached window is read through the boot window. -/
theorem diff_read_run_aliases :
    byteAt (((dpiLoadImage (some [1, 2, 3, 4])).run
        [.memWrite 0x90000001#32 1#32 0x55#32]).memRead 0x20000000#32 2#32) 1 = 0x55#8 :=
  (@diff_read_run [1, 2, 3, 4] [1, 2, 3, 4] 0 _ (by decide +kernel) rfl
    [.memWrite 0x90000001#32 1#32 0x55#32] (.memRead 0x20000000#32 2#32) _ _ 1 rfl
    (by decide +kernel)).trans (by decide +kernel)

end EccFe.Soc
