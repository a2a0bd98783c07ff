/-
  Machine/Coco2Memory.lean --- the memory map of the CoCo 2 (machine.cpp, sam6883.cpp).

  The CPU reads and writes below $FF00 through tables of eight 8 KB pages, and falls back
  to the callbacks where a page is null.  The tables are rebuilt by the init, a write of
  the SAM, the end of the ROM load and a reset; the map they stand for depends on the map
  type of the SAM and on which ROMs are loaded.

      step_pageInv            whatever moves the map is followed by a rebuild
      coco2_pages_coherent    the tables agree with the callbacks
-/
import CocoEmulator.Base.Run
import CocoEmulator.Chip.Sam6883
import CocoEmulator.Machine.Roms

set_option autoImplicit false

namespace CocoEmulator.Machine

open CocoEmulator.Base CocoEmulator.Gime
open CocoEmulator.Chip (Sam6883)

/-! ## The machine -/

/-- What a page points into. -/
inductive Block
  | ram
  | rom (dst : RomBuffer)
  deriving DecidableEq

/-- A pointer: a block and an offset. -/
structure Ptr where
  block : Block
  off : Nat

/-- The memory side of a CoCo 2; `dev` is the state of the devices at $FF00-$FFBF.  `ram` is
empty as long as nothing is allocated. -/
structure Coco2Memory (δ : Type) where
  roms : Roms
  ram : Nat → Byte := fun _ => 0
  ramSize : Nat := 0
  sam : Sam6883 := {}
  vdgVramOffset : Word := 0
  rdPage : BitVec 3 → Option Ptr := fun _ => none
  wrPage : BitVec 3 → Option Ptr := fun _ => none
  dev : δ

/-- The devices. -/
structure Coco2Io (δ : Type) where
  read : Word → δ → Byte × δ
  write : Word → Byte → δ → δ
  reset : δ → δ

/-- `COCO_RAM_SIZE`. -/
def cocoRamSize : Nat := 524288

/-- `addr >> 13`. -/
def pageOf (addr : Word) : BitVec 3 := (addr >>> 13).setWidth 3

namespace Coco2Memory

variable {δ : Type} (m : Coco2Memory δ) (io : Coco2Io δ)

/-- The byte under a pointer. -/
def peek (p : Ptr) : Byte :=
  match p.block with
  | .ram => m.ram p.off
  | .rom dst => m.roms.bytes dst p.off

/-- Store through a pointer. -/
def poke (p : Ptr) (val : Byte) : Coco2Memory δ :=
  match p.block with
  | .ram => { m with ram := Function.update m.ram p.off val }
  | .rom dst =>
    { m with roms := { m.roms with
        bytes := Function.update m.roms.bytes dst (Function.update (m.roms.bytes dst) p.off val) } }

/-- A ROM page, if its ROM is loaded. -/
def romPage (loaded : Bool) (dst : RomBuffer) (off : Nat) : Option Ptr :=
  if loaded = true then some ⟨.rom dst, off⟩ else none

/-- The read page that `update_fast_pages_coco2` puts into slot `i`. -/
def rdPageFor (i : BitVec 3) : Option Ptr :=
  if i.toNat < 4 ∨ m.sam.ty = true then some ⟨.ram, i.toNat * 0x2000⟩
  else if i.toNat = 4 then romPage m.roms.romExtbasLoaded .romExtbas 0
  else if i.toNat = 5 then romPage m.roms.romBasicLoaded .romBasic 0
  else romPage m.roms.romCartLoaded .romCart ((i.toNat - 6) * 0x2000)

/-- Its write page. -/
def wrPageFor (i : BitVec 3) : Option Ptr :=
  if i.toNat < 4 ∨ m.sam.ty = true then some ⟨.ram, i.toNat * 0x2000⟩ else none

/-- `update_fast_pages_coco2`. -/
def updateFastPagesCoco2 : Coco2Memory δ :=
  { m with rdPage := m.rdPageFor, wrPage := m.wrPageFor }

/-- The vectors: the top of Color BASIC, if both BASIC ROMs are there. -/
def readVector (addr : Word) : Byte :=
  if m.roms.romExtbasLoaded = true ∧ m.roms.romBasicLoaded = true then
    if 0xFFF0 ≤ addr then m.roms.bytes .romBasic (0x1FF0 + addr.toNat % 16)
    else m.roms.bytes .romBasic (0x1FE0 + addr.toNat % 32)
  else 0xFF

/-- A byte of a ROM, $FF if it is not loaded. -/
def readRom (loaded : Bool) (dst : RomBuffer) (off : Nat) : Byte :=
  if loaded = true then m.roms.bytes dst off else 0xFF

/-- `machine_read_coco2`. -/
def machineReadCoco2 (addr : Word) : Byte × Coco2Memory δ :=
  if 0xFF00 ≤ addr then
    if addr < 0xFFC0 then
      let r := io.read addr m.dev
      (r.1, { m with dev := r.2 })
    else if addr < 0xFFE0 then (0xFF, m)
    else (m.readVector addr, m)
  else if 0x8000 ≤ addr then
    if m.sam.ty = true ∧ addr.toNat < m.ramSize then (m.ram addr.toNat, m)
    else if 0xC000 ≤ addr then
      (m.readRom m.roms.romCartLoaded .romCart (addr.toNat - 0xC000), m)
    else if 0xA000 ≤ addr then
      (m.readRom m.roms.romBasicLoaded .romBasic (addr.toNat - 0xA000), m)
    else (m.readRom m.roms.romExtbasLoaded .romExtbas (addr.toNat - 0x8000), m)
  else if addr.toNat < m.ramSize then (m.ram addr.toNat, m)
  else (0xFF, m)

/-- What follows a change of the SAM: the pages, and where the VDG reads. -/
def remap (sam : Sam6883) : Coco2Memory δ :=
  { { m with sam := sam }.updateFastPagesCoco2 with vdgVramOffset := sam.vdgBase }

/-- `machine_write_coco2`. -/
def machineWriteCoco2 (addr : Word) (val : Byte) : Coco2Memory δ :=
  if 0xFF00 ≤ addr then
    if addr < 0xFFC0 then { m with dev := io.write addr val m.dev }
    else if addr ≤ 0xFFDF then m.remap (m.sam.write ((addr - 0xFFC0).setWidth 8))
    else m
  else if 0x8000 ≤ addr then
    if m.sam.ty = true ∧ addr.toNat < m.ramSize then m.poke ⟨.ram, addr.toNat⟩ val else m
  else if addr.toNat < m.ramSize then m.poke ⟨.ram, addr.toNat⟩ val
  else m

/-- `p[addr & 0x1FFF]`. -/
def pageByte (p : Ptr) (addr : Word) : Ptr := ⟨p.block, p.off + addr.toNat % 0x2000⟩

/-- `mem_read` of the CPU. -/
def cpuRead (addr : Word) : Byte × Coco2Memory δ :=
  if addr < 0xFF00 then
    match m.rdPage (pageOf addr) with
    | some p => (m.peek (pageByte p addr), m)
    | none => m.machineReadCoco2 io addr
  else m.machineReadCoco2 io addr

/-- `mem_write` of the CPU. -/
def cpuWrite (addr : Word) (val : Byte) : Coco2Memory δ :=
  if addr < 0xFF00 then
    match m.wrPage (pageOf addr) with
    | some p => m.poke (pageByte p addr) val
    | none => m.machineWriteCoco2 io addr val
  else m.machineWriteCoco2 io addr val

/-! ## Init, load and reset -/

/-- `machine_init_coco2`: the chips come after the last allocation. -/
def machineInitCoco2 (alloc : String → Nat → Bool) (request : Fin 2 → Option String)
    (dev : δ) : Coco2Memory δ :=
  let roms : Roms := { machineType := 3, cartRomRequest := request }
  let m : Coco2Memory δ :=
    { roms := roms.machineInitCoco2 alloc
      ramSize := if alloc "RAM-512K" 524288 = true then cocoRamSize else 0
      dev := dev }
  if m.roms.initialized = true then m.updateFastPagesCoco2 else m

/-- `machine_load_roms_coco2` ends in a rebuild. -/
def machineLoadRomsCoco2 (sd : Storage) (romPath : String) : Coco2Memory δ :=
  if m.roms.initialized = true then
    { m with roms := m.roms.machineLoadRomsCoco2 sd romPath }.updateFastPagesCoco2
  else m

/-- `machine_load_roms`; the second loader leaves the pages alone. -/
def machineLoadRoms (sd : Storage) (romPath : String) : Coco2Memory δ :=
  let m := m.machineLoadRomsCoco2 sd romPath
  { m with roms := m.roms.machineLoadRomsCoco3 sd romPath }

/-- `machine_reset_coco2`. -/
def machineResetCoco2 : Coco2Memory δ :=
  if m.roms.initialized = true then
    { m with
      ram := fun i => if i < m.ramSize then 0 else m.ram i
      dev := io.reset m.dev }.remap m.sam.reset
  else m

end Coco2Memory

/-- What happens to a machine.  The guest runs inside `machine_run_scanline_coco2`, which
returns at once if the init failed. -/
inductive Coco2Event
  | loadRoms (sd : Storage) (romPath : String)
  | reset
  | read (addr : Word)
  | write (addr : Word) (val : Byte)

def Coco2Event.step {δ : Type} (io : Coco2Io δ) : Coco2Event → Coco2Memory δ → Coco2Memory δ
  | .loadRoms sd romPath, m => m.machineLoadRoms sd romPath
  | .reset, m => m.machineResetCoco2 io
  | .read addr, m => if m.roms.initialized = true then (m.cpuRead io addr).2 else m
  | .write addr val, m => if m.roms.initialized = true then m.cpuWrite io addr val else m

namespace Coco2Memory

variable {δ : Type} {m : Coco2Memory δ} {io : Coco2Io δ} {addr : Word}

/-! ## Addresses -/

theorem pageOf_toNat (addr : Word) : (pageOf addr).toNat = addr.toNat / 0x2000 := by
  have haddr := addr.isLt
  unfold pageOf
  rw [BitVec.toNat_setWidth, BitVec.toNat_ushiftRight, Nat.shiftRight_eq_div_pow]
  omega

/-- A page of RAM at its own place holds the byte of the address. -/
theorem pageByte_ram (addr : Word) :
    pageByte ⟨.ram, (pageOf addr).toNat * 0x2000⟩ addr = ⟨.ram, addr.toNat⟩ := by
  have hsplit : addr.toNat / 0x2000 * 0x2000 + addr.toNat % 0x2000 = addr.toNat := by omega
  unfold pageByte
  rw [pageOf_toNat]
  simp only [hsplit]

/-- The slots below $8000. -/
theorem pageOf_low : (pageOf addr).toNat < 4 ↔ ¬0x8000 ≤ addr := by
  rw [pageOf_toNat, BitVec.le_def]
  simp
  omega

/-! ## The tables follow the map -/

/-- The tables are those of the current map, and RAM is as large as they take it to be. -/
structure PagesFollow (m : Coco2Memory δ) : Prop where
  rd : m.rdPage = m.rdPageFor
  wr : m.wrPage = m.wrPageFor
  ram : m.ramSize = cocoRamSize

/-- What holds of every machine: an init that failed leaves the tables empty. -/
structure PageInv (m : Coco2Memory δ) : Prop where
  follow : m.roms.initialized = true → m.PagesFollow
  empty : m.roms.initialized = false → m.rdPage = (fun _ => none) ∧ m.wrPage = fun _ => none

theorem PagesFollow.pageInv (h : m.PagesFollow) (hinit : m.roms.initialized = true) :
    m.PageInv := by
  refine ⟨fun _ => h, ?_⟩
  intro hno
  exact absurd (hno.symm.trans hinit) (by simp)

theorem remap_pageInv (h : m.ramSize = cocoRamSize) (hinit : m.roms.initialized = true)
    (sam : Sam6883) : (m.remap sam).PageInv := by
  have hfollow : (m.remap sam).PagesFollow := ⟨rfl, rfl, h⟩
  exact hfollow.pageInv hinit

/-- The parts of the machine the tables depend on, and the tables. -/
structure SameMap (m m' : Coco2Memory δ) : Prop where
  rdPage : m'.rdPage = m.rdPage
  wrPage : m'.wrPage = m.wrPage
  ramSize : m'.ramSize = m.ramSize
  ty : m'.sam.ty = m.sam.ty
  initialized : m'.roms.initialized = m.roms.initialized
  romBasicLoaded : m'.roms.romBasicLoaded = m.roms.romBasicLoaded
  romExtbasLoaded : m'.roms.romExtbasLoaded = m.roms.romExtbasLoaded
  romCartLoaded : m'.roms.romCartLoaded = m.roms.romCartLoaded

theorem SameMap.rfl' (m : Coco2Memory δ) : SameMap m m := ⟨rfl, rfl, rfl, rfl, rfl, rfl, rfl, rfl⟩

theorem SameMap.pageInv {m m' : Coco2Memory δ} (h : SameMap m m') (hm : m.PageInv) :
    m'.PageInv := by
  constructor
  · intro hinit
    have hfollow := hm.follow (h.initialized ▸ hinit)
    constructor
    · rw [h.rdPage, hfollow.rd]
      funext i
      unfold rdPageFor
      rw [h.ty, h.romBasicLoaded, h.romExtbasLoaded, h.romCartLoaded]
    · rw [h.wrPage, hfollow.wr]
      funext i
      unfold wrPageFor
      rw [h.ty]
    · rw [h.ramSize, hfollow.ram]
  · intro hno
    rw [h.rdPage, h.wrPage]
    exact hm.empty (h.initialized ▸ hno)

theorem poke_sameMap (p : Ptr) (val : Byte) : SameMap m (m.poke p val) := by
  unfold poke
  split <;> exact ⟨rfl, rfl, rfl, rfl, rfl, rfl, rfl, rfl⟩

theorem machineRead_sameMap (addr : Word) : SameMap m (m.machineReadCoco2 io addr).2 := by
  unfold machineReadCoco2
  split_ifs <;> exact ⟨rfl, rfl, rfl, rfl, rfl, rfl, rfl, rfl⟩

theorem cpuRead_sameMap (addr : Word) : SameMap m (m.cpuRead io addr).2 := by
  unfold cpuRead
  split
  · split
    · exact SameMap.rfl' m
    · exact machineRead_sameMap addr
  · exact machineRead_sameMap addr

/-- Only a SAM write moves the map, and it ends in a rebuild. -/
theorem machineWrite_pageInv (h : m.PageInv) (hinit : m.roms.initialized = true) (addr : Word)
    (val : Byte) : (m.machineWriteCoco2 io addr val).PageInv := by
  have hsame {m' : Coco2Memory δ} (h' : SameMap m m') : m'.PageInv := h'.pageInv h
  unfold machineWriteCoco2
  split_ifs
  · exact hsame ⟨rfl, rfl, rfl, rfl, rfl, rfl, rfl, rfl⟩
  · exact remap_pageInv (h.follow hinit).ram hinit _
  · exact h
  · exact hsame (poke_sameMap _ val)
  · exact h
  · exact hsame (poke_sameMap _ val)
  · exact h

theorem cpuWrite_pageInv (h : m.PageInv) (hinit : m.roms.initialized = true) (addr : Word)
    (val : Byte) : (m.cpuWrite io addr val).PageInv := by
  unfold cpuWrite
  split
  · split
    · exact (poke_sameMap _ val).pageInv h
    · exact machineWrite_pageInv h hinit addr val
  · exact machineWrite_pageInv h hinit addr val

theorem machineReset_pageInv (h : m.PageInv) : (m.machineResetCoco2 io).PageInv := by
  unfold machineResetCoco2
  split
  · next hinit =>
    refine remap_pageInv ?_ ?_ _
    · exact (h.follow hinit).ram
    · exact hinit
  · exact h

theorem sameMap_roms {roms : Roms} (h : m.roms.SameCoco2 roms) : SameMap m { m with roms } :=
  ⟨rfl, rfl, rfl, rfl, h.initialized, h.romBasicLoaded, h.romExtbasLoaded, h.romCartLoaded⟩

theorem machineLoadRoms_pageInv (h : m.PageInv) (sd : Storage) (romPath : String) :
    (m.machineLoadRoms sd romPath).PageInv := by
  refine (sameMap_roms (Roms.machineLoadRomsCoco3_sameCoco2 _)).pageInv ?_
  unfold machineLoadRomsCoco2
  split
  · next hready =>
    have hsetup : Roms.SameSetup m.roms (m.roms.machineLoadRomsCoco2 sd romPath) :=
      Roms.machineLoadRomsCoco2_sameSetup m.roms
    exact PagesFollow.pageInv ⟨rfl, rfl, (h.follow hready).ram⟩ (hsetup.initialized.trans hready)
  · exact h

/-! ## Reads and writes below the I/O page -/

theorem romPage_eq_some {loaded : Bool} {dst : RomBuffer} {off : Nat} {p : Ptr} :
    romPage loaded dst off = some p ↔ loaded = true ∧ p = ⟨.rom dst, off⟩ := by
  unfold romPage
  split
  · next hloaded => simp [hloaded, eq_comm]
  · next hloaded => simp [hloaded]

/-- All of the 64 KB are RAM. -/
theorem PagesFollow.ram_lt (h : m.PagesFollow) (addr : Word) : addr.toNat < m.ramSize := by
  have hlt := addr.isLt
  rw [h.ram]
  unfold cocoRamSize
  omega

/-- The callback's read of a ROM byte, by the slot of the address. -/
theorem machineRead_rom (haddr : addr < 0xFF00) (hhigh : 0x8000 ≤ addr)
    (hty : ¬m.sam.ty = true) : m.machineReadCoco2 io addr =
      (if (pageOf addr).toNat = 4 then
        m.readRom m.roms.romExtbasLoaded .romExtbas (addr.toNat % 0x2000)
      else if (pageOf addr).toNat = 5 then
        m.readRom m.roms.romBasicLoaded .romBasic (addr.toNat % 0x2000)
      else m.readRom m.roms.romCartLoaded .romCart
        (((pageOf addr).toNat - 6) * 0x2000 + addr.toNat % 0x2000), m) := by
  have hio : ¬0xFF00 ≤ addr := BitVec.not_le.mpr haddr
  have hmap : ¬(m.sam.ty = true ∧ addr.toNat < m.ramSize) := fun hram => hty hram.1
  have hlow : 0x8000 ≤ addr.toNat := BitVec.le_def.mp hhigh
  have htop : addr.toNat < 0xFF00 := BitVec.lt_def.mp haddr
  have hcart : 0xC000 ≤ addr ↔ 0xC000 ≤ addr.toNat := BitVec.le_def
  have hbasic : 0xA000 ≤ addr ↔ 0xA000 ≤ addr.toNat := BitVec.le_def
  unfold machineReadCoco2
  rw [if_neg hio, if_pos hhigh, if_neg hmap, pageOf_toNat]
  simp only [hcart, hbasic]
  by_cases hslot4 : addr.toNat / 0x2000 = 4
  · have hoff : addr.toNat - 0x8000 = addr.toNat % 0x2000 := by omega
    rw [if_neg (by omega), if_neg (by omega), if_pos hslot4, hoff]
  · rw [if_neg hslot4]
    by_cases hslot5 : addr.toNat / 0x2000 = 5
    · have hoff : addr.toNat - 0xA000 = addr.toNat % 0x2000 := by omega
      rw [if_neg (by omega), if_pos (by omega), if_pos hslot5, hoff]
    · have hoff : addr.toNat - 0xC000 =
          (addr.toNat / 0x2000 - 6) * 0x2000 + addr.toNat % 0x2000 := by omega
      rw [if_pos (by omega), if_neg hslot5, hoff]

/-- A page of the read table holds what the callback reads. -/
theorem read_page (h : m.PagesFollow) (haddr : addr < 0xFF00) {p : Ptr}
    (hpage : m.rdPage (pageOf addr) = some p) :
    m.machineReadCoco2 io addr = (m.peek (pageByte p addr), m) := by
  rw [h.rd] at hpage
  unfold rdPageFor at hpage
  split at hpage
  · next hall =>
    have hio : ¬0xFF00 ≤ addr := BitVec.not_le.mpr haddr
    rw [← Option.some.inj hpage, pageByte_ram]
    unfold machineReadCoco2
    rw [if_neg hio]
    split
    · next hhigh =>
      have hty : m.sam.ty = true := hall.resolve_left fun hlow => pageOf_low.mp hlow hhigh
      exact if_pos ⟨hty, h.ram_lt addr⟩
    · exact if_pos (h.ram_lt addr)
  · next hrom =>
    have hhigh : 0x8000 ≤ addr := by
      by_contra hlow
      exact hrom (Or.inl (pageOf_low.mpr hlow))
    rw [machineRead_rom haddr hhigh fun hty => hrom (Or.inr hty)]
    unfold readRom
    split at hpage
    · next hslot =>
      obtain ⟨hloaded, rfl⟩ := romPage_eq_some.mp hpage
      simp [hslot, hloaded, pageByte, peek]
    · split at hpage
      · next hslot =>
        obtain ⟨hloaded, rfl⟩ := romPage_eq_some.mp hpage
        simp [hslot, hloaded, pageByte, peek]
      · next hslot4 hslot5 =>
        obtain ⟨hloaded, rfl⟩ := romPage_eq_some.mp hpage
        simp [hslot4, hslot5, hloaded, pageByte, peek]

/-- A page of the write table takes what the callback stores. -/
theorem write_page (h : m.PagesFollow) (haddr : addr < 0xFF00) {p : Ptr} (val : Byte)
    (hpage : m.wrPage (pageOf addr) = some p) :
    m.machineWriteCoco2 io addr val = m.poke (pageByte p addr) val := by
  rw [h.wr] at hpage
  unfold wrPageFor at hpage
  split at hpage
  · next hall =>
    have hio : ¬0xFF00 ≤ addr := BitVec.not_le.mpr haddr
    rw [← Option.some.inj hpage, pageByte_ram]
    unfold machineWriteCoco2
    rw [if_neg hio]
    split
    · next hhigh =>
      have hty : m.sam.ty = true := hall.resolve_left fun hlow => pageOf_low.mp hlow hhigh
      exact if_pos ⟨hty, h.ram_lt addr⟩
    · exact if_pos (h.ram_lt addr)
  · exact absurd hpage (by simp)

/-- The tables and the callbacks agree at an address, and a write to ROM outside the all-RAM
mode changes nothing. -/
structure PagesCoherent (io : Coco2Io δ) (m : Coco2Memory δ) (addr : Word) : Prop where
  read : m.cpuRead io addr = m.machineReadCoco2 io addr
  write : ∀ val, m.cpuWrite io addr val = m.machineWriteCoco2 io addr val
  rom : 0x8000 ≤ addr → m.sam.ty = false → ∀ val, m.cpuWrite io addr val = m

theorem PageInv.cpuRead_eq (h : m.PageInv) (haddr : addr < 0xFF00) :
    m.cpuRead io addr = m.machineReadCoco2 io addr := by
  unfold cpuRead
  rw [if_pos haddr]
  split
  · next p hpage =>
    cases hinit : m.roms.initialized with
    | true => exact (read_page (h.follow hinit) haddr hpage).symm
    | false =>
      rw [(h.empty hinit).1] at hpage
      exact absurd hpage (by simp)
  · rfl

theorem PageInv.cpuWrite_eq (h : m.PageInv) (haddr : addr < 0xFF00) (val : Byte) :
    m.cpuWrite io addr val = m.machineWriteCoco2 io addr val := by
  unfold cpuWrite
  rw [if_pos haddr]
  split
  · next p hpage =>
    cases hinit : m.roms.initialized with
    | true => exact (write_page (h.follow hinit) haddr val hpage).symm
    | false =>
      rw [(h.empty hinit).2] at hpage
      exact absurd hpage (by simp)
  · rfl

/-- The callback ignores a write to ROM outside the all-RAM mode. -/
theorem machineWrite_rom (haddr : addr < 0xFF00) (hhigh : 0x8000 ≤ addr)
    (hty : m.sam.ty = false) (val : Byte) : m.machineWriteCoco2 io addr val = m := by
  have hmap : ¬(m.sam.ty = true ∧ addr.toNat < m.ramSize) := by
    rw [hty]
    simp
  unfold machineWriteCoco2
  rw [if_neg (BitVec.not_le.mpr haddr), if_pos hhigh, if_neg hmap]

theorem PageInv.coherent (h : m.PageInv) (haddr : addr < 0xFF00) : PagesCoherent io m addr := by
  refine ⟨h.cpuRead_eq haddr, h.cpuWrite_eq haddr, ?_⟩
  intro hhigh hty val
  rw [h.cpuWrite_eq haddr val]
  exact machineWrite_rom haddr hhigh hty val

/-! ## Reachable machines -/

theorem machineInit_pageInv (alloc : String → Nat → Bool) (request : Fin 2 → Option String)
    (dev : δ) : (machineInitCoco2 alloc request dev).PageInv := by
  unfold machineInitCoco2
  dsimp only
  split
  · next hinit =>
    refine PagesFollow.pageInv ⟨rfl, rfl, ?_⟩ hinit
    -- an init that came to its end has its RAM
    unfold Roms.machineInitCoco2 at hinit
    split at hinit
    · next hram => exact if_pos hram
    · exact absurd hinit (by simp)
  · next hinit =>
    refine ⟨fun hyes => absurd hyes hinit, fun _ => ⟨rfl, rfl⟩⟩

/-- Whatever moves the map is followed by a rebuild. -/
theorem step_pageInv (h : m.PageInv) (e : Coco2Event) : (e.step io m).PageInv := by
  cases e with
  | loadRoms sd romPath => exact machineLoadRoms_pageInv h sd romPath
  | reset => exact machineReset_pageInv h
  | read addr =>
    simp only [Coco2Event.step]
    split
    · exact (cpuRead_sameMap addr).pageInv h
    · exact h
  | write addr val =>
    simp only [Coco2Event.step]
    split
    · next hinit => exact cpuWrite_pageInv h hinit addr val
    · exact h

theorem runAll_pageInv (h : m.PageInv) (events : List Coco2Event) :
    (runAll (Coco2Event.step io) events m).PageInv := by
  induction events generalizing m with
  | nil => exact h
  | cons e events ih => exact ih (step_pageInv h e)

end Coco2Memory

/-- In every machine an init and any events lead to, the tables answer below $FF00 as the
callbacks do. -/
theorem coco2_pages_coherent {δ : Type} (io : Coco2Io δ) (alloc : String → Nat → Bool)
    (request : Fin 2 → Option String) (dev : δ) (events : List Coco2Event) (addr : Word)
    (haddr : addr < 0xFF00) :
    (runAll (Coco2Event.step io) events
      (Coco2Memory.machineInitCoco2 alloc request dev)).PagesCoherent io addr := by
  have hinv : (runAll (Coco2Event.step io) events
      (Coco2Memory.machineInitCoco2 alloc request dev)).PageInv :=
    Coco2Memory.runAll_pageInv (Coco2Memory.machineInit_pageInv alloc request dev) events
  exact hinv.coherent haddr

/-- No device answers. -/
def noCoco2Io : Coco2Io Unit where
  read _ dev := (0xFF, dev)
  write _ _ dev := dev
  reset dev := dev

/-- All-RAM mode is entered, the RAM under the cartridge written, and the mode left. -/
def allRamVisit : List Coco2Event :=
  [.loadRoms { ready := true, file := fun _ => some (zeros 8192) } "/roms", .write 0xFFDF 0,
    .write 0xC000 0x12, .write 0xFFDE 0]

theorem coco2_pages_coherent_visit :
    Coco2Memory.PagesCoherent noCoco2Io (runAll (Coco2Event.step noCoco2Io) allRamVisit
      (Coco2Memory.machineInitCoco2 (fun _ _ => true) (fun _ => none) ())) 0xC000 :=
  coco2_pages_coherent noCoco2Io (fun _ _ => true) (fun _ => none) () allRamVisit 0xC000 (by decide)

end CocoEmulator.Machine
