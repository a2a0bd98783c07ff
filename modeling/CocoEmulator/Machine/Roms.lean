/-
  Machine/Roms.lean --- the ROM buffers of both machines and what is loaded into them.

  `machine_init` of either machine allocates all five buffers, and `machine_load_roms`
  runs both loaders over them.  A load has no way to see how large its buffer is: it is
  given a limit.  Every index a load writes, and every cartridge size it reports, is
  entered in `extents`.

      roms_readInv        a cartridge read never leaves its buffer
      cart_rom_inside     when no load does
-/
import CocoEmulator.Base.Run
import CocoEmulator.Machine.Coco3Memory
import CocoEmulator.Machine.Keyboard

set_option autoImplicit false

namespace CocoEmulator.Machine

open CocoEmulator.Base CocoEmulator.Gime

/-! ## The SD card -/

/-- A file, or a directory, that opens.  `File.read` delivers at most what it is asked for. -/
structure SdFile where
  size : Nat
  isDirectory : Bool := false
  read : Nat → List Byte
  read_le : ∀ n, (read n).length ≤ n

/-- The card; `file` is `none` where a path does not exist or does not open. -/
structure Storage where
  ready : Bool
  file : String → Option SdFile

namespace Storage

variable (sd : Storage) (path : String)

/-- `hal_storage_load_file`: its result, and the bytes it puts into the buffer. -/
def loadFile (size : Nat) : Bool × List Byte :=
  if sd.ready = true then
    match sd.file path with
    | none => (false, [])
    | some file =>
      let toRead := if file.size < size then file.size else size
      let bytes := file.read toRead
      (bytes.length = toRead, bytes)
  else (false, [])

/-- `hal_storage_file_size`. -/
def fileSize : Nat :=
  if sd.ready = true then
    match sd.file path with
    | none => 0
    | some file => if file.isDirectory = true then 0 else file.size
  else 0

theorem loadFile_length_le (size : Nat) : (sd.loadFile path size).2.length ≤ size := by
  unfold loadFile
  split
  · split
    · exact Nat.zero_le _
    · next file _ =>
      have hread := file.read_le (if file.size < size then file.size else size)
      have hlimit : (if file.size < size then file.size else size) ≤ size := by
        split <;> omega
      exact Nat.le_trans hread hlimit
  · exact Nat.zero_le _

/-- A load that succeeds has read all of the file up to its limit. -/
theorem fileSize_le_of_loadFile {size : Nat} (h : (sd.loadFile path size).1 = true) :
    min (sd.fileSize path) size ≤ (sd.loadFile path size).2.length := by
  unfold loadFile fileSize at *
  split at h
  · next hready =>
    simp only [if_pos hready]
    split at h
    · exact absurd h (by simp)
    · have hlen := of_decide_eq_true h
      dsimp only
      rw [hlen]
      split <;> split <;> omega
  · exact absurd h (by simp)

end Storage

/-! ## Buffers and configuration -/

/-- `CART_ROM_MAX_SIZE`. -/
def cartRomMaxSize : Nat := 131072

/-- The buffers of `machine_init`. -/
inductive RomBuffer
  | romBasic | romExtbas | romCart | romCoco3 | romDisk
  deriving DecidableEq

/-- A part of a buffer, from its start, that a load claims. -/
inductive Extent
  | written (dst : RomBuffer) (n : Nat)
  | cartSize (dst : RomBuffer) (n : Nat)

/-- The ROM side of `Machine`, with the globals that choose and describe the cartridge.
`allocated` is the size of a buffer's block. -/
structure Roms where
  machineType : Nat
  initialized : Bool := false
  allocated : RomBuffer → Option Nat := fun _ => none
  bytes : RomBuffer → Nat → Byte := fun _ _ => 0
  romBasicLoaded : Bool := false
  romExtbasLoaded : Bool := false
  romCartLoaded : Bool := false
  romCoco3Loaded : Bool := false
  romDiskLoaded : Bool := false
  romDiskEnd : Nat := 0
  cartBank : Option Nat := none
  cartBankMask : Byte := 0
  cartInserted : Bool := false
  cartAutostart : Bool := false
  cartRomRequest : Fin 2 → Option String := fun _ => none
  cartRomLoaded : Fin 2 → Option String := fun _ => none
  cartRomFallback : Fin 2 → Bool := fun _ => false
  extents : List Extent := []

/-- What a boot starts from.  `alloc` answers `machine_alloc` by label and size. -/
structure Boot where
  machineType : Nat
  coco3RamKb : Nat := 512
  cartRomRequest : Fin 2 → Option String := fun _ => none
  alloc : String → Nat → Bool
  sd : Storage
  romPath : String := "/roms"

namespace Roms

variable (m : Roms) (alloc : String → Nat → Bool) (sd : Storage) (romPath : String)

/-! ## Init -/

/-- `machine_alloc` of one block after the other, up to the first that is not there. -/
def allocBlocks : List (RomBuffer × Nat × String) → Roms → Bool × Roms
  | [], m => (true, m)
  | (dst, size, label) :: rest, m =>
    if alloc label size = true then
      allocBlocks rest { m with allocated := Function.update m.allocated dst (some size) }
    else (false, m)

def blocksCoco2 : List (RomBuffer × Nat × String) :=
  [(.romBasic, 8192, "ROM-BASIC"), (.romExtbas, 8192, "ROM-ExtBAS"), (.romCart, 16384, "ROM-Cart"),
    (.romCoco3, coco3RomSize, "ROM-CoCo3"), (.romDisk, cartBankSize, "ROM-Disk")]

def blocksCoco3 : List (RomBuffer × Nat × String) :=
  [(.romCoco3, coco3RomSize, "ROM-CoCo3"), (.romDisk, cartRomMaxSize, "ROM-Disk"),
    (.romBasic, 8192, "ROM-BASIC"), (.romExtbas, 8192, "ROM-ExtBAS"), (.romCart, 16384, "ROM-Cart")]

/-- The end of either init: the buffers are filled with $FF.  What an init that returned
early leaves behind is never read. -/
def finish : Roms :=
  { m with bytes := fun _ _ => 0xFF, romDiskEnd := 0xE000, initialized := true }

def allocAll (blocks : List (RomBuffer × Nat × String)) : Roms :=
  let blocks := allocBlocks alloc blocks m
  if blocks.1 = true then blocks.2.finish else blocks.2

/-- The RAM of a CoCo 3, in KB: a size above 512 falls back to 512. -/
def ramCoco3 (kb : Nat) : Option Nat :=
  let kb := if kb = 128 ∨ kb = 512 ∨ kb = 1024 ∨ kb = 2048 then kb else 512
  if alloc "RAM-CoCo3" (kb * 1024) = true then some kb
  else if 512 < kb ∧ alloc "RAM-CoCo3" 524288 = true then some 512
  else none

/-- `machine_init_coco2`, its ROM side. -/
def machineInitCoco2 : Roms :=
  if alloc "RAM-512K" 524288 = true then m.allocAll alloc blocksCoco2 else m

/-- `machine_init_coco3`, its ROM side. -/
def machineInitCoco3 (kb : Nat) : Roms :=
  if (ramCoco3 alloc kb).isSome = true then m.allocAll alloc blocksCoco3 else m

/-! ## Loading -/

/-- What `snprintf` leaves of a path in a buffer of `n` bytes. -/
def cstr (n : Nat) (path : String) : String := String.ofList (path.toList.take (n - 1))

/-- A ROM by its name in the ROM folder. -/
def romFile (n : Nat) (name : String) : String := cstr n (romPath ++ "/" ++ name)

/-- A requested cartridge: a name that starts with a slash is a full path. -/
def cartPath (want : String) : String :=
  if want.toList.head? = some '/' then cstr 320 want else romFile romPath 320 want

/-- What follows the last slash. -/
def baseName (want : String) : String :=
  String.ofList (want.toList.reverse.takeWhile (· ≠ '/')).reverse

/-- `hal_storage_load_file` into a buffer. -/
def load (path : String) (dst : RomBuffer) (max : Nat) : Bool × Roms :=
  let file := sd.loadFile path max
  (file.1, { m with
    bytes := Function.update m.bytes dst fun i => file.2.getD i (m.bytes dst i)
    extents := m.extents ++ [.written dst file.2.length] })

/-- The start of `load_cart_rom`: no cartridge. -/
def clearCart (idx : Fin 2) : Roms :=
  { m with
    cartRomLoaded := Function.update m.cartRomLoaded idx none
    cartRomFallback := Function.update m.cartRomFallback idx false }

/-- The requested cartridge is missing. -/
def fallBack (idx : Fin 2) : Roms :=
  { m with cartRomFallback := Function.update m.cartRomFallback idx true }

/-- The result of `load_cart_rom`: the size, and the name it goes by. -/
def report (idx : Fin 2) (dst : RomBuffer) (name : String) (size : Nat) : Roms :=
  { m with
    cartRomLoaded := Function.update m.cartRomLoaded idx (some name)
    extents := m.extents ++ [.cartSize dst size] }

/-- `load_cart_rom` from its second part on: `disk11.rom`. -/
def loadDisk11 (idx : Fin 2) (dst : RomBuffer) : Option Nat × Roms :=
  let file := m.load sd (romFile romPath 320 "disk11.rom") dst 8192
  if file.1 = true then (some 8192, file.2.report idx dst "disk11.rom" 8192) else (none, file.2)

/-- `load_cart_rom`. -/
def loadCartRom (idx : Fin 2) (dst : RomBuffer) (max : Nat) : Option Nat × Roms :=
  match m.cartRomRequest idx with
  | none => (m.clearCart idx).loadDisk11 sd romPath idx dst
  | some want =>
    let path := cartPath romPath want
    let file := (m.clearCart idx).load sd path dst max
    if file.1 = true then
      let size := min (sd.fileSize path) max
      (some size, file.2.report idx dst (baseName want) size)
    else (file.2.fallBack idx).loadDisk11 sd romPath idx dst

/-- `cart_rom_autostarts`. -/
def autostarts (rom : Nat → Byte) : Bool := !(rom 0 = 0x44 && rom 1 = 0x4B)

/-- Color BASIC. -/
def loadBasic : Roms :=
  let file := m.load sd (romFile romPath 64 "bas13.rom") .romBasic 8192
  { file.2 with romBasicLoaded := m.romBasicLoaded || file.1 }

/-- Extended BASIC. -/
def loadExtbas : Roms :=
  let file := m.load sd (romFile romPath 64 "extbas11.rom") .romExtbas 8192
  { file.2 with romExtbasLoaded := m.romExtbasLoaded || file.1 }

/-- The cartridge of a CoCo 2. -/
def loadCart : Roms :=
  let cart := m.loadCartRom sd romPath 0 .romCart cartBankSize
  if cart.1.isSome = true then
    { cart.2 with
      romCartLoaded := true
      cartInserted := true
      cartAutostart := autostarts (cart.2.bytes .romCart) }
  else cart.2

/-- `machine_load_roms_coco2`. -/
def machineLoadRomsCoco2 : Roms :=
  if m.initialized = true then
    ((m.loadBasic sd romPath).loadExtbas sd romPath).loadCart sd romPath
  else m

/-- The bank count of a cartridge: `banks` doubled until it covers the cartridge. -/
def bankCount (cartSize banks : Nat) : Nat :=
  if 0 < banks ∧ banks * cartBankSize < cartSize then bankCount cartSize (banks * 2) else banks
termination_by cartSize - banks * cartBankSize
decreasing_by unfold cartBankSize at *; omega

/-- A cartridge of more than one bank. -/
def bankSwitched (cartSize : Nat) : Roms :=
  if cartBankSize < cartSize then
    { m with cartBankMask := BitVec.ofNat 8 (bankCount cartSize 2 - 1), cartBank := some 0 }
  else m

/-- Super Extended Color BASIC. -/
def loadCoco3 : Roms :=
  let file := m.load sd (romFile romPath 64 "coco3.rom") .romCoco3 coco3RomSize
  { file.2 with romCoco3Loaded := m.romCoco3Loaded || file.1 }

/-- The cartridge of a CoCo 3. -/
def loadDisk : Roms :=
  let cart := m.loadCartRom sd romPath 1 .romDisk cartRomMaxSize
  match cart.1 with
  | none => cart.2
  | some cartSize =>
    { cart.2.bankSwitched cartSize with
      romDiskLoaded := true
      romDiskEnd := if 8192 < cartSize then 0xFF00 else 0xE000
      cartAutostart := autostarts (cart.2.bytes .romDisk) }

/-- `machine_load_roms_coco3`. -/
def machineLoadRomsCoco3 : Roms :=
  if m.initialized = true then (m.loadCoco3 sd romPath).loadDisk sd romPath else m

/-- `machine_load_roms`: both loaders, on either machine. -/
def machineLoadRoms : Roms :=
  (m.machineLoadRomsCoco2 sd romPath).machineLoadRomsCoco3 sd romPath

/-! ## Cartridge reads -/

/-- The byte of the cartridge that answers a CTS read of a CoCo 3. -/
def ctsIndex (addr : Word) : Option Nat :=
  match m.cartBank with
  | some bank => some (bank + addr.toNat % cartBankSize)
  | none =>
    if m.romDiskLoaded = true ∧ 0xC000 ≤ addr.toNat ∧ addr.toNat < m.romDiskEnd then
      some (addr.toNat - 0xC000)
    else none

/-- The byte of a buffer that answers a read of the cartridge area. -/
def cartIndex (addr : Word) : Option (RomBuffer × Nat) :=
  if m.machineType = 4 then (m.ctsIndex addr).map fun i => (.romDisk, i)
  else if m.romCartLoaded = true ∧ 0xC000 ≤ addr.toNat ∧ addr.toNat < 0xFF00 then
    some (.romCart, addr.toNat - 0xC000)
  else none

/-- A CoCo 3 with these ROMs. -/
def attach (c : Coco3) : Coco3 :=
  { c with
    romCoco3 := m.bytes .romCoco3
    romCoco3Loaded := m.romCoco3Loaded
    romDisk := m.bytes .romDisk
    romDiskLoaded := m.romDiskLoaded
    romDiskEnd := m.romDiskEnd
    cartBank := m.cartBank }

/-- The cartridge select of the machine reads that byte. -/
theorem readCts_attach (c : Coco3) (addr : Word) :
    (m.attach c).readCts addr = ((m.ctsIndex addr).map (m.bytes .romDisk)).getD
      ((m.attach c).readRom addr) := by
  unfold Coco3.readCts ctsIndex
  cases hbank : m.cartBank with
  | some bank =>
    simp only [attach, hbank]
    rfl
  | none =>
    simp only [attach, hbank]
    split
    · rfl
    · rfl

end Roms

/-- What moves the bank after the load. -/
inductive CartEvent
  | writeBank (val : Byte)
  | reset

/-- A write of $FF40, which is the bank register only of a bank-switched cartridge in a
CoCo 3, and `machine_reset`. -/
def CartEvent.step : CartEvent → Roms → Roms
  | .writeBank val, m =>
    if m.machineType = 4 then
      { m with cartBank := m.cartBank.map fun _ => (val &&& m.cartBankMask).toNat * cartBankSize }
    else m
  | .reset, m =>
    if m.machineType = 4 ∧ m.initialized = true then
      { m with cartBank := m.cartBank.map fun _ => 0 }
    else m

namespace Boot

/-- The ROM side after `machine_init`. -/
def init (b : Boot) : Roms :=
  let m : Roms := { machineType := b.machineType, cartRomRequest := b.cartRomRequest }
  if b.machineType = 4 then m.machineInitCoco3 b.alloc b.coco3RamKb else m.machineInitCoco2 b.alloc

/-- The ROM side after `machine_load_roms`. -/
def roms (b : Boot) : Roms := b.init.machineLoadRoms b.sd b.romPath

end Boot

/-! ## What a load claims -/

/-- The claimed part lies inside the buffer's block. -/
def Extent.Inside (allocated : RomBuffer → Option Nat) : Extent → Prop
  | written dst n | cartSize dst n => ∃ size, allocated dst = some size ∧ n ≤ size

namespace Roms

variable {m : Roms} {sd : Storage} {romPath path : String} {dst : RomBuffer} {idx : Fin 2}
  {max size : Nat}

/-- Every load so far kept to its buffer. -/
def Inside (m : Roms) : Prop := ∀ e ∈ m.extents, e.Inside m.allocated

/-- What the loader of a machine reads of a requested cartridge. -/
def delivered (sd : Storage) (romPath : String) (max : Nat) : Option String → Nat
  | none => 0
  | some want => (sd.loadFile (cartPath romPath want) max).2.length

theorem inside_append {m m' : Roms} {e : Extent} (halloc : m'.allocated = m.allocated)
    (hext : m'.extents = m.extents ++ [e]) : m'.Inside ↔ m.Inside ∧ e.Inside m.allocated := by
  unfold Inside
  rw [halloc, hext, List.forall_mem_append, List.forall_mem_singleton]

theorem extent_inside_iff {a : RomBuffer → Option Nat} {n : Nat} (h : a dst = some size) :
    (Extent.written dst n).Inside a ↔ n ≤ size := by
  constructor
  · rintro ⟨size', hsize', hn⟩
    rw [h] at hsize'
    exact Option.some.inj hsize' ▸ hn
  · intro hn
    exact ⟨size, h, hn⟩

theorem load_inside_iff (h : m.allocated dst = some size) :
    (m.load sd path dst max).2.Inside ↔ m.Inside ∧ (sd.loadFile path max).2.length ≤ size := by
  rw [← extent_inside_iff (n := (sd.loadFile path max).2.length) h]
  exact inside_append rfl rfl

theorem load_inside (h : m.allocated dst = some size) (hmax : max ≤ size) :
    (m.load sd path dst max).2.Inside ↔ m.Inside := by
  rw [load_inside_iff h]
  exact and_iff_left (Nat.le_trans (sd.loadFile_length_le path max) hmax)

theorem report_inside {name : String} {n : Nat} (h : m.allocated dst = some size) (hn : n ≤ size) :
    (m.report idx dst name n).Inside ↔ m.Inside := by
  have hext : (m.report idx dst name n).Inside ↔
      m.Inside ∧ (Extent.cartSize dst n).Inside m.allocated := inside_append rfl rfl
  exact hext.trans (and_iff_left ⟨size, h, hn⟩)

theorem loadDisk11_inside (h : m.allocated dst = some size) (hsize : 8192 ≤ size) :
    (m.loadDisk11 sd romPath idx dst).2.Inside ↔ m.Inside := by
  have hload : (m.load sd (romFile romPath 320 "disk11.rom") dst 8192).2.Inside ↔ m.Inside :=
    load_inside h hsize
  have hafter : (m.load sd (romFile romPath 320 "disk11.rom") dst 8192).2.allocated dst =
      some size := h
  unfold loadDisk11
  dsimp only
  split
  · exact (report_inside hafter hsize).trans hload
  · exact hload

/-- A cartridge load keeps to its buffer when the requested file does. -/
theorem loadCartRom_inside (h : m.allocated dst = some size) (hsize : 8192 ≤ size) :
    (m.loadCartRom sd romPath idx dst max).2.Inside ↔
      m.Inside ∧ delivered sd romPath max (m.cartRomRequest idx) ≤ size := by
  have hclear : (m.clearCart idx).allocated dst = some size := h
  unfold loadCartRom
  dsimp only
  split
  · next hwant =>
    rw [hwant]
    exact (loadDisk11_inside hclear hsize).trans (and_iff_left (Nat.zero_le size)).symm
  · next want hwant =>
    rw [hwant]
    have hload : ((m.clearCart idx).load sd (cartPath romPath want) dst max).2.Inside ↔
        m.Inside ∧ delivered sd romPath max (some want) ≤ size := load_inside_iff hclear
    have hafter : ((m.clearCart idx).load sd (cartPath romPath want) dst max).2.allocated dst =
        some size := h
    split
    · next hok =>
      have hsizes := sd.fileSize_le_of_loadFile _ hok
      rw [← hload]
      constructor
      · intro hall e he
        exact hall e (List.mem_append_left _ he)
      · intro hall
        have hfits := (hload.mp hall).2
        exact (report_inside hafter (Nat.le_trans hsizes hfits)).mpr hall
    · rw [← hload]
      exact loadDisk11_inside (m := Roms.fallBack (Roms.load _ sd _ dst max).2 idx) hafter hsize

/-! ## The frame of a load -/

/-- What a load leaves alone. -/
structure SameSetup (m m' : Roms) : Prop where
  machineType : m'.machineType = m.machineType
  initialized : m'.initialized = m.initialized
  allocated : m'.allocated = m.allocated
  cartRomRequest : m'.cartRomRequest = m.cartRomRequest

theorem SameSetup.trans {m m' m'' : Roms} (h : SameSetup m m') (h' : SameSetup m' m'') :
    SameSetup m m'' :=
  ⟨h'.machineType.trans h.machineType, h'.initialized.trans h.initialized,
    h'.allocated.trans h.allocated, h'.cartRomRequest.trans h.cartRomRequest⟩

/-- A cartridge load changes contents and descriptions only. -/
def OnlyLoaded (m m' : Roms) : Prop :=
  ∃ bytes extents cartRomLoaded cartRomFallback,
    m' = { m with bytes, extents, cartRomLoaded, cartRomFallback }

theorem OnlyLoaded.trans {m m' m'' : Roms} (h : OnlyLoaded m m') (h' : OnlyLoaded m' m'') :
    OnlyLoaded m m'' := by
  obtain ⟨_, _, _, _, rfl⟩ := h
  obtain ⟨_, _, _, _, rfl⟩ := h'
  exact ⟨_, _, _, _, rfl⟩

theorem OnlyLoaded.sameSetup {m m' : Roms} (h : OnlyLoaded m m') : SameSetup m m' := by
  obtain ⟨_, _, _, _, rfl⟩ := h
  exact ⟨rfl, rfl, rfl, rfl⟩

theorem loadDisk11_onlyLoaded (m : Roms) :
    OnlyLoaded m (m.loadDisk11 sd romPath idx dst).2 := by
  unfold loadDisk11
  dsimp only
  split <;> exact ⟨_, _, _, _, rfl⟩

theorem loadCartRom_onlyLoaded (m : Roms) :
    OnlyLoaded m (m.loadCartRom sd romPath idx dst max).2 := by
  have hstart (m' : Roms) (h : OnlyLoaded m m') :
      OnlyLoaded m (m'.loadDisk11 sd romPath idx dst).2 := h.trans (loadDisk11_onlyLoaded m')
  unfold loadCartRom
  dsimp only
  split
  · exact hstart _ ⟨_, _, _, _, rfl⟩
  · split
    · exact ⟨_, _, _, _, rfl⟩
    · exact hstart _ ⟨_, _, _, _, rfl⟩

/-- The size of a cartridge is at most its limit. -/
theorem loadCartRom_size_le {n : Nat} (h : (m.loadCartRom sd romPath idx dst max).1 = some n)
    (hmax : 8192 ≤ max) : n ≤ max := by
  have hdisk11 (m' : Roms) (hn : (m'.loadDisk11 sd romPath idx dst).1 = some n) : n ≤ max := by
    unfold loadDisk11 at hn
    dsimp only at hn
    split at hn
    · exact Option.some.inj hn ▸ hmax
    · exact absurd hn (by simp)
  unfold loadCartRom at h
  dsimp only at h
  split at h
  · exact hdisk11 _ h
  · split at h
    · exact Option.some.inj h ▸ Nat.min_le_right _ _
    · exact hdisk11 _ h

theorem loadBasic_sameSetup (m : Roms) : SameSetup m (m.loadBasic sd romPath) :=
  ⟨rfl, rfl, rfl, rfl⟩

theorem loadExtbas_sameSetup (m : Roms) : SameSetup m (m.loadExtbas sd romPath) :=
  ⟨rfl, rfl, rfl, rfl⟩

theorem loadCoco3_sameSetup (m : Roms) : SameSetup m (m.loadCoco3 sd romPath) :=
  ⟨rfl, rfl, rfl, rfl⟩

theorem loadCart_sameSetup (m : Roms) : SameSetup m (m.loadCart sd romPath) := by
  have hload : SameSetup m (m.loadCartRom sd romPath 0 .romCart cartBankSize).2 :=
    (loadCartRom_onlyLoaded m).sameSetup
  unfold loadCart
  dsimp only
  split
  · exact hload.trans ⟨rfl, rfl, rfl, rfl⟩
  · exact hload

theorem machineLoadRomsCoco2_sameSetup (m : Roms) :
    SameSetup m (m.machineLoadRomsCoco2 sd romPath) := by
  have hbasic : SameSetup m (m.loadBasic sd romPath) := loadBasic_sameSetup m
  have hextbas : SameSetup m ((m.loadBasic sd romPath).loadExtbas sd romPath) :=
    hbasic.trans (loadExtbas_sameSetup _)
  unfold machineLoadRomsCoco2
  split
  · exact hextbas.trans (loadCart_sameSetup _)
  · exact ⟨rfl, rfl, rfl, rfl⟩

/-- The ROMs of the CoCo 2 that are loaded. -/
structure SameCoco2 (m m' : Roms) : Prop where
  initialized : m'.initialized = m.initialized
  romBasicLoaded : m'.romBasicLoaded = m.romBasicLoaded
  romExtbasLoaded : m'.romExtbasLoaded = m.romExtbasLoaded
  romCartLoaded : m'.romCartLoaded = m.romCartLoaded

/-- The loader of the CoCo 3 loads nothing of the CoCo 2's. -/
theorem machineLoadRomsCoco3_sameCoco2 (m : Roms) :
    SameCoco2 m (m.machineLoadRomsCoco3 sd romPath) := by
  have honly : OnlyLoaded (m.loadCoco3 sd romPath)
      ((m.loadCoco3 sd romPath).loadCartRom sd romPath 1 .romDisk cartRomMaxSize).2 :=
    loadCartRom_onlyLoaded _
  obtain ⟨_, _, _, _, hcart⟩ := honly
  unfold machineLoadRomsCoco3
  split
  · unfold loadDisk
    dsimp only
    rw [hcart]
    split
    · exact ⟨rfl, rfl, rfl, rfl⟩
    · unfold bankSwitched
      split <;> exact ⟨rfl, rfl, rfl, rfl⟩
  · exact ⟨rfl, rfl, rfl, rfl⟩

/-! ## What the loaders claim -/

/-- The blocks of an init that came to its end; `disk` is the size of the cartridge buffer of
the CoCo 3. -/
structure Allocated (m : Roms) (disk : Nat) : Prop where
  romBasic : m.allocated .romBasic = some 8192
  romExtbas : m.allocated .romExtbas = some 8192
  romCart : m.allocated .romCart = some cartBankSize
  romCoco3 : m.allocated .romCoco3 = some coco3RomSize
  romDisk : m.allocated .romDisk = some disk

theorem SameSetup.allocatedAs {m m' : Roms} {disk : Nat} (h : SameSetup m m')
    (ha : m.Allocated disk) : m'.Allocated disk := by
  constructor <;> rw [h.allocated]
  · exact ha.romBasic
  · exact ha.romExtbas
  · exact ha.romCart
  · exact ha.romCoco3
  · exact ha.romDisk

/-- A change of flags claims nothing. -/
theorem inside_congr {m m' : Roms} (halloc : m'.allocated = m.allocated)
    (hext : m'.extents = m.extents) : m'.Inside ↔ m.Inside := by
  unfold Inside
  rw [halloc, hext]

theorem loadBasic_inside (h : m.allocated .romBasic = some 8192) :
    (m.loadBasic sd romPath).Inside ↔ m.Inside :=
  (inside_congr rfl rfl).trans (load_inside h (Nat.le_refl _))

theorem loadExtbas_inside (h : m.allocated .romExtbas = some 8192) :
    (m.loadExtbas sd romPath).Inside ↔ m.Inside :=
  (inside_congr rfl rfl).trans (load_inside h (Nat.le_refl _))

theorem loadCoco3_inside (h : m.allocated .romCoco3 = some coco3RomSize) :
    (m.loadCoco3 sd romPath).Inside ↔ m.Inside :=
  (inside_congr rfl rfl).trans (load_inside h (Nat.le_refl _))

/-- A load delivers no more than its limit. -/
theorem delivered_le (want : Option String) : delivered sd romPath max want ≤ max := by
  cases want with
  | none => exact Nat.zero_le _
  | some want => exact sd.loadFile_length_le _ _

theorem loadCart_inside (h : m.allocated .romCart = some cartBankSize) :
    (m.loadCart sd romPath).Inside ↔ m.Inside := by
  have hload : (m.loadCartRom sd romPath 0 .romCart cartBankSize).2.Inside ↔ m.Inside :=
    (loadCartRom_inside h (by decide)).trans (and_iff_left (delivered_le _))
  unfold loadCart
  dsimp only
  split
  · exact (inside_congr rfl rfl).trans hload
  · exact hload

/-- The CoCo 3's loader keeps to its buffer when what it reads of the requested file fits. -/
theorem loadDisk_inside {disk : Nat} (h : m.allocated .romDisk = some disk) (hdisk : 8192 ≤ disk) :
    (m.loadDisk sd romPath).Inside ↔
      m.Inside ∧ delivered sd romPath cartRomMaxSize (m.cartRomRequest 1) ≤ disk := by
  have hload : (m.loadCartRom sd romPath 1 .romDisk cartRomMaxSize).2.Inside ↔
      m.Inside ∧ delivered sd romPath cartRomMaxSize (m.cartRomRequest 1) ≤ disk :=
    loadCartRom_inside h hdisk
  unfold loadDisk
  dsimp only
  split
  · exact hload
  · refine Iff.trans ?_ hload
    unfold bankSwitched
    split <;> exact inside_congr rfl rfl

theorem machineLoadRoms_inside {disk : Nat} (hinit : m.initialized = true)
    (ha : m.Allocated disk) (hdisk : 8192 ≤ disk) :
    (m.machineLoadRoms sd romPath).Inside ↔
      m.Inside ∧ delivered sd romPath cartRomMaxSize (m.cartRomRequest 1) ≤ disk := by
  have hbasic : SameSetup m (m.loadBasic sd romPath) := loadBasic_sameSetup m
  have hextbas : SameSetup m ((m.loadBasic sd romPath).loadExtbas sd romPath) :=
    hbasic.trans (loadExtbas_sameSetup _)
  have hcart : SameSetup m (((m.loadBasic sd romPath).loadExtbas sd romPath).loadCart sd romPath) :=
    hextbas.trans (loadCart_sameSetup _)
  have hrom : SameSetup m
      ((((m.loadBasic sd romPath).loadExtbas sd romPath).loadCart sd romPath).loadCoco3 sd romPath) :=
    hcart.trans (loadCoco3_sameSetup _)
  have hroms : m.machineLoadRomsCoco2 sd romPath =
      ((m.loadBasic sd romPath).loadExtbas sd romPath).loadCart sd romPath := if_pos hinit
  unfold machineLoadRoms machineLoadRomsCoco3
  rw [hroms, if_pos (hcart.initialized.trans hinit),
    loadDisk_inside (hrom.allocatedAs ha).romDisk hdisk, hrom.cartRomRequest,
    loadCoco3_inside (hcart.allocatedAs ha).romCoco3,
    loadCart_inside (hextbas.allocatedAs ha).romCart,
    loadExtbas_inside (hbasic.allocatedAs ha).romExtbas, loadBasic_inside ha.romBasic]

/-! ## Cartridge reads stay inside -/

/-- The bank stays within eight banks, and a buffer that is read is there. -/
structure ReadInv (m : Roms) : Prop where
  mask : m.cartBankMask.toNat ≤ 7
  bank : ∀ bank, m.cartBank = some bank → bank ≤ 7 * cartBankSize
  romDiskEnd : m.romDiskEnd ≤ 0xFF00
  disk : m.machineType = 4 → m.cartBank.isSome = true ∨ m.romDiskLoaded = true →
    m.allocated .romDisk = some cartRomMaxSize
  cart : m.machineType ≠ 4 → m.romCartLoaded = true → m.allocated .romCart = some cartBankSize

theorem ReadInv.inside (h : m.ReadInv) {addr : Word} {i : Nat}
    (hread : m.cartIndex addr = some (dst, i)) : ∃ size, m.allocated dst = some size ∧ i < size := by
  unfold cartIndex at hread
  split at hread
  · next hcoco3 =>
    obtain ⟨j, hj, hpair⟩ := Option.map_eq_some_iff.mp hread
    obtain ⟨rfl, rfl⟩ := Prod.mk.inj hpair
    unfold ctsIndex at hj
    split at hj
    · next bank hbank =>
      have hle := h.bank bank hbank
      have hmod : addr.toNat % cartBankSize < cartBankSize := Nat.mod_lt _ (by decide)
      refine ⟨cartRomMaxSize, h.disk hcoco3 (Or.inl (by rw [hbank]; rfl)), ?_⟩
      rw [← Option.some.inj hj]
      unfold cartBankSize cartRomMaxSize at *
      omega
    · split at hj
      · next hloaded =>
        have hend := h.romDiskEnd
        refine ⟨cartRomMaxSize, h.disk hcoco3 (Or.inr hloaded.1), ?_⟩
        rw [← Option.some.inj hj]
        unfold cartRomMaxSize
        omega
      · exact absurd hj (by simp)
  · next hcoco2 =>
    split at hread
    · next hloaded =>
      obtain ⟨rfl, rfl⟩ := Prod.mk.inj (Option.some.inj hread)
      refine ⟨cartBankSize, h.cart hcoco2 hloaded.1, ?_⟩
      unfold cartBankSize
      omega
    · exact absurd hread (by simp)

theorem ReadInv.step (h : m.ReadInv) (e : CartEvent) : (e.step m).ReadInv := by
  cases e with
  | writeBank val =>
    simp only [CartEvent.step]
    split
    · refine { h with bank := ?_, disk := ?_ }
      · intro bank hbank
        obtain ⟨_, _, rfl⟩ := Option.map_eq_some_iff.mp hbank
        have hval : (val &&& m.cartBankMask).toNat ≤ m.cartBankMask.toNat := by
          rw [BitVec.toNat_and]
          exact Nat.and_le_right
        exact Nat.mul_le_mul_right _ (Nat.le_trans hval h.mask)
      · intro hcoco3 hread
        rw [Option.isSome_map] at hread
        exact h.disk hcoco3 hread
    · exact h
  | reset =>
    simp only [CartEvent.step]
    split
    · refine { h with bank := ?_, disk := ?_ }
      · intro bank hbank
        obtain ⟨_, _, rfl⟩ := Option.map_eq_some_iff.mp hbank
        exact Nat.zero_le _
      · intro hcoco3 hread
        rw [Option.isSome_map] at hread
        exact h.disk hcoco3 hread
    · exact h

/-- Eight banks cover the largest cartridge. -/
theorem bankCount_le {cartSize : Nat} (h : cartSize ≤ cartRomMaxSize) : bankCount cartSize 2 ≤ 8 := by
  unfold cartRomMaxSize at h
  rw [bankCount]
  split
  · rw [bankCount]
    split
    · rw [bankCount]
      split
      · unfold cartBankSize at *
        omega
      · exact Nat.le_refl _
    · decide
  · decide

theorem OnlyLoaded.readInv {m m' : Roms} (h : OnlyLoaded m m') (hm : m.ReadInv) : m'.ReadInv := by
  obtain ⟨_, _, _, _, rfl⟩ := h
  exact { hm with }

theorem loadCart_readInv (h : m.ReadInv) (hcart : m.allocated .romCart = some cartBankSize) :
    (m.loadCart sd romPath).ReadInv := by
  have honly : OnlyLoaded m (m.loadCartRom sd romPath 0 .romCart cartBankSize).2 :=
    loadCartRom_onlyLoaded m
  have hload := honly.readInv h
  unfold loadCart
  dsimp only
  split
  · refine { hload with cart := ?_ }
    intro _ _
    exact honly.sameSetup.allocated ▸ hcart
  · exact hload

theorem loadDisk_readInv (h : m.ReadInv)
    (hdisk : m.machineType = 4 → m.allocated .romDisk = some cartRomMaxSize) :
    (m.loadDisk sd romPath).ReadInv := by
  have honly : OnlyLoaded m (m.loadCartRom sd romPath 1 .romDisk cartRomMaxSize).2 :=
    loadCartRom_onlyLoaded m
  have hload := honly.readInv h
  have hblock (ht : (m.loadCartRom sd romPath 1 .romDisk cartRomMaxSize).2.machineType = 4) :
      (m.loadCartRom sd romPath 1 .romDisk cartRomMaxSize).2.allocated .romDisk =
        some cartRomMaxSize := by
    rw [honly.sameSetup.allocated]
    exact hdisk (honly.sameSetup.machineType ▸ ht)
  unfold loadDisk
  dsimp only
  split
  · exact hload
  · next cartSize hsize =>
    have hend : (if 8192 < cartSize then 0xFF00 else 0xE000) ≤ 0xFF00 := by
      split <;> decide
    unfold bankSwitched
    split
    · have hbanks := bankCount_le (loadCartRom_size_le hsize (by decide))
      refine { hload with mask := ?_, bank := ?_, romDiskEnd := hend, disk := fun ht _ => hblock ht }
      · rw [BitVec.toNat_ofNat]
        exact Nat.le_trans (Nat.mod_le _ _) (by omega)
      · intro bank hbank
        rw [← Option.some.inj hbank]
        exact Nat.zero_le _
    · exact { hload with romDiskEnd := hend, disk := fun ht _ => hblock ht }

/-! ## The whole load -/

theorem machineLoadRoms_readInv {disk : Nat} (h : m.ReadInv) (ha : m.Allocated disk)
    (hdisk : m.machineType = 4 → disk = cartRomMaxSize) :
    (m.machineLoadRoms sd romPath).ReadInv := by
  -- the BASIC ROMs are not cartridges
  have hextbas : ((m.loadBasic sd romPath).loadExtbas sd romPath).ReadInv := { h with }
  have hcoco2 : (m.machineLoadRomsCoco2 sd romPath).ReadInv := by
    unfold machineLoadRomsCoco2
    split
    · exact loadCart_readInv hextbas ha.romCart
    · exact h
  have hcoco3 : ((m.machineLoadRomsCoco2 sd romPath).loadCoco3 sd romPath).ReadInv :=
    { hcoco2 with }
  have hsetup : SameSetup m ((m.machineLoadRomsCoco2 sd romPath).loadCoco3 sd romPath) :=
    (machineLoadRomsCoco2_sameSetup m).trans (loadCoco3_sameSetup _)
  unfold machineLoadRoms machineLoadRomsCoco3
  split
  · refine loadDisk_readInv hcoco3 ?_
    intro htype
    rw [(hsetup.allocatedAs ha).romDisk, hdisk (hsetup.machineType ▸ htype)]
  · exact hcoco2

/-- Without an init there is nothing to load into. -/
theorem machineLoadRoms_uninitialized (h : m.initialized = false) :
    m.machineLoadRoms sd romPath = m := by
  have hno : ¬m.initialized = true := by
    rw [h]
    simp
  unfold machineLoadRoms machineLoadRomsCoco3 machineLoadRomsCoco2
  rw [if_neg hno, if_neg hno]

theorem runAll_readInv (h : m.ReadInv) (events : List CartEvent) :
    (runAll CartEvent.step events m).ReadInv := by
  induction events generalizing m with
  | nil => exact h
  | cons e events ih => exact ih (h.step e)

/-- Every load kept to the buffer that the init allocated for it, no cartridge is larger than
its buffer, and whatever is written to the bank register, a cartridge read stays inside.  The
byte whose index that is is the one that the cartridge select of a CoCo 3 reads. -/
structure CartSafe (m : Roms) : Prop where
  loads : m.Inside
  reads : ∀ (events : List CartEvent) (addr : Word) (dst : RomBuffer) (i : Nat),
    (runAll CartEvent.step events m).cartIndex addr = some (dst, i) →
      ∃ size, (runAll CartEvent.step events m).allocated dst = some size ∧ i < size
  select : ∀ (events : List CartEvent) (c : Coco3) (addr : Word),
    let m' := runAll CartEvent.step events m
    (m'.attach c).readCts addr = ((m'.ctsIndex addr).map (m'.bytes .romDisk)).getD
      ((m'.attach c).readRom addr)

theorem ReadInv.cartSafe_iff (h : m.ReadInv) : m.CartSafe ↔ m.Inside := by
  constructor
  · exact fun hsafe => hsafe.loads
  · intro hinside
    exact ⟨hinside, fun events _ _ _ hread => (runAll_readInv h events).inside hread,
      fun _ c addr => readCts_attach _ c addr⟩

/-! ## A boot -/

/-- Nothing is loaded and nothing claimed. -/
structure Empty (m : Roms) : Prop where
  extents : m.extents = []
  romCartLoaded : m.romCartLoaded = false
  romDiskLoaded : m.romDiskLoaded = false
  cartBank : m.cartBank = none
  cartBankMask : m.cartBankMask = 0
  romDiskEnd : m.romDiskEnd ≤ 0xFF00

theorem Empty.inside (h : m.Empty) : m.Inside := by
  intro e he
  rw [h.extents] at he
  exact absurd he (by simp)

theorem Empty.readInv (h : m.Empty) : m.ReadInv := by
  constructor
  · rw [h.cartBankMask]
    decide
  · intro bank hbank
    rw [h.cartBank] at hbank
    exact absurd hbank (by simp)
  · exact h.romDiskEnd
  · intro _ hread
    rw [h.cartBank, h.romDiskLoaded] at hread
    exact absurd hread (by simp)
  · intro _ hread
    rw [h.romCartLoaded] at hread
    exact absurd hread (by simp)

/-- The blocks of a list, over what was allocated before. -/
def blockTable (blocks : List (RomBuffer × Nat × String)) (a : RomBuffer → Option Nat) :
    RomBuffer → Option Nat :=
  blocks.foldl (fun a b => Function.update a b.1 (some b.2.1)) a

/-- What an init with these blocks makes of `m`. -/
structure Inited (m : Roms) (blocks : List (RomBuffer × Nat × String)) (m' : Roms) : Prop where
  machineType : m'.machineType = m.machineType
  cartRomRequest : m'.cartRomRequest = m.cartRomRequest
  empty : m'.Empty
  allocated : m'.initialized = true → m'.allocated = blockTable blocks m.allocated

variable {alloc : String → Nat → Bool} {blocks : List (RomBuffer × Nat × String)}

theorem inited_self (h : m.Empty) (hinit : m.initialized = false) : m.Inited blocks m := by
  refine ⟨rfl, rfl, h, ?_⟩
  intro htrue
  exact absurd (hinit.symm.trans htrue) (by simp)

theorem allocBlocks_allocated (m : Roms) :
    ∃ allocated, (allocBlocks alloc blocks m).2 = { m with allocated } ∧
      ((allocBlocks alloc blocks m).1 = true → allocated = blockTable blocks m.allocated) := by
  induction blocks generalizing m with
  | nil => exact ⟨m.allocated, rfl, fun _ => rfl⟩
  | cons b blocks ih =>
    unfold allocBlocks
    split
    · exact ih _
    · exact ⟨m.allocated, rfl, by simp⟩

theorem allocAll_inited (hm : m.Empty) (hinit : m.initialized = false) :
    m.Inited blocks (m.allocAll alloc blocks) := by
  have hblocks : ∃ allocated, (allocBlocks alloc blocks m).2 = { m with allocated } ∧
      ((allocBlocks alloc blocks m).1 = true → allocated = blockTable blocks m.allocated) :=
    allocBlocks_allocated m
  obtain ⟨allocated, hshape, hall⟩ := hblocks
  unfold allocAll
  dsimp only
  rw [hshape]
  split
  · next hok =>
    exact ⟨rfl, rfl, { hm with romDiskEnd := Nat.le_of_ble_eq_true rfl }, fun _ => hall hok⟩
  · refine ⟨rfl, rfl, { hm with }, ?_⟩
    intro htrue
    exact absurd (hinit.symm.trans htrue) (by simp)

end Roms

namespace Boot

variable (b : Boot)

/-- The blocks of the machine that boots. -/
def blocks : List (RomBuffer × Nat × String) :=
  if b.machineType = 4 then Roms.blocksCoco3 else Roms.blocksCoco2

/-- The size of the buffer that the CoCo 3's loader fills with a cartridge. -/
def diskSize : Nat := if b.machineType = 4 then cartRomMaxSize else cartBankSize

/-- What the CoCo 3's loader reads of the file requested for it. -/
def delivered : Nat := Roms.delivered b.sd b.romPath cartRomMaxSize (b.cartRomRequest 1)

theorem init_inited : ∃ m : Roms, m.machineType = b.machineType ∧
    m.cartRomRequest = b.cartRomRequest ∧ m.Inited b.blocks b.init := by
  refine ⟨{ machineType := b.machineType, cartRomRequest := b.cartRomRequest }, rfl, rfl, ?_⟩
  have hempty : Roms.Empty
      { machineType := b.machineType, cartRomRequest := b.cartRomRequest } := by
    exact ⟨rfl, rfl, rfl, rfl, rfl, Nat.zero_le _⟩
  unfold init blocks
  dsimp only
  split
  · unfold Roms.machineInitCoco3
    split
    · exact Roms.allocAll_inited hempty rfl
    · exact Roms.inited_self hempty rfl
  · unfold Roms.machineInitCoco2
    split
    · exact Roms.allocAll_inited hempty rfl
    · exact Roms.inited_self hempty rfl

theorem init_allocated (h : b.init.initialized = true) : b.init.Allocated b.diskSize := by
  obtain ⟨m, _, _, hinited⟩ := b.init_inited
  have halloc := hinited.allocated h
  unfold blocks at halloc
  unfold diskSize
  constructor <;> rw [halloc] <;> split <;> rfl

theorem roms_readInv : b.roms.ReadInv := by
  obtain ⟨m, htype, _, hinited⟩ := b.init_inited
  unfold roms
  cases hinit : b.init.initialized with
  | false =>
    rw [Roms.machineLoadRoms_uninitialized hinit]
    exact hinited.empty.readInv
  | true =>
    refine Roms.machineLoadRoms_readInv hinited.empty.readInv (b.init_allocated hinit) ?_
    intro hcoco3
    rw [hinited.machineType, htype] at hcoco3
    exact if_pos hcoco3

theorem roms_inside_iff :
    b.roms.Inside ↔ (b.init.initialized = true → b.delivered ≤ b.diskSize) := by
  obtain ⟨m, _, hrequest, hinited⟩ := b.init_inited
  have hstart : b.init.Inside := hinited.empty.inside
  unfold roms
  cases hinit : b.init.initialized with
  | false =>
    rw [Roms.machineLoadRoms_uninitialized hinit]
    exact iff_of_true hstart (by simp)
  | true =>
    have hdisk : 8192 ≤ b.diskSize := by
      unfold diskSize
      split <;> decide
    rw [Roms.machineLoadRoms_inside hinit (b.init_allocated hinit) hdisk, hinited.cartRomRequest,
      hrequest]
    exact ⟨fun h _ => h.2, fun h => ⟨hstart, h rfl⟩⟩

end Boot

/-- The loads of a boot keep to their buffers on a CoCo 3; on a CoCo 2 they do when the CoCo 3's
loader, which runs there too, reads no more than one bank of the file requested for it. -/
theorem cart_rom_inside (b : Boot) :
    b.roms.CartSafe ↔
      b.machineType = 4 ∨ b.init.initialized = false ∨ b.delivered ≤ cartBankSize := by
  rw [b.roms_readInv.cartSafe_iff, b.roms_inside_iff]
  unfold Boot.diskSize
  split
  · next hcoco3 =>
    refine iff_of_true (fun _ => ?_) (Or.inl hcoco3)
    exact Roms.delivered_le _
  · next hcoco2 =>
    cases b.init.initialized with
    | false => simp
    | true => simp [hcoco2]

/-! ## A large cartridge in a CoCo 2 -/

/-- A file that reads as zeros. -/
def zeros (size : Nat) : SdFile where
  size := size
  read n := List.replicate n 0
  read_le n := by rw [List.length_replicate]

/-- A CoCo 2 boot with a 32 KB cartridge requested, as a CoCo 3 accepts it. -/
def bankedCartBoot : Boot where
  machineType := 3
  cartRomRequest _ := some "/roms/cart.rom"
  alloc _ _ := true
  sd := { ready := true, file := fun _ => some (zeros 32768) }

theorem banked_cart_overruns : ¬bankedCartBoot.roms.CartSafe := by
  intro hsafe
  have hinit : bankedCartBoot.init.initialized = true := by decide
  have hbound := bankedCartBoot.roms_inside_iff.mp hsafe.loads hinit
  have hread : bankedCartBoot.delivered = 32768 := List.length_replicate
  have hdisk : bankedCartBoot.diskSize = 16384 := rfl
  rw [hread, hdisk] at hbound
  exact absurd hbound (by decide)

end CocoEmulator.Machine
