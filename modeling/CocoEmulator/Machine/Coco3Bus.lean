/-
  Machine/Coco3Bus.lean --- every access of the CoCo 3's bus (machine.cpp).

  An access goes to RAM at once, or takes a direct path, or goes through the chain of
  devices and then the full decode of the GIME.  The bus is also defined without its
  direct paths (`Paths.generic`), which the source gives as what they stand for.

  The cartridges are parameters: whether each is enabled, and what its ports do to the
  state `δ` of the devices.  The virtual hard disk moves a sector through the bus
  itself, so its write is a program of accesses.

  `detected` is not in the source: the edges of IL2, IL1 and IL0 detected so far.
-/
import CocoEmulator.Gime.Sampling
import CocoEmulator.Machine.Coco3Memory
import CocoEmulator.Machine.Keyboard
import CocoEmulator.Sound.Mixer

set_option autoImplicit false

namespace CocoEmulator.Machine

open CocoEmulator.Base CocoEmulator.Chip CocoEmulator.Gime
open CocoEmulator.Sound (SoundState)
open Tcc1014 (slotOf physical)

/-! ## Devices -/

/-- What a device does on the bus: it looks at the state of the devices, changes it, and
accesses memory. -/
inductive BusProg (δ : Type) : Type
  | done
  | look (next : δ → BusProg δ)
  | set (dev : δ) (next : BusProg δ)
  | read (addr : Word) (next : Byte → BusProg δ)
  | write (addr : Word) (val : Byte) (next : BusProg δ)

/-- The devices: which are enabled, and their ports. -/
structure Devices (δ : Type) where
  rs232PakEnabled : Bool
  orch90Enabled : Bool
  sscEnabled : Bool
  vhdEnabled : Bool
  beckerEnabled : Bool
  /-- The keyboard and the joysticks at a scan. -/
  scan : δ → Hal × δ
  mc6551Read : Byte → δ → Byte × δ
  mc6551Write : Byte → Byte → δ → δ
  sscRead : Word → δ → Byte × δ
  sscWrite : Word → Byte → δ → δ
  vhdRead : Word → δ → Byte × δ
  vhdWrite : Word → Byte → BusProg δ
  beckerReadStatus : δ → Byte × δ
  beckerReadData : δ → Byte × δ
  beckerWriteData : Byte → δ → δ
  svDiskRead : Word → δ → Byte × δ
  svDiskWrite : Word → Byte → δ → δ

/-- The Orchestra-90's latches. -/
structure Orch90 where
  left : Byte := 0
  right : Byte := 0
deriving DecidableEq, Repr

/-- The machine behind the bus. -/
structure Coco3Machine (δ : Type) extends Coco3 where
  pia0 : Mc6821 := {}
  pia1 : Mc6821 := {}
  sound : SoundState
  orch90 : Orch90 := {}
  cartBankMask : Byte := 0
  dev : δ
  detected : List Source := []

/-- With the direct paths, as the source has it, or without them. -/
inductive Paths
  | direct
  | generic
deriving DecidableEq, Repr

namespace Coco3Machine

variable {δ : Type} (devs : Devices δ) (m : Coco3Machine δ)

/-! ## The chips -/

/-- A memory cycle of the GIME. -/
def cycle (addr : Word) (rnw : Bool) (val : Byte) : Tcc1014.Cycle × Coco3Machine δ :=
  let c := m.gime.memCycle addr rnw val
  (c, { m with gime := c.gime, detected := m.detected ++ m.gime.risen })

/-- A status register. -/
def readStatus (addr : Word) : Byte × Coco3Machine δ :=
  let r := m.gime.readRegister (addr.setWidth 4)
  (r.1, { m with gime := r.2, detected := m.detected ++ m.gime.risen })

/-- The byte of RAM at a physical address. -/
def load (z : Unsigned) : Byte := m.ramPhysical (m.ramIndex z)

def storeRam (z : Unsigned) (val : Byte) : Coco3Machine δ :=
  { m with toCoco3 := m.toCoco3.store z val }

/-- A device answers. -/
def answer (port : δ → Byte × δ) : Byte × Coco3Machine δ :=
  let r := port m.dev
  (r.1, { m with dev := r.2 })

/-- `addr & 0x03` -/
def regOf (addr : Word) : Byte := (addr &&& 0x03).setWidth 8

/-- `sound_pia0_written` -/
def soundPia0Written (reg : Byte) : Coco3Machine δ :=
  let sel := ((m.pia0.b.ctrl &&& 0x08) >>> 2) ||| ((m.pia0.a.ctrl &&& 0x08) >>> 3)
  if reg = 1 ∨ reg = 3 then { m with sound := m.sound.setMuxSource sel } else m

/-- `sound_pia1_written` -/
def soundPia1Written (reg : Byte) : Coco3Machine δ :=
  let sound := if reg = 0 ∨ reg = 1 then
      m.sound.setDacLevel (((m.pia1.a.data &&& m.pia1.a.ddr) >>> 2) &&& 0x3F)
    else m.sound
  let sound := if reg = 2 ∨ reg = 3 then
      sound.setSbs (Mc6821.has m.pia1.b.ddr 0x02) (Mc6821.has m.pia1.b.data 0x02)
    else sound
  let sound := if reg = 3 then sound.setMuxEnabled (Mc6821.has m.pia1.b.ctrl 0x08) else sound
  { m with sound }

/-- A read of PIA0: of port A with a scan of the keyboard, which drives IL1. -/
def readPia0 (reg : Byte) : Byte × Coco3Machine δ :=
  let m := if scansKeyboard m.pia0 reg = true then
      let scan := devs.scan m.dev
      let row := rowData scan.1 m.pia0 m.pia1
      { m with
        dev := scan.2
        gime := { m.gime with il1 := row ||| 0x80 != 0xFF }
        pia0 := m.pia0.mc6821SetInputA row }
    else m
  let r := Mc6821.mc6821Read reg m.pia0
  (r.val, { m with pia0 := r.st })

def readPia1 (reg : Byte) : Byte × Coco3Machine δ :=
  let r := Mc6821.mc6821Read reg m.pia1
  (r.val, { m with pia1 := r.st })

def writePia0 (reg val : Byte) : Coco3Machine δ :=
  { m with pia0 := (Mc6821.mc6821Write reg val m.pia0).st }.soundPia0Written reg

def writePia1 (reg val : Byte) : Coco3Machine δ :=
  { m with pia1 := (Mc6821.mc6821Write reg val m.pia1).st }.soundPia1Written reg

/-- `orch90_write` -/
def orch90Write (addr : Word) (val : Byte) : Coco3Machine δ :=
  let set (latches : Orch90) : Coco3Machine δ :=
    { m with orch90 := latches, sound := m.sound.setExternal latches.left latches.right }
  if addr = 0xFF7A then set { m.orch90 with left := val }
  else if addr = 0xFF7B then set { m.orch90 with right := val }
  else m

/-! ## Reads -/

/-- The cartridge I/O area. -/
def readScs (addr : Word) : Byte × Coco3Machine δ :=
  if devs.beckerEnabled = true ∧ addr = 0xFF41 then m.answer devs.beckerReadStatus
  else if devs.beckerEnabled = true ∧ addr = 0xFF42 then m.answer devs.beckerReadData
  else m.answer (devs.svDiskRead addr)

/-- What a decoded read finds. -/
def readSelected (addr : Word) : Byte × Coco3Machine δ :=
  if m.gime.ras = true then (m.load m.gime.z, m)
  else match m.gime.s with
    | .rom => (m.readRom addr, m)
    | .cts => (m.readCts addr, m)
    | .pia => if addr &&& 0x20 = 0 then m.readPia0 devs (regOf addr) else m.readPia1 (regOf addr)
    | .scs => m.readScs devs addr
    | .none => (0xFF, m)

/-- The full decode of a read. -/
def decodedRead (addr : Word) : Byte × Coco3Machine δ :=
  let (c, m) := m.cycle addr true 0
  if c.isReg = true then (c.data, m) else m.readSelected devs addr

/-- Is this a port of the Speech/Sound Cartridge? -/
def sscPort (addr : Word) : Bool := addr - 0xFF7D < 2

/-- Is this a port of the virtual hard disk? -/
def vhdPort (addr : Word) : Bool := decide (0xFF80 ≤ addr) && decide (addr ≤ 0xFF86)

/-- The chain of devices, ahead of the decode. -/
def genericRead (addr : Word) : Byte × Coco3Machine δ :=
  if devs.rs232PakEnabled = true ∧ addr &&& 0xFFFC = 0xFF68 then
    m.answer (devs.mc6551Read (regOf addr))
  else if devs.sscEnabled = true ∧ sscPort addr = true then m.answer (devs.sscRead addr)
  else if devs.vhdEnabled = true ∧ vhdPort addr = true then m.answer (devs.vhdRead addr)
  else m.decodedRead devs addr

/-- The direct paths of a read. -/
def directRead (addr : Word) : Option (Byte × Coco3Machine δ) :=
  if 0xFF90 ≤ addr then
    if addr = 0xFF92 ∨ addr = 0xFF93 then some (m.readStatus addr)
    else if 0xFFE0 ≤ addr then some (m.readRom addr, m)
    else none
  else if 0xFE00 ≤ addr ∧ addr < 0xFF00 ∧ m.gime.mc3 = true then
    some (m.load (physical 0x3F addr), m)
  else none

/-- The direct path of a read, if the bus has it. -/
def directRead? (paths : Paths) (addr : Word) : Option (Byte × Coco3Machine δ) :=
  match paths with
  | .direct => m.directRead addr
  | .generic => none

/-- `machine_read_coco3` -/
def machineReadCoco3 (paths : Paths) (addr : Word) : Byte × Coco3Machine δ :=
  let bank := m.gime.activeBanks (slotOf addr)
  if addr < 0xFE00 ∧ (m.gime.ty = true ∨ bank &&& 0x3F < 0x3C) then
    (m.load (physical bank addr), m)
  else (m.directRead? paths addr).getD (m.genericRead devs addr)

/-! ## Writes -/

def writeScs (addr : Word) (val : Byte) : Coco3Machine δ :=
  if devs.beckerEnabled = true ∧ (addr = 0xFF41 ∨ addr = 0xFF42) then
    if addr = 0xFF42 then { m with dev := devs.beckerWriteData val m.dev } else m
  else if m.cartBank.isSome = true then
    -- a bank-switched cartridge has its register here and no disk controller
    if addr = 0xFF40 then
      { m with cartBank := some ((val &&& m.cartBankMask).toNat * cartBankSize) }
    else m
  else { m with dev := devs.svDiskWrite addr val m.dev }

/-- Where a decoded write goes. -/
def writeSelected (addr : Word) (val : Byte) : Coco3Machine δ :=
  if m.gime.ras = true then m.storeRam m.gime.z val
  else match m.gime.s with
    | .pia => if addr &&& 0x20 = 0 then m.writePia0 (regOf addr) val
        else m.writePia1 (regOf addr) val
    | .scs => m.writeScs devs addr val
    | .rom | .cts | .none => m

/-- The full decode of a write. -/
def decodedWrite (addr : Word) (val : Byte) : Coco3Machine δ :=
  let (c, m) := m.cycle addr false val
  if c.isReg = true then m else m.writeSelected devs addr val

/-- The chain of devices, ahead of the decode; `run` runs a program of the hard disk. -/
def genericWrite (run : BusProg δ → Coco3Machine δ → Option (Coco3Machine δ)) (addr : Word)
    (val : Byte) : Option (Coco3Machine δ) :=
  if devs.rs232PakEnabled = true ∧ addr &&& 0xFFFC = 0xFF68 then
    some { m with dev := devs.mc6551Write (regOf addr) val m.dev }
  else if devs.orch90Enabled = true ∧ addr &&& 0xFFFE = 0xFF7A then some (m.orch90Write addr val)
  else if devs.sscEnabled = true ∧ sscPort addr = true then
    some { m with dev := devs.sscWrite addr val m.dev }
  else if devs.vhdEnabled = true ∧ vhdPort addr = true then run (devs.vhdWrite addr val) m
  else some (m.decodedWrite devs addr val)

/-- The direct paths of a write. -/
def directWrite (addr : Word) (val : Byte) : Option (Coco3Machine δ) :=
  if addr = 0xFF20 then some (m.writePia1 0 val)
  else if addr = 0xFF91 then some { m with gime := m.gime.writeRegister 1 val }
  else if addr < 0xFF00 ∧ m.gime.mc3 = true then some (m.storeRam (physical 0x3F addr) val)
  else none

def directWrite? (paths : Paths) (addr : Word) (val : Byte) : Option (Coco3Machine δ) :=
  match paths with
  | .direct => m.directWrite addr val
  | .generic => none

/-- `machine_write_coco3` but for the programs of the hard disk. -/
def writeWith (paths : Paths) (run : BusProg δ → Coco3Machine δ → Option (Coco3Machine δ))
    (addr : Word) (val : Byte) : Option (Coco3Machine δ) :=
  if addr < 0xFE00 then some (m.storeRam (physical (m.gime.activeBanks (slotOf addr)) addr) val)
  else match m.directWrite? paths addr val with
    | some m => some m
    | none => m.genericWrite devs run addr val

/-- Run a program, with `write` for its writes. -/
def runProg (paths : Paths) (write : Word → Byte → Coco3Machine δ → Option (Coco3Machine δ)) :
    BusProg δ → Coco3Machine δ → Option (Coco3Machine δ)
  | .done, m => some m
  | .look next, m => runProg paths write (next m.dev) m
  | .set dev next, m => runProg paths write next { m with dev }
  | .read addr next, m =>
    let r := m.machineReadCoco3 devs paths addr
    runProg paths write (next r.1) r.2
  | .write addr val next, m => (write addr val m).bind (runProg paths write next)

/-- `machine_write_coco3`.  A program of the hard disk may write to the disk's own ports; `none`
is a nesting deeper than `depth`. -/
def machineWriteCoco3 (paths : Paths) : Nat → Word → Byte → Coco3Machine δ →
    Option (Coco3Machine δ)
  | 0, addr, val, m => m.writeWith devs paths (fun _ _ => none) addr val
  | depth + 1, addr, val, m =>
    m.writeWith devs paths (runProg devs paths (machineWriteCoco3 paths depth)) addr val

/-! ## The CPU -/

/-- `mem_read` of the CPU. -/
def cpuRead (paths : Paths) (addr : Word) : Byte × Coco3Machine δ :=
  if addr < 0xFE00 then
    match m.gime.rdPage (slotOf addr) with
    | some base => (m.ramPhysical (Coco3.pageIndex base addr), m)
    | none => m.machineReadCoco3 devs paths addr
  else m.machineReadCoco3 devs paths addr

/-- Store through the CPU's page table. -/
def storePage (base : Unsigned) (addr : Word) (val : Byte) : Coco3Machine δ :=
  { m with ramPhysical := Function.update m.ramPhysical (Coco3.pageIndex base addr) val }

/-- `mem_write` of the CPU. -/
def cpuWrite (paths : Paths) (depth : Nat) (addr : Word) (val : Byte) :
    Option (Coco3Machine δ) :=
  if addr < 0xFE00 then
    match m.gime.wrPage (slotOf addr) with
    | some base => some (m.storePage base addr val)
    | none => m.machineWriteCoco3 devs paths depth addr val
  else m.machineWriteCoco3 devs paths depth addr val

end Coco3Machine

/-! ## Runs -/

/-- What is left of a picture line in the GIME. -/
structure Picture where
  row : Nat
  b : Unsigned
  xoff : Nat
  rowStride : Nat
  vertical : Vertical
  borderColour : Byte
  dirtyFrame : Bool

/-- What happens to the machine, one at a time. -/
inductive BusEvent (δ : Type)
  | read (addr : Word)
  | write (addr : Word) (val : Byte)
  | timer
  | interrupt (source : Source)
  | picture (p : Picture)
  | devices (f : δ → δ)

namespace Coco3Machine

variable {δ : Type} (devs : Devices δ) (paths : Paths) (depth : Nat)

def setPicture (m : Coco3Machine δ) (p : Picture) : Coco3Machine δ :=
  { m with gime := { m.gime with
      row := p.row, b := p.b, xoff := p.xoff, rowStride := p.rowStride, vertical := p.vertical
      borderColour := p.borderColour, dirtyFrame := p.dirtyFrame } }

/-- One event: the bytes it reads, and the machine after it. -/
def stepBus (m : Coco3Machine δ) : BusEvent δ → Option (List Byte × Coco3Machine δ)
  | .read addr =>
    let r := m.cpuRead devs paths addr
    some ([r.1], r.2)
  | .write addr val => (m.cpuWrite devs paths depth addr val).map fun m => ([], m)
  | .timer => some ([], { m with gime := m.gime.tickScanline })
  | .interrupt source => some ([], { m with gime := m.gime.setInterrupt source.flag })
  | .picture p => some ([], m.setPicture p)
  | .devices f => some ([], { m with dev := f m.dev })

/-- A run of events: all the bytes it reads. -/
def runBus : List (BusEvent δ) → Coco3Machine δ → Option (List Byte × Coco3Machine δ)
  | [], m => some ([], m)
  | event :: events, m =>
    (m.stepBus devs paths depth event).bind fun r =>
      (runBus events r.2).map fun r' => (r.1 ++ r'.1, r'.2)

end Coco3Machine

end CocoEmulator.Machine
