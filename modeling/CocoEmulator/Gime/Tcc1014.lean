/-
  Gime/Tcc1014.lean --- the registers of the GIME (tcc1014.cpp).

  The chip decodes its registers on every write and keeps the results: the MMU's
  active banks and the CPU's page tables, the video geometry, the interrupt outputs.
  A pointer into RAM is the offset it points to.

  Not modelled: the pixels of a line (the renderers, the converted palette and the
  line buffers), which no register depends on.
-/
import Mathlib.Logic.Function.Basic
import CocoEmulator.Base.Words

set_option autoImplicit false

namespace CocoEmulator.Gime

/-- `uint32_t` and `unsigned`. -/
abbrev Unsigned : Type := BitVec 32

/-! ## Constants -/

/-- `TCC1014_INT_TMR`. -/
def intTmr : Byte := 0x20

/-- `TCC1014_INT_HBORD`. -/
def intHbord : Byte := 0x10

/-- `TCC1014_INT_VBORD`. -/
def intVbord : Byte := 0x08

/-- `TCC1014_INT_EI2`. -/
def intEi2 : Byte := 0x04

/-- `TCC1014_INT_EI1`. -/
def intEi1 : Byte := 0x02

/-- `TCC1014_INT_EI0`. -/
def intEi0 : Byte := 0x01

/-- An entry of a lookup table. -/
def entry (table : List Nat) {n : Nat} (i : BitVec n) : Nat := table.getD i.toNat 0

/-- `VRES_LPF_lTB`, by H50 and LPF. -/
def vresLpfLTB (h50 : Bool) (lpf : BitVec 2) : Unsigned :=
  BitVec.ofNat 32 (if h50 = true then entry [63, 59, 0xFFFF, 46] lpf
    else entry [36, 34, 0xFFFF, 19] lpf)

/-- `VRES_LPF_lAA`. -/
def vresLpfLAA (lpf : BitVec 2) : Unsigned := BitVec.ofNat 32 (entry [192, 199, 0xFFFF, 225] lpf)

/-- `VRES_HRES_BPR`. -/
def vresHresBpr : BitVec 3 → Nat := entry [16, 20, 32, 40, 64, 80, 128, 160]

/-- `VRES_HRES_BPR_TEXT`. -/
def vresHresBprText : BitVec 3 → Nat := entry [32, 40, 32, 40, 64, 80, 64, 80]

/-- `LPR_rowmask`. -/
def lprRowmask : BitVec 3 → Nat := entry [0, 1, 2, 8, 9, 10, 11, 16]

/-- `SAM_V_rowmask`. -/
def samVRowmask : BitVec 3 → Nat := entry [3, 3, 3, 2, 2, 1, 1, 1]

/-- `VSC_rowmask`. -/
def vscRowmask : BitVec 4 → Nat := entry [11, 10, 9, 8, 7, 6, 5, 4, 3, 2, 1, 4, 3, 2, 1, 12]

/-- `TIMER_OFFSET`. -/
def timerOffset : Nat := 1

/-- `TIMER_FAST_X2_PER_LINE`. -/
def timerFastX2PerLine : Int := 456

/-! ## State -/

/-- `S`, what an access selects. -/
inductive Select
  | rom
  | cts
  | pia
  | scs
  | none
deriving DecidableEq, Repr

/-- The VDG mode bits of PIA1 port B. -/
structure Vdg where
  gna : Bool := false
  gm1 : Bool := false
  gm0 : Bool := false
  css : Bool := false
deriving DecidableEq, Repr

/-- The vertical state machine. -/
structure Vertical where
  lTB : Unsigned := 0
  lAA : Unsigned := 0
  activeArea : Bool := false
  lcount : Unsigned := 0
deriving DecidableEq, Repr

/-- `TCC1014`; the defaults are those of `tcc1014_init`. -/
structure Tcc1014 where
  s : Select := .rom
  z : Unsigned := 0
  ras : Bool := false
  firq : Bool := false
  irq : Bool := false
  il0 : Bool := false
  il1 : Bool := false
  il2 : Bool := false
  registers : BitVec 4 → Byte := fun _ => 0
  coco : Bool := false
  mmuen : Bool := false
  mc3 : Bool := false
  mc2 : Bool := false
  mc1 : Bool := false
  mc0 : Bool := false
  tins : Bool := false
  tr : BitVec 4 := 0
  bp : Bool := false
  bpi : Bool := false
  moch : Bool := false
  h50 : Bool := false
  lpr : BitVec 3 := 0
  lpf : BitVec 2 := 0
  hres : BitVec 3 := 0
  cres : BitVec 2 := 0
  brdr : Byte := 0
  vsc : BitVec 4 := 0
  y : Unsigned := 0
  hven : Bool := false
  x : Byte := 0
  mmuBank : BitVec 4 → Byte := fun _ => 0
  activeBanks : BitVec 3 → Byte := fun _ => 0
  rdPage : BitVec 3 → Option Unsigned := fun _ => none
  wrPage : BitVec 3 → Option Unsigned := fun _ => none
  paletteReg : BitVec 4 → Byte := fun _ => 0
  samRegister : Word := 0
  samV : BitVec 3 := 0
  samF : BitVec 7 := 0
  r1 : Bool := false
  ty : Bool := false
  pia1bDdr : Bool := false
  pia1bPdr : Byte := 0
  vdg : Vdg := {}
  irqState : Byte := 0
  firqState : Byte := 0
  il0State : Byte := 0
  il1State : Byte := 0
  il2State : Byte := 0
  timerCounter : Nat := 0
  timerLeftX2 : Int := 0
  timerFires : Unsigned := 0
  blink : Bool := false
  b : Unsigned := 0x60400
  row : Nat := 0
  rowmask : Nat := 0
  xoff : Nat := 0
  bpr : Nat := 0
  rowStride : Nat := 0
  resolution : Nat := 0
  vertical : Vertical := {}
  borderColour : Byte := 0
  invertedText : Bool := false
  dirtyFrame : Bool := false
  ram : Bool := false
  ramSize : Unsigned := 0
  ramMask : Unsigned := 0
  vramMask : Unsigned := 0
  vramBase : Unsigned := 0
  bankMask : Byte := 0

/-- `x & (1 << i)` as a condition. -/
abbrev bit {n : Nat} (x : BitVec n) (i : Nat) : Bool := x.getLsbD i

namespace Tcc1014

variable (g : Tcc1014)

/-! ## Interrupts -/

/-- `arm_timer`. -/
def armTimer : Tcc1014 :=
  let timerReset := ((g.registers 4 &&& 0x0F).toNat <<< 8) ||| (g.registers 5).toNat
  let counter := if timerReset ≠ 0 then timerReset + timerOffset else 0
  { g with timerCounter := counter, timerLeftX2 := (counter : Int) * 2 }

/-- The IRQ output: IEN gates the pending bits. -/
def irqLine (init0 state : Byte) : Bool := bit init0 5 && state &&& 0x3F != 0

/-- The FIRQ output: FEN gates the pending bits. -/
def firqLine (init0 state : Byte) : Bool := bit init0 4 && state &&& 0x3F != 0

/-- `set_interrupt`. -/
def setInterrupt (flag : Byte) : Tcc1014 :=
  { g with
    irqState := g.irqState ||| (flag &&& g.registers 2)
    firqState := g.firqState ||| (flag &&& g.registers 3)
    irq := irqLine (g.registers 0) (g.irqState ||| (flag &&& g.registers 2))
    firq := firqLine (g.registers 0) (g.firqState ||| (flag &&& g.registers 3)) }

/-- `edge_detect_il`, one input: latch on a change from 0 to 1. -/
def edge (line : Bool) (state : Byte) (flag : Byte) : Tcc1014 :=
  if line = true ∧ state = 0 then g.setInterrupt flag else g

/-- `edge_detect_il`, IL2. -/
def sampleIl2 : Tcc1014 :=
  { g.edge g.il2 g.il2State intEi2 with il2State := if g.il2 = true then intEi2 else 0 }

/-- `edge_detect_il`, IL1. -/
def sampleIl1 : Tcc1014 :=
  { g.edge g.il1 g.il1State intEi1 with il1State := if g.il1 = true then intEi1 else 0 }

/-- `edge_detect_il`, IL0. -/
def sampleIl0 : Tcc1014 :=
  { g.edge g.il0 g.il0State intEi0 with il0State := if g.il0 = true then intEi0 else 0 }

/-- `edge_detect_il`. -/
def edgeDetectIl : Tcc1014 := g.sampleIl2.sampleIl1.sampleIl0

/-- `enable_latch`. -/
def enableLatch (state val changed : Byte) : Byte :=
  let setInt := (if g.timerCounter = 0 then intTmr else 0) ||| g.il2State ||| g.il1State |||
    g.il0State
  (state &&& val) ||| (setInt &&& changed &&& val)

/-- `timer_expired`. -/
def timerExpired : Tcc1014 :=
  { g with blink := !g.blink, timerFires := g.timerFires + 1 }.setInterrupt intTmr

/-- The loop of `tcc1014_tick_scanline` for the fast timer. -/
def expireFast (g : Tcc1014) : Tcc1014 :=
  if g.timerLeftX2 ≤ 0 then
    let armed := g.timerExpired.armTimer
    if armed.timerCounter = 0 then armed
    else expireFast { armed with timerLeftX2 := armed.timerLeftX2 + g.timerLeftX2 }
  else g
termination_by (1 - g.timerLeftX2).toNat
decreasing_by
  rename_i hleft hcounter
  have hpos : 0 < g.timerExpired.armTimer.timerCounter := Nat.pos_of_ne_zero hcounter
  have hdouble : g.timerExpired.armTimer.timerLeftX2 =
      (g.timerExpired.armTimer.timerCounter : Int) * 2 := rfl
  rw [hdouble]
  omega

/-- `tcc1014_tick_scanline`. -/
def tickScanline : Tcc1014 :=
  if g.timerCounter = 0 then g
  else if g.tins = false then
    let g := { g with timerCounter := g.timerCounter - 1 }
    if g.timerCounter = 0 then g.timerExpired.armTimer else g
  else expireFast { g with timerLeftX2 := g.timerLeftX2 - timerFastX2PerLine }

/-! ## Page tables -/

/-- The bank of a slot: the MMU's, or the top 64 KB. -/
def slotBank (slot : BitVec 3) : Byte :=
  if g.mmuen = true then g.mmuBank (g.tr ||| slot.setWidth 4) else 0x38 ||| slot.setWidth 8

/-- Where a bank starts in RAM. -/
def bankBase (bank : Byte) : Unsigned := (bank.setWidth 32 <<< 13) &&& g.ramMask

/-- `update_fast_pages`. -/
def updateFastPages : Tcc1014 :=
  let page (slot : BitVec 3) : Option Unsigned :=
    if g.ram = true then some (g.bankBase (g.activeBanks slot)) else none
  { g with
    wrPage := page
    rdPage := fun slot =>
      if g.ty = true ∨ g.activeBanks slot &&& 0x3F < 0x3C then page slot else none }

/-- `tcc1014_update_active_banks`. -/
def updateActiveBanks : Tcc1014 := { g with activeBanks := g.slotBank }.updateFastPages

/-- `tcc1014_set_ram`. -/
def setRam (size : Unsigned) : Tcc1014 :=
  { g with
    ram := true
    ramSize := size
    ramMask := size - 1
    vramMask := (if size < 0x80000 then size else 0x80000) - 1
    vramBase := 0
    bankMask := if 0x100000 < size then 0xFF else if 0x80000 < size then 0x7F else 0x3F
    }.updateActiveBanks

/-! ## Video -/

/-- The border colour in VDG mode. -/
def vdgBorder (vdg : Vdg) (pdr : Byte) : Byte :=
  if vdg.gna = false then
    if vdg.gm1 = false ∧ bit pdr 6 = true then if vdg.css = true then 0x26 else 0x12 else 0
  else if vdg.css = true then 0x3F else 0x12

/-- `VDG`, from the shadow of PIA1 port B. -/
def vdgMode : Vdg where
  gna := bit g.pia1bPdr 7
  gm1 := bit g.pia1bPdr 5
  gm0 := bit g.pia1bPdr 4
  css := bit g.pia1bPdr 3

/-- Bytes per row. -/
def rowBytes : Nat :=
  if g.coco = true then if bit g.pia1bPdr 7 = false ∨ bit g.samV 0 = false then 32 else 16
  else if g.bp = true then vresHresBpr g.hres else vresHresBprText g.hres

/-- Bytes from one row to the next; `bpr` is the row's own length. -/
def stride (bpr : Nat) : Nat :=
  if g.hven = true then 256
  else if g.coco = true ∨ g.bp = true then bpr
  else bpr <<< (g.cres &&& 1).toNat

/-- The lines of top border. -/
def topBorder : Unsigned :=
  if g.coco = true then if g.h50 = true then 63 else 36 else vresLpfLTB g.h50 g.lpf

/-- The lines of active area. -/
def activeLines : Unsigned := if g.coco = true then 192 else vresLpfLAA g.lpf

/-- `update_from_gime_registers`. -/
def updateFromGimeRegisters : Tcc1014 :=
  { g with
    vdg := g.vdgMode
    bpr := g.rowBytes
    resolution :=
      if g.coco = true then if bit g.pia1bPdr 7 = false ∨ bit g.samV 0 = false then 1 else 0
      else if g.bp = true then g.hres.toNat >>> 1
      else if bit g.hres 2 = true then 2 else 1
    rowmask :=
      if g.coco = true then
        if bit g.pia1bPdr 7 = true then samVRowmask g.samV else vscRowmask g.vsc
      else lprRowmask g.lpr
    vertical := { g.vertical with lTB := g.topBorder, lAA := g.activeLines }
    rowStride := g.stride g.rowBytes
    borderColour := if g.coco = true then vdgBorder g.vdgMode g.pia1bPdr else g.brdr }

/-- `update_from_sam_register`. -/
def updateFromSamRegister : Tcc1014 :=
  { g with
    ty := bit g.samRegister 15
    r1 := bit g.samRegister 12
    samF := (g.samRegister >>> 3).setWidth 7
    samV := g.samRegister.setWidth 3 }.updateFastPages.updateFromGimeRegisters

/-! ## Register access -/

/-- INIT0 ($FF90). -/
def writeInit0 (val : Byte) : Tcc1014 :=
  { g with
    coco := bit val 7
    mmuen := bit val 6
    mc3 := bit val 3
    mc2 := bit val 2
    mc1 := bit val 1
    mc0 := bit val 0
    irq := irqLine val g.irqState
    firq := firqLine val g.firqState }.updateActiveBanks.updateFromGimeRegisters

/-- A change of timer source restarts the timer. -/
def selectTimer (tins : Bool) : Tcc1014 :=
  if tins ≠ g.tins then { g with tins }.armTimer else g

/-- The page tables are rebuilt only when the task changes. -/
def selectTask (tr : BitVec 4) : Tcc1014 :=
  if tr ≠ g.tr then { g with tr }.updateActiveBanks else g

/-- INIT1 ($FF91). -/
def writeInit1 (val : Byte) : Tcc1014 :=
  (g.selectTimer (bit val 5)).selectTask (if bit val 0 = true then 8 else 0)

/-- VMODE ($FF98). -/
def writeVmode (val : Byte) : Tcc1014 :=
  { g with
    bp := bit val 7
    bpi := bit val 5
    moch := bit val 4
    h50 := bit val 3
    lpr := val.setWidth 3
    dirtyFrame := true }.updateFromGimeRegisters

/-- VRES ($FF99). -/
def writeVres (val : Byte) : Tcc1014 :=
  { g with
    lpf := (val >>> 5).setWidth 2
    hres := (val >>> 2).setWidth 3
    cres := val.setWidth 2
    dirtyFrame := true }.updateFromGimeRegisters

/-- The bank video is read from ($FF9B), with more than 512 KB. -/
def writeVbank (val : Byte) : Tcc1014 :=
  if g.bankMask ≠ 0x3F then
    { g with vramBase := ((val &&& 0x03).setWidth 32 <<< 19) &&& g.ramMask, dirtyFrame := true }
  else g

/-- The address of the first byte shown. -/
def startAddress (msb lsb : Byte) : Unsigned :=
  (msb.setWidth 32 <<< 11) ||| (lsb.setWidth 32 <<< 3)

/-- `tcc1014_write_register`. -/
def writeRegister (reg : BitVec 4) (val : Byte) : Tcc1014 :=
  let changed := g.registers reg ^^^ val
  let g := { g with registers := Function.update g.registers reg val }
  match reg.toNat with
  | 0 => g.writeInit0 val
  | 1 => g.writeInit1 val
  | 2 =>
    let state := g.enableLatch g.irqState val changed
    { g with irqState := state, irq := irqLine (g.registers 0) state }
  | 3 =>
    let state := g.enableLatch g.firqState val changed
    { g with firqState := state, firq := firqLine (g.registers 0) state }
  | 4 => g.armTimer
  | 8 => g.writeVmode val
  | 9 => g.writeVres val
  | 10 => { g with brdr := val &&& 0x3F, dirtyFrame := true }.updateFromGimeRegisters
  | 11 => g.writeVbank val
  | 12 => { g with vsc := val.setWidth 4 }.updateFromGimeRegisters
  | 13 => { g with y := startAddress val (g.registers 14) }
  | 14 => { g with y := startAddress (g.registers 13) val }
  | 15 => { g with hven := bit val 7, x := (val &&& 0x7F) <<< 1 }.updateFromGimeRegisters
  | _ => g  -- 5 is read when the timer is armed; 6 and 7 do not exist

/-- The acknowledging read of $FF92. -/
def ackIrq : Byte × Tcc1014 := (g.irqState, { g with irqState := 0, irq := false })

/-- The acknowledging read of $FF93. -/
def ackFirq : Byte × Tcc1014 := (g.firqState, { g with firqState := 0, firq := false })

/-- `tcc1014_read_register`. -/
def readRegister (reg : BitVec 4) : Byte × Tcc1014 :=
  if reg = 2 then g.edgeDetectIl.ackIrq
  else if reg = 3 then g.edgeDetectIl.ackFirq
  else (0xFF, g)

/-- `tcc1014_write_mmu`. -/
def writeMmu (offset : BitVec 4) (val : Byte) : Tcc1014 :=
  { g with mmuBank := Function.update g.mmuBank offset (val &&& g.bankMask) }.updateActiveBanks

/-- `tcc1014_write_palette`. -/
def writePalette (offset : BitVec 4) (val : Byte) : Tcc1014 :=
  { g with
    paletteReg := Function.update g.paletteReg offset (val &&& 0x3F)
    dirtyFrame := true }

/-- `tcc1014_set_sam_register`. -/
def setSamRegister (val : Word) : Tcc1014 := { g with samRegister := val }.updateFromSamRegister

/-- `tcc1014_write_sam`: even offsets clear a bit, odd ones set it. -/
def writeSam (offset : BitVec 5) : Tcc1014 :=
  let mask := (1 : Word) <<< (offset.toNat >>> 1)
  g.setSamRegister
    (if bit offset 0 = true then g.samRegister ||| mask else g.samRegister &&& ~~~mask)

/-- `tcc1014_snoop_pia1b`, and the snooping of `tcc1014_mem_cycle`. -/
def snoopPia1b (addr : Word) (val : Byte) : Tcc1014 :=
  if addr = 0xFF22 then
    if g.pia1bDdr = true then { g with pia1bPdr := val &&& 0xF8 }.updateFromGimeRegisters else g
  else if addr = 0xFF23 then { g with pia1bDdr := bit val 2 }
  else g

/-! ## Memory cycles -/

/-- The outcome of a cycle: the chip, the byte read, and whether it was one of its own
registers. -/
structure Cycle where
  gime : Tcc1014
  data : Byte := 0xFF
  isReg : Bool := false

/-- The 8 KB slot of an address. -/
def slotOf (addr : Word) : BitVec 3 := (addr >>> 13).setWidth 3

/-- MC3 keeps $FE00-$FEFF at the top of RAM. -/
def constantRam (addr : Word) : Bool := decide (0xFE00 ≤ addr) && g.mc3

/-- The bank of an address, past the MMU. -/
def decodeBank (addr : Word) : Byte :=
  if (g.mmuen && !g.constantRam addr) = true then g.mmuBank (g.tr ||| (slotOf addr).setWidth 4)
  else 0x38 ||| (slotOf addr).setWidth 8

/-- ROM or cartridge answers reads of a bank. -/
def romMapped (bank : Byte) : Bool := !g.ty && decide (0x3C ≤ bank &&& 0x3F)

/-- Which of them, by MC1 and MC0. -/
def romSelect (bank : Byte) : Select :=
  if g.mc1 = false then if 0x3E ≤ bank &&& 0x3F then .cts else .rom
  else if g.mc0 = true then .cts else .rom

/-- The decoded physical address. -/
def physical (bank : Byte) (addr : Word) : Unsigned :=
  (bank.setWidth 32 <<< 13) ||| (addr &&& 0x1FFF).setWidth 32

/-- The decode of $0000-$FEFF. -/
def decodeMemory (addr : Word) : Tcc1014 :=
  let bank := g.decodeBank addr
  { g with
    s := if g.romMapped bank = true then g.romSelect bank else .none
    ras := !g.romMapped bank || g.constantRam addr
    z := physical bank addr }

/-- A cycle at $FF90-$FF9F. -/
def registerCycle (addr : Word) (rnw : Bool) (writeData : Byte) : Cycle :=
  if rnw = false then { gime := g.writeRegister (addr.setWidth 4) writeData, isReg := true }
  else if addr = 0xFF92 then { gime := g.ackIrq.2, data := g.ackIrq.1, isReg := true }
  else if addr = 0xFF93 then { gime := g.ackFirq.2, data := g.ackFirq.1, isReg := true }
  else if addr = 0xFF9B ∧ g.bankMask ≠ 0x3F then
    { gime := g, data := 0xFC ||| (g.vramBase >>> 19).setWidth 8, isReg := true }
  else { gime := g, data := 0xFF, isReg := true }

/-- `tcc1014_mem_cycle`. -/
def memCycle (addr : Word) (rnw : Bool) (writeData : Byte) : Cycle :=
  let g := { g.edgeDetectIl with s := .none, ras := false }
  if addr < 0xFF00 then { gime := g.decodeMemory addr }
  else if addr < 0xFF40 then
    if addr &&& 0x10 = 0 then
      let g := { g with s := .pia }
      { gime := if rnw = false then g.snoopPia1b addr writeData else g }
    else { gime := g }
  else if addr < 0xFF60 then
    { gime := if g.mc2 = true ∨ 0xFF50 ≤ addr then { g with s := .scs } else g }
  else if addr < 0xFF90 then { gime := g }
  else if addr < 0xFFA0 then g.registerCycle addr rnw writeData
  else if addr < 0xFFB0 then
    if rnw = false then { gime := g.writeMmu (addr.setWidth 4) writeData, isReg := true }
    else { gime := g, data := g.mmuBank (addr.setWidth 4), isReg := true }
  else if addr < 0xFFC0 then
    if rnw = false then { gime := g.writePalette (addr.setWidth 4) writeData, isReg := true }
    else { gime := g, data := g.paletteReg (addr.setWidth 4) &&& 0x3F, isReg := true }
  else if addr < 0xFFE0 then
    { gime := if rnw = false then g.writeSam (addr.setWidth 5) else g, isReg := true }
  else { gime := { g with s := .rom } }

/-! ## Reset -/

/-- The first loop of `tcc1014_reset`. -/
def clearRegisters : Tcc1014 :=
  (List.range 16).foldl
    (fun g i =>
      let g := g.writeRegister (BitVec.ofNat 4 i) 0
      { g with paletteReg := Function.update g.paletteReg (BitVec.ofNat 4 i) 0 })
    g

/-- `tcc1014_reset`. -/
def reset : Tcc1014 :=
  let g := g.clearRegisters.setSamRegister 0
  let g := { g with mmuBank := fun i => 0x38 ||| (i &&& 7).setWidth 8 }.updateActiveBanks
  { g with
    row := 0
    vertical := { g.vertical with activeArea := false, lcount := 0 }
    pia1bPdr := 0
    pia1bDdr := false
    blink := false
    invertedText := false
    dirtyFrame := true
    timerCounter := 0
    timerLeftX2 := 0
    irqState := 0
    firqState := 0
    irq := false
    firq := false
    il0 := false
    il1 := false
    il2 := false
    il0State := 0
    il1State := 0
    il2State := 0 }.updateFromGimeRegisters

end Tcc1014

end CocoEmulator.Gime
