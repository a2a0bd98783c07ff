/-
  Sound/Tms7000.lean --- the TMS7040 of the Speech/Sound Cartridge (tms7000.cpp).

  The processor is a state of its own; the ports reach the rest of the cartridge, and the
  cartridge drives the interrupt lines back through the processor, so an instruction is a
  program over the pair (`Board`).  What the ports do is a parameter (`BusPorts`).

  `int` is Int and `long` is Int: a count of cycles, a timer and its prescaler stay far
  from 2^31.
-/
import CocoEmulator.Sound.Ssc
import CocoEmulator.Base.Potential

set_option autoImplicit false

namespace CocoEmulator.Sound

open CocoEmulator.Base

/-- `SR_C`, `SR_N`, `SR_Z` and `SR_I` -/
def srC : Byte := 0x80

def srN : Byte := 0x40

def srZ : Byte := 0x20

def srI : Byte := 0x10

/-- The external interrupt lines. -/
inductive Tms7000Irq
  | int1
  | int3
deriving DecidableEq, Repr

/-- `0x02 << (4 * extline)` -/
def Tms7000Irq.flag : Tms7000Irq → Byte
  | .int1 => 0x02
  | .int3 => 0x20

/-- `Tms7000` -/
structure Tms7000 where
  rf : BitVec 7 → Byte := fun _ => 0
  rom : BitVec 12 → Byte
  pc : Word := 0
  illegalCount : BitVec 32 := 0
  sp : Byte := 0
  sr : Byte := 0
  op : Byte := 0
  icount : Int := 0
  irqState : Tms7000Irq → Bool := fun _ => false
  idleState : Bool := false
  ioControl : Byte := 0
  timerData : Byte := 0
  timerControl : Byte := 0
  timerDecrementer : Int := 0
  timerPrescaler : Nat := 0
  timerCaptureLatch : Word := 0
  timerRunning : Bool := false
  timerTicksRemaining : Int := 0
  portLatch : BitVec 2 → Byte := fun _ => 0
  portDdr : BitVec 2 → Byte := fun _ => 0

namespace Tms7000

variable (cpu : Tms7000)

/-! ## Registers and stack -/

/-- A byte of the ROM at $F000-$FFFF. -/
def romByte (address : Word) : Byte := cpu.rom (address.setWidth 12)

/-- `ReadR8` -/
def readR8 (r : Byte) : Byte := if r < 0x80 then cpu.rf (r.setWidth 7) else 0

/-- `WriteR8` -/
def writeR8 (r v : Byte) : Tms7000 :=
  if r < 0x80 then { cpu with rf := Function.update cpu.rf (r.setWidth 7) v } else cpu

/-- `ReadR16` -/
def readR16 (r : Byte) : Word := cpu.readR8 (r - 1) ++ cpu.readR8 r

/-- `WriteR16` -/
def writeR16 (r : Byte) (v : Word) : Tms7000 :=
  (cpu.writeR8 (r - 1) (v.extractLsb' 8 8)).writeR8 r (v.setWidth 8)

/-- `Push8` -/
def push8 (data : Byte) : Tms7000 := { cpu with sp := cpu.sp + 1 }.writeR8 (cpu.sp + 1) data

/-- `Push16` -/
def push16 (data : Word) : Tms7000 := (cpu.push8 (data.extractLsb' 8 8)).push8 (data.setWidth 8)

/-- `Pull8` -/
def pull8 : Byte × Tms7000 := (cpu.readR8 cpu.sp, { cpu with sp := cpu.sp - 1 })

/-- `Pull16` -/
def pull16 : Word × Tms7000 :=
  let (lo, cpu) := cpu.pull8
  let (hi, cpu) := cpu.pull8
  (hi ++ lo, cpu)

/-! ## Interrupts -/

def spend (cycles : Int) : Tms7000 := { cpu with icount := cpu.icount - cycles }

/-- `FlagExtInterrupt` -/
def flagExtInterrupt (line : Tms7000Irq) : Tms7000 :=
  if cpu.irqState line = true then { cpu with ioControl := cpu.ioControl ||| line.flag }
  else { cpu with ioControl := cpu.ioControl &&& ~~~line.flag }

/-- The vector of an interrupt. -/
def vector (address : Word) : Word := cpu.romByte address ++ cpu.romByte (address + 1)

/-- The entry of an interrupt, once its cycles are counted. -/
def enterInterrupt (irqline : Nat) : Tms7000 :=
  let cpu := (cpu.push8 cpu.sr).push16 cpu.pc
  { cpu with sr := 0, pc := cpu.vector (0xfffc - BitVec.ofNat 16 (irqline * 2)) }

/-- An interrupt leaves IDLE. -/
def wake : Tms7000 := { cpu.spend 17 with pc := cpu.pc + 1, idleState := false }

/-- `DoInterrupt` -/
def doInterrupt (irqline : Nat) : Tms7000 :=
  (if cpu.idleState = true then cpu.wake else cpu.spend 19).enterInterrupt irqline

/-- Is an interrupt of IOCNT0 enabled and flagged? -/
def raised (irqline : Nat) : Bool := (cpu.ioControl.ushiftRight (irqline * 2)) &&& 3 == 3

/-- The flag of the timer's interrupt falls; an external one follows its line. -/
def takeFlag (irqline : Nat) : Tms7000 :=
  let cpu := { cpu with ioControl := cpu.ioControl &&& ~~~((0x02 : Byte) <<< (irqline * 2)) }
  if irqline = 0 then cpu.flagExtInterrupt .int1
  else if irqline = 2 then cpu.flagExtInterrupt .int3
  else cpu

/-- `CheckInterrupts` -/
def checkInterrupts : Tms7000 :=
  if cpu.sr &&& srI = 0 then cpu
  else if cpu.raised 0 = true then (cpu.takeFlag 0).doInterrupt 0
  else if cpu.raised 1 = true then (cpu.takeFlag 1).doInterrupt 1
  else if cpu.raised 2 = true then (cpu.takeFlag 2).doInterrupt 2
  else cpu

/-- `SetIrqLine` -/
def setIrqLine (line : Tms7000Irq) (asserted : Bool) : Tms7000 :=
  if cpu.irqState line ≠ asserted then
    let cpu := { cpu with irqState := Function.update cpu.irqState line asserted }
    let cpu := cpu.flagExtInterrupt line
    if asserted = true then
      let cpu := if line = .int3 then
          { cpu with timerCaptureLatch := BitVec.ofInt 16 cpu.timerDecrementer }
        else cpu
      cpu.checkInterrupts
    else cpu
  else cpu

/-! ## Timer -/

/-- The period of the timer's prescaler. -/
def timerPeriod : Int := 8 * (cpu.timerPrescaler + 1)

/-- `TimerRun` -/
def timerRun : Tms7000 :=
  let cpu := { cpu with timerPrescaler := (cpu.timerControl &&& 0x1f).toNat }
  if cpu.timerControl &&& 0xe0 = 0x80 then
    { cpu with timerTicksRemaining := cpu.timerPeriod, timerRunning := true }
  else { cpu with timerRunning := false }

/-- `TimerReload` -/
def timerReload : Tms7000 :=
  let cpu := { cpu with timerRunning := false }
  if cpu.timerControl &&& 0x80 ≠ 0 then
    { cpu with timerDecrementer := cpu.timerData.toNat }.timerRun
  else cpu

/-- `TimerTickLow` -/
def timerTickLow : Tms7000 :=
  let cpu := { cpu with timerDecrementer := cpu.timerDecrementer - 1 }
  if cpu.timerDecrementer < 0 then
    let cpu := cpu.timerReload
    { cpu with ioControl := cpu.ioControl ||| 0x08 }.checkInterrupts
  else cpu

/-- The loop of `TickTimers`; each round adds a period of at least 8. -/
def tickLoop : Nat → Tms7000 → Tms7000
  | 0, cpu => cpu
  | n + 1, cpu =>
    if cpu.timerTicksRemaining ≤ 0 ∧ cpu.timerRunning = true then
      let cpu := cpu.timerTickLow
      if cpu.timerRunning = true then
        tickLoop n { cpu with timerTicksRemaining := cpu.timerTicksRemaining + cpu.timerPeriod }
      else tickLoop n cpu
    else cpu

/-- `TickTimers` -/
def tickTimers (elapsed : Int) : Tms7000 :=
  if cpu.timerRunning = true then
    let cpu := { cpu with timerTicksRemaining := cpu.timerTicksRemaining - elapsed }
    tickLoop (1 - cpu.timerTicksRemaining).toNat cpu
  else cpu

/-! ## Flags -/

def getC : Bool := cpu.sr &&& srC != 0

def setC (x : Word) : Tms7000 :=
  { cpu with sr := (cpu.sr &&& 0x7f) ||| ((x >>> 1).setWidth 8 &&& 0x80) }

def setNz (x : Word) : Tms7000 :=
  { cpu with
    sr := (cpu.sr &&& 0x9f) ||| ((x >>> 1).setWidth 8 &&& 0x40) |||
      (if x.setWidth 8 ≠ (0 : Byte) then 0 else 0x20) }

def setCnz (x : Word) : Tms7000 :=
  { cpu with
    sr := (cpu.sr &&& 0x1f) ||| ((x >>> 1).setWidth 8 &&& 0xc0) |||
      (if x.setWidth 8 ≠ (0 : Byte) then 0 else 0x20) }

end Tms7000

/-! ## Ports -/

/-- The processor and the rest of the cartridge. -/
structure Board (π : Type) where
  cpu : Tms7000
  bus : π

/-- `ssc_bus.h`: what the ports do to the cartridge. -/
structure BusPorts (π : Type) where
  portaRead : Board π → Byte × Board π
  portbWrite : Byte → Board π → Board π
  portcRead : Board π → Byte × Board π
  portcWrite : Byte → Board π → Board π
  portdRead : Board π → Byte × Board π
  portdWrite : Byte → Board π → Board π

/-- A program of the processor. -/
abbrev Tms (π : Type) : Type → Type := StateM (Board π)

namespace Tms

variable {π : Type}

/-- Read the processor. -/
def cpu : Tms π Tms7000 := Board.cpu <$> get

/-- Change the processor. -/
def onCpu (f : Tms7000 → Tms7000) : Tms π Unit := modify fun b => { b with cpu := f b.cpu }

/-- Change the processor, and return a value. -/
def fromCpu {α : Type} (f : Tms7000 → α × Tms7000) : Tms π α :=
  modifyGet fun b =>
    let r := f b.cpu
    (r.1, { b with cpu := r.2 })

def spend (cycles : Int) : Tms π Unit := onCpu (Tms7000.spend · cycles)

def readR8 (r : Byte) : Tms π Byte := (Tms7000.readR8 · r) <$> cpu

def writeR8 (r v : Byte) : Tms π Unit := onCpu (Tms7000.writeR8 · r v)

def readR16 (r : Byte) : Tms π Word := (Tms7000.readR16 · r) <$> cpu

def writeR16 (r : Byte) (v : Word) : Tms π Unit := onCpu (Tms7000.writeR16 · r v)

def push8 (v : Byte) : Tms π Unit := onCpu (Tms7000.push8 · v)

def pull8 : Tms π Byte := fromCpu Tms7000.pull8

def pull16 : Tms π Word := fromCpu Tms7000.pull16

def setC (x : Word) : Tms π Unit := onCpu (Tms7000.setC · x)

def setNz (x : Word) : Tms π Unit := onCpu (Tms7000.setNz · x)

def setCnz (x : Word) : Tms π Unit := onCpu (Tms7000.setCnz · x)

/-- `GET_C()` -/
def getC : Tms π Word := (fun c => if Tms7000.getC c = true then 1 else 0) <$> cpu

def checkInterrupts : Tms π Unit := onCpu Tms7000.checkInterrupts

variable (ports : BusPorts π)

/-- `ReadP` -/
def readP (offset : Byte) : Tms π Byte :=
  match offset.toNat with
  | 0x00 => Tms7000.ioControl <$> cpu
  | 0x02 => (fun c => BitVec.ofInt 8 c.timerDecrementer) <$> cpu
  | 0x03 => (fun c => c.timerCaptureLatch.setWidth 8) <$> cpu
  | 0x04 => modifyGet ports.portaRead
  | 0x06 => (fun c => c.portLatch 1) <$> cpu
  | 0x08 => do
    let v ← modifyGet ports.portcRead
    let c ← cpu
    return (v &&& ~~~c.portDdr 2) ||| (c.portLatch 2 &&& c.portDdr 2)
  | 0x09 => (fun c => c.portDdr 2) <$> cpu
  | 0x0a => do
    let v ← modifyGet ports.portdRead
    let c ← cpu
    return (v &&& ~~~c.portDdr 3) ||| (c.portLatch 3 &&& c.portDdr 3)
  | 0x0b => (fun c => c.portDdr 3) <$> cpu
  | _ => pure 0

/-- Latch the output of a port. -/
def latch (port : BitVec 2) (data : Byte) : Tms π Unit :=
  onCpu fun c => { c with portLatch := Function.update c.portLatch port data }

/-- Set the directions of a port. -/
def setDdr (port : BitVec 2) (data : Byte) : Tms π Unit :=
  onCpu fun c => { c with portDdr := Function.update c.portDdr port data }

/-- A write of IOCNT0. -/
def writeIoControl (data : Byte) : Tms π Unit := do
  onCpu fun c => { c with ioControl := (c.ioControl &&& (~~~data &&& 0x2a)) ||| (data &&& 0xd5) }
  onCpu fun c => if data &&& 0x02 ≠ 0 then c.flagExtInterrupt .int1 else c
  onCpu fun c => if data &&& 0x20 ≠ 0 then c.flagExtInterrupt .int3 else c
  checkInterrupts

/-- `WriteP` -/
def writeP (offset data : Byte) : Tms π Unit :=
  match offset.toNat with
  | 0x00 => writeIoControl data
  | 0x02 => onCpu fun c => { c with timerData := data }
  | 0x03 => onCpu fun c => { c with timerControl := data }.timerReload
  | 0x06 => do
    modify (ports.portbWrite data)
    latch 1 data
  | 0x08 => do
    let c ← cpu
    modify (ports.portcWrite (data &&& c.portDdr 2))
    latch 2 data
  | 0x09 => setDdr 2 data
  | 0x0a => do
    let c ← cpu
    modify (ports.portdWrite (data &&& c.portDdr 3))
    latch 3 data
  | 0x0b => setDdr 3 data
  | _ => pure ()

/-- `Read8` -/
def read8 (address : Word) : Tms π Byte :=
  if address < 0x0080 then (fun c => c.rf (address.setWidth 7)) <$> cpu
  else if address < 0x0100 then pure 0
  else if address < 0x010c then readP ports ((address - 0x0100).setWidth 8)
  else if 0xf000 ≤ address then (Tms7000.romByte · address) <$> cpu
  else pure 0xff

/-- `Write8` -/
def write8 (address : Word) (data : Byte) : Tms π Unit :=
  if address < 0x0080 then
    onCpu fun c => { c with rf := Function.update c.rf (address.setWidth 7) data }
  else if address < 0x0100 then pure ()
  else if address < 0x010c then writeP ports ((address - 0x0100).setWidth 8) data
  else pure ()

/-- `Fetch8` -/
def fetch8 (address : Word) : Tms π Byte :=
  if 0xf000 ≤ address then (Tms7000.romByte · address) <$> cpu else read8 ports address

/-- `Imm8` -/
def imm8 : Tms π Byte := do
  let pc ← fromCpu fun c => (c.pc, { c with pc := c.pc + 1 })
  fetch8 ports pc

/-- `Imm16` -/
def imm16 : Tms π Word := do
  let hi ← imm8 ports
  let lo ← imm8 ports
  return hi ++ lo

/-! ## Operations -/

/-- An operation on two bytes: its result, if it writes one. -/
abbrev Op (π : Type) : Type := Byte → Byte → Tms π (Option Byte)

/-- Set C, N and Z by a result, and return it. -/
def flagged (t : Word) : Tms π (Option Byte) := do
  setCnz t
  return some (t.setWidth 8)

/-- The same with C inverted. -/
def borrowed (t : Word) : Tms π (Option Byte) := do
  setNz t
  setC (~~~t)
  return some (t.setWidth 8)

def wide (b : Byte) : Word := b.setWidth 16

def opClr : Op π := fun _ _ => flagged 0

def opDec : Op π := fun p1 _ => borrowed (wide p1 - 1)

def opInc : Op π := fun p1 _ => flagged (wide p1 + 1)

def opInv : Op π := fun p1 _ => flagged (wide (~~~p1))

def opRl : Op π := fun p1 _ => flagged ((wide p1 <<< 1) ||| (wide p1 >>> 7))

def opRlc : Op π := fun p1 _ => do
  let c ← getC
  flagged ((wide p1 <<< 1) ||| c)

def opRr : Op π := fun p1 _ =>
  flagged ((wide p1 >>> 1) ||| (wide p1 <<< 8) ||| ((wide p1 <<< 7) &&& 0x80))

def opRrc : Op π := fun p1 _ => do
  let c ← getC
  flagged ((wide p1 >>> 1) ||| (wide p1 <<< 8) ||| (c <<< 7))

def opSwap : Op π := fun p1 _ => do
  spend 3
  flagged ((wide p1 >>> 4) ||| (wide p1 <<< 4))

def opXchb : Op π := fun p1 _ => do
  spend 1
  let t ← readR8 1
  setCnz (wide t)
  writeR8 1 p1
  return some t

def opAdc : Op π := fun p1 p2 => do
  let c ← getC
  flagged (wide p1 + wide p2 + c)

def opAdd : Op π := fun p1 p2 => flagged (wide p1 + wide p2)

def opAnd : Op π := fun p1 p2 => flagged (wide (p1 &&& p2))

def opCmp : Op π := fun p1 p2 => do
  let t := wide p1 - wide p2
  setNz t
  setC (~~~t)
  return none

def opMpy : Op π := fun p1 p2 => do
  spend 39
  let t := wide p1 * wide p2
  setCnz (t >>> 8)
  writeR16 1 t
  return none

def opMov : Op π := fun _ p2 => flagged (wide p2)

def opOr : Op π := fun p1 p2 => flagged (wide (p1 ||| p2))

def opSbb : Op π := fun p1 p2 => do
  let c ← getC
  borrowed (wide p1 - wide p2 - (1 - c))

def opSub : Op π := fun p1 p2 => borrowed (wide p1 - wide p2)

def opXor : Op π := fun p1 p2 => flagged (wide (p1 ^^^ p2))

/-- `lut_bcd_out` -/
def lutBcdOut (d : Nat) : Byte := [0x00, 0x06, 0x00, 0x66, 0x60, 0x66].getD d 0

/-- `p >> 4 & 0xf` -/
def hiDigit (p : Byte) : Nat := (p.toNat / 16) % 16

/-- `p & 0xf` -/
def loDigit (p : Byte) : Nat := p.toNat % 16

/-- The index of `OpDac` in the table. -/
def dacIndex (p1 p2 : Byte) (c : Bool) : Nat :=
  let d := if loDigit p1 + loDigit p2 + c.toNat < 10 then 0 else 1
  if hiDigit p1 + hiDigit p2 = 9 then d ||| 2
  else if 9 < hiDigit p1 + hiDigit p2 then d ||| 4
  else d

/-- The result of `OpDac`. -/
def dacResult (p1 p2 : Byte) (c : Bool) : Byte :=
  p1 + p2 + BitVec.ofNat 8 c.toNat + lutBcdOut (dacIndex p1 p2 c)

def opDac : Op π := fun p1 p2 => do
  spend 2
  let c ← Tms7000.getC <$> cpu
  let t := dacResult p1 p2 c
  setCnz (wide t)
  onCpu fun cpu => if 2 < dacIndex p1 p2 c then { cpu with sr := cpu.sr ||| srC } else cpu
  return some t

/-- The index of `OpDsb`; `c` is the borrow. -/
def dsbIndex (p1 p2 : Byte) (c : Bool) : Nat :=
  let d := if (loDigit p1 : Int) - c.toNat ≥ loDigit p2 then 0 else 1
  if hiDigit p1 = hiDigit p2 then d ||| 2
  else if hiDigit p1 < hiDigit p2 then d ||| 4
  else d

/-- The result of `OpDsb`. -/
def dsbResult (p1 p2 : Byte) (c : Bool) : Byte :=
  p1 - p2 - BitVec.ofNat 8 c.toNat - lutBcdOut (dsbIndex p1 p2 c)

def opDsb : Op π := fun p1 p2 => do
  spend 2
  let c ← (fun cpu => !Tms7000.getC cpu) <$> cpu
  let t := dsbResult p1 p2 c
  setCnz (wide t)
  onCpu fun cpu => if dsbIndex p1 p2 c ≤ 2 then { cpu with sr := cpu.sr ||| srC } else cpu
  return some t

/-- `ShortBranch` -/
def shortBranch (check : Bool) : Tms π Unit := do
  spend 2
  let d ← imm8 ports
  if check = true then
    onCpu fun c => { c with pc := c.pc + d.signExtend 16 }
    spend 2

def opDjnz : Op π := fun p1 _ => do
  let t := wide p1 - 1
  shortBranch ports (t != 0)
  return some (t.setWidth 8)

def opBtjo : Op π := fun p1 p2 => do
  let t := p1 &&& p2
  setCnz (wide t)
  shortBranch ports (t != 0)
  return none

def opBtjz : Op π := fun p1 p2 => do
  let t := ~~~p1 &&& p2
  setCnz (wide t)
  shortBranch ports (t != 0)
  return none

end Tms

end CocoEmulator.Sound
