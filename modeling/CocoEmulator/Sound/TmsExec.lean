/-
  Sound/TmsExec.lean --- the instructions of the TMS7040 (tms7000.cpp).

  An addressing mode fetches the operands, hands them to the operation and writes its
  result back.  The opcode's upper half selects the mode and its lower half the
  operation; the rows from $80 on mix them with the other instructions.
-/
import CocoEmulator.Sound.Tms7000

set_option autoImplicit false

namespace CocoEmulator.Sound

open CocoEmulator.Base

namespace Tms

variable {π : Type} (ports : BusPorts π)

/-! ## Addressing modes -/

/-- `AM_WB`: write the result back, if there is one. -/
def writeBack (write : Byte → Tms π Unit) : Option Byte → Tms π Unit
  | some v => write v
  | none => pure ()

def amA (op : Op π) : Tms π Unit := do
  spend 5
  let p1 ← readR8 0
  writeBack (writeR8 0) (← op p1 0)

def amB (op : Op π) : Tms π Unit := do
  spend 5
  let p1 ← readR8 1
  writeBack (writeR8 1) (← op p1 0)

def amR (op : Op π) : Tms π Unit := do
  spend 7
  let r ← imm8 ports
  let p1 ← readR8 r
  writeBack (writeR8 r) (← op p1 0)

/-- A register and a register, both given by the opcode. -/
def amFixed (cycles : Int) (dst src : Byte) (op : Op π) : Tms π Unit := do
  spend cycles
  let p1 ← readR8 dst
  let p2 ← readR8 src
  writeBack (writeR8 dst) (← op p1 p2)

def amA2a (op : Op π) : Tms π Unit := amFixed 6 0 0 op

def amA2b (op : Op π) : Tms π Unit := amFixed 6 1 0 op

def amB2a (op : Op π) : Tms π Unit := amFixed 5 0 1 op

def amB2b (op : Op π) : Tms π Unit := amFixed 6 1 1 op

/-- A register named by the operand, and A or B. -/
def amToR (cycles : Int) (src : Byte) (op : Op π) : Tms π Unit := do
  spend cycles
  let r ← imm8 ports
  let p1 ← readR8 r
  let p2 ← readR8 src
  writeBack (writeR8 r) (← op p1 p2)

def amA2r (op : Op π) : Tms π Unit := amToR ports 8 0 op

def amB2r (op : Op π) : Tms π Unit := amToR ports 7 1 op

/-- A port named by the operand, and A or B. -/
def amToP (cycles : Int) (src : Byte) (op : Op π) : Tms π Unit := do
  spend cycles
  let r ← imm8 ports
  let p1 ← readP ports r
  let p2 ← readR8 src
  writeBack (writeP ports r) (← op p1 p2)

def amA2p (op : Op π) : Tms π Unit := amToP ports 10 0 op

def amB2p (op : Op π) : Tms π Unit := amToP ports 9 1 op

/-- A or B, and a register named by the operand. -/
def amFromR (cycles : Int) (dst : Byte) (op : Op π) : Tms π Unit := do
  spend cycles
  let p1 ← readR8 dst
  let p2 ← readR8 (← imm8 ports)
  writeBack (writeR8 dst) (← op p1 p2)

def amR2a (op : Op π) : Tms π Unit := amFromR ports 8 0 op

def amR2b (op : Op π) : Tms π Unit := amFromR ports 8 1 op

def amR2r (op : Op π) : Tms π Unit := do
  spend 10
  let p2 ← readR8 (← imm8 ports)
  let r ← imm8 ports
  let p1 ← readR8 r
  writeBack (writeR8 r) (← op p1 p2)

/-- A or B, and an immediate. -/
def amFromI (cycles : Int) (dst : Byte) (op : Op π) : Tms π Unit := do
  spend cycles
  let p1 ← readR8 dst
  let p2 ← imm8 ports
  writeBack (writeR8 dst) (← op p1 p2)

def amI2a (op : Op π) : Tms π Unit := amFromI ports 7 0 op

def amI2b (op : Op π) : Tms π Unit := amFromI ports 7 1 op

def amI2r (op : Op π) : Tms π Unit := do
  spend 9
  let p2 ← imm8 ports
  let r ← imm8 ports
  let p1 ← readR8 r
  writeBack (writeR8 r) (← op p1 p2)

def amI2p (op : Op π) : Tms π Unit := do
  spend 11
  let p2 ← imm8 ports
  let r ← imm8 ports
  let p1 ← readP ports r
  writeBack (writeP ports r) (← op p1 p2)

/-- A or B, and a port. -/
def amFromP (cycles : Int) (dst : Byte) (op : Op π) : Tms π Unit := do
  spend cycles
  let p1 ← readR8 dst
  let p2 ← readP ports (← imm8 ports)
  writeBack (writeR8 dst) (← op p1 p2)

def amP2a (op : Op π) : Tms π Unit := amFromP ports 9 0 op

def amP2b (op : Op π) : Tms π Unit := amFromP ports 8 1 op

/-! ## Addresses -/

/-- An address: direct, indexed by B, or in a pair of registers. -/
inductive Mode
  | dir
  | inx
  | ind
deriving DecidableEq, Repr

/-- The address an instruction names. -/
def address : Mode → Tms π Word
  | .dir => imm16 ports
  | .inx => do
    let t ← imm16 ports
    let b ← readR8 1
    return t + wide b
  | .ind => do readR16 (← imm8 ports)

/-- The cycles of an addressing mode on top of the indirect one. -/
def Mode.extra : Mode → Int
  | .dir => 1
  | .inx => 3
  | .ind => 0

/-! ## Other instructions -/

/-- `Jmp` -/
def jmp (check : Bool) : Tms π Unit := do
  spend 3
  shortBranch ports check

/-- `DecdA`, `DecdB` and `DecdR` -/
def decd (r : Byte) : Tms π Unit := do
  let t ← readR16 r
  let t := t.setWidth 32 - 1
  writeR16 r (t.setWidth 16)
  setNz ((t >>> 8).setWidth 16)
  setC (~~~(t >>> 8).setWidth 16)

def decdA : Tms π Unit := do
  spend 9
  decd 0

def decdB : Tms π Unit := do
  spend 9
  decd 1

def decdR : Tms π Unit := do
  spend 11
  decd (← imm8 ports)

/-- `CmpaDir`, `CmpaInx` and `CmpaInd` -/
def cmpa (mode : Mode) : Tms π Unit := do
  spend (11 + mode.extra)
  let a ← readR8 0
  let v ← fetch8 ports (← address ports mode)
  let t := wide a - wide v
  setNz t
  setC (~~~t)

/-- `LdaDir`, `LdaInx` and `LdaInd` -/
def lda (mode : Mode) : Tms π Unit := do
  spend (10 + mode.extra)
  let t ← fetch8 ports (← address ports mode)
  writeR8 0 t
  setCnz (wide t)

/-- `StaDir`, `StaInx` and `StaInd` -/
def sta (mode : Mode) : Tms π Unit := do
  spend (10 + mode.extra)
  let t ← readR8 0
  write8 ports (← address ports mode) t
  setCnz (wide t)

/-- `MovdDir`, `MovdInx` and `MovdInd` -/
def movd (mode : Mode) : Tms π Unit := do
  spend (14 + mode.extra)
  let t ← address ports mode
  writeR16 (← imm8 ports) t
  setCnz (t >>> 8)

def setPc (t : Word) : Tms π Unit := onCpu fun c => { c with pc := t }

/-- `BrDir`, `BrInx` and `BrInd` -/
def br (mode : Mode) : Tms π Unit := do
  spend (9 + mode.extra)
  setPc (← address ports mode)

def pushPc : Tms π Unit := onCpu fun c => c.push16 c.pc

/-- `CallDir`, `CallInx` and `CallInd` -/
def call (mode : Mode) : Tms π Unit := do
  spend (13 + mode.extra)
  let t ← address ports mode
  pushPc
  setPc t

/-- `Trap` -/
def trap (vector : Byte) : Tms π Unit := do
  spend 14
  pushPc
  onCpu fun c => { c with pc := c.vector (0xff00 ||| wide vector) }

def setSr (f : Byte → Byte) : Tms π Unit := onCpu fun c => { c with sr := f c.sr }

def reti : Tms π Unit := do
  spend 9
  setPc (← pull16)
  let sr ← pull8
  setSr fun _ => sr &&& 0xf0
  checkInterrupts

def rets : Tms π Unit := do
  spend 7
  setPc (← pull16)

/-- `PopA` and `PopB` -/
def pop (r : Byte) : Tms π Unit := do
  spend 6
  let t ← pull8
  writeR8 r t
  setCnz (wide t)

def popR : Tms π Unit := do
  spend 8
  let t ← pull8
  writeR8 (← imm8 ports) t
  setCnz (wide t)

def popSt : Tms π Unit := do
  spend 6
  let sr ← pull8
  setSr fun _ => sr &&& 0xf0
  checkInterrupts

/-- `PushA` and `PushB` -/
def push (r : Byte) : Tms π Unit := do
  spend 6
  let t ← readR8 r
  push8 t
  setCnz (wide t)

def pushR : Tms π Unit := do
  spend 8
  let t ← readR8 (← imm8 ports)
  push8 t
  setCnz (wide t)

def pushSt : Tms π Unit := do
  spend 6
  onCpu fun c => c.push8 c.sr

def nop : Tms π Unit := spend 5

def idle : Tms π Unit := do
  spend 6
  onCpu fun c => { c with pc := c.pc - 1, idleState := true }

def dint : Tms π Unit := do
  spend 5
  setSr fun sr => sr &&& ~~~(srN ||| srZ ||| srC ||| srI)

def eint : Tms π Unit := do
  spend 5
  setSr fun sr => sr ||| (srN ||| srZ ||| srC ||| srI)
  checkInterrupts

def ldsp : Tms π Unit := do
  spend 5
  let b ← readR8 1
  onCpu fun c => { c with sp := b }

def stsp : Tms π Unit := do
  spend 6
  onCpu fun c => c.writeR8 1 c.sp

def setc : Tms π Unit := do
  spend 5
  setSr fun sr => (sr &&& ~~~srN) ||| srC ||| srZ

def illegal : Tms π Unit := do
  spend 5
  onCpu fun c => { c with illegalCount := c.illegalCount + 1 }

/-! ## Dispatch -/

/-- The row $00. -/
def control (lo : Nat) : Tms π Unit :=
  match lo with
  | 0x0 => nop
  | 0x1 => idle
  | 0x5 => eint
  | 0x6 => dint
  | 0x7 => setc
  | 0x8 => popSt
  | 0x9 => stsp
  | 0xa => rets
  | 0xb => reti
  | 0xd => ldsp
  | 0xe => pushSt
  | _ => illegal

/-- The operations on a port. -/
def onPort (am : Op π → Tms π Unit) (lo : Nat) : Tms π Unit :=
  match lo with
  | 0x2 => am opMov
  | 0x3 => am opAnd
  | 0x4 => am opOr
  | 0x5 => am opXor
  | 0x6 => am (opBtjo ports)
  | 0x7 => am (opBtjz ports)
  | _ => illegal

/-- The operations on two bytes. -/
def dual (am : Op π → Tms π Unit) (lo : Nat) : Tms π Unit :=
  match lo with
  | 0x8 => am opAdd
  | 0x9 => am opAdc
  | 0xa => am opSub
  | 0xb => am opSbb
  | 0xc => am opMpy
  | 0xd => am opCmp
  | 0xe => am opDac
  | 0xf => am opDsb
  | _ => onPort ports am lo

/-- The instructions with an address. -/
def extended (mode : Mode) (lo : Nat) : Tms π Unit :=
  match lo with
  | 0x8 => movd ports mode
  | 0xa => lda ports mode
  | 0xb => sta ports mode
  | 0xc => br ports mode
  | 0xd => cmpa ports mode
  | 0xe => call ports mode
  | _ => illegal

/-- The rows $80, $90 and $a0. -/
def peripheral (am : Op π → Tms π Unit) (mode : Mode) (lo : Nat) : Tms π Unit :=
  if lo < 0x8 then onPort ports am lo else extended ports mode lo

/-- The operations on one register, from $2 to $7 and from $a on. -/
def single (am : Op π → Tms π Unit) (push pop decd : Tms π Unit) (lo : Nat) : Tms π Unit :=
  match lo with
  | 0x2 => am opDec
  | 0x3 => am opInc
  | 0x4 => am opInv
  | 0x5 => am opClr
  | 0x6 => am opXchb
  | 0x7 => am opSwap
  | 0x8 => push
  | 0x9 => pop
  | 0xa => am (opDjnz ports)
  | 0xb => decd
  | 0xc => am opRr
  | 0xd => am opRrc
  | 0xe => am opRl
  | 0xf => am opRlc
  | _ => illegal

/-- The condition of a jump. -/
def condition (lo : Nat) (sr : Byte) : Bool :=
  match lo with
  | 0x0 => true
  | 0x1 => sr &&& srN != 0
  | 0x2 => sr &&& srZ != 0
  | 0x3 => sr &&& srC != 0
  | 0x4 => sr &&& (srZ ||| srN) == 0
  | 0x5 => sr &&& srN == 0
  | 0x6 => sr &&& srZ == 0
  | _ => sr &&& srC == 0

/-- A jump of the row $e0. -/
def conditional (lo : Nat) : Tms π Unit := do
  let sr ← Tms7000.sr <$> cpu
  jmp ports (condition lo sr)

/-- `ExecuteOne` -/
def executeOne (op : Byte) : Tms π Unit :=
  let lo := op.toNat % 16
  match op.toNat / 16 with
  | 0x0 => control lo
  | 0x1 => dual ports (amR2a ports) lo
  | 0x2 => dual ports (amI2a ports) lo
  | 0x3 => dual ports (amR2b ports) lo
  | 0x4 => dual ports (amR2r ports) lo
  | 0x5 => dual ports (amI2b ports) lo
  | 0x6 => dual ports amB2a lo
  | 0x7 => dual ports (amI2r ports) lo
  | 0x8 => if lo = 0 then amP2a ports opMov else peripheral ports (amA2p ports) .dir lo
  | 0x9 => if lo = 1 then amP2b ports opMov else peripheral ports (amB2p ports) .ind lo
  | 0xa => peripheral ports (amI2p ports) .inx lo
  | 0xb =>
    if lo = 0 then amA2a opMov else if lo = 1 then amB2a opMov
    else single ports amA (push 0) (pop 0) decdA lo
  | 0xc =>
    if lo = 0 then amA2b opMov else if lo = 1 then amB2b opMov
    else single ports amB (push 1) (pop 1) decdB lo
  | 0xd =>
    if lo = 0 then amA2r ports opMov else if lo = 1 then amB2r ports opMov
    else single ports (amR ports) (pushR ports) (popR ports) (decdR ports) lo
  | 0xe => if lo < 8 then conditional ports lo else trap (op <<< 1)
  | _ => trap (op <<< 1)

/-- One round of the loop of `Execute`. -/
def executeStep : Tms π Unit := do
  let before ← Tms7000.icount <$> cpu
  let op ← imm8 ports
  onCpu fun c => { c with op }
  executeOne ports op
  onCpu fun c => c.tickTimers (before - c.icount)

end Tms

namespace Board

variable {π : Type} (ports : BusPorts π)

/-- What is left of the cycles asked for. -/
def left (b : Board π) : Int := b.cpu.icount

/-- A round of the loop of `Execute`. -/
def round (b : Board π) : Board π := (Tms.executeStep ports b).2

/-- `Execute`: the cycles it ran. -/
def execute (cycles : Int) (b : Board π) : Int × Board π :=
  let b := { b with cpu := { b.cpu with icount := cycles }.checkInterrupts }
  let b := runDown (round ports) left cycles.toNat b
  (cycles - b.cpu.icount, b)

/-- `Reset` -/
def reset : Tms π Unit := do
  Tms.onCpu fun c => if c.idleState = true then { c with pc := c.pc + 1, idleState := false } else c
  Tms.writeP ports 0x04 0xff
  Tms.writeP ports 0x06 0xff
  Tms.setDdr 0 0x00
  Tms.setDdr 2 0x00
  Tms.setDdr 3 0x00
  Tms.writeP ports 0x08 0xff
  Tms.writeP ports 0x0a 0xff
  Tms.setSr fun _ => 0
  Tms.writeP ports 0x00 0x00
  Tms.onCpu fun c => { c with sp := 0xff, op := 0xff }
  Tms.executeOne ports 0xff
  Tms.spend 3
  Tms.onCpu fun c => { c with
    irqState := fun _ => false, timerRunning := false, timerTicksRemaining := 0 }

end Board

end CocoEmulator.Sound
