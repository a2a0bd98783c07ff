/-
  Cpu/Exec.lean --- the instructions both builds execute.

  The shared half of mc6809_core_impl.h: addressing, TFR/EXG register access,
  push and pull, branch conditions, and one definition per family of `case`s.
  `#if CPU_HD6309` is a match on the build.  What a `case` computes from values
  alone (flags, results) is a pure function, so that the two builds and the idle
  check can be compared on it.

  In the source a `case` may update the flags before or after it writes memory.
  A bus callback cannot see the flags, so the order is immaterial and is fixed
  here as: compute, write, set the flags.
-/
import CocoEmulator.Cpu.Insn

set_option autoImplicit false

namespace CocoEmulator.Cpu

open CocoEmulator.Base

variable {σ : Type} (bus : Bus σ)

/-! ## Addressing -/

def addrDirect : M σ Word := do
  let r ← regs
  let lo ← fetch8 bus
  pure (word r.dp lo)

def addrExtended : M σ Word := fetch16 bus

/-- `idx_reg`: the register in postbyte bits 6-5. -/
def idxReg (postbyte : Byte) : Reg16 :=
  match ((postbyte >>> 5) &&& 0x03).toNat with
  | 0 => .x
  | 1 => .y
  | 2 => .u
  | _ => .s

def Reg16.get : Reg16 → Regs → Word
  | .d, r => r.d
  | .x, r => r.x
  | .y, r => r.y
  | .u, r => r.u
  | .s, r => r.s

def Reg16.put : Reg16 → Word → Regs → Regs
  | .d, v, r => { r with d := v }
  | .x, v, r => { r with x := v }
  | .y, v, r => { r with y := v }
  | .u, v, r => { r with u := v }
  | .s, v, r => { r with s := v }

/-- Sign-extend a byte to an address offset. -/
def sext (v : Byte) : Word := v.signExtend 16

/-- The 5-bit signed offset of a postbyte without bit 7. -/
def offset5 (postbyte : Byte) : Word := (postbyte &&& 0x1F).setWidth 5 |>.signExtend 16

/-- `,W`, `n16,W`, `,W++` and `,--W`, by postbyte bits 6-5. -/
def indexedWBase (postbyte : Byte) : M σ Word :=
  match ((postbyte >>> 5) &&& 0x03).toNat with
  | 0 => do
      let r ← regs
      pure r.w
  | 1 => do
      let r ← regs
      let n ← fetch16 bus
      tick 2
      pure (r.w + n)
  | 2 => do
      let r ← regs
      setRegs fun r => { r with w := r.w + 2 }
      tick 1
      pure r.w
  | _ => do
      setRegs fun r => { r with w := r.w - 2 }
      let r ← regs
      tick 1
      pure r.w

/-- `addr_indexed` for the postbytes that select W on the 6309. -/
def indexedW (postbyte : Byte) : M σ Word := do
  let ea ← indexedWBase bus postbyte
  if postbyte &&& 0x10 != 0 then do
    let ea ← memRead16 bus ea
    tick 3
    pure ea
  else pure ea

/-- The W-based postbytes: `$8F`/`$90` with any register bits. -/
def isIndexedW (postbyte : Byte) : Bool :=
  postbyte &&& 0x9F == 0x8F || postbyte &&& 0x9F == 0x90

/-- `reg + offset`, at `direct` cycles, or `indirect` cycles when bit 4 is set. -/
def indexedPlus (reg : Reg16) (offset : Regs → Word) (ind : Bool) (direct indirect : Cycles) :
    M σ Word := do
  let r ← regs
  tick (if ind then indirect else direct)
  pure (reg.get r + offset r)

/-- The effective address by the postbyte's low nibble, before indirection. -/
def indexedMode (b : Build) (reg : Reg16) (mode : Nat) (ind : Bool) : M σ Word :=
  match mode with
  | 0x0 => do
      let r ← regs
      setRegs fun r => reg.put (reg.get r + 1) r
      tick 2
      pure (reg.get r)
  | 0x1 => do
      let r ← regs
      setRegs fun r => reg.put (reg.get r + 2) r
      tick (if ind then 6 else 3)
      pure (reg.get r)
  | 0x2 => do
      setRegs fun r => reg.put (reg.get r - 1) r
      let r ← regs
      tick 2
      pure (reg.get r)
  | 0x3 => do
      setRegs fun r => reg.put (reg.get r - 2) r
      let r ← regs
      tick (if ind then 6 else 3)
      pure (reg.get r)
  | 0x4 => indexedPlus reg (fun _ => 0) ind 0 3
  | 0x5 => indexedPlus reg (fun r => sext r.b) ind 1 4
  | 0x6 => indexedPlus reg (fun r => sext r.a) ind 1 4
  | 0x7 =>
      match b with
      | .hd6309 => indexedPlus reg (fun r => sext r.e) ind 1 4
      | .mc6809 => indexedPlus reg (fun _ => 0) ind 0 0
  | 0x8 => do
      let n ← fetch8 bus
      indexedPlus reg (fun _ => sext n) ind 1 4
  | 0x9 => do
      let n ← fetch16 bus
      indexedPlus reg (fun _ => n) ind 4 7
  | 0xA =>
      match b with
      | .hd6309 => indexedPlus reg (fun r => sext r.f) ind 1 4
      | .mc6809 => indexedPlus reg (fun _ => 0) ind 0 0
  | 0xB => indexedPlus reg (fun r => r.d) ind 4 7
  | 0xC => do
      let n ← fetch8 bus
      let r ← regs
      tick (if ind then 4 else 1)
      pure (r.pc + sext n)
  | 0xD => do
      let n ← fetch16 bus
      let r ← regs
      tick (if ind then 8 else 5)
      pure (r.pc + n)
  | 0xE =>
      match b with
      | .hd6309 => indexedPlus reg (fun r => r.w) ind 1 4
      | .mc6809 => indexedPlus reg (fun _ => 0) ind 0 0
  | _ =>
      -- Extended indirect; without the indirect bit an invalid mode, taken as ,R.
      if ind then do
        let n ← fetch16 bus
        tick 5
        pure n
      else indexedPlus reg (fun _ => 0) ind 0 0

/-- Is the address read through memory once more?  Not for the two single-step
modes; mode $F always is. -/
def indexedIndirect (mode : Nat) (ind : Bool) : Bool :=
  match mode with
  | 0x0 => false
  | 0x2 => false
  | 0xF => true
  | _ => ind

/-- `native_save` of `addr_indexed`; the 6809 build has no such table. -/
def indexedSave (b : Build) (mode : Nat) : M σ Unit := do
  let r ← regs
  Act.guarded (b == .hd6309 && r.native) (tick (-(nativeSaveIndexed.getD mode 0 : Nat)))

def addrIndexedAt (b : Build) (postbyte : Byte) : M σ Word :=
  if postbyte &&& 0x80 == 0 then do
    let r ← regs
    tick 1
    pure ((idxReg postbyte).get r + offset5 postbyte)
  else if b == .hd6309 && isIndexedW postbyte then indexedW bus postbyte
  else do
    let mode := (postbyte &&& 0x0F).toNat
    let ind := postbyte &&& 0x10 != 0
    indexedSave b mode
    let ea ← indexedMode bus b (idxReg postbyte) mode ind
    if indexedIndirect mode ind then memRead16 bus ea else pure ea

def addrIndexed (b : Build) : M σ Word := do
  let postbyte ← fetch8 bus
  addrIndexedAt bus b postbyte

/-- The operand's address; `h_ea`. -/
def effAddr (b : Build) : Mode → M σ Word
  | .direct => addrDirect bus
  | .indexed => addrIndexed bus b
  | .imm | .extended => addrExtended bus

/-- The 8-bit operand; `h_rd8`. -/
def operand8 (b : Build) (m : Mode) : M σ Byte :=
  if m = .imm then fetch8 bus
  else do
    let ea ← effAddr bus b m
    memRead bus ea

/-- The 16-bit operand; `h_rd16`. -/
def operand16 (b : Build) (m : Mode) : M σ Word :=
  if m = .imm then fetch16 bus
  else do
    let ea ← effAddr bus b m
    memRead16 bus ea

/-- Cycle counts by mode. -/
def Mode.pick (m : Mode) (imm direct indexed extended : Nat) : Nat :=
  match m with
  | .imm => imm
  | .direct => direct
  | .indexed => indexed
  | .extended => extended

/-! ## Values and flags -/

/-- The read-modify-write operations: the new value and the new flags. -/
def unary8 (op : Unary) (val cc : Byte) : Byte × Byte :=
  match op with
  | .neg => opSub8 0 val 0 cc
  | .com => (~~~val, ccSet flagC (ccClr flagV (updateNz8 (~~~val) cc)))
  | .lsr =>
      let r := val >>> 1
      (r, ccPut flagZ (r == 0) (ccClr flagN (ccPut flagC (val &&& 0x01 != 0) cc)))
  | .ror =>
      let r := (val >>> 1) ||| (if ccTst flagC cc then 0x80 else 0)
      (r, updateNz8 r (ccPut flagC (val &&& 0x01 != 0) cc))
  | .asr =>
      let r := (val >>> 1) ||| (val &&& 0x80)
      (r, updateNz8 r (ccPut flagC (val &&& 0x01 != 0) cc))
  | .asl =>
      let r := val <<< 1
      (r, updateNz8 r (ccPut flagV ((val ^^^ (val <<< 1)) &&& 0x80 != 0)
        (ccPut flagC (val &&& 0x80 != 0) cc)))
  | .rol =>
      let r := (val <<< 1) ||| carryIn cc
      (r, updateNz8 r (ccPut flagV ((val ^^^ (val <<< 1)) &&& 0x80 != 0)
        (ccPut flagC (val &&& 0x80 != 0) cc)))
  | .dec => (val - 1, updateNz8 (val - 1) (ccPut flagV (val == 0x80) cc))
  | .inc => (val + 1, updateNz8 (val + 1) (ccPut flagV (val == 0x7F) cc))
  | .tst => (val, logic8 val cc)
  | .clr => (0, ccSet flagZ (ccClr (flagN ||| flagV ||| flagC) cc))

/-- The accumulator operations: the value stored back, if any, and the flags. -/
def alu8 (op : Alu) (acc val cc : Byte) : Option Byte × Byte :=
  match op with
  | .sub => let p := opSub8 acc val 0 cc; (some p.1, p.2)
  | .cmp => (none, (opSub8 acc val 0 cc).2)
  | .sbc => let p := opSub8 acc val (carryIn cc) cc; (some p.1, p.2)
  | .and => (some (acc &&& val), logic8 (acc &&& val) cc)
  | .bit => (none, logic8 (acc &&& val) cc)
  | .ld => (some val, logic8 val cc)
  | .eor => (some (acc ^^^ val), logic8 (acc ^^^ val) cc)
  | .adc => let p := opAdd8 acc val (carryIn cc) cc; (some p.1, p.2)
  | .or => (some (acc ||| val), logic8 (acc ||| val) cc)
  | .add => let p := opAdd8 acc val 0 cc; (some p.1, p.2)

def Acc.get : Acc → Regs → Byte
  | .a, r => r.a
  | .b, r => r.b

def Acc.put : Acc → Byte → Regs → Regs
  | .a, v, r => r.setA v
  | .b, v, r => r.setB v

/-- Store the result of an accumulator operation and its flags. -/
def Acc.apply (acc : Acc) (p : Option Byte × Byte) (r : Regs) : Regs :=
  { (match p.1 with | some v => acc.put v r | none => r) with cc := p.2 }

def daa (r : Regs) : Regs :=
  let a := r.a
  let c1 : Byte := if (a &&& 0x0F) > 0x09 || ccTst flagH r.cc then 0x06 else 0
  let c2 : Byte :=
    if (a &&& 0xF0) > 0x90 || ccTst flagC r.cc || ((a &&& 0xF0) > 0x80 && (a &&& 0x0F) > 0x09)
    then 0x60 else 0
  let result : Word := a.setWidth 16 + (c1 ||| c2).setWidth 16
  let a' : Byte := result.setWidth 8
  let cc := logic8 a' r.cc
  { r.setA a' with cc := if result &&& 0x100 != 0 then ccSet flagC cc else cc }

/-- `eval_branch`. -/
def evalBranch (cond : Nat) (cc : Byte) : Bool :=
  let c := ccTst flagC cc
  let z := ccTst flagZ cc
  let n := ccTst flagN cc
  let v := ccTst flagV cc
  match cond with
  | 0x0 => true
  | 0x1 => false
  | 0x2 => !(c || z)
  | 0x3 => c || z
  | 0x4 => !c
  | 0x5 => c
  | 0x6 => !z
  | 0x7 => z
  | 0x8 => !v
  | 0x9 => v
  | 0xA => !n
  | 0xB => n
  | 0xC => !(n ^^ v)
  | 0xD => n ^^ v
  | 0xE => !(z || (n ^^ v))
  | 0xF => z || (n ^^ v)
  | _ => false

/-! ## TFR and EXG -/

/-- `tfr_read_reg` (MC6809). -/
def tfrReadReg (code : Nat) (r : Regs) : Word :=
  match code with
  | 0x0 => r.d
  | 0x1 => r.x
  | 0x2 => r.y
  | 0x3 => r.u
  | 0x4 => r.s
  | 0x5 => r.pc
  | 0x8 => r.a.setWidth 16
  | 0x9 => r.b.setWidth 16
  | 0xA => r.cc.setWidth 16
  | 0xB => r.dp.setWidth 16
  | _ => 0xFF

/-- `tfr_write_reg` (MC6809). -/
def tfrWriteReg (code : Nat) (val : Word) (r : Regs) : Regs :=
  match code with
  | 0x0 => { r with d := val }
  | 0x1 => { r with x := val }
  | 0x2 => { r with y := val }
  | 0x3 => { r with u := val }
  | 0x4 => { r with s := val }
  | 0x5 => { r with pc := val }
  | 0x8 => r.setA (loByte val)
  | 0x9 => r.setB (loByte val)
  | 0xA => { r with cc := loByte val }
  | 0xB => { r with dp := loByte val }
  | _ => r

/-- `h_tfr_read`: an 8-bit source is on both halves of the bus; `$C` and `$D` read
as zero. -/
def hTfrRead (code : Nat) (r : Regs) : Word :=
  match code with
  | 0x0 => r.d
  | 0x1 => r.x
  | 0x2 => r.y
  | 0x3 => r.u
  | 0x4 => r.s
  | 0x5 => r.pc
  | 0x6 => r.w
  | 0x7 => r.v
  | 0x8 => word r.a r.a
  | 0x9 => word r.b r.b
  | 0xA => word r.cc r.cc
  | 0xB => word r.dp r.dp
  | 0xE => word r.e r.e
  | 0xF => word r.f r.f
  | _ => 0

/-- `h_tfr_write`: A, DP and E take the high half, B, CC and F the low half; a
write of S arms NMI. -/
def hTfrWrite (code : Nat) (val : Word) (r : Regs) : Regs :=
  match code with
  | 0x0 => { r with d := val }
  | 0x1 => { r with x := val }
  | 0x2 => { r with y := val }
  | 0x3 => { r with u := val }
  | 0x4 => { r with s := val, nmiArmed := true }
  | 0x5 => { r with pc := val }
  | 0x6 => { r with w := val }
  | 0x7 => { r with v := val }
  | 0x8 => r.setA (hiByte val)
  | 0x9 => r.setB (loByte val)
  | 0xA => { r with cc := loByte val }
  | 0xB => { r with dp := hiByte val }
  | 0xE => r.setE (hiByte val)
  | 0xF => r.setF (loByte val)
  | _ => r

/-- EXG; the builds write the two registers in opposite orders. -/
def exchange (b : Build) (src dst : Nat) (r : Regs) : Regs :=
  match b with
  | .mc6809 => tfrWriteReg dst (tfrReadReg src r) (tfrWriteReg src (tfrReadReg dst r) r)
  | .hd6309 => hTfrWrite src (hTfrRead dst r) (hTfrWrite dst (hTfrRead src r) r)

/-- TFR. -/
def transfer (b : Build) (src dst : Nat) (r : Regs) : Regs :=
  match b with
  | .mc6809 => tfrWriteReg dst (tfrReadReg src r) r
  | .hd6309 => hTfrWrite dst (hTfrRead src r) r

/-! ## Push and pull -/

/-- The stack pointer PSH and PUL move like any other register: the other one. -/
def Stack.other : Stack → Stack
  | .s => .u
  | .u => .s

/-- Bytes named by a PSH/PUL postbyte. -/
def stackCount (postbyte : Byte) : Nat :=
  let one (m : Byte) : Nat := if postbyte &&& m != 0 then 1 else 0
  2 * (one 0x80 + one 0x40 + one 0x20 + one 0x10) + one 0x08 + one 0x04 + one 0x02 + one 0x01

/-- `do_pshs` and `do_pshu`. -/
def doPsh (st : Stack) (postbyte : Byte) : M σ Unit := do
  let r ← regs
  Act.guarded (postbyte &&& 0x80 != 0) (push16 bus st r.pc)
  Act.guarded (postbyte &&& 0x40 != 0) (push16 bus st (st.other.ptr r))
  Act.guarded (postbyte &&& 0x20 != 0) (push16 bus st r.y)
  Act.guarded (postbyte &&& 0x10 != 0) (push16 bus st r.x)
  Act.guarded (postbyte &&& 0x08 != 0) (push8 bus st r.dp)
  Act.guarded (postbyte &&& 0x04 != 0) (push8 bus st r.b)
  Act.guarded (postbyte &&& 0x02 != 0) (push8 bus st r.a)
  Act.guarded (postbyte &&& 0x01 != 0) (push8 bus st r.cc)

/-- Pull a byte into a register. -/
def pullInto8 (st : Stack) (put : Byte → Regs → Regs) : M σ Unit := do
  let v ← pull8 bus st
  setRegs (put v)

/-- Pull a word into a register. -/
def pullInto16 (st : Stack) (put : Word → Regs → Regs) : M σ Unit := do
  let v ← pull16 bus st
  setRegs (put v)

/-- `do_puls` and `do_pulu`. -/
def doPul (st : Stack) (postbyte : Byte) : M σ Unit := do
  Act.guarded (postbyte &&& 0x01 != 0) (pullInto8 bus st fun v r => { r with cc := v })
  Act.guarded (postbyte &&& 0x02 != 0) (pullInto8 bus st Regs.setA)
  Act.guarded (postbyte &&& 0x04 != 0) (pullInto8 bus st Regs.setB)
  Act.guarded (postbyte &&& 0x08 != 0) (pullInto8 bus st fun v r => { r with dp := v })
  Act.guarded (postbyte &&& 0x10 != 0) (pullInto16 bus st fun v r => { r with x := v })
  Act.guarded (postbyte &&& 0x20 != 0) (pullInto16 bus st fun v r => { r with y := v })
  Act.guarded (postbyte &&& 0x40 != 0) (pullInto16 bus st st.other.setPtr)
  Act.guarded (postbyte &&& 0x80 != 0) (pullInto16 bus st fun v r => { r with pc := v })

/-- `HD6309_PUSH_EF`. -/
def pushEf (b : Build) : M σ Unit := do
  let r ← regs
  Act.guarded (b == .hd6309 && r.native) do
    push8s bus r.f
    push8s bus r.e
    tick 2

/-- `HD6309_PULL_EF`. -/
def pullEf (b : Build) : M σ Unit := do
  let r ← regs
  Act.guarded (b == .hd6309 && r.native) do
    pullInto8 bus .s Regs.setE
    pullInto8 bus .s Regs.setF
    tick 2

/-- The entire state onto S, as SWI, CWAI, the interrupts and the trap stack it. -/
def pushEntire (b : Build) : M σ Unit := do
  let r ← regs
  push16s bus r.pc
  push16s bus r.u
  push16s bus r.y
  push16s bus r.x
  push8s bus r.dp
  pushEf bus b
  push8s bus r.b
  push8s bus r.a
  push8s bus r.cc

/-- Set condition codes. -/
def setCc (f : Byte) : M σ Unit := setRegs (Regs.mapCc (ccSet f))

/-- Set E, stack the entire state, set the masks `mask`, go through `vec`. -/
def softwareInterrupt (b : Build) (mask : Byte) (vec : Word) (cycles : Cycles) : M σ Unit := do
  setCc flagE
  pushEntire bus b
  setCc mask
  let pc ← memRead16 bus vec
  setRegs fun r => { r with pc := pc }
  tick cycles

/-! ## Instructions -/

/-- Read-modify-write on memory: CLR does not read, TST does not write. -/
def unaryMemAt (op : Unary) (ea : Word) : M σ Unit :=
  match op with
  | .clr => do
      memWrite bus ea 0
      setRegs (Regs.mapCc fun cc => (unary8 .clr 0 cc).2)
  | .tst => do
      let val ← memRead bus ea
      setRegs (Regs.mapCc (logic8 val))
  | op => do
      let val ← memRead bus ea
      let r ← regs
      memWrite bus ea (unary8 op val r.cc).1
      setRegs (Regs.mapCc fun cc => (unary8 op val cc).2)

def unaryMem (b : Build) (op : Unary) (m : Mode) : M σ Unit := do
  let ea ← effAddr bus b m
  unaryMemAt bus op ea
  tick (m.pick 0 6 6 7)

def unaryAcc (op : Unary) (acc : Acc) : M σ Unit := do
  setRegs fun r =>
    let p := unary8 op (acc.get r) r.cc
    { (if op = .tst then r else acc.put p.1 r) with cc := p.2 }
  tick 2

/-- Load the program counter. -/
def setPc (v : Word) : M σ Unit := setRegs fun r => { r with pc := v }

/-- Add to the program counter. -/
def addPc (v : Word) : M σ Unit := setRegs fun r => { r with pc := r.pc + v }

/-- Push the program counter. -/
def pushPc : M σ Unit := do
  let r ← regs
  push16s bus r.pc

/-- LEAX and LEAY set Z; LEAS arms NMI. -/
def leaPut (reg : Reg16) (ea : Word) (r : Regs) : Regs :=
  match reg with
  | .s => { r with s := ea, nmiArmed := true }
  | .u => { r with u := ea }
  | reg => (reg.put ea r).mapCc (ccPut flagZ (ea == 0))

def lea (b : Build) (reg : Reg16) : M σ Unit := do
  let ea ← addrIndexed bus b
  setRegs (leaPut reg ea)
  tick 4

/-- LDS also arms NMI. -/
def ld16 (b : Build) (reg : Reg16) (m : Mode) (cycles : Nat) : M σ Unit := do
  let v ← operand16 bus b m
  setRegs fun r => (reg.put v r).mapCc (logic16 v)
  tick cycles
  Act.guarded (reg == .s) (setRegs fun r => { r with nmiArmed := true })

def st16 (b : Build) (reg : Reg16) (m : Mode) (cycles : Nat) : M σ Unit := do
  let ea ← effAddr bus b m
  let r ← regs
  memWrite16 bus ea (reg.get r)
  setRegs (Regs.mapCc (logic16 (reg.get r)))
  tick cycles

def cmp16 (b : Build) (reg : Reg16) (m : Mode) (cycles : Nat) : M σ Unit := do
  let v ← operand16 bus b m
  setRegs fun r => { r with cc := (opSub16 (reg.get r) v r.cc).2 }
  tick cycles

/-- SUBD and ADDD. -/
def arithD (b : Build) (op : Word → Word → Byte → Word × Byte) (m : Mode) : M σ Unit := do
  let v ← operand16 bus b m
  setRegs fun r => let p := op r.d v r.cc; { r with d := p.1, cc := p.2 }
  tick (m.pick 4 6 6 7)

def accOp (b : Build) (op : Alu) (acc : Acc) (m : Mode) : M σ Unit := do
  let v ← operand8 bus b m
  setRegs fun r => acc.apply (alu8 op (acc.get r) v r.cc) r
  tick (m.pick 2 4 4 5)

def st8 (b : Build) (acc : Acc) (m : Mode) : M σ Unit := do
  let ea ← effAddr bus b m
  let r ← regs
  memWrite bus ea (acc.get r)
  setRegs (Regs.mapCc (logic8 (acc.get r)))
  tick (m.pick 0 4 4 5)

def rti (b : Build) : M σ Unit := do
  pullInto8 bus .s fun v r => { r with cc := v }
  let r ← regs
  if ccTst flagE r.cc then do
    pullInto8 bus .s Regs.setA
    pullInto8 bus .s Regs.setB
    pullEf bus b
    pullInto8 bus .s fun v r => { r with dp := v }
    pullInto16 bus .s fun v r => { r with x := v }
    pullInto16 bus .s fun v r => { r with y := v }
    pullInto16 bus .s fun v r => { r with u := v }
    pullInto16 bus .s fun v r => { r with pc := v }
    tick 15
  else do
    pullInto16 bus .s fun v r => { r with pc := v }
    tick 6

/-- The handler finds the state already stacked. -/
def cwai (b : Build) : M σ Unit := do
  let imm ← fetch8 bus
  setRegs (Regs.mapCc fun cc => ccSet flagE (cc &&& imm))
  pushEntire bus b
  setRegs fun r => { r with waitForInterrupt := true, cwaiState := true }
  tick 20

def mul : M σ Unit := do
  setRegs fun r =>
    let result : Word := r.a.setWidth 16 * r.b.setWidth 16
    { r with
      d := result
      cc := ccPut flagC (result &&& 0x80 != 0) (ccPut flagZ (result == 0) r.cc) }
  tick 11

/-- SEX sets N and Z from the 16-bit result. -/
def sex : M σ Unit := do
  setRegs fun r =>
    let r' := r.setA (if r.b &&& 0x80 != 0 then 0xFF else 0x00)
    r'.mapCc (logic16 r'.d)
  tick 2

/-- EXG and TFR: the register pair in a postbyte. -/
def regPair (f : Nat → Nat → Regs → Regs) (cycles : Cycles) : M σ Unit := do
  let postbyte ← fetch8 bus
  setRegs (f (postbyte >>> 4).toNat (postbyte &&& 0x0F).toNat)
  tick cycles

def exec (b : Build) : Insn → M σ Unit
  | .unaryMem op m => unaryMem bus b op m
  | .unaryAcc op acc => unaryAcc op acc
  | .jmp m => do
      let ea ← effAddr bus b m
      setPc ea
      tick (m.pick 0 3 3 4)
  | .jsr m => do
      let ea ← effAddr bus b m
      pushPc bus
      setPc ea
      tick (m.pick 0 7 7 8)
  | .bsr => do
      let n ← fetch8 bus
      pushPc bus
      addPc (sext n)
      tick 7
  | .lbra => do
      let n ← fetch16 bus
      addPc n
      tick 5
  | .lbsr => do
      let n ← fetch16 bus
      pushPc bus
      addPc n
      tick 9
  | .lea reg => lea bus b reg
  | .psh st => do
      let postbyte ← fetch8 bus
      doPsh bus st postbyte
      tick (5 + stackCount postbyte : Nat)
  | .pul st => do
      let postbyte ← fetch8 bus
      doPul bus st postbyte
      tick (5 + stackCount postbyte : Nat)
  | .nop => tick 2
  | .sync => do
      setRegs fun r => { r with waitForInterrupt := true }
      tick 4
  | .daa => do
      setRegs daa
      tick 2
  | .orcc => do
      let imm ← fetch8 bus
      setRegs (Regs.mapCc fun cc => cc ||| imm)
      tick 3
  | .andcc => do
      let imm ← fetch8 bus
      setRegs (Regs.mapCc fun cc => cc &&& imm)
      tick 3
  | .sex => sex
  | .exg => regPair bus (exchange b) 8
  | .tfr => regPair bus (transfer b) 6
  | .rts => do
      pullInto16 bus .s fun v r => { r with pc := v }
      tick 5
  | .abx => do
      setRegs fun r => { r with x := r.x + r.b.setWidth 16 }
      tick 3
  | .rti => rti bus b
  | .cwai => cwai bus b
  | .mul => mul
  | .swi => softwareInterrupt bus b (flagI ||| flagF) 0xFFFA 19
  | .swi2 => softwareInterrupt bus b 0 0xFFF4 20
  | .swi3 => softwareInterrupt bus b 0 0xFFF2 20
  | .alu8 op acc m => accOp bus b op acc m
  | .st8 acc m => st8 bus b acc m
  | .ld16 reg m cycles => ld16 bus b reg m cycles
  | .st16 reg m cycles => st16 bus b reg m cycles
  | .cmp16 reg m cycles => cmp16 bus b reg m cycles
  | .subd m => arithD bus b opSub16 m
  | .addd m => arithD bus b opAdd16 m

end CocoEmulator.Cpu
