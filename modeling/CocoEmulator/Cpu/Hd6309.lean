/-
  Cpu/Hd6309.lean --- the instructions of the 6309 build.

  hd6309_ops.h, in its order: the 16-bit arithmetic and inherent operations, the
  trap, the register-to-register and bit operations, TFM, the divisions and the
  multiplication, and the three `hd6309_exec_page` switches.  Every instruction
  adds its emulation-mode count; the native-mode saving is subtracted by the
  caller.

  `alu16` covers the arithmetic of D, W and the register-to-register group, which
  the source spells out at each place with the same helpers.
-/
import CocoEmulator.Cpu.Exec

set_option autoImplicit false

namespace CocoEmulator.Cpu

open CocoEmulator.Base

/-! ## Values and flags -/

/-- `h_unary16`; NEG, ASR and ASL exist for D only. -/
def unary16 (op : Unary) (val : Word) (cc : Byte) : Word × Byte :=
  match op with
  | .neg => opSub16 0 val cc
  | .com => (~~~val, ccSet flagC (ccClr flagV (updateNz16 (~~~val) cc)))
  | .lsr =>
      let r := val >>> 1
      (r, ccPut flagZ (r == 0) (ccClr flagN (ccPut flagC (val &&& 0x0001 != 0) cc)))
  | .ror =>
      let r := (val >>> 1) ||| (if ccTst flagC cc then 0x8000 else 0)
      (r, updateNz16 r (ccPut flagC (val &&& 0x0001 != 0) cc))
  | .asr =>
      let r := (val >>> 1) ||| (val &&& 0x8000)
      (r, updateNz16 r (ccPut flagC (val &&& 0x0001 != 0) cc))
  | .asl =>
      let r := val <<< 1
      (r, updateNz16 r (ccPut flagV ((val ^^^ (val <<< 1)) &&& 0x8000 != 0)
        (ccPut flagC (val &&& 0x8000 != 0) cc)))
  | .rol =>
      let r := (val <<< 1) ||| (if ccTst flagC cc then 1 else 0)
      (r, updateNz16 r (ccPut flagV ((val ^^^ (val <<< 1)) &&& 0x8000 != 0)
        (ccPut flagC (val &&& 0x8000 != 0) cc)))
  | .dec => (val - 1, updateNz16 (val - 1) (ccPut flagV (val == 0x8000) cc))
  | .inc => (val + 1, updateNz16 (val + 1) (ccPut flagV (val == 0x7FFF) cc))
  | .tst => (val, logic16 val cc)
  | .clr => (0, ccSet flagZ (ccClr (flagN ||| flagV ||| flagC) cc))

/-- The 16-bit operations: the value stored back, if any, and the flags. -/
def alu16 (op : Alu) (acc val : Word) (cc : Byte) : Option Word × Byte :=
  match op with
  | .sub => let p := opSub16 acc val cc; (some p.1, p.2)
  | .cmp => (none, (opSub16 acc val cc).2)
  | .sbc => let p := hSub16c acc val (carryIn cc) cc; (some p.1, p.2)
  | .and => (some (acc &&& val), logic16 (acc &&& val) cc)
  | .bit => (none, logic16 (acc &&& val) cc)
  | .ld => (some val, logic16 val cc)
  | .eor => (some (acc ^^^ val), logic16 (acc ^^^ val) cc)
  | .adc => let p := hAdd16c acc val (carryIn cc) cc; (some p.1, p.2)
  | .or => (some (acc ||| val), logic16 (acc ||| val) cc)
  | .add => let p := opAdd16 acc val cc; (some p.1, p.2)

/-- Flags of LDQ and STQ: N from D, Z from all 32 bits, V clear. -/
def quadFlags (d w : Word) (cc : Byte) : Byte :=
  putFlags (flagN ||| flagZ ||| flagV)
    (flagIf flagN (d &&& 0x8000 != 0) ||| flagIf flagZ (d == 0 && w == 0)) cc

/-! ## Register to register -/

/-- The operation in an opcode's low three bits. -/
def regRegAlu (op : Nat) : Alu :=
  match op with
  | 0 => .add
  | 1 => .adc
  | 2 => .sub
  | 3 => .sbc
  | 4 => .and
  | 5 => .or
  | 6 => .eor
  | _ => .cmp

/-- Store to a 16-bit register code; unlike `hTfrWrite` this does not arm NMI. -/
def hPut16 (code : Nat) (val : Word) (r : Regs) : Regs :=
  match code with
  | 0x0 => { r with d := val }
  | 0x1 => { r with x := val }
  | 0x2 => { r with y := val }
  | 0x3 => { r with u := val }
  | 0x4 => { r with s := val }
  | 0x5 => { r with pc := val }
  | 0x6 => { r with w := val }
  | 0x7 => { r with v := val }
  | _ => r

def hGet8 (code : Nat) (r : Regs) : Byte :=
  match code with
  | 0x8 => r.a
  | 0x9 => r.b
  | 0xA => r.cc
  | 0xB => r.dp
  | 0xE => r.e
  | 0xF => r.f
  | _ => 0

def hPut8 (code : Nat) (val : Byte) (r : Regs) : Regs :=
  match code with
  | 0x8 => r.setA val
  | 0x9 => r.setB val
  | 0xA => { r with cc := val }
  | 0xB => { r with dp := val }
  | 0xE => r.setE val
  | 0xF => r.setF val
  | _ => r

/-- The source of a 16-bit operation. -/
def regRegSrc16 (src : Nat) (r : Regs) : Word :=
  match src with
  | 0x8 => r.d
  | 0x9 => r.d
  | 0xE => r.w
  | 0xF => r.w
  | 0xA => r.cc.setWidth 16
  | 0xB => r.dp.setWidth 16 <<< 8
  | src => hTfrRead src r

/-- The source of an 8-bit operation: a 16-bit register gives its low byte. -/
def regRegSrc8 (src : Nat) (r : Regs) : Byte :=
  match src with
  | 0x8 | 0x9 | 0xA | 0xB | 0xE | 0xF => hGet8 src r
  | src => loByte (hTfrRead src r)

/-- `h_reg_reg`: the width of the destination selects the operation.  The flags
are set before the destination is stored, which shows when it is CC. -/
def hRegReg (op : Nat) (postbyte : Byte) (r : Regs) : Regs :=
  let src := (postbyte >>> 4).toNat
  let dst := (postbyte &&& 0x0F).toNat
  if dst &&& 0x08 = 0 then
    let p := alu16 (regRegAlu op) (hTfrRead dst r) (regRegSrc16 src r) r.cc
    let r' := { r with cc := p.2 }
    match p.1 with
    | some v => hPut16 dst v r'
    | none => r'
  else
    let a := hGet8 dst r
    let p := alu8 (regRegAlu op) a (regRegSrc8 src r) r.cc
    -- CMPR stores the old value back, over the flags when the destination is CC
    hPut8 dst (p.1.getD a) { r with cc := p.2 }

/-! ## Bit operations -/

/-- The result bit of BAND BIAND BOR BIOR BEOR BIEOR LDBT STBT. -/
def hBitOut (op : Nat) (mem reg : Byte) (srcBit dstBit : Nat) : Byte :=
  let out :=
    match op with
    | 0 => (mem >>> srcBit) &&& (reg >>> dstBit)
    | 1 => ((~~~mem) >>> srcBit) &&& (reg >>> dstBit)
    | 2 => (mem >>> srcBit) ||| (reg >>> dstBit)
    | 3 => ((~~~mem) >>> srcBit) ||| (reg >>> dstBit)
    | 4 => (mem >>> srcBit) ^^^ (reg >>> dstBit)
    | 5 => ((~~~mem) >>> srcBit) ^^^ (reg >>> dstBit)
    | 6 => mem >>> srcBit
    | _ => reg >>> srcBit
  out &&& 1

/-- Replace bit `n` of a byte. -/
def putBit (n : Nat) (bit v : Byte) : Byte := (v &&& ~~~((1 : Byte) <<< n)) ||| (bit <<< n)

/-! ## Division -/

/-- What a division does once the divisor is known to be nonzero: the registers and
the cycles relative to the base count. -/
def divdResult (divisor : Byte) (r : Regs) : Regs × Int :=
  let nsign := r.d &&& 0x8000 != 0
  let dividend := if nsign then 0 - r.d else r.d
  let vsign := divisor &&& 0x80 != 0
  let divisor := if vsign then 0 - divisor else divisor
  let base : Int := nsign.toNat + vsign.toNat
  let quotient : Word := dividend / divisor.setWidth 16
  let remainder : Byte := (dividend % divisor.setWidth 16).setWidth 8
  let cc := ccClr (flagN ||| flagZ ||| flagV ||| flagC) r.cc
  if quotient >>> 8 != 0 then
    -- Range overflow: D keeps the negated dividend
    ({ r with d := dividend, cc := ccSet (flagV ||| flagIf flagN nsign) cc }, base - 13)
  else
    let remainder := if nsign then 0 - remainder else remainder
    let negated := 0 - quotient
    let quotient :=
      if nsign != vsign && (negated &&& 0x80 != 0 && quotient &&& 0x80 == 0)
      then negated else quotient
    let b : Byte := loByte quotient
    let cc := if b &&& 1 != 0 then ccSet flagC cc else cc
    let r := ({ r with d := dividend }.setA remainder).setB b
    if (quotient >>> 15 ^^^ (b >>> 7).setWidth 16) &&& 1 == 0 then
      ({ r with cc := updateNz8 b cc }, base)
    else ({ r with cc := ccSet (flagN ||| flagV) cc }, base - 1)

def divqResult (divisor : Word) (r : Regs) : Regs × Int :=
  let dividend0 : BitVec 32 := r.d.setWidth 32 <<< 16 ||| r.w.setWidth 32
  let nsign := dividend0 &&& 0x80000000 != 0
  let dividend := if nsign then 0 - dividend0 else dividend0
  let r := { r with d := (dividend >>> 16).setWidth 16, w := dividend.setWidth 16 }
  let vsign := divisor &&& 0x8000 != 0
  let divisor := if vsign then 0 - divisor else divisor
  let base : Int := nsign.toNat + vsign.toNat
  let quotient : BitVec 32 := dividend / divisor.setWidth 32
  let remainder : Word := (dividend % divisor.setWidth 32).setWidth 16
  let cc := ccClr (flagN ||| flagZ ||| flagV ||| flagC) r.cc
  if quotient >>> 16 != 0 then
    ({ r with cc := ccSet (flagV ||| flagIf flagN nsign) cc }, base - 21)
  else
    let remainder := if nsign then 0 - remainder else remainder
    let negated := 0 - quotient
    let quotient :=
      if nsign != vsign && (negated &&& 0x8000 != 0 && quotient &&& 0x8000 == 0)
      then negated else quotient
    let w : Word := quotient.setWidth 16
    let cc := if w &&& 1 != 0 then ccSet flagC cc else cc
    let r := { r with d := remainder, w := w }
    if (quotient >>> 31 ^^^ (w >>> 15).setWidth 32) &&& 1 == 0 then
      ({ r with cc := updateNz16 w cc }, base)
    else ({ r with cc := ccSet (flagN ||| flagV) cc }, base)

/-- `h_muld`: N and Z come from D alone. -/
def muldResult (b : Word) (r : Regs) : Regs :=
  let result : BitVec 32 := r.d.signExtend 32 * b.signExtend 32
  let d : Word := (result >>> 16).setWidth 16
  { r with d := d, w := result.setWidth 16, cc := updateNz16 d r.cc }

/-! ## Programs -/

section
variable {σ : Type} (bus : Bus σ)

def setTfm (f : Tfm → Tfm) : M σ Unit := Act.modify fun c => { c with tfm := f c.tfm }

def getTfm : M σ Tfm := Act.gets (·.tfm)

/-- `hd6309_trap`; `$80` is divide by zero, `$40` an illegal instruction. -/
def hd6309Trap (mdBit : Byte) : M σ Unit := do
  setRegs fun r => { r with md := r.md ||| mdBit }
  setTfm fun t => { t with busy := false }
  softwareInterrupt bus .hd6309 (flagI ||| flagF) 0xFFF0 17

/-- The registers a TFM may name: D, X, Y, U, S. -/
def tfmReg (code : Nat) : Option Reg16 :=
  match code with
  | 0 => some .d
  | 1 => some .x
  | 2 => some .y
  | 3 => some .u
  | 4 => some .s
  | _ => none

/-- The pointer steps after a byte of a TFM, source first. -/
def tfmStep (op : Nat) (src dst : Reg16) (r : Regs) : Regs :=
  match op with
  | 0 => let r := src.put (src.get r + 1) r; dst.put (dst.get r + 1) r
  | 1 => let r := src.put (src.get r - 1) r; dst.put (dst.get r - 1) r
  | 2 => src.put (src.get r + 1) r
  | _ => dst.put (dst.get r + 1) r

/-- The first pass pays the setup and clears Z; a resumed pass re-read the repeated
prefix bytes, which cost only once. -/
def tfmEnter (start : Word) : M σ Unit := do
  let t ← getTfm
  let r ← regs
  if t.busy && t.pc == start then
    tick (3 - (r.pc - start).setWidth 32)
  else do
    setRegs (Regs.mapCc (ccClr flagZ))
    tick 6
    setTfm fun _ => ⟨true, start⟩

/-- The end of a transfer. -/
def tfmDone : M σ Unit := do
  setCc flagZ
  setTfm fun t => { t with busy := false }

/-- One byte, and back to the instruction while W is not zero. -/
def tfmByte (op : Nat) (start : Word) (src dst : Reg16) : M σ Unit := do
  let r ← regs
  let v ← memRead bus (src.get r)
  memWrite bus (dst.get r) v
  setRegs fun r =>
    let r := tfmStep op src dst r
    { r with w := r.w - 1 }
  tick 3
  let r ← regs
  if r.w = 0 then tfmDone else setPc start

/-- `h_tfm`. -/
def hTfm (op : Nat) (start : Word) : M σ Unit := do
  let postbyte ← fetch8 bus
  tfmEnter start
  match tfmReg (postbyte >>> 4).toNat, tfmReg (postbyte &&& 0x0F).toNat with
  | some src, some dst => do
      let r ← regs
      if r.w = 0 then tfmDone else tfmByte bus op start src dst
  | _, _ => hd6309Trap bus 0x40

/-- `h_bit_op`. -/
def hBitOp (op : Nat) : M σ Unit := do
  let postbyte ← fetch8 bus
  let ea ← addrDirect bus
  let mem ← memRead bus ea
  let r ← regs
  let dstBit := (postbyte &&& 7).toNat
  let srcBit := ((postbyte >>> 3) &&& 7).toNat
  let regCode := (postbyte >>> 6).toNat
  let reg : Byte :=
    match regCode with
    | 0 => r.cc
    | 1 => r.a
    | 2 => r.b
    | _ => 0
  let out := hBitOut op mem reg srcBit dstBit
  if op = 7 then do
    memWrite bus ea (putBit dstBit out mem)
    tick 8
  else do
    setRegs fun r =>
      match regCode with
      | 1 => r.setA (putBit dstBit out reg)
      | 2 => r.setB (putBit dstBit out reg)
      | _ => r.mapCc (putBit dstBit out)
    tick 7

/-- OIM, AIM, EIM, TIM; TIM only tests. -/
def memImm (op : MemImm) (m : Mode) : M σ Unit := do
  let imm ← fetch8 bus
  let ea ← effAddr bus .hd6309 m
  tick (m.pick 0 6 7 7)
  let mem ← memRead bus ea
  let val :=
    match op with
    | .oim => mem ||| imm
    | .eim => mem ^^^ imm
    | .aim | .tim => mem &&& imm
  setRegs (Regs.mapCc (logic8 val))
  Act.guarded (op != .tim) (memWrite bus ea val)

/-- Apply a result and its flags to D or W. -/
def apply16 (put : Word → Regs → Regs) (p : Option Word × Byte) (r : Regs) : Regs :=
  { (match p.1 with | some v => put v r | none => r) with cc := p.2 }

/-- Apply a result and its flags to E or F. -/
def apply8 (put : Byte → Regs → Regs) (p : Option Byte × Byte) (r : Regs) : Regs :=
  { (match p.1 with | some v => put v r | none => r) with cc := p.2 }

/-- The divisions: a zero divisor traps, at `zero` cycles below the base count. -/
def divide {n : Nat} (operand : M σ (BitVec n)) (result : BitVec n → Regs → Regs × Int)
    (base : Int) (zero : Int) : M σ Unit := do
  let divisor ← operand
  if divisor = 0 then do
    setRegs (Regs.mapCc fun cc => ccSet flagZ (ccClr (flagN ||| flagV) cc))
    tick (BitVec.ofInt 32 (base - zero))
    hd6309Trap bus 0x80
  else do
    let r ← regs
    setRegs fun r => (result divisor r).1
    tick (BitVec.ofInt 32 (base + (result divisor r).2))

/-- The cases of the three `hd6309_exec_page` functions; `insnPc` is the address
of the first prefix byte. -/
def hd6309Exec (insnPc : Word) : HdInsn → M σ Unit
  | .memImm op m => memImm bus op m
  | .sexw => do
      setRegs fun r =>
        let d : Word := if r.w &&& 0x8000 != 0 then 0xFFFF else 0x0000
        { r with
          d := d
          cc := putFlags (flagN ||| flagZ)
            (flagIf flagN (d &&& 0x8000 != 0) ||| flagIf flagZ (d == 0 && r.w == 0)) r.cc }
      tick 4
  | .ldqImm => do
      let d ← fetch16 bus
      let w ← fetch16 bus
      setRegs fun r => { r with d := d, w := w, cc := updateNz16 d r.cc }
      tick 5
  | .regReg op => do
      let postbyte ← fetch8 bus
      setRegs (hRegReg op postbyte)
      tick 4
  | .pshw st => do
      let r ← regs
      push8 bus st r.f
      push8 bus st r.e
      tick 6
  | .pulw st => do
      pullInto8 bus st Regs.setE
      pullInto8 bus st Regs.setF
      tick 6
  | .unaryD op => do
      setRegs fun r => let p := unary16 op r.d r.cc; { r with d := p.1, cc := p.2 }
      tick 3
  | .unaryW op => do
      setRegs fun r => let p := unary16 op r.w r.cc; { r with w := p.1, cc := p.2 }
      tick 3
  | .aluW op m => do
      let v ← operand16 bus .hd6309 m
      setRegs fun r => apply16 (fun w r => { r with w := w }) (alu16 op r.w v r.cc) r
      tick (m.pick 5 7 7 8)
  | .aluD op m => do
      let v ← operand16 bus .hd6309 m
      setRegs fun r => apply16 (fun d r => { r with d := d }) (alu16 op r.d v r.cc) r
      tick (m.pick 5 7 7 8)
  | .ldw m => do
      let v ← operand16 bus .hd6309 m
      setRegs fun r => { r with w := v, cc := logic16 v r.cc }
      tick (m.pick 4 6 6 7)
  | .stw m => do
      let ea ← effAddr bus .hd6309 m
      let r ← regs
      memWrite16 bus ea r.w
      setRegs (Regs.mapCc (logic16 r.w))
      tick (m.pick 4 6 6 7)
  | .ldq m => do
      let ea ← effAddr bus .hd6309 m
      let d ← memRead16 bus ea
      let w ← memRead16 bus (ea + 2)
      setRegs fun r => { r with d := d, w := w, cc := quadFlags d w r.cc }
      tick (m.pick 8 8 8 9)
  | .stq m => do
      let ea ← effAddr bus .hd6309 m
      let r ← regs
      memWrite16 bus ea r.d
      memWrite16 bus (ea + 2) r.w
      setRegs (Regs.mapCc (quadFlags r.d r.w))
      tick (m.pick 8 8 8 9)
  | .bitOp op => hBitOp bus op
  | .tfm op => hTfm bus op insnPc
  | .bitmd => do
      let imm ← fetch8 bus
      let bits := imm &&& 0xC0
      setRegs fun r =>
        { r with cc := ccPut flagZ (r.md &&& bits == 0) r.cc, md := r.md &&& ~~~bits }
      tick 4
  | .ldmd => do
      let imm ← fetch8 bus
      setRegs fun r => { r with md := (r.md &&& ~~~0x03) ||| (imm &&& 0x03) }
      tick 5
  | .unaryE op => do
      setRegs fun r => let p := unary8 op r.e r.cc; { r.setE p.1 with cc := p.2 }
      tick 3
  | .unaryF op => do
      setRegs fun r => let p := unary8 op r.f r.cc; { r.setF p.1 with cc := p.2 }
      tick 3
  | .aluE op m => do
      let v ← operand8 bus .hd6309 m
      setRegs fun r => apply8 Regs.setE (alu8 op r.e v r.cc) r
      tick (m.pick 3 5 5 6)
  | .aluF op m => do
      let v ← operand8 bus .hd6309 m
      setRegs fun r => apply8 Regs.setF (alu8 op r.f v r.cc) r
      tick (m.pick 3 5 5 6)
  | .ste m => do
      let ea ← effAddr bus .hd6309 m
      let r ← regs
      memWrite bus ea r.e
      setRegs (Regs.mapCc (logic8 r.e))
      tick (m.pick 3 5 5 6)
  | .stf m => do
      let ea ← effAddr bus .hd6309 m
      let r ← regs
      memWrite bus ea r.f
      setRegs (Regs.mapCc (logic8 r.f))
      tick (m.pick 3 5 5 6)
  | .divd m => divide bus (operand8 bus .hd6309 m) divdResult (m.pick 25 27 27 28 : Nat) 19
  | .divq m => divide bus (operand16 bus .hd6309 m) divqResult (m.pick 34 36 36 37 : Nat) 27
  | .muld m => do
      let b ← operand16 bus .hd6309 m
      setRegs (muldResult b)
      tick (m.pick 28 30 30 31)

end

end CocoEmulator.Cpu
