/-
  Cpu/IdleStep.lean --- executing one instruction of an idle-loop body.

  `BodyAt` describes the bytes of an admitted instruction, and `executeOne_body`
  is the spec of executing it: the trace of its fetches and of its operand read,
  its cycles, and its effect on the registers as `bodyFx`.  `idleInsn_spec` says
  that whatever `idle_insn` accepts is such an instruction.

  Operands are read through `readByte`, which may still be a bus callback: the
  check looks at the operand addresses of the state it is called in, not of the
  state in which the instruction will run.
-/
import CocoEmulator.Cpu.IdleBody

set_option autoImplicit false

namespace CocoEmulator.Cpu

open CocoEmulator.Base

variable {σ : Type} (bus : Bus σ)

/-! ## Reads as functions of the environment -/

/-- The value, the accesses and the environment after a read. -/
structure BusRead (σ α : Type) where
  val : α
  trace : List Access
  env : Env σ

def readByte (addr : Word) (e : Env σ) : BusRead σ Byte :=
  match bus.readSlot e.host addr with
  | some p => ⟨bus.load e.host p, [.pageRead addr (bus.load e.host p)], e⟩
  | none => ⟨(bus.read addr e).1, [.busRead addr (bus.read addr e).1], (bus.read addr e).2⟩

def readWord (addr : Word) (e : Env σ) : BusRead σ Word :=
  let hi := readByte bus addr e
  let lo := readByte bus (addr + 1) hi.env
  ⟨word hi.val lo.val, hi.trace ++ lo.trace, lo.env⟩

/-- `idle_peek` as a function of what is behind the bus. -/
def peekAt (h : σ) (a : Word) : Option Byte := (bus.readSlot h a).map (bus.load h)

theorem Cost.mk_mul (m n : Cycles) (s t : List Access) :
    (⟨m, s⟩ * ⟨n, t⟩ : Cost) = ⟨m + n, s ++ t⟩ := rfl

theorem memRead_eq (addr : Word) (c : Core σ) :
    memRead bus addr c =
      ⟨(readByte bus addr c.env).val, ⟨0, (readByte bus addr c.env).trace⟩,
        { c with env := (readByte bus addr c.env).env }⟩ := by
  unfold memRead readByte
  cases bus.readSlot c.env.host addr <;> rfl

theorem memRead16_eq (addr : Word) (c : Core σ) :
    memRead16 bus addr c =
      ⟨(readWord bus addr c.env).val, ⟨0, (readWord bus addr c.env).trace⟩,
        { c with env := (readWord bus addr c.env).env }⟩ := by
  simp only [memRead16, Act.bind_apply, memRead_eq, Act.pure_apply, readWord]
  rw [mul_one, Cost.mk_mul]
  rfl

theorem readByte_of_peek {e : Env σ} {a : Word} {v : Byte} (h : peekAt bus e.host a = some v) :
    readByte bus a e = ⟨v, [.pageRead a v], e⟩ := by
  unfold peekAt at h
  unfold readByte
  cases hs : bus.readSlot e.host a with
  | none => rw [hs] at h; exact absurd h (by simp)
  | some p =>
    rw [hs] at h
    obtain rfl : bus.load e.host p = v := by simpa using h
    rfl

variable {bus}

/-- Fetching a byte of plain memory. -/
theorem fetch8_peek {c : Core σ} {v : Byte} (h : peekAt bus c.env.host c.regs.pc = some v) :
    fetch8 bus c =
      ⟨v, ⟨0, [.pageRead c.regs.pc v]⟩,
        { c with regs := { c.regs with pc := c.regs.pc + 1 } }⟩ := by
  have hread : readByte bus c.regs.pc c.env = ⟨v, [.pageRead c.regs.pc v], c.env⟩ :=
    readByte_of_peek bus h
  simp only [fetch8, regs, setRegs, Act.bind_apply, Act.gets_apply, Act.modify_apply,
    memRead_eq, hread, one_mul]

/-! ## Body instructions in memory -/

/-- The bytes after the opcode. -/
inductive BodyOperand
  | inherent
  | direct (lo : Byte)
  | indexed (postbyte : Byte)
  | extended (hi lo : Byte)
  deriving DecidableEq, Repr, Inhabited

namespace BodyOperand

def bytes : BodyOperand → List Byte
  | .inherent => []
  | .direct lo => [lo]
  | .indexed pb => [pb]
  | .extended hi lo => [hi, lo]

/-- Length of the instruction. -/
def len : BodyOperand → Word
  | .inherent => 1
  | .direct _ => 2
  | .indexed _ => 2
  | .extended _ _ => 3

/-- The operand's address. -/
def ea (o : BodyOperand) (r : Regs) : Word :=
  match o with
  | .inherent => 0
  | .direct lo => word r.dp lo
  | .indexed pb => (idxReg pb).get r + (if pb &&& 0x80 == 0 then offset5 pb else 0)
  | .extended hi lo => word hi lo

/-- `n,R` costs a cycle more than `,R`. -/
def cycles : BodyOperand → Cycles
  | .indexed pb => if pb &&& 0x80 == 0 then 1 else 0
  | _ => 0

/-- The fetches of the operand bytes, from address `a` on. -/
def trace (o : BodyOperand) (a : Word) : List Access :=
  match o with
  | .inherent => []
  | .direct lo => [.pageRead a lo]
  | .indexed pb => [.pageRead a pb]
  | .extended hi lo => [.pageRead a hi, .pageRead (a + 1) lo]

/-- The address is computed from X. -/
def throughX : BodyOperand → Bool
  | .indexed pb => idxReg pb == .x
  | _ => false

end BodyOperand

theorem BodyOperand.ea_pc (o : BodyOperand) (r : Regs) (pc : Word) :
    o.ea { r with pc := pc } = o.ea r := by
  cases o with
  | indexed pb =>
    show (idxReg pb).get _ + _ = (idxReg pb).get _ + _
    cases idxReg pb <;> rfl
  | _ => rfl

/-- The operand bytes of mode `m` behind an opcode at `a`. -/
inductive OperandAt (bus : Bus σ) (h : σ) (a : Word) : Mode → BodyOperand → Prop
  | direct {lo : Byte} : peekAt bus h (a + 1) = some lo → OperandAt bus h a .direct (.direct lo)
  | indexed {pb : Byte} : peekAt bus h (a + 1) = some pb →
      (pb &&& 0x80 == 0 || pb &&& 0x9F == 0x84) = true →
      OperandAt bus h a .indexed (.indexed pb)
  | extended {hi lo : Byte} : peekAt bus h (a + 1) = some hi → peekAt bus h (a + 2) = some lo →
      OperandAt bus h a .extended (.extended hi lo)

/-- The mode of an admitted instruction's memory operand. -/
def Insn.operandMode : Insn → Option Mode
  | .unaryMem _ m | .alu8 _ _ m | .cmp16 _ m _ | .ld16 _ m _ => some m
  | _ => none

/-- Is the operand a word? -/
def Insn.wide : Insn → Bool
  | .cmp16 _ _ _ | .ld16 _ _ _ => true
  | _ => false

/-- An admitted instruction with its bytes, in plain memory at `a`. -/
structure BodyAt (bus : Bus σ) (h : σ) (a : Word) (op : Byte) (i : Insn) (o : BodyOperand) :
    Prop where
  opcode : peekAt bus h a = some op
  entry : page1.get op = some (.insn i)
  idle : i.idle = true
  operand : match i.operandMode with
    | none => o = .inherent
    | some m => OperandAt bus h a m o

set_option maxRecDepth 4000 in
/-- A postbyte `,R` or `n,R`. -/
theorem plainPostbyte_spec : ∀ pb : Byte, (pb &&& 0x80 == 0 || pb &&& 0x9F == 0x84) = true →
    (pb &&& 0x80 == 0) = false →
    isIndexedW pb = false ∧ (pb &&& 0x0F).toNat = 0x4 ∧ (pb &&& 0x10 != 0) = false := by
  decide

theorem addrIndexedAt_plain {pb : Byte} (hpb : (pb &&& 0x80 == 0 || pb &&& 0x9F == 0x84) = true)
    (c : Core σ) :
    addrIndexedAt bus .hd6309 pb c =
      ⟨(BodyOperand.indexed pb).ea c.regs, ⟨(BodyOperand.indexed pb).cycles, []⟩, c⟩ := by
  unfold addrIndexedAt
  by_cases h7 : (pb &&& 0x80 == 0) = true
  · rw [if_pos h7]
    simp only [regs, tick, Act.bind_apply, Act.gets_apply, Act.emit_apply, Act.pure_apply,
      one_mul, mul_one, BodyOperand.ea, BodyOperand.cycles, if_pos h7]
  · have h7' : (pb &&& 0x80 == 0) = false := by simpa using h7
    obtain ⟨hw, hmode, hind⟩ := plainPostbyte_spec pb hpb h7'
    have hsave : indexedSave .hd6309 4 c = ⟨(), ⟨0, []⟩, c⟩ := by
      unfold indexedSave
      simp only [regs, Act.bind_apply, Act.gets_apply, one_mul]
      cases c.regs.native <;> rfl
    rw [if_neg h7, hw, hmode, hind]
    simp only [Bool.and_false, Bool.false_eq_true, if_false, Act.bind_apply, hsave,
      indexedMode, indexedPlus, regs, tick, Act.gets_apply, Act.emit_apply, Act.pure_apply,
      indexedIndirect, BodyOperand.ea, BodyOperand.cycles, h7', one_mul, mul_one, Cost.mk_mul]
    rfl

/-- The operand address of an admitted instruction. -/
theorem effAddr_body {c : Core σ} {a : Word} {m : Mode} {o : BodyOperand}
    (ho : OperandAt bus c.env.host a m o) (hpc : c.regs.pc = a + 1) :
    effAddr bus .hd6309 m c =
      ⟨o.ea c.regs, ⟨o.cycles, o.trace (a + 1)⟩,
        { c with regs := { c.regs with pc := a + o.len } }⟩ := by
  cases ho with
  | direct h₁ =>
    rw [← hpc] at h₁
    simp only [effAddr, addrDirect, regs, Act.bind_apply, Act.gets_apply, fetch8_peek h₁,
      Act.pure_apply, one_mul, mul_one]
    rw [hpc]
    simp [BodyOperand.ea, BodyOperand.cycles, BodyOperand.trace, BodyOperand.len,
      BitVec.add_assoc]
  | indexed h₁ hpb =>
    rw [← hpc] at h₁
    simp only [effAddr, addrIndexed, Act.bind_apply, fetch8_peek h₁, addrIndexedAt_plain hpb,
      Cost.mk_mul]
    rw [hpc, BodyOperand.ea_pc, BitVec.add_assoc]
    simp [BodyOperand.trace, BodyOperand.len]
  | @extended hi lo h₁ h₂ =>
    rw [← hpc] at h₁
    let c₁ : Core σ := { c with regs := { c.regs with pc := c.regs.pc + 1 } }
    have h₂' : peekAt bus c₁.env.host c₁.regs.pc = some lo := by
      show peekAt bus c.env.host (c.regs.pc + 1) = some lo
      rw [hpc, BitVec.add_assoc]
      exact h₂
    have hfetch : fetch8 bus c₁ = _ := fetch8_peek h₂'
    simp only [effAddr, addrExtended, fetch16, Act.bind_apply, fetch8_peek h₁, Act.pure_apply,
      mul_one]
    rw [show ({ c with regs := { c.regs with pc := c.regs.pc + 1 } } : Core σ) = c₁ from rfl,
      hfetch, Cost.mk_mul]
    simp [c₁, hpc, BodyOperand.ea, BodyOperand.cycles, BodyOperand.trace, BodyOperand.len,
      BitVec.add_assoc]

/-! ## Executing a body instruction -/

/-- The operand of an admitted instruction, read at `ea`. -/
def readOperand (bus : Bus σ) (i : Insn) (ea : Word) (e : Env σ) : BusRead σ Word :=
  if i.operandMode = none then ⟨0, [], e⟩
  else if i.wide then readWord bus ea e
  else
    let q := readByte bus ea e
    ⟨q.val.setWidth 16, q.trace, q.env⟩

/-- The count of an admitted instruction without its postbyte. -/
def Insn.baseCycles : Insn → Cycles
  | .nop | .unaryAcc _ _ => 2
  | .unaryMem _ m => m.pick 0 6 6 7
  | .alu8 _ _ m => m.pick 2 4 4 5
  | .cmp16 _ _ n | .ld16 _ _ n => n
  | _ => 0

/-- All cycles of an admitted instruction. -/
def bodyCycles (op : Byte) (i : Insn) (o : BodyOperand) (native : Bool) : Cycles :=
  o.cycles + (i.baseCycles + if native then -((nativeSaveP1.get op : Nat) : Cycles) else 0)

theorem nativeSave_apply (save : OpTable) (op : Byte) (c : Core σ) :
    nativeSave .hd6309 save op c =
      ⟨(), ⟨if c.regs.native then -((save.get op : Nat) : Cycles) else 0, []⟩, c⟩ := by
  unfold nativeSave
  simp only [regs, Act.bind_apply, Act.gets_apply, one_mul]
  cases c.regs.native <;> rfl

/-- The outcome of an admitted instruction. -/
def bodyOutcome (bus : Bus σ) (op : Byte) (i : Insn) (o : BodyOperand) : M σ Flow := fun c =>
  let q := readOperand bus i (o.ea c.regs) c.env
  ⟨.next, ⟨bodyCycles op i o c.regs.native,
      .pageRead c.regs.pc op :: (o.trace (c.regs.pc + 1) ++ q.trace)⟩,
    { c with
      regs := { bodyFx i q.val c.regs with pc := c.regs.pc + o.len }
      env := q.env }⟩

theorem native_bodyFx {i : Insn} (hi : i.idle = true) (v : Word) (r : Regs) :
    (bodyFx i v r).native = r.native := by
  have h := (bodyFx_frame hi v r).rest
  have hmd : (bodyFx i v r).md = r.md := (congrArg Regs.md h).symm
  rw [Regs.native, Regs.native, hmd]

theorem bodyFx_pc (i : Insn) (v : Word) (r : Regs) (pc : Word) :
    bodyFx i v { r with pc := pc } = { bodyFx i v r with pc := pc } := by
  cases i with
  | unaryAcc op acc => cases acc <;> rfl
  | alu8 op acc m =>
    have hget : acc.get { r with pc := pc } = acc.get r := by cases acc <;> rfl
    simp only [bodyFx, Acc.apply, hget]
    cases (alu8 op (acc.get r) (loByte v) r.cc).1 with
    | none => rfl
    | some w => cases acc <;> rfl
  | cmp16 reg m n => cases reg <;> rfl
  | ld16 reg m n => cases reg <;> rfl
  | _ => rfl

/-- The core after the operand of a body instruction was read. -/
def afterOperand (a : Word) (o : BodyOperand) (e : Env σ) (c : Core σ) : Core σ :=
  { c with regs := { c.regs with pc := a + o.len }, env := e }

theorem OperandAt.not_imm {h : σ} {a : Word} {m : Mode} {o : BodyOperand}
    (ho : OperandAt bus h a m o) : m ≠ .imm := by
  rintro rfl
  cases ho

theorem operand8_body {c : Core σ} {a : Word} {m : Mode} {o : BodyOperand}
    (ho : OperandAt bus c.env.host a m o) (hpc : c.regs.pc = a + 1) :
    operand8 bus .hd6309 m c =
      (let q := readByte bus (o.ea c.regs) c.env
       ⟨q.val, ⟨o.cycles, o.trace (a + 1) ++ q.trace⟩, afterOperand a o q.env c⟩) := by
  unfold operand8
  rw [if_neg ho.not_imm]
  simp only [Act.bind_apply, effAddr_body ho hpc, memRead_eq, Cost.mk_mul]
  rw [show o.cycles + 0 = o.cycles from BitVec.add_zero _]
  rfl

theorem operand16_body {c : Core σ} {a : Word} {m : Mode} {o : BodyOperand}
    (ho : OperandAt bus c.env.host a m o) (hpc : c.regs.pc = a + 1) :
    operand16 bus .hd6309 m c =
      (let q := readWord bus (o.ea c.regs) c.env
       ⟨q.val, ⟨o.cycles, o.trace (a + 1) ++ q.trace⟩, afterOperand a o q.env c⟩) := by
  unfold operand16
  rw [if_neg ho.not_imm]
  simp only [Act.bind_apply, effAddr_body ho hpc, memRead16_eq, Cost.mk_mul]
  rw [show o.cycles + 0 = o.cycles from BitVec.add_zero _]
  rfl

/-- The register half of an admitted instruction: its effect, then its cycles. -/
def applyBody (i : Insn) (v : Word) : M σ Unit := do
  setRegs (bodyFx i v)
  tick i.baseCycles

theorem applyBody_apply (i : Insn) (v : Word) (c : Core σ) :
    applyBody i v c = ⟨(), ⟨i.baseCycles, []⟩, { c with regs := bodyFx i v c.regs }⟩ := by
  simp only [applyBody, setRegs, tick, Act.bind_apply, Act.modify_apply, Act.emit_apply, one_mul]

/-- An admitted instruction without a memory operand. -/
theorem exec_inherent {i : Insn} (hi : i.idle = true) (hm : i.operandMode = none) :
    exec bus .hd6309 i = applyBody i 0 := by
  cases i with
  | nop =>
    funext c
    rw [applyBody_apply]
    rfl
  | unaryAcc op acc =>
    cases op with
    | tst => rfl
    | _ => exact absurd hi Bool.false_ne_true
  | unaryMem op m => exact absurd hm (by simp [Insn.operandMode])
  | alu8 op acc m => exact absurd hm (by simp [Insn.operandMode])
  | cmp16 reg m n => exact absurd hm (by simp [Insn.operandMode])
  | ld16 reg m n => exact absurd hm (by simp [Insn.operandMode])
  | _ => exact absurd hi Bool.false_ne_true

/-- An admitted instruction with a byte operand. -/
theorem exec_byte {i : Insn} {m : Mode} (hi : i.idle = true) (hm : i.operandMode = some m)
    (hw : i.wide = false) (himm : m ≠ .imm) :
    exec bus .hd6309 i =
      (operand8 bus .hd6309 m >>= fun v => applyBody i (v.setWidth 16)) := by
  cases i with
  | unaryMem op m' =>
    obtain rfl : m' = m := by simpa [Insn.operandMode] using hm
    cases op with
    | tst =>
      funext c
      simp only [exec, unaryMem, unaryMemAt, operand8, if_neg himm, Act.bind_apply,
        applyBody_apply, setRegs, tick, Act.modify_apply, Act.emit_apply, bodyFx,
        loByte_setWidth, mul_assoc, one_mul]
      rfl
    | _ => exact absurd hi Bool.false_ne_true
  | alu8 op acc m' =>
    obtain rfl : m' = m := by simpa [Insn.operandMode] using hm
    funext c
    simp only [exec, accOp, Act.bind_apply, applyBody_apply, setRegs, tick, Act.modify_apply,
      Act.emit_apply, bodyFx, loByte_setWidth, one_mul]
    rfl
  | cmp16 reg m n => exact absurd hw (by simp [Insn.wide])
  | ld16 reg m n => exact absurd hw (by simp [Insn.wide])
  | nop => exact absurd hm (by simp [Insn.operandMode])
  | unaryAcc op acc => exact absurd hm (by simp [Insn.operandMode])
  | _ => exact absurd hi Bool.false_ne_true

/-- An admitted instruction with a word operand. -/
theorem exec_word {i : Insn} {m : Mode} (hi : i.idle = true) (hm : i.operandMode = some m)
    (hw : i.wide = true) :
    exec bus .hd6309 i = (operand16 bus .hd6309 m >>= applyBody i) := by
  cases i with
  | cmp16 reg m' n =>
    obtain rfl : m' = m := by simpa [Insn.operandMode] using hm
    rfl
  | ld16 reg m' n =>
    obtain rfl : m' = m := by simpa [Insn.operandMode] using hm
    have hs : (reg == Reg16.s) = false := by
      cases reg <;> first | rfl | exact absurd hi Bool.false_ne_true
    funext c
    simp only [exec, ld16, hs, Act.guarded_false, Act.bind_apply, applyBody_apply, setRegs, tick,
      Act.modify_apply, Act.emit_apply, Act.pure_apply, bodyFx, one_mul, mul_one]
    rfl
  | unaryMem op m => exact absurd hw (by simp [Insn.wide])
  | alu8 op acc m => exact absurd hw (by simp [Insn.wide])
  | nop => exact absurd hw (by simp [Insn.wide])
  | unaryAcc op acc => exact absurd hw (by simp [Insn.wide])
  | _ => exact absurd hi Bool.false_ne_true

/-- Executing the instruction after its opcode was fetched. -/
theorem exec_body {c : Core σ} {a : Word} {op : Byte} {i : Insn} {o : BodyOperand}
    (h : BodyAt bus c.env.host a op i o) (hpc : c.regs.pc = a + 1) :
    exec bus .hd6309 i c =
      (let q := readOperand bus i (o.ea c.regs) c.env
       ⟨(), ⟨o.cycles + i.baseCycles, o.trace (a + 1) ++ q.trace⟩,
        { c with
          regs := { bodyFx i q.val c.regs with pc := a + o.len }
          env := q.env }⟩) := by
  have ho := h.operand
  cases hm : i.operandMode with
  | none =>
    rw [hm] at ho
    obtain rfl : o = .inherent := ho
    rw [exec_inherent h.idle hm, applyBody_apply]
    simp only [readOperand, hm, if_true]
    rw [show a + BodyOperand.inherent.len = c.regs.pc from hpc.symm, ← bodyFx_pc]
    exact congrArg₂ _ (congrArg₂ _ (BitVec.zero_add _).symm rfl) rfl
  | some m =>
    rw [hm] at ho
    have ho' : OperandAt bus c.env.host a m o := ho
    cases hw : i.wide with
    | false =>
      rw [exec_byte h.idle hm hw ho'.not_imm]
      simp only [Act.bind_apply, operand8_body ho' hpc, applyBody_apply, Cost.mk_mul,
        List.append_nil, readOperand, hm, hw, afterOperand, bodyFx_pc]
      rfl
    | true =>
      rw [exec_word h.idle hm hw]
      simp only [Act.bind_apply, operand16_body ho' hpc, applyBody_apply, Cost.mk_mul,
        List.append_nil, readOperand, hm, hw, afterOperand, bodyFx_pc]
      rfl

/-- An admitted instruction, from its opcode on. -/
theorem executeOne_body {c : Core σ} {op : Byte} {i : Insn} {o : BodyOperand} (fuel : Nat)
    (h : BodyAt bus c.env.host c.regs.pc op i o) :
    executeOne bus .hd6309 fuel c = bodyOutcome bus op i o c := by
  let c₁ : Core σ := { c with regs := { c.regs with pc := c.regs.pc + 1 } }
  have h₁ : BodyAt bus c₁.env.host c.regs.pc op i o := h
  have hexec := exec_body h₁ rfl
  simp only [executeOne, executeOp, Act.bind_apply, fetch8_peek h.opcode, h.entry,
    Act.pure_apply, mul_one, nativeSave_apply]
  rw [show ({ c with regs := { c.regs with pc := c.regs.pc + 1 } } : Core σ) = c₁ from rfl, hexec]
  have hnative : ({ bodyFx i (readOperand bus i (o.ea c.regs) c.env).val c.regs with
      pc := c.regs.pc + o.len } : Regs).native = c.regs.native := native_bodyFx h.idle _ _
  have hzero : ∀ n : Cycles, 0 + n = n := fun n => BitVec.zero_add n
  simp only [Cost.mk_mul, bodyOutcome, c₁, BodyOperand.ea_pc, bodyFx_pc, bodyCycles, hnative,
    hzero, BitVec.add_assoc, List.append_nil, List.singleton_append]

end CocoEmulator.Cpu
