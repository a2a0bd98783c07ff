/-
  Cpu/Insn.lean --- the instruction syntax and the opcode maps.

  The interpreter body is one switch per opcode page.  Here each page is a table
  of 256 entries, one row per high nibble, and an entry names the family the
  `case` belongs to with its operands: the register, the addressing mode, and
  the cycle count where the cases of a family differ in it.  An entry `none` is
  an opcode without a `case`, which goes to `default:`.

  The 6309 extras (hd6309_ops.h) have a syntax and tables of their own, because
  the 6809 build compiles none of them.
-/
import CocoEmulator.Cpu.State

set_option autoImplicit false

namespace CocoEmulator.Cpu

/-! ## Operands -/

/-- Addressing mode; `H_MODE(op)` numbers them in this order. -/
inductive Mode
  | imm
  | direct
  | indexed
  | extended
  deriving DecidableEq, Repr, Inhabited

inductive Acc
  | a
  | b
  deriving DecidableEq, Repr, Inhabited

inductive Reg16
  | d
  | x
  | y
  | u
  | s
  deriving DecidableEq, Repr, Inhabited

/-- Accumulator operations, in the order of the opcode's low nibble. -/
inductive Alu
  | sub
  | cmp
  | sbc
  | and
  | bit
  | ld
  | eor
  | adc
  | or
  | add
  deriving DecidableEq, Repr, Inhabited

/-- Read-modify-write operations, in the order of the opcode's low nibble. -/
inductive Unary
  | neg
  | com
  | lsr
  | ror
  | asr
  | asl
  | rol
  | dec
  | inc
  | tst
  | clr
  deriving DecidableEq, Repr, Inhabited

/-! ## Instructions both builds execute -/

inductive Insn
  | unaryMem (op : Unary) (m : Mode)
  | unaryAcc (op : Unary) (acc : Acc)
  | jmp (m : Mode)
  | jsr (m : Mode)
  | bsr
  | lbra
  | lbsr
  | lea (r : Reg16)
  | psh (st : Stack)
  | pul (st : Stack)
  | nop
  | sync
  | daa
  | orcc
  | andcc
  | sex
  | exg
  | tfr
  | rts
  | abx
  | rti
  | cwai
  | mul
  /-- SWI2 and SWI3 leave the masks alone; `swi` sets I and F -/
  | swi
  | swi2
  | swi3
  | alu8 (op : Alu) (acc : Acc) (m : Mode)
  | st8 (acc : Acc) (m : Mode)
  | ld16 (r : Reg16) (m : Mode) (cycles : Nat)
  | st16 (r : Reg16) (m : Mode) (cycles : Nat)
  | cmp16 (r : Reg16) (m : Mode) (cycles : Nat)
  | subd (m : Mode)
  | addd (m : Mode)
  deriving DecidableEq, Repr, Inhabited

/-- What a page 1 opcode selects: an instruction, a short branch on the condition
in the low nibble, or a prefix. -/
inductive Op1
  | insn (i : Insn)
  | branch (cond : Nat)
  | page2
  | page3
  deriving DecidableEq, Repr, Inhabited

/-! ## Instructions of the 6309 only -/

/-- `OIM`, `AIM`, `EIM`, `TIM`. -/
inductive MemImm
  | oim
  | aim
  | eim
  | tim
  deriving DecidableEq, Repr, Inhabited

inductive HdInsn
  | memImm (op : MemImm) (m : Mode)
  | sexw
  | ldqImm
  /-- register to register, by the opcode's low three bits -/
  | regReg (op : Nat)
  | pshw (st : Stack)
  | pulw (st : Stack)
  | unaryD (op : Unary)
  | unaryW (op : Unary)
  | aluW (op : Alu) (m : Mode)
  | aluD (op : Alu) (m : Mode)
  | ldw (m : Mode)
  | stw (m : Mode)
  | ldq (m : Mode)
  | stq (m : Mode)
  /-- direct-page bit operation, by the opcode's low three bits -/
  | bitOp (op : Nat)
  /-- block transfer, by the opcode's low two bits -/
  | tfm (op : Nat)
  | bitmd
  | ldmd
  | unaryE (op : Unary)
  | unaryF (op : Unary)
  | aluE (op : Alu) (m : Mode)
  | aluF (op : Alu) (m : Mode)
  | ste (m : Mode)
  | stf (m : Mode)
  | divd (m : Mode)
  | divq (m : Mode)
  | muld (m : Mode)
  deriving DecidableEq, Repr, Inhabited

/-! ## Opcode maps -/

/-- Sixteen entries, one for each low nibble. -/
abbrev OpRow (α : Type) : Type := List (Option α)

/-- An opcode map: sixteen rows, one for each high nibble. -/
abbrev OpMap (α : Type) : Type := List (OpRow α)

def OpMap.get {α : Type} (t : OpMap α) (op : Byte) : Option α :=
  ((t.getD (op >>> 4).toNat [])[(op &&& 0x0F).toNat]?).join

/-- A row without a `case`. -/
def noRow {α : Type} : OpRow α := List.replicate 16 none

/-- $0x, $6x, $7x: read-modify-write on memory. -/
def unaryMemRow (m : Mode) : OpRow Op1 :=
  let u op := some (.insn (.unaryMem op m))
  [u .neg, none, none, u .com, u .lsr, none, u .ror, u .asr,
   u .asl, u .rol, u .dec, none, u .inc, u .tst, some (.insn (.jmp m)), u .clr]

/-- $4x, $5x: read-modify-write on an accumulator. -/
def unaryAccRow (acc : Acc) : OpRow Op1 :=
  let u op := some (.insn (.unaryAcc op acc))
  [u .neg, none, none, u .com, u .lsr, none, u .ror, u .asr,
   u .asl, u .rol, u .dec, none, u .inc, u .tst, none, u .clr]

/-- $1x. -/
def miscRow1 : OpRow Op1 :=
  let i x := some (.insn x)
  [some .page2, some .page3, i .nop, i .sync, none, none, i .lbra, i .lbsr,
   none, i .daa, i .orcc, none, i .andcc, i .sex, i .exg, i .tfr]

/-- $3x. -/
def miscRow3 : OpRow Op1 :=
  let i x := some (.insn x)
  [i (.lea .x), i (.lea .y), i (.lea .s), i (.lea .u),
   i (.psh .s), i (.pul .s), i (.psh .u), i (.pul .u),
   none, i .rts, i .abx, i .rti, i .cwai, i .mul, none, i .swi]

/-- $8x to $Bx: accumulator A, then SUBD, CMPX, BSR/JSR, LDX, STX.  `n` is the
cycle count of LDX in this mode. -/
def aRow (m : Mode) (n : Nat) : OpRow Op1 :=
  let i x := some (.insn x)
  let alu op := i (.alu8 op .a m)
  let store x := if m = .imm then none else i x
  [alu .sub, alu .cmp, alu .sbc, i (.subd m), alu .and, alu .bit, alu .ld, store (.st8 .a m),
   alu .eor, alu .adc, alu .or, alu .add, i (.cmp16 .x m (n + 1)),
   if m = .imm then i .bsr else i (.jsr m), i (.ld16 .x m n), store (.st16 .x m n)]

/-- $Cx to $Fx: accumulator B, then ADDD, LDD, STD, LDU, STU. -/
def bRow (m : Mode) (n : Nat) : OpRow Op1 :=
  let i x := some (.insn x)
  let alu op := i (.alu8 op .b m)
  let store x := if m = .imm then none else i x
  [alu .sub, alu .cmp, alu .sbc, i (.addd m), alu .and, alu .bit, alu .ld, store (.st8 .b m),
   alu .eor, alu .adc, alu .or, alu .add, i (.ld16 .d m n), store (.st16 .d m n),
   i (.ld16 .u m n), store (.st16 .u m n)]

/-- The switch of `execute_one`. -/
def page1 : OpMap Op1 :=
  [unaryMemRow .direct, miscRow1, (List.range 16).map (fun c => some (.branch c)), miscRow3,
   unaryAccRow .a, unaryAccRow .b, unaryMemRow .indexed, unaryMemRow .extended,
   aRow .imm 3, aRow .direct 5, aRow .indexed 5, aRow .extended 6,
   bRow .imm 3, bRow .direct 5, bRow .indexed 5, bRow .extended 6]

/-- $10 $8x to $Bx: CMPD, CMPY, LDY, STY. -/
def page2aRow (m : Mode) (n : Nat) : OpRow Insn :=
  [none, none, none, some (.cmp16 .d m (n + 1)), none, none, none, none,
   none, none, none, none, some (.cmp16 .y m (n + 1)), none, some (.ld16 .y m n),
   if m = .imm then none else some (.st16 .y m n)]

/-- $10 $Cx to $Fx: LDS, STS. -/
def page2bRow (m : Mode) (n : Nat) : OpRow Insn :=
  [none, none, none, none, none, none, none, none, none, none, none, none, none, none,
   some (.ld16 .s m n), if m = .imm then none else some (.st16 .s m n)]

/-- $x3F of the prefixed pages: SWI2 and SWI3. -/
def swiRow (i : Insn) : OpRow Insn :=
  [none, none, none, none, none, none, none, none, none, none, none, none, none, none, none,
   some i]

/-- The switch of `execute_page2`; long branches are decoded before it. -/
def page2 : OpMap Insn :=
  [noRow, noRow, noRow, swiRow .swi2, noRow, noRow, noRow, noRow,
   page2aRow .imm 4, page2aRow .direct 6, page2aRow .indexed 6, page2aRow .extended 7,
   page2bRow .imm 4, page2bRow .direct 6, page2bRow .indexed 6, page2bRow .extended 7]

/-- $11 $8x to $Bx: CMPU, CMPS. -/
def page3Row (m : Mode) (n : Nat) : OpRow Insn :=
  [none, none, none, some (.cmp16 .u m n), none, none, none, none,
   none, none, none, none, some (.cmp16 .s m n), none, none, none]

/-- The switch of `execute_page3`. -/
def page3 : OpMap Insn :=
  [noRow, noRow, noRow, swiRow .swi3, noRow, noRow, noRow, noRow,
   page3Row .imm 5, page3Row .direct 7, page3Row .indexed 7, page3Row .extended 8,
   noRow, noRow, noRow, noRow]

/-- $x1, $x2, $x5, $xB of rows 0, 6, 7. -/
def memImmRow (m : Mode) : OpRow HdInsn :=
  let i op := some (.memImm op m)
  [none, i .oim, i .aim, none, none, i .eim, none, none,
   none, none, none, i .tim, none, none, none, none]

/-- $14. -/
def sexwRow : OpRow HdInsn :=
  [none, none, none, none, some .sexw, none, none, none, none, none, none, none, none, none,
   none, none]

/-- $CD. -/
def ldqImmRow : OpRow HdInsn :=
  [none, none, none, none, none, none, none, none, none, none, none, none, none, some .ldqImm,
   none, none]

/-- `hd6309_exec_page1`. -/
def hd6309Page1 : OpMap HdInsn :=
  [memImmRow .direct, sexwRow, noRow, noRow, noRow, noRow, memImmRow .indexed,
   memImmRow .extended, noRow, noRow, noRow, noRow, ldqImmRow, noRow, noRow, noRow]

/-- $10 $8x to $Bx: the W and D arithmetic. -/
def hdPage2Row (m : Mode) : OpRow HdInsn :=
  let w op := some (.aluW op m)
  let d op := some (.aluD op m)
  [w .sub, w .cmp, d .sbc, none, d .and, d .bit, some (.ldw m),
   if m = .imm then none else some (.stw m),
   d .eor, d .adc, d .or, w .add, none, none, none, none]

/-- $10 $Dx to $Fx: LDQ, STQ. -/
def hdQRow (m : Mode) : OpRow HdInsn :=
  [none, none, none, none, none, none, none, none, none, none, none, none,
   some (.ldq m), some (.stq m), none, none]

/-- $10 $3x: register to register, and the W stack operations. -/
def regRegRow : OpRow HdInsn :=
  let r n := some (.regReg n)
  [r 0, r 1, r 2, r 3, r 4, r 5, r 6, r 7,
   some (.pshw .s), some (.pulw .s), some (.pshw .u), some (.pulw .u), none, none, none, none]

/-- $10 $4x: D. -/
def unaryDRow : OpRow HdInsn :=
  let d op := some (.unaryD op)
  [d .neg, none, none, d .com, d .lsr, none, d .ror, d .asr,
   d .asl, d .rol, d .dec, none, d .inc, d .tst, none, d .clr]

/-- $10 $5x: W. -/
def unaryWRow : OpRow HdInsn :=
  let w op := some (.unaryW op)
  [none, none, none, w .com, w .lsr, none, w .ror, none,
   none, w .rol, w .dec, none, w .inc, w .tst, none, w .clr]

/-- `hd6309_exec_page2`. -/
def hd6309Page2 : OpMap HdInsn :=
  [noRow, noRow, noRow, regRegRow, unaryDRow, unaryWRow, noRow, noRow,
   hdPage2Row .imm, hdPage2Row .direct, hdPage2Row .indexed, hdPage2Row .extended,
   noRow, hdQRow .direct, hdQRow .indexed, hdQRow .extended]

/-- $11 $8x to $Bx: E, and the divisions and the multiplication. -/
def hdPage3eRow (m : Mode) : OpRow HdInsn :=
  let e op := some (.aluE op m)
  [e .sub, e .cmp, none, none, none, none, e .ld, if m = .imm then none else some (.ste m),
   none, none, none, e .add, none, some (.divd m), some (.divq m), some (.muld m)]

/-- $11 $Cx to $Fx: F. -/
def hdPage3fRow (m : Mode) : OpRow HdInsn :=
  let f op := some (.aluF op m)
  [f .sub, f .cmp, none, none, none, none, f .ld, if m = .imm then none else some (.stf m),
   none, none, none, f .add, none, none, none, none]

/-- $11 $3x: bit operations, block transfers, BITMD and LDMD. -/
def bitTfmRow : OpRow HdInsn :=
  let b n := some (.bitOp n)
  let t n := some (.tfm n)
  [b 0, b 1, b 2, b 3, b 4, b 5, b 6, b 7, t 0, t 1, t 2, t 3,
   some .bitmd, some .ldmd, none, none]

/-- $11 $4x and $5x: E and F. -/
def unaryEfRow (u : Unary → HdInsn) : OpRow HdInsn :=
  [none, none, none, some (u .com), none, none, none, none,
   none, none, some (u .dec), none, some (u .inc), some (u .tst), none, some (u .clr)]

/-- `hd6309_exec_page3`. -/
def hd6309Page3 : OpMap HdInsn :=
  [noRow, noRow, noRow, bitTfmRow, unaryEfRow .unaryE, unaryEfRow .unaryF, noRow, noRow,
   hdPage3eRow .imm, hdPage3eRow .direct, hdPage3eRow .indexed, hdPage3eRow .extended,
   hdPage3fRow .imm, hdPage3fRow .direct, hdPage3fRow .indexed, hdPage3fRow .extended]

/-! ## Native-mode savings -/

/-- A number for each opcode: sixteen rows of sixteen. -/
abbrev OpTable : Type := List (List Nat)

def OpTable.get (t : OpTable) (op : Byte) : Nat :=
  (t.getD (op >>> 4).toNat []).getD (op &&& 0x0F).toNat 0

/-- A row of opcodes without a saving. -/
def noSave : List Nat := List.replicate 16 0

/-- `hd6309_native_save_p1`. -/
def nativeSaveP1 : OpTable := [
  [1, 0, 0, 1, 1, 0, 1, 1, 1, 1, 1, 0, 1, 2, 1, 1],
  [0, 0, 1, 1, 0, 0, 1, 2, 0, 1, 1, 0, 1, 1, 3, 2],
  [0, 0, 0, 0, 0, 0, 0, 0, 0, 0, 0, 0, 0, 0, 0, 0],
  [0, 0, 0, 0, 1, 1, 1, 1, 0, 1, 2, 0, 0, 1, 0, 0],
  [1, 0, 0, 1, 1, 0, 1, 1, 1, 1, 1, 0, 1, 1, 0, 1],
  [1, 0, 0, 1, 1, 0, 1, 1, 1, 1, 1, 0, 1, 1, 0, 1],
  [0, 0, 0, 0, 0, 0, 0, 0, 0, 0, 0, 0, 0, 1, 0, 0],
  [1, 0, 0, 1, 1, 0, 1, 1, 1, 1, 1, 0, 1, 2, 1, 1],
  [0, 0, 0, 1, 0, 0, 0, 0, 0, 0, 0, 0, 1, 1, 0, 0],
  [1, 1, 1, 2, 1, 1, 1, 1, 1, 1, 1, 1, 2, 1, 1, 1],
  [0, 0, 0, 1, 0, 0, 0, 0, 0, 0, 0, 0, 1, 0, 0, 0],
  [1, 1, 1, 2, 1, 1, 1, 1, 1, 1, 1, 1, 2, 1, 1, 1],
  [0, 0, 0, 1, 0, 0, 0, 0, 0, 0, 0, 0, 0, 0, 0, 0],
  [1, 1, 1, 2, 1, 1, 1, 1, 1, 1, 1, 1, 1, 1, 1, 1],
  [0, 0, 0, 1, 0, 0, 0, 0, 0, 0, 0, 0, 0, 0, 0, 0],
  [1, 1, 1, 2, 1, 1, 1, 1, 1, 1, 1, 1, 1, 1, 1, 1]]

/-- `hd6309_native_save_p2`. -/
def nativeSaveP2 : OpTable := [
  noSave, noSave, noSave, noSave,
  [1, 0, 0, 1, 1, 0, 1, 1, 1, 1, 1, 0, 1, 1, 0, 1],
  [0, 0, 0, 1, 1, 0, 1, 0, 0, 1, 1, 0, 1, 1, 0, 1],
  [0, 0, 0, 0, 0, 0, 0, 0, 0, 0, 0, 0, 0, 0, 0, 0],
  [0, 0, 0, 0, 0, 0, 0, 0, 0, 0, 0, 0, 0, 0, 0, 0],
  [1, 1, 1, 1, 1, 1, 0, 0, 1, 1, 1, 1, 1, 0, 0, 0],
  [2, 2, 2, 2, 2, 2, 1, 1, 2, 2, 2, 2, 2, 0, 1, 1],
  [1, 1, 1, 1, 1, 1, 0, 0, 1, 1, 1, 1, 1, 0, 0, 0],
  [2, 2, 2, 2, 2, 2, 1, 1, 2, 2, 2, 2, 2, 0, 1, 1],
  [0, 0, 0, 0, 0, 0, 0, 0, 0, 0, 0, 0, 0, 0, 0, 0],
  [0, 0, 0, 0, 0, 0, 0, 0, 0, 0, 0, 0, 1, 1, 1, 1],
  [0, 0, 0, 0, 0, 0, 0, 0, 0, 0, 0, 0, 0, 0, 0, 0],
  [0, 0, 0, 0, 0, 0, 0, 0, 0, 0, 0, 0, 1, 1, 1, 1]]

/-- `hd6309_native_save_p3`. -/
def nativeSaveP3 : OpTable := [
  noSave, noSave, noSave,
  [1, 1, 1, 1, 1, 1, 1, 1, 0, 0, 0, 0, 0, 0, 0, 0],
  [0, 0, 0, 1, 0, 0, 0, 0, 0, 0, 1, 0, 1, 1, 0, 1],
  [0, 0, 0, 1, 0, 0, 0, 0, 0, 0, 1, 0, 1, 1, 0, 1],
  [0, 0, 0, 0, 0, 0, 0, 0, 0, 0, 0, 0, 0, 0, 0, 0],
  [0, 0, 0, 0, 0, 0, 0, 0, 0, 0, 0, 0, 0, 0, 0, 0],
  [0, 0, 0, 1, 0, 0, 0, 0, 0, 0, 0, 0, 1, 0, 0, 0],
  [1, 1, 0, 2, 0, 0, 1, 1, 0, 0, 0, 1, 2, 1, 1, 1],
  [0, 0, 0, 1, 0, 0, 0, 0, 0, 0, 0, 0, 1, 0, 0, 0],
  [1, 1, 0, 2, 0, 0, 1, 1, 0, 0, 0, 1, 2, 1, 1, 1],
  [0, 0, 0, 0, 0, 0, 0, 0, 0, 0, 0, 0, 0, 0, 0, 0],
  [1, 1, 0, 0, 0, 0, 1, 1, 0, 0, 0, 1, 0, 0, 0, 0],
  [0, 0, 0, 0, 0, 0, 0, 0, 0, 0, 0, 0, 0, 0, 0, 0],
  [1, 1, 0, 0, 0, 0, 1, 1, 0, 0, 0, 1, 0, 0, 0, 0]]

/-- `native_save` of `addr_indexed`, by the postbyte's low nibble. -/
def nativeSaveIndexed : List Nat := [1, 1, 1, 1, 0, 0, 0, 0, 0, 1, 0, 2, 0, 2, 0, 1]

/-- Sixteen rows of sixteen entries. -/
def squareTable {α : Type} (t : List (List α)) : Bool :=
  t.length == 16 && t.all fun row => row.length == 16

example : squareTable page1 = true ∧ squareTable page2 = true ∧ squareTable page3 = true ∧
    squareTable hd6309Page1 = true ∧ squareTable hd6309Page2 = true ∧
    squareTable hd6309Page3 = true ∧ squareTable nativeSaveP1 = true ∧
    squareTable nativeSaveP2 = true ∧ squareTable nativeSaveP3 = true := by
  decide

end CocoEmulator.Cpu
