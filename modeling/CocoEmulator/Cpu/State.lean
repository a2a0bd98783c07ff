/-
  Cpu/State.lean --- registers, bus and condition codes of the 6809 core.

  The state of `MC6809` (mc6809.h) is split by who may touch it: `Regs` is the
  register file and the wait flags, `Tfm` the resume point of a block transfer,
  `Pins` the interrupt lines, and `σ` whatever stands behind the bus.  A bus
  callback sees the pins and the host, never the registers; the host memory
  behind the page tables is read and written without calling anything.

  `cpu->cycles` and the sequence of accesses are the output of a CPU program
  (`Cost`): no instruction reads them back.  Cycles are the 32-bit counter of
  the target, so `cpu->cycles -= n` wraps as it does there.

  Not modelled: the performance probes (compiled out) and the store barrier.
-/
import CocoEmulator.Base.Effect
import CocoEmulator.Base.Words

set_option autoImplicit false

namespace CocoEmulator.Cpu

open CocoEmulator.Base

abbrev Cycles : Type := BitVec 32

/-- The two builds of the interpreter body: `CPU_HD6309` is 0 or 1. -/
inductive Build
  | mc6809
  | hd6309
  deriving DecidableEq, Repr, Inhabited

/-! ## State -/

/-- Register file, wait state and the 6309 registers. -/
structure Regs where
  pc : Word := 0
  d : Word := 0
  x : Word := 0
  y : Word := 0
  u : Word := 0
  s : Word := 0
  dp : Byte := 0
  cc : Byte := 0
  waitForInterrupt : Bool := false
  cwaiState : Bool := false
  nmiArmed : Bool := false
  w : Word := 0
  v : Word := 0
  md : Byte := 0
  deriving DecidableEq, Repr, Inhabited

/-- A block transfer part-way through, and the address of its instruction. -/
structure Tfm where
  busy : Bool := false
  pc : Word := 0
  deriving DecidableEq, Repr, Inhabited

/-- The lines the rest of the machine drives. -/
structure Pins where
  halted : Bool := false
  nmiLine : Bool := false
  nmiPending : Bool := false
  firqPending : Bool := false
  irqPending : Bool := false
  deriving DecidableEq, Repr, Inhabited

/-- What a bus callback can see and change. -/
structure Env (σ : Type) where
  pins : Pins
  host : σ

/-- The whole CPU with the machine behind it. -/
structure Core (σ : Type) where
  regs : Regs
  tfm : Tfm
  env : Env σ

/-- `mc6809_nmi`: the pending flag latches on the inactive-to-active edge. -/
def nmi (active : Bool) (p : Pins) : Pins :=
  { p with nmiPending := p.nmiPending || (active && !p.nmiLine), nmiLine := active }

/-- `mc6809_firq`. -/
def firq (active : Bool) (p : Pins) : Pins := { p with firqPending := active }

/-- `mc6809_irq`. -/
def irq (active : Bool) (p : Pins) : Pins := { p with irqPending := active }

/-! ## Bus -/

/-- The callbacks and page tables of a machine.  A page entry is the host address
of the 8 KB block behind that slot; a host byte is loaded without side effect. -/
structure Bus (σ : Type) where
  /-- `cpu->read` and `cpu->write` are set -/
  attached : Bool := true
  fastLimit : Word
  rdPage : σ → Nat → Option Nat
  wrPage : σ → Nat → Option Nat
  load : σ → Nat → Byte
  store : σ → Nat → Byte → σ
  read : Word → Env σ → Byte × Env σ
  write : Word → Byte → Env σ → Env σ

/-- One memory access, through a page table or through a callback. -/
inductive Access
  | pageRead (addr : Word) (val : Byte)
  | pageWrite (addr : Word) (val : Byte)
  | busRead (addr : Word) (val : Byte)
  | busWrite (addr : Word) (val : Byte)
  deriving DecidableEq, Repr, Inhabited

/-- Was the access a call of `cpu->read` or `cpu->write`? -/
def Access.isCallback : Access → Bool
  | .pageRead _ _ => false
  | .pageWrite _ _ => false
  | .busRead _ _ => true
  | .busWrite _ _ => true

/-- What an instruction costs and which accesses it makes, in order. -/
@[ext] structure Cost where
  cycles : Cycles
  trace : List Access
  deriving DecidableEq, Repr, Inhabited

instance : Monoid Cost where
  mul a b := ⟨a.cycles + b.cycles, a.trace ++ b.trace⟩
  one := ⟨0, []⟩
  mul_assoc a b c := Cost.ext (BitVec.add_assoc ..) (List.append_assoc ..)
  one_mul a := Cost.ext (BitVec.zero_add _) (List.nil_append _)
  mul_one a := Cost.ext (BitVec.add_zero _) (List.append_nil _)

@[simp] theorem Cost.mul_cycles (a b : Cost) : (a * b).cycles = a.cycles + b.cycles := rfl
@[simp] theorem Cost.mul_trace (a b : Cost) : (a * b).trace = a.trace ++ b.trace := rfl

/-- A CPU program. -/
abbrev M (σ : Type) (α : Type) : Type := Act Cost (Core σ) α

section
variable {σ : Type}

/-- `cpu->cycles += n`. -/
def tick (n : Cycles) : M σ Unit := Act.emit ⟨n, []⟩

/-- The register file. -/
def regs : M σ Regs := Act.gets (·.regs)

/-- Update the register file. -/
def setRegs (f : Regs → Regs) : M σ Unit := Act.modify fun c => { c with regs := f c.regs }

/-- The block behind an address that the fast path may read, and the offset in it. -/
def Bus.readSlot (bus : Bus σ) (h : σ) (addr : Word) : Option Nat :=
  if addr < bus.fastLimit then
    (bus.rdPage h (addr >>> 13).toNat).map (· + (addr &&& 0x1FFF).toNat)
  else none

/-- The same for writes. -/
def Bus.writeSlot (bus : Bus σ) (h : σ) (addr : Word) : Option Nat :=
  if addr < bus.fastLimit then
    (bus.wrPage h (addr >>> 13).toNat).map (· + (addr &&& 0x1FFF).toNat)
  else none

variable (bus : Bus σ)

def memRead (addr : Word) : M σ Byte := fun c =>
  match bus.readSlot c.env.host addr with
  | some p =>
      let val := bus.load c.env.host p
      ⟨val, ⟨0, [.pageRead addr val]⟩, c⟩
  | none =>
      let r := bus.read addr c.env
      ⟨r.1, ⟨0, [.busRead addr r.1]⟩, { c with env := r.2 }⟩

def memWrite (addr : Word) (val : Byte) : M σ Unit := fun c =>
  match bus.writeSlot c.env.host addr with
  | some p =>
      ⟨(), ⟨0, [.pageWrite addr val]⟩,
        { c with env := { c.env with host := bus.store c.env.host p val } }⟩
  | none => ⟨(), ⟨0, [.busWrite addr val]⟩, { c with env := bus.write addr val c.env }⟩

/-- High byte first. -/
def word (hi lo : Byte) : Word := hi.setWidth 16 <<< 8 ||| lo.setWidth 16

def hiByte (v : Word) : Byte := (v >>> 8).setWidth 8

def loByte (v : Word) : Byte := v.setWidth 8

def memRead16 (addr : Word) : M σ Word := do
  let hi ← memRead bus addr
  let lo ← memRead bus (addr + 1)
  pure (word hi lo)

def memWrite16 (addr val : Word) : M σ Unit := do
  memWrite bus addr (hiByte val)
  memWrite bus (addr + 1) (loByte val)

def fetch8 : M σ Byte := do
  let r ← regs
  setRegs fun r => { r with pc := r.pc + 1 }
  memRead bus r.pc

def fetch16 : M σ Word := do
  let hi ← fetch8 bus
  let lo ← fetch8 bus
  pure (word hi lo)

/-! ## Stacks -/

/-- The hardware stack S and the user stack U. -/
inductive Stack
  | s
  | u
  deriving DecidableEq, Repr, Inhabited

def Stack.ptr : Stack → Regs → Word
  | .s, r => r.s
  | .u, r => r.u

def Stack.setPtr : Stack → Word → Regs → Regs
  | .s, v, r => { r with s := v }
  | .u, v, r => { r with u := v }

def push8 (st : Stack) (val : Byte) : M σ Unit := do
  setRegs fun r => st.setPtr (st.ptr r - 1) r
  let r ← regs
  memWrite bus (st.ptr r) val

def pull8 (st : Stack) : M σ Byte := do
  let r ← regs
  let val ← memRead bus (st.ptr r)
  setRegs fun r => st.setPtr (st.ptr r + 1) r
  pure val

def push16 (st : Stack) (val : Word) : M σ Unit := do
  push8 bus st (loByte val)
  push8 bus st (hiByte val)

def pull16 (st : Stack) : M σ Word := do
  let hi ← pull8 bus st
  let lo ← pull8 bus st
  pure (word hi lo)

def push8s : Byte → M σ Unit := push8 bus .s
def pull8s : M σ Byte := pull8 bus .s
def push16s : Word → M σ Unit := push16 bus .s
def pull16s : M σ Word := pull16 bus .s

def push8u : Byte → M σ Unit := push8 bus .u
def pull8u : M σ Byte := pull8 bus .u

end

/-! ## Accumulators and mode -/

namespace Regs

def a (r : Regs) : Byte := hiByte r.d
def b (r : Regs) : Byte := loByte r.d
def e (r : Regs) : Byte := hiByte r.w
def f (r : Regs) : Byte := loByte r.w

def setA (val : Byte) (r : Regs) : Regs :=
  { r with d := (r.d &&& 0x00FF) ||| (val.setWidth 16 <<< 8) }
def setB (val : Byte) (r : Regs) : Regs := { r with d := (r.d &&& 0xFF00) ||| val.setWidth 16 }
def setE (val : Byte) (r : Regs) : Regs :=
  { r with w := (r.w &&& 0x00FF) ||| (val.setWidth 16 <<< 8) }
def setF (val : Byte) (r : Regs) : Regs := { r with w := (r.w &&& 0xFF00) ||| val.setWidth 16 }

/-- `NATIVE()`: bit NM of MD. -/
def native (r : Regs) : Bool := r.md &&& 0x01 != 0

/-- Replace the condition codes. -/
def mapCc (g : Byte → Byte) (r : Regs) : Regs := { r with cc := g r.cc }

end Regs

/-! ## Halves of a word -/

theorem getLsbD_lowMask (i : Nat) : (0x00FF#16).getLsbD i = decide (i < 8) := by
  by_cases h : i < 16
  · revert i
    decide
  · rw [BitVec.getLsbD_of_ge _ _ (by omega)]
    simp
    omega

theorem getLsbD_highMask (i : Nat) : (0xFF00#16).getLsbD i = decide (8 ≤ i ∧ i < 16) := by
  by_cases h : i < 16
  · revert i
    decide
  · rw [BitVec.getLsbD_of_ge _ _ (by omega)]
    simp
    omega
theorem loByte_setWidth (v : Byte) : loByte (v.setWidth 16) = v := by
  simp [loByte]

theorem loByte_word (hi lo : Byte) : loByte (word hi lo) = lo := by
  simp [loByte, word, BitVec.setWidth_or]

theorem hiByte_word (hi lo : Byte) : hiByte (word hi lo) = hi := by
  ext i h
  simp [hiByte, word, BitVec.getLsbD_setWidth]
  grind

theorem word_hiByte_loByte (v : Word) : word (hiByte v) (loByte v) = v := by
  unfold word hiByte loByte
  ext i h
  simp
  grind

namespace Regs

theorem setA_setB_comm (a b : Byte) (r : Regs) : (r.setA a).setB b = (r.setB b).setA a := by
  simp only [setA, setB, mk.injEq, and_true, true_and]
  apply BitVec.eq_of_getLsbD_eq
  intro i h
  simp [getLsbD_lowMask, getLsbD_highMask]
  grind

theorem a_setA (v : Byte) (r : Regs) : (r.setA v).a = v := by
  unfold setA a hiByte
  apply BitVec.eq_of_getLsbD_eq
  intro i h
  simp [getLsbD_lowMask]
  grind

theorem b_setA (v : Byte) (r : Regs) : (r.setA v).b = r.b := by
  unfold setA b loByte
  apply BitVec.eq_of_getLsbD_eq
  intro i h
  have hones : (255#8)[i] = true := by
    revert i
    decide
  simp [h, hones]

theorem a_setB (v : Byte) (r : Regs) : (r.setB v).a = r.a := by
  unfold setB a hiByte
  apply BitVec.eq_of_getLsbD_eq
  intro i h
  simp [getLsbD_highMask, h]
  grind

theorem b_setB (v : Byte) (r : Regs) : (r.setB v).b = v := by
  unfold setB b loByte
  apply BitVec.eq_of_getLsbD_eq
  intro i h
  simp [h]

end Regs

/-! ## Condition codes -/

def flagE : Byte := 0x80
def flagF : Byte := 0x40
def flagH : Byte := 0x20
def flagI : Byte := 0x10
def flagN : Byte := 0x08
def flagZ : Byte := 0x04
def flagV : Byte := 0x02
def flagC : Byte := 0x01

def flagIf (f : Byte) (c : Bool) : Byte := if c then f else 0

/-- `cc = (cc & ~mask) | f`: the shape of every flag update. -/
def putFlags (mask f cc : Byte) : Byte := (cc &&& ~~~mask) ||| f

def ccSet (f cc : Byte) : Byte := putFlags f f cc
def ccClr (f cc : Byte) : Byte := putFlags f 0 cc
def ccPut (f : Byte) (c : Bool) (cc : Byte) : Byte := putFlags f (flagIf f c) cc
def ccTst (f cc : Byte) : Bool := cc &&& f != 0

/-- Two updates of the flags are one. -/
theorem putFlags_putFlags (m₁ f₁ m₂ f₂ cc : Byte) :
    putFlags m₂ f₂ (putFlags m₁ f₁ cc) =
      putFlags (m₁ ||| m₂) ((f₁ &&& ~~~m₂) ||| f₂) cc := by
  unfold putFlags
  ext i h
  simp
  grind

/-- The carry flag as a number. -/
def carryIn (cc : Byte) : Byte := if ccTst flagC cc then 1 else 0

def updateNz8 (val cc : Byte) : Byte :=
  putFlags (flagN ||| flagZ) (flagIf flagN (val &&& 0x80 != 0) ||| flagIf flagZ (val == 0)) cc

def updateNz16 (val : Word) (cc : Byte) : Byte :=
  putFlags (flagN ||| flagZ) (flagIf flagN (val &&& 0x8000 != 0) ||| flagIf flagZ (val == 0)) cc

/-- N and Z from the value, V clear: loads, stores, logic. -/
def logic8 (val cc : Byte) : Byte := ccClr flagV (updateNz8 val cc)

def logic16 (val : Word) (cc : Byte) : Byte := ccClr flagV (updateNz16 val cc)

/-- 8-bit addition: the sum and H, N, Z, V, C. -/
def opAdd8 (a b carry cc : Byte) : Byte × Byte :=
  let result : Word := a.setWidth 16 + b.setWidth 16 + carry.setWidth 16
  let r8 : Byte := result.setWidth 8
  (r8, putFlags (flagH ||| flagN ||| flagZ ||| flagV ||| flagC)
    (flagIf flagH ((a ^^^ b ^^^ r8) &&& 0x10 != 0)
      ||| flagIf flagN (r8 &&& 0x80 != 0)
      ||| flagIf flagZ (r8 == 0)
      ||| flagIf flagV ((a ^^^ r8) &&& (b ^^^ r8) &&& 0x80 != 0)
      ||| flagIf flagC (result &&& 0x100 != 0)) cc)

/-- 8-bit subtraction: the difference and N, Z, V, C. -/
def opSub8 (a b carry cc : Byte) : Byte × Byte :=
  let result : Word := a.setWidth 16 - b.setWidth 16 - carry.setWidth 16
  let r8 : Byte := result.setWidth 8
  (r8, putFlags (flagN ||| flagZ ||| flagV ||| flagC)
    (flagIf flagN (r8 &&& 0x80 != 0)
      ||| flagIf flagZ (r8 == 0)
      ||| flagIf flagV ((a ^^^ b) &&& (a ^^^ r8) &&& 0x80 != 0)
      ||| flagIf flagC (result &&& 0x100 != 0)) cc)

/-- N, Z, V, C of a 16-bit result with its carry out. -/
def flags16 (r16 : Word) (v c : Bool) (cc : Byte) : Byte :=
  putFlags (flagN ||| flagZ ||| flagV ||| flagC)
    (flagIf flagN (r16 &&& 0x8000 != 0)
      ||| flagIf flagZ (r16 == 0)
      ||| flagIf flagV v
      ||| flagIf flagC c) cc

/-- `h_add16c`: a + b + carry.  `op_add16` is the case of carry 0. -/
def hAdd16c (a b : Word) (carry cc : Byte) : Word × Byte :=
  let result : BitVec 32 := a.setWidth 32 + b.setWidth 32 + carry.setWidth 32
  let r16 : Word := result.setWidth 16
  (r16, flags16 r16 ((a ^^^ r16) &&& (b ^^^ r16) &&& 0x8000 != 0)
    (result &&& 0x10000 != 0) cc)

/-- `h_sub16c`: a - b - carry.  `op_sub16` is the case of carry 0. -/
def hSub16c (a b : Word) (carry cc : Byte) : Word × Byte :=
  let result : BitVec 32 := a.setWidth 32 - b.setWidth 32 - carry.setWidth 32
  let r16 : Word := result.setWidth 16
  (r16, flags16 r16 ((a ^^^ b) &&& (a ^^^ r16) &&& 0x8000 != 0)
    (result &&& 0x10000 != 0) cc)

def opAdd16 (a b : Word) (cc : Byte) : Word × Byte := hAdd16c a b 0 cc

def opSub16 (a b : Word) (cc : Byte) : Word × Byte := hSub16c a b 0 cc

end CocoEmulator.Cpu
