/-
  Chip/Mc6821.lean --- the 6821 PIA (mc6821.cpp).

  The two halves of the chip hold the same registers and run the same code, so a
  half is a `Port` and each function of the source is its half's instance of one
  program.  A program emits the calls it makes of `irq_a_callback` and
  `irq_b_callback`; whether a callback is set, and what it does, is the machine's
  (`Wiring`).

  Control register bits:

      7      IRQ1 flag, set by a CA1/CB1 transition
      6      IRQ2 flag
      5      CA2/CB2 is an output
      3      IRQ2 enable while bit 5 is clear
      2      the data register is selected, else the direction register
      1      CA1/CB1 edge: 1 rising, 0 falling
      0      IRQ1 enable

  `Op.spec` says once what an access or a transition does to the outputs.
-/
import Mathlib.Algebra.FreeMonoid.Basic
import CocoEmulator.Base.Effect
import CocoEmulator.Base.Words

set_option autoImplicit false

namespace CocoEmulator.Chip

open CocoEmulator.Base

namespace Mc6821

/-- The two halves. -/
inductive Side
  | a
  | b
  deriving DecidableEq, Repr, Inhabited

def Side.other : Side → Side
  | .a => .b
  | .b => .a

/-- The registers of one half: `data_x`, `ddr_x`, `ctrl_x` and `input_x`. -/
structure Port where
  data : Byte := 0
  ddr : Byte := 0
  ctrl : Byte := 0
  input : Byte := 0xFF
  deriving DecidableEq, Repr, Inhabited

end Mc6821

/-- The chip after `mc6821_init`. -/
structure Mc6821 where
  a : Mc6821.Port := {}
  b : Mc6821.Port := {}
  deriving DecidableEq, Repr, Inhabited

namespace Mc6821

def port (pia : Mc6821) : Side → Port
  | .a => pia.a
  | .b => pia.b

def setPort (pia : Mc6821) : Side → Port → Mc6821
  | .a, p => { pia with a := p }
  | .b, p => { pia with b := p }

@[simp] theorem port_setPort (pia : Mc6821) (s : Side) (p : Port) :
    (pia.setPort s p).port s = p := by
  cases s <;> rfl

@[simp] theorem port_setPort_other (pia : Mc6821) (s : Side) (p : Port) :
    (pia.setPort s p).port s.other = pia.port s.other := by
  cases s <;> rfl

/-! ## Control register -/

def crIrq1 : Byte := 0x80
def crIrq2 : Byte := 0x40
def crDdrSel : Byte := 0x04

/-- `v & mask` as a condition. -/
def has (v mask : Byte) : Bool := v &&& mask != 0

/-- The level a control register drives: a flag is set and enabled. -/
def irqLevel (ctrl : Byte) : Bool :=
  (has ctrl crIrq1 && has ctrl 0x01) ||
    (has ctrl crIrq2 && has ctrl 0x08 && !has ctrl 0x20)

/-- Is the output of this half active? -/
def active (pia : Mc6821) (s : Side) : Bool := irqLevel (pia.port s).ctrl

/-- Does an access of the data register of this half reach it? -/
def dataSelected (pia : Mc6821) (s : Side) : Bool := has (pia.port s).ctrl crDdrSel

/-! ## Programs -/

/-- A call of one of the callbacks. -/
structure Call where
  side : Side
  active : Bool
  deriving DecidableEq, Repr, Inhabited

/-- A PIA program, with the callback calls it makes. -/
abbrev M (α : Type) : Type := Act (FreeMonoid Call) Mc6821 α

def call (c : Call) : M Unit := Act.emit (FreeMonoid.of c)

/-- `pia_update_irq_x`. -/
def updateIrq (s : Side) : M Unit := do
  let level ← Act.gets (·.active s)
  call ⟨s, level⟩

def piaUpdateIrqA : M Unit := updateIrq .a
def piaUpdateIrqB : M Unit := updateIrq .b

/-- Replace the registers of one half. -/
def modifyPort (s : Side) (f : Port → Port) : M Unit :=
  Act.modify fun pia => pia.setPort s (f (pia.port s))

/-- The same, and tell the callback the output that results. -/
def changePort (s : Side) (f : Port → Port) : M Unit := do
  modifyPort s f
  updateIrq s

/-- Reading a selected data register clears both flags. -/
def Port.clearFlags (p : Port) : Port := { p with ctrl := p.ctrl &&& ~~~(crIrq1 ||| crIrq2) }

/-- What the data register reads: outputs from the latch, inputs from the pins. -/
def Port.pins (p : Port) : Byte := (p.data &&& p.ddr) ||| (p.input &&& ~~~p.ddr)

/-- `mc6821_read` of DA or DB with the data register selected. -/
def readSelected (s : Side) : M Byte := do
  changePort s Port.clearFlags
  Act.gets fun pia => (pia.port s).pins

/-- `mc6821_read` of DA or DB. -/
def readData (s : Side) : M Byte := fun pia =>
  if pia.dataSelected s then readSelected s pia
  else ⟨(pia.port s).ddr, 1, pia⟩

/-- `mc6821_read` of CRA or CRB. -/
def readCtrl (s : Side) : M Byte := Act.gets fun pia => (pia.port s).ctrl

/-- `mc6821_read`. -/
def mc6821Read (reg : Byte) : M Byte :=
  match reg &&& 0x03 with
  | 0 => readData .a
  | 1 => readCtrl .a
  | 2 => readData .b
  | 3 => readCtrl .b
  | _ => pure 0xFF

/-- `mc6821_write` of DA or DB: no output is recomputed. -/
def writeData (s : Side) (val : Byte) : M Unit :=
  modifyPort s fun p =>
    if has p.ctrl crDdrSel then { p with data := val } else { p with ddr := val }

/-- The flags are read-only. -/
def Port.setCtrl (val : Byte) (p : Port) : Port :=
  { p with ctrl := (p.ctrl &&& 0xC0) ||| (val &&& 0x3F) }

/-- `mc6821_write` of CRA or CRB. -/
def writeCtrl (s : Side) (val : Byte) : M Unit := changePort s (.setCtrl val)

/-- `mc6821_write`. -/
def mc6821Write (reg val : Byte) : M Unit :=
  match reg &&& 0x03 with
  | 0 => writeData .a val
  | 1 => writeCtrl .a val
  | 2 => writeData .b val
  | 3 => writeCtrl .b val
  | _ => pure ()

/-- Is this the edge the control register selects? -/
def edgeMatch (ctrl : Byte) (rising : Bool) : Bool := rising == has ctrl 0x02

def Port.flag (p : Port) : Port := { p with ctrl := p.ctrl ||| crIrq1 }

/-- The selected edge on CA1 or CB1 sets the IRQ1 flag. -/
def edge (s : Side) : M Unit := changePort s Port.flag

def transition (s : Side) (rising : Bool) : M Unit := fun pia =>
  if edgeMatch (pia.port s).ctrl rising then edge s pia else ⟨(), 1, pia⟩

def mc6821Ca1Transition (rising : Bool) : M Unit := transition .a rising
def mc6821Cb1Transition (rising : Bool) : M Unit := transition .b rising

/-- `mc6821_reset`: the callbacks are told that both outputs are inactive. -/
def mc6821Reset : M Unit := do
  Act.modify fun _ => {}
  call ⟨.a, false⟩
  call ⟨.b, false⟩

def mc6821SetInputA (val : Byte) (pia : Mc6821) : Mc6821 :=
  { pia with a := { pia.a with input := val } }

def mc6821SetInputB (val : Byte) (pia : Mc6821) : Mc6821 :=
  { pia with b := { pia.b with input := val } }

/-! ## What an access does to the outputs -/

/-- Everything that can happen to a half. -/
inductive Op
  | readData
  | readCtrl
  | writeData (val : Byte)
  | writeCtrl (val : Byte)
  | transition (rising : Bool)
  deriving DecidableEq, Repr, Inhabited

/-- The program of an operation.  The value read is dropped. -/
def Op.run (s : Side) : Op → M Unit
  | .readData => Mc6821.readData s >>= fun _ => pure ()
  | .readCtrl => Mc6821.readCtrl s >>= fun _ => pure ()
  | .writeData val => Mc6821.writeData s val
  | .writeCtrl val => Mc6821.writeCtrl s val
  | .transition rising => Mc6821.transition s rising

/-- Does the operation recompute the output of its half? -/
def Op.updates (pia : Mc6821) (s : Side) : Op → Bool
  | .readData => pia.dataSelected s
  | .readCtrl => false
  | .writeData _ => false
  | .writeCtrl _ => true
  | .transition rising => edgeMatch (pia.port s).ctrl rising

/-- Does one of the flags in `ctrl` raise the output under the enables in `val`? -/
def enabledBy (ctrl val : Byte) : Bool :=
  (has ctrl crIrq1 && has val 0x01) || (has ctrl crIrq2 && has val 0x08 && !has val 0x20)

/-- Where it does, does the output end up active?  A data read clears the flags, a
control write puts new enables to the flags there are, an edge adds a flag. -/
def Op.raises (pia : Mc6821) (s : Side) : Op → Bool
  | .readData => false
  | .readCtrl => false
  | .writeData _ => false
  | .writeCtrl val => enabledBy (pia.port s).ctrl val
  | .transition _ => has (pia.port s).ctrl 0x01 || pia.active s

/-- A mask of one bit reads that bit. -/
theorem has_bit (v : Byte) (i : Nat) (hi : i < 8) : has v (BitVec.twoPow 8 i) = v.getLsbD i := by
  rw [has, BitVec.and_twoPow]
  cases v.getLsbD i with
  | false => rfl
  | true =>
    have hbit : (BitVec.twoPow 8 i).getLsbD i = true := by simp [hi]
    have hne : BitVec.twoPow 8 i ≠ 0 := by
      intro h0
      rw [h0] at hbit
      exact absurd hbit (by simp)
    simpa using hne

theorem irqLevel_bits (c : Byte) :
    irqLevel c = (c.getLsbD 7 && c.getLsbD 0 || c.getLsbD 6 && c.getLsbD 3 && !c.getLsbD 5) := by
  rw [← has_bit c 7 (by omega), ← has_bit c 6 (by omega), ← has_bit c 5 (by omega),
    ← has_bit c 3 (by omega), ← has_bit c 0 (by omega)]
  rfl

theorem enabledBy_bits (c v : Byte) :
    enabledBy c v =
      (c.getLsbD 7 && v.getLsbD 0 || c.getLsbD 6 && v.getLsbD 3 && !v.getLsbD 5) := by
  rw [← has_bit c 7 (by omega), ← has_bit c 6 (by omega), ← has_bit v 5 (by omega),
    ← has_bit v 3 (by omega), ← has_bit v 0 (by omega)]
  rfl

theorem irqLevel_clearFlags (p : Port) : irqLevel p.clearFlags.ctrl = false := by
  rw [irqLevel_bits]
  simp [Port.clearFlags, crIrq1, crIrq2]

theorem irqLevel_setCtrl (val : Byte) (p : Port) :
    irqLevel (p.setCtrl val).ctrl = enabledBy p.ctrl val := by
  rw [irqLevel_bits, enabledBy_bits]
  simp [Port.setCtrl]

theorem irqLevel_flag (p : Port) :
    irqLevel p.flag.ctrl = (has p.ctrl 0x01 || irqLevel p.ctrl) := by
  have h0 : has p.ctrl 0x01 = p.ctrl.getLsbD 0 := has_bit p.ctrl 0 (by omega)
  have h7 : (p.ctrl ||| crIrq1).getLsbD 7 = true := by simp [crIrq1]
  have hrest : ∀ i, i < 7 → (p.ctrl ||| crIrq1).getLsbD i = p.ctrl.getLsbD i := by
    intro i hi
    have hmask : crIrq1.getLsbD i = false := by
      rw [show crIrq1 = BitVec.twoPow 8 7 from rfl, BitVec.getLsbD_twoPow]
      simpa using fun _ => by omega
    rw [BitVec.getLsbD_or, hmask, Bool.or_false]
  rw [h0, irqLevel_bits, irqLevel_bits]
  simp only [Port.flag]
  rw [h7, hrest 0 (by omega), hrest 3 (by omega), hrest 5 (by omega), hrest 6 (by omega)]
  cases p.ctrl.getLsbD 0 <;> cases p.ctrl.getLsbD 7 <;> rfl

/-- A changed half reports the output its new control register drives. -/
theorem changePort_apply (s : Side) (f : Port → Port) (pia : Mc6821) :
    changePort s f pia =
      ⟨(), FreeMonoid.of ⟨s, irqLevel (f (pia.port s)).ctrl⟩,
        pia.setPort s (f (pia.port s))⟩ := by
  unfold changePort modifyPort updateIrq call
  rw [Act.modify_bind, Act.gets_bind, Act.emit_apply, active, port_setPort]

theorem readData_run (s : Side) (pia : Mc6821) :
    Op.readData.run s pia =
      if pia.dataSelected s then changePort s Port.clearFlags pia else ⟨(), 1, pia⟩ := by
  have hrun : Op.readData.run s pia = (readData s >>= fun _ => pure ()) pia := rfl
  have hread : readData s pia =
    if pia.dataSelected s then readSelected s pia else ⟨(pia.port s).ddr, 1, pia⟩ := rfl
  rw [hrun, Act.bind_apply, hread]
  cases pia.dataSelected s with
  | false => rfl
  | true =>
    simp only [if_true]
    rw [readSelected, Act.bind_apply, changePort_apply]
    simp

theorem writeData_ctrl (s : Side) (val : Byte) (pia : Mc6821) :
    (((Op.writeData val).run s pia).st.port s).ctrl = (pia.port s).ctrl := by
  have hst : ((Op.writeData val).run s pia).st = pia.setPort s
      (if has (pia.port s).ctrl crDdrSel then { pia.port s with data := val }
        else { pia.port s with ddr := val }) := rfl
  rw [hst, port_setPort]
  split <;> rfl

theorem transition_run (s : Side) (rising : Bool) (pia : Mc6821) :
    (Op.transition rising).run s pia =
      if edgeMatch (pia.port s).ctrl rising then changePort s Port.flag pia
      else ⟨(), 1, pia⟩ := rfl

/-- What is said of an operation: it calls its own half's callback or none, with the
level its half then has, and leaves the other half alone. -/
structure Reports (s : Side) (updates raises : Bool) (pia : Mc6821)
    (r : Outcome (FreeMonoid Call) Mc6821 Unit) : Prop where
  calls : r.out = if updates then FreeMonoid.of ⟨s, raises⟩ else 1
  own : r.st.active s = if updates then raises else pia.active s
  other : r.st.port s.other = pia.port s.other

theorem Reports.change {s : Side} {f : Port → Port} {raises : Bool} {pia : Mc6821}
    (h : irqLevel (f (pia.port s)).ctrl = raises) :
    Reports s true raises pia (changePort s f pia) := by
  rw [changePort_apply, h]
  refine ⟨rfl, ?_, port_setPort_other _ _ _⟩
  rw [active, port_setPort, h]
  rfl

theorem Reports.silent {s : Side} {raises : Bool} {pia pia' : Mc6821}
    (h : (pia'.port s).ctrl = (pia.port s).ctrl) (ho : pia'.port s.other = pia.port s.other) :
    Reports s false raises pia ⟨(), 1, pia'⟩ := by
  refine ⟨rfl, ?_, ho⟩
  rw [active, h]
  rfl

theorem Op.reports (op : Op) (s : Side) (pia : Mc6821) :
    Reports s (op.updates pia s) (op.raises pia s) pia (op.run s pia) := by
  cases op with
  | readData =>
    rw [readData_run, Op.updates]
    cases pia.dataSelected s with
    | false => exact .silent rfl rfl
    | true => exact .change (irqLevel_clearFlags _)
  | readCtrl => exact .silent rfl rfl
  | writeData val => exact .silent (writeData_ctrl s val pia) (port_setPort_other _ _ _)
  | writeCtrl val => exact .change (irqLevel_setCtrl val _)
  | transition rising =>
    rw [transition_run, Op.updates]
    cases edgeMatch (pia.port s).ctrl rising with
    | false => exact .silent rfl rfl
    | true => exact .change (irqLevel_flag _)

/-! ## Register numbers -/

/-- The half a register belongs to. -/
def sideOf (reg : Byte) : Side := if has reg 0x02 then .b else .a

/-- Is it the control register of its half? -/
def isCtrl (reg : Byte) : Bool := has reg 0x01

def readOp (reg : Byte) : Op := if isCtrl reg then .readCtrl else .readData

def writeOp (reg val : Byte) : Op := if isCtrl reg then .writeCtrl val else .writeData val

set_option maxRecDepth 4000 in
theorem reg_cases (reg : Byte) :
    (reg &&& 3 = 0 ∧ sideOf reg = .a ∧ isCtrl reg = false) ∨
    (reg &&& 3 = 1 ∧ sideOf reg = .a ∧ isCtrl reg = true) ∨
    (reg &&& 3 = 2 ∧ sideOf reg = .b ∧ isCtrl reg = false) ∨
    (reg &&& 3 = 3 ∧ sideOf reg = .b ∧ isCtrl reg = true) := by
  revert reg
  decide

/-- `mc6821_read` performs the operation of its register. -/
theorem mc6821Read_op (reg : Byte) (pia : Mc6821) :
    (mc6821Read reg pia).out = ((readOp reg).run (sideOf reg) pia).out ∧
      (mc6821Read reg pia).st = ((readOp reg).run (sideOf reg) pia).st := by
  unfold mc6821Read readOp
  rcases reg_cases reg with ⟨hr, hs, hc⟩ | ⟨hr, hs, hc⟩ | ⟨hr, hs, hc⟩ | ⟨hr, hs, hc⟩ <;>
    rw [hr, hs, hc] <;> simp [Op.run, Act.bind_apply]

/-- `mc6821_write` performs the operation of its register. -/
theorem mc6821Write_op (reg val : Byte) (pia : Mc6821) :
    (mc6821Write reg val pia).out = ((writeOp reg val).run (sideOf reg) pia).out ∧
      (mc6821Write reg val pia).st = ((writeOp reg val).run (sideOf reg) pia).st := by
  unfold mc6821Write writeOp
  rcases reg_cases reg with ⟨hr, hs, hc⟩ | ⟨hr, hs, hc⟩ | ⟨hr, hs, hc⟩ | ⟨hr, hs, hc⟩ <;>
    rw [hr, hs, hc] <;> simp [Op.run]

/-! ## Callbacks -/

/-- The callbacks of a machine: null, or a function of what they drive. -/
structure Wiring (π : Type) where
  irqA : Option (Bool → π → π)
  irqB : Option (Bool → π → π)

variable {π : Type}

def Wiring.callback (w : Wiring π) : Side → Option (Bool → π → π)
  | .a => w.irqA
  | .b => w.irqB

/-- Make one call, if the callback is set. -/
def Wiring.apply (w : Wiring π) (c : Call) (p : π) : π :=
  match w.callback c.side with
  | some f => f c.active p
  | none => p

/-- Make the calls of a program, in order. -/
def Wiring.deliver (w : Wiring π) (calls : FreeMonoid Call) (p : π) : π :=
  calls.toList.foldl (fun p c => w.apply c p) p

@[simp] theorem Wiring.deliver_one (w : Wiring π) (p : π) : w.deliver 1 p = p := rfl

@[simp] theorem Wiring.deliver_of (w : Wiring π) (c : Call) (p : π) :
    w.deliver (FreeMonoid.of c) p = w.apply c p := rfl

theorem Wiring.deliver_mul (w : Wiring π) (cs cs' : FreeMonoid Call) (p : π) :
    w.deliver (cs * cs') p = w.deliver cs' (w.deliver cs p) := by
  unfold deliver
  rw [FreeMonoid.toList_mul, List.foldl_append]

/-- After a reset both callbacks have been told that their output is inactive. -/
theorem mc6821Reset_apply (pia : Mc6821) :
    mc6821Reset pia =
      ⟨(), FreeMonoid.of ⟨.a, false⟩ * FreeMonoid.of ⟨.b, false⟩, ({} : Mc6821)⟩ := by
  unfold mc6821Reset call
  rw [Act.modify_bind, Act.bind_apply, Act.emit_apply, Act.emit_apply]

theorem active_init (s : Side) : ({} : Mc6821).active s = false := by
  cases s <;> decide

end Mc6821

end CocoEmulator.Chip
