/-
  Machine/Coco2Lines.lean --- the interrupt lines of the CoCo 2 (machine.cpp).

  Each half of a PIA has a callback of its own, and both callbacks of PIA0 store
  into `cpu->irq_pending`, both of PIA1 into `cpu->firq_pending`.  On the board
  the two outputs of a PIA are wired together.  A callback stores the level of
  its half alone, so the line is the OR of the two outputs exactly as long as no
  half is recomputed to inactive while the other one is active (`Op.safe`).

  Not modelled: the sound and VDG mode updates that follow a PIA write; they read
  the PIA and change neither it nor the lines.
-/
import CocoEmulator.Base.Run
import CocoEmulator.Cpu.State
import CocoEmulator.Machine.Keyboard

set_option autoImplicit false

namespace CocoEmulator.Machine

open CocoEmulator.Base CocoEmulator.Chip CocoEmulator.Cpu CocoEmulator.Chip.Mc6821

/-- The part of a CoCo 2 the interrupt lines depend on. -/
structure Coco2 where
  pia0 : Mc6821 := {}
  pia1 : Mc6821 := {}
  pins : Pins := {}
  deriving DecidableEq, Repr, Inhabited

/-! ## Routing -/

def pia0IrqACoco2 (active : Bool) (p : Pins) : Pins := irq active p
def pia0IrqBCoco2 (active : Bool) (p : Pins) : Pins := irq active p
def pia1IrqACoco2 (active : Bool) (p : Pins) : Pins := firq active p
def pia1IrqBCoco2 (active : Bool) (p : Pins) : Pins := firq active p

/-- The callbacks `machine_init_coco2` wires. -/
def pia0Wiring : Wiring Pins := ⟨some pia0IrqACoco2, some pia0IrqBCoco2⟩
def pia1Wiring : Wiring Pins := ⟨some pia1IrqACoco2, some pia1IrqBCoco2⟩

/-- Run a program of PIA0 and make its calls. -/
def withPia0 {α : Type} (prog : Mc6821.M α) (m : Coco2) : α × Coco2 :=
  let r := prog m.pia0
  (r.val, { m with pia0 := r.st, pins := pia0Wiring.deliver r.out m.pins })

/-- Run a program of PIA1 and make its calls. -/
def withPia1 {α : Type} (prog : Mc6821.M α) (m : Coco2) : α × Coco2 :=
  let r := prog m.pia1
  (r.val, { m with pia1 := r.st, pins := pia1Wiring.deliver r.out m.pins })

/-- A PIA address: `$FF00-$FF1F` is PIA0, `$FF20-$FF3F` is PIA1. -/
structure PiaAddr where
  addr : Word
  lo : 0xFF00 ≤ addr
  hi : addr < 0xFF40

def PiaAddr.isPia0 (a : PiaAddr) : Bool := a.addr < 0xFF20

/-- `addr & 0x03`. -/
def PiaAddr.reg (a : PiaAddr) : Byte := (a.addr &&& 0x03).setWidth 8

/-- The PIA part of `machine_read_coco2`. -/
def machineReadCoco2 (hal : Hal) (a : PiaAddr) (m : Coco2) : Byte × Coco2 :=
  if a.isPia0 then
    withPia0 (mc6821Read a.reg) { m with pia0 := scanned hal m.pia0 m.pia1 a.reg }
  else
    withPia1 (mc6821Read a.reg) m

/-- The PIA part of `machine_write_coco2`. -/
def machineWriteCoco2 (a : PiaAddr) (val : Byte) (m : Coco2) : Coco2 :=
  if a.isPia0 then (withPia0 (mc6821Write a.reg val) m).2
  else (withPia1 (mc6821Write a.reg val) m).2

/-- The PIA part of `machine_reset_coco2`. -/
def machineResetCoco2 (m : Coco2) : Coco2 :=
  (withPia1 mc6821Reset (withPia0 mc6821Reset m).2).2

/-- What moves the PIAs of a CoCo 2: guest accesses, field sync on PIA0 CB1, and the
cartridge line on PIA1 CB1. -/
inductive Event
  | read (hal : Hal) (a : PiaAddr)
  | write (a : PiaAddr) (val : Byte)
  | fieldSync (rising : Bool)
  | cart (rising : Bool)

def Event.step : Event → Coco2 → Coco2
  | .read hal a, m => (machineReadCoco2 hal a m).2
  | .write a val, m => machineWriteCoco2 a val m
  | .fieldSync rising, m => (withPia0 (mc6821Cb1Transition rising) m).2
  | .cart rising, m => (withPia1 (mc6821Cb1Transition rising) m).2

/-! ## The law, and when an event keeps it -/

/-- Each line is the OR of the two outputs of its PIA. -/
def LinesFollow (m : Coco2) : Prop :=
  m.pins.irqPending = (m.pia0.active .a || m.pia0.active .b) ∧
    m.pins.firqPending = (m.pia1.active .a || m.pia1.active .b)

instance (m : Coco2) : Decidable (LinesFollow m) := inferInstanceAs (Decidable (_ ∧ _))

/-- An operation of one half is safe unless it recomputes the half to inactive while
the other half is active. -/
def isSafe (pia : Mc6821) (s : Side) (op : Op) : Bool :=
  !op.updates pia s || op.raises pia s || !pia.active s.other

/-- What an event asks of the PIA it reaches. -/
def Event.safe : Event → Coco2 → Bool
  | .read _ a, m =>
      if a.isPia0 then isSafe m.pia0 (sideOf a.reg) (readOp a.reg)
      else isSafe m.pia1 (sideOf a.reg) (readOp a.reg)
  | .write a val, m =>
      if a.isPia0 then isSafe m.pia0 (sideOf a.reg) (writeOp a.reg val)
      else isSafe m.pia1 (sideOf a.reg) (writeOp a.reg val)
  | .fieldSync rising, m => isSafe m.pia0 .b (.transition rising)
  | .cart rising, m => isSafe m.pia1 .b (.transition rising)

/-! ## One operation and one line -/

/-- A wiring whose two callbacks store into one line. -/
structure Drives (w : Wiring Pins) (line : Pins → Bool) : Prop where
  store : ∀ s active p, line (w.apply ⟨s, active⟩ p) = active

theorem pia0Wiring_drives : Drives pia0Wiring Pins.irqPending :=
  ⟨fun s _ _ => by cases s <;> rfl⟩

theorem pia1Wiring_drives : Drives pia1Wiring Pins.firqPending :=
  ⟨fun s _ _ => by cases s <;> rfl⟩

/-- The OR of the two outputs, from the side of either half. -/
theorem active_or (pia : Mc6821) (s : Side) :
    (pia.active .a || pia.active .b) = (pia.active s || pia.active s.other) := by
  cases s with
  | a => rfl
  | b => exact Bool.or_comm _ _

/-- The line is the OR again after an operation exactly when the operation is safe. -/
theorem line_follows_iff {w : Wiring Pins} {line : Pins → Bool} (hw : Drives w line)
    {s : Side} {op : Op} {pia : Mc6821} {p : Pins}
    {r : Outcome (FreeMonoid Call) Mc6821 Unit}
    (hr : Reports s (op.updates pia s) (op.raises pia s) pia r)
    (hline : line p = (pia.active .a || pia.active .b)) :
    line (w.deliver r.out p) = (r.st.active .a || r.st.active .b) ↔ isSafe pia s op = true := by
  have hother : r.st.active s.other = pia.active s.other := by
    rw [active, hr.other]
    rfl
  rw [hr.calls, active_or r.st s, hr.own, hother, isSafe]
  cases op.updates pia s with
  | false => simp [hline, active_or pia s]
  | true =>
    simp only [if_true, Wiring.deliver_of, hw.store]
    cases op.raises pia s <;> cases pia.active s.other <;> decide

/-- An operation calls only its own PIA's callbacks, so the other line stays. -/
theorem deliver_keeps {w : Wiring Pins} {line : Pins → Bool}
    (hw : ∀ c p, line (w.apply c p) = line p) (calls : FreeMonoid Call) (p : Pins) :
    line (w.deliver calls p) = line p := by
  unfold Wiring.deliver
  induction calls.toList generalizing p with
  | nil => rfl
  | cons c cs ih => exact (ih _).trans (hw c p)

theorem pia0Wiring_firq (c : Call) (p : Pins) :
    (pia0Wiring.apply c p).firqPending = p.firqPending := by
  cases c with
  | mk s active => cases s <;> rfl

theorem pia1Wiring_irq (c : Call) (p : Pins) :
    (pia1Wiring.apply c p).irqPending = p.irqPending := by
  cases c with
  | mk s active => cases s <;> rfl

/-- A program of PIA0 that performs the operation `op` of its half `s`. -/
theorem withPia0_follows_iff {α : Type} {prog : Mc6821.M α} {s : Side} {op : Op} {m : Coco2}
    (hprog : (prog m.pia0).out = (op.run s m.pia0).out ∧
      (prog m.pia0).st = (op.run s m.pia0).st)
    (h : LinesFollow m) :
    LinesFollow (withPia0 prog m).2 ↔ isSafe m.pia0 s op = true := by
  obtain ⟨hirq, hfirq⟩ := h
  obtain ⟨hout, hst⟩ := hprog
  have hfollow := line_follows_iff pia0Wiring_drives (op.reports s m.pia0) hirq
  rw [← hout, ← hst] at hfollow
  rw [← hfollow]
  refine and_iff_left ?_
  exact (deliver_keeps pia0Wiring_firq _ _).trans hfirq

theorem withPia1_follows_iff {α : Type} {prog : Mc6821.M α} {s : Side} {op : Op} {m : Coco2}
    (hprog : (prog m.pia1).out = (op.run s m.pia1).out ∧
      (prog m.pia1).st = (op.run s m.pia1).st)
    (h : LinesFollow m) :
    LinesFollow (withPia1 prog m).2 ↔ isSafe m.pia1 s op = true := by
  obtain ⟨hirq, hfirq⟩ := h
  obtain ⟨hout, hst⟩ := hprog
  have hfollow := line_follows_iff pia1Wiring_drives (op.reports s m.pia1) hfirq
  rw [← hout, ← hst] at hfollow
  rw [← hfollow]
  refine and_iff_right ?_
  exact (deliver_keeps pia1Wiring_irq _ _).trans hirq

/-! ## The keyboard scan -/

/-- The scan changes port A's inputs only, so no control register. -/
theorem scanned_ctrl (hal : Hal) (pia0 pia1 : Mc6821) (reg : Byte) (s : Side) :
    ((scanned hal pia0 pia1 reg).port s).ctrl = (pia0.port s).ctrl := by
  unfold scanned
  split
  · cases s <;> rfl
  · rfl

theorem isSafe_readOp_congr {pia pia' : Mc6821}
    (h : ∀ s, (pia'.port s).ctrl = (pia.port s).ctrl) (s : Side) (reg : Byte) :
    isSafe pia' s (readOp reg) = isSafe pia s (readOp reg) := by
  unfold isSafe readOp active
  rw [h s.other]
  cases isCtrl reg with
  | true => rfl
  | false =>
    have hsel : pia'.dataSelected s = pia.dataSelected s := by rw [dataSelected, h s, dataSelected]
    simp [Op.updates, Op.raises, hsel]

/-! ## Events -/

/-- After an event the lines follow the outputs exactly when the event is safe. -/
theorem step_follows_iff (e : Event) (m : Coco2) (h : LinesFollow m) :
    LinesFollow (e.step m) ↔ e.safe m = true := by
  cases e with
  | read hal a =>
    simp only [Event.step, Event.safe, machineReadCoco2]
    split
    · have hctrl := scanned_ctrl hal m.pia0 m.pia1 a.reg
      have hscan : LinesFollow { m with pia0 := scanned hal m.pia0 m.pia1 a.reg } := by
        unfold LinesFollow active
        rw [hctrl, hctrl]
        exact h
      rw [withPia0_follows_iff (mc6821Read_op a.reg _) hscan, isSafe_readOp_congr hctrl]
    · exact withPia1_follows_iff (mc6821Read_op a.reg _) h
  | write a val =>
    simp only [Event.step, Event.safe, machineWriteCoco2]
    split
    · exact withPia0_follows_iff (mc6821Write_op a.reg val _) h
    · exact withPia1_follows_iff (mc6821Write_op a.reg val _) h
  | fieldSync rising =>
    exact @withPia0_follows_iff _ _ .b (.transition rising) m ⟨rfl, rfl⟩ h
  | cart rising =>
    exact @withPia1_follows_iff _ _ .b (.transition rising) m ⟨rfl, rfl⟩ h

/-- A reset leaves no output active and clears both lines. -/
theorem reset_follows (m : Coco2) : LinesFollow (machineResetCoco2 m) := by
  unfold machineResetCoco2 withPia1 withPia0 LinesFollow
  simp only [mc6821Reset_apply, active_init, Wiring.deliver_mul, Wiring.deliver_of]
  refine ⟨?_, pia1Wiring_drives.store .b false _⟩
  rw [pia1Wiring_irq, pia1Wiring_irq]
  exact pia0Wiring_drives.store .b false _

/-- From a reset, the lines follow the outputs after every event of a run exactly when
every event is safe in the state it finds. -/
theorem lines_follow_exact (m : Coco2) (es : List Event) :
    Always Event.step LinesFollow es (machineResetCoco2 m) ↔
      EachStep Event.step (fun e m => e.safe m = true) es (machineResetCoco2 m) :=
  always_iff_eachStep (reset_follows m) step_follows_iff

/-- A keyboard poll while the field sync interrupt is pending: `$FF01` and `$FF03` select
the data registers, `$FF03` also enables the interrupt of the falling edge, then field
sync falls and the guest reads `$FF00`. -/
def keyboardPoll : List Event :=
  [.write ⟨0xFF01, by decide, by decide⟩ 0x04, .write ⟨0xFF03, by decide, by decide⟩ 0x05,
    .fieldSync false, .read {} ⟨0xFF00, by decide, by decide⟩]

/-- The poll recomputes the A half to inactive and takes the pending interrupt of the B
half off the line. -/
theorem keyboardPoll_loses_irq :
    (runAll Event.step (keyboardPoll.take 3) (machineResetCoco2 {})).pins.irqPending = true ∧
    (runAll Event.step keyboardPoll (machineResetCoco2 {})).pia0.active .b = true ∧
    (runAll Event.step keyboardPoll (machineResetCoco2 {})).pins.irqPending = false ∧
    ¬∀ m es, Always Event.step LinesFollow es (machineResetCoco2 m) := by
  have hrun : (runAll Event.step (keyboardPoll.take 3) (machineResetCoco2 {})).pins.irqPending =
        true ∧
      (runAll Event.step keyboardPoll (machineResetCoco2 {})).pia0.active .b = true ∧
      (runAll Event.step keyboardPoll (machineResetCoco2 {})).pins.irqPending = false := by
    decide +kernel
  obtain ⟨hraised, hactive, hline⟩ := hrun
  refine ⟨hraised, hactive, hline, fun hall => ?_⟩
  obtain ⟨hirq, _⟩ := (hall {} keyboardPoll).last
  rw [hline, hactive, Bool.or_true] at hirq
  exact Bool.false_ne_true hirq

end CocoEmulator.Machine
