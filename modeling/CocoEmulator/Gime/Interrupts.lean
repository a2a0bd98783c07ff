/-
  Gime/Interrupts.lean --- the interrupt controller of the GIME.

  Two sides, IRQ and FIRQ, latch the same events under their own enables.  Eight
  operations touch them; `IntInv` is what all of them keep.

      IntInv.step            every event keeps the invariant
      interrupt_controller   after any sequence of events the pending bits are enabled
                             ones, the outputs follow them, and a status read
                             acknowledges its own side only
-/
import CocoEmulator.Base.Run
import CocoEmulator.Gime.Events

set_option autoImplicit false

namespace CocoEmulator.Gime

open CocoEmulator.Base
open Tcc1014 (irqLine firqLine)

/-! ## Sets of bits -/

/-- The bits of `x` are among those of `mask`. -/
def Within (x mask : Byte) : Prop := x &&& mask = x

instance (x mask : Byte) : Decidable (Within x mask) := inferInstanceAs (Decidable (_ = _))

theorem Within.zero (mask : Byte) : Within 0 mask := BitVec.zero_and

theorem Within.or {x y mask : Byte} (hx : Within x mask) (hy : Within y mask) :
    Within (x ||| y) mask := by
  unfold Within at *
  rw [BitVec.and_or_distrib_right, hx, hy]

theorem Within.and_right (x mask : Byte) : Within (x &&& mask) mask := by
  unfold Within
  rw [BitVec.and_assoc, BitVec.and_self]

/-- Fewer bits of a set are still within it: so a smaller enable mask keeps the pending bits. -/
theorem Within.and_left {x mask : Byte} (hx : Within x mask) (y : Byte) : Within (x &&& y) mask := by
  unfold Within at *
  rw [BitVec.and_assoc, BitVec.and_comm y, ← BitVec.and_assoc, hx]

/-- A set is within its union with another, so what was pending stays pending. -/
theorem Within.or_left (x y : Byte) : Within x (x ||| y) := by
  unfold Within
  ext i
  simp only [BitVec.getElem_and, BitVec.getElem_or, Bool.and_or_distrib_left, Bool.and_self]
  cases x[i] <;> simp

theorem Within.or_right (x y : Byte) : Within x (y ||| x) := by
  rw [BitVec.or_comm]
  exact Within.or_left x y

theorem Within.trans {x y z : Byte} (hxy : Within x y) (hyz : Within y z) : Within x z := by
  unfold Within at *
  calc x &&& z = x &&& y &&& z := by rw [hxy]
    _ = x &&& (y &&& z) := BitVec.and_assoc ..
    _ = x := by rw [hyz, hxy]

/-! ## The invariant -/

/-- The chip's sources use six bits. -/
def sources : Byte := 0x3F

/-- Each source has one of the six bits of the status registers. -/
theorem Source.flag_within (source : Source) : Within source.flag sources := by
  cases source <;> decide

/-- The pending bits are enabled sources, the outputs follow them, and the sampled inputs
are sources. -/
structure IntInv (g : Tcc1014) : Prop where
  irqEnabled : Within g.irqState (g.registers 2)
  firqEnabled : Within g.firqState (g.registers 3)
  irqSources : Within g.irqState sources
  firqSources : Within g.firqState sources
  irq : g.irq = irqLine (g.registers 0) g.irqState
  firq : g.firq = firqLine (g.registers 0) g.firqState
  il0 : Within g.il0State sources
  il1 : Within g.il1State sources
  il2 : Within g.il2State sources

section

variable {g : Tcc1014}

/-- The constructor: nothing pending, nothing enabled. -/
theorem IntInv.start : IntInv {} := by
  constructor <;> decide

/-- A source is latched through the enable mask of each side, so only enabled bits become pending;
the outputs are recomputed from what is then pending. -/
theorem IntInv.setInterrupt (h : IntInv g) {flag : Byte} (hflag : Within flag sources) :
    IntInv (g.setInterrupt flag) := by
  refine { h with irqEnabled := ?_, firqEnabled := ?_, irqSources := ?_, firqSources := ?_,
                  irq := rfl, firq := rfl }
  · exact h.irqEnabled.or (Within.and_right _ _)
  · exact h.firqEnabled.or (Within.and_right _ _)
  · exact h.irqSources.or (hflag.and_left _)
  · exact h.firqSources.or (hflag.and_left _)

/-- An input makes an edge only for its own flag, which is a source. -/
theorem IntInv.edge (h : IntInv g) (line : Bool) (state : Byte) {flag : Byte}
    (hflag : Within flag sources) : IntInv (g.edge line state flag) := by
  unfold Tcc1014.edge
  split
  · exact h.setInterrupt hflag
  · exact h

/-- What is sampled of an input. -/
theorem sampled_within (line : Bool) {flag : Byte} (hflag : Within flag sources) :
    Within (if line = true then flag else 0) sources := by
  split
  · exact hflag
  · exact Within.zero _

theorem IntInv.sampleIl2 (h : IntInv g) : IntInv g.sampleIl2 := by
  have hedge := h.edge g.il2 g.il2State (show Within intEi2 sources by decide)
  exact { hedge with il2 := sampled_within _ (by decide) }

theorem IntInv.sampleIl1 (h : IntInv g) : IntInv g.sampleIl1 := by
  have hedge := h.edge g.il1 g.il1State (show Within intEi1 sources by decide)
  exact { hedge with il1 := sampled_within _ (by decide) }

theorem IntInv.sampleIl0 (h : IntInv g) : IntInv g.sampleIl0 := by
  have hedge := h.edge g.il0 g.il0State (show Within intEi0 sources by decide)
  exact { hedge with il0 := sampled_within _ (by decide) }

/-- The three inputs are sampled in the order of the source, and each record is a source's flag or
zero. -/
theorem IntInv.edgeDetectIl (h : IntInv g) : IntInv g.edgeDetectIl :=
  h.sampleIl2.sampleIl1.sampleIl0

/-! ## The timer -/

theorem IntInv.armTimer (h : IntInv g) : IntInv g.armTimer := { h with }

/-- An expiry counts, blinks and raises TMR. -/
theorem IntInv.timerExpired (h : IntInv g) : IntInv g.timerExpired := by
  have hcount : IntInv { g with blink := !g.blink, timerFires := g.timerFires + 1 } := { h with }
  exact hcount.setInterrupt (by decide)

/-- The loop of the fast timer, by induction on its rounds. -/
theorem IntInv.expireFast (h : IntInv g) : IntInv (Tcc1014.expireFast g) := by
  induction g using Tcc1014.expireFast.induct with
  | case1 g hleft armed hstopped =>
    unfold Tcc1014.expireFast
    rw [if_pos hleft]
    dsimp only
    rw [if_pos hstopped]
    exact h.timerExpired.armTimer
  | case2 g hleft armed hrunning ih =>
    unfold Tcc1014.expireFast
    rw [if_pos hleft]
    dsimp only
    rw [if_neg hrunning]
    apply ih
    exact { h.timerExpired.armTimer with }
  | case3 g hleft =>
    unfold Tcc1014.expireFast
    rw [if_neg hleft]
    exact h

/-- A scanline counts the slow timer down by one, or takes one scanline from the fast one. -/
theorem IntInv.tickScanline (h : IntInv g) : IntInv g.tickScanline := by
  unfold Tcc1014.tickScanline
  split
  · exact h
  · split
    · dsimp only
      have hdown : IntInv { g with timerCounter := g.timerCounter - 1 } := { h with }
      split
      · exact hdown.timerExpired.armTimer
      · exact hdown
    · apply IntInv.expireFast
      exact { h with }

/-! ## Registers -/

/-- A change of timer source arms the timer and raises nothing. -/
theorem IntInv.selectTimer (h : IntInv g) (tins : Bool) : IntInv (g.selectTimer tins) := by
  unfold Tcc1014.selectTimer
  split
  · exact { h with }
  · exact h

theorem IntInv.selectTask (h : IntInv g) (tr : BitVec 4) : IntInv (g.selectTask tr) := by
  unfold Tcc1014.selectTask
  split
  · exact { h with }
  · exact h

theorem IntInv.writeVbank (h : IntInv g) (val : Byte) : IntInv (g.writeVbank val) := by
  unfold Tcc1014.writeVbank
  split
  · exact { h with }
  · exact h

/-- A register other than INIT0 and the enables is stored. -/
theorem IntInv.store (h : IntInv g) {reg : BitVec 4} (val : Byte) (h0 : reg ≠ 0) (h2 : reg ≠ 2)
    (h3 : reg ≠ 3) : IntInv { g with registers := Function.update g.registers reg val } := by
  have hkeep : ∀ i, reg ≠ i → Function.update g.registers reg val i = g.registers i :=
    fun i hi => Function.update_of_ne hi.symm _ _
  refine { h with irqEnabled := ?_, firqEnabled := ?_, irq := ?_, firq := ?_ }
  · dsimp only
    rw [hkeep 2 h2]
    exact h.irqEnabled
  · dsimp only
    rw [hkeep 3 h3]
    exact h.firqEnabled
  · dsimp only
    rw [hkeep 0 h0]
    exact h.irq
  · dsimp only
    rw [hkeep 0 h0]
    exact h.firq

/-- What an enable write keeps and latches is enabled. -/
theorem IntInv.enableLatch (h : IntInv g) {state : Byte} (hstate : Within state sources)
    (val changed : Byte) :
    Within (g.enableLatch state val changed) val ∧
      Within (g.enableLatch state val changed) sources := by
  have htmr : Within (if g.timerCounter = 0 then intTmr else 0) sources := by
    split <;> decide
  have hactive := ((htmr.or h.il2).or h.il1).or h.il0
  unfold Tcc1014.enableLatch
  dsimp only
  constructor
  · exact (Within.and_right _ _).or (Within.and_right _ _)
  · exact (hstate.and_left _).or ((hactive.and_left _).and_left _)

/-- INIT0 holds the two master enables, so both outputs are recomputed. -/
theorem IntInv.writeInit0 (h : IntInv g) (val : Byte) : IntInv (g.writeRegister 0 val) :=
  { h with irq := rfl, firq := rfl }

/-- A write of $FF92 drops what it disables, and latches of what it newly enables the inputs that
are high and the timer if it stands at zero. -/
theorem IntInv.writeIrqEnable (h : IntInv g) (val : Byte) : IntInv (g.writeRegister 2 val) := by
  obtain ⟨henabled, hsources⟩ := h.enableLatch h.irqSources val (g.registers 2 ^^^ val)
  exact { h with irqEnabled := henabled, irqSources := hsources, irq := rfl }

/-- The same for $FF93. -/
theorem IntInv.writeFirqEnable (h : IntInv g) (val : Byte) : IntInv (g.writeRegister 3 val) := by
  obtain ⟨henabled, hsources⟩ := h.enableLatch h.firqSources val (g.registers 3 ^^^ val)
  exact { h with firqEnabled := henabled, firqSources := hsources, firq := rfl }

/-- The other registers do not move the interrupts. -/
theorem IntInv.writeRegister (h : IntInv g) (reg : BitVec 4) (val : Byte) :
    IntInv (g.writeRegister reg val) := by
  by_cases h0 : reg = 0
  · exact h0 ▸ h.writeInit0 val
  by_cases h2 : reg = 2
  · exact h2 ▸ h.writeIrqEnable val
  by_cases h3 : reg = 3
  · exact h3 ▸ h.writeFirqEnable val
  have hstore := h.store val h0 h2 h3
  unfold Tcc1014.writeRegister
  dsimp only
  split
  · next hreg => exact absurd (BitVec.eq_of_toNat_eq hreg) h0
  · exact (hstore.selectTimer _).selectTask _
  · next hreg => exact absurd (BitVec.eq_of_toNat_eq hreg) h2
  · next hreg => exact absurd (BitVec.eq_of_toNat_eq hreg) h3
  all_goals first | exact { hstore with } | exact hstore.writeVbank val

/-- An acknowledge clears its side's bits and its output, and leaves the other side as it was. -/
theorem IntInv.ackIrq (h : IntInv g) : IntInv g.ackIrq.2 :=
  { h with
    irqEnabled := Within.zero _
    irqSources := Within.zero _
    irq := by simp [Tcc1014.ackIrq, irqLine] }

theorem IntInv.ackFirq (h : IntInv g) : IntInv g.ackFirq.2 :=
  { h with
    firqEnabled := Within.zero _
    firqSources := Within.zero _
    firq := by simp [Tcc1014.ackFirq, firqLine] }

/-- A read of $FF92 or $FF93 samples the inputs first, so that an edge that has just come is part of
the value. -/
theorem IntInv.readRegister (h : IntInv g) (reg : BitVec 4) : IntInv (g.readRegister reg).2 := by
  unfold Tcc1014.readRegister
  split
  · exact h.edgeDetectIl.ackIrq
  · split
    · exact h.edgeDetectIl.ackFirq
    · exact h

/-! ## Cycles -/

/-- A write of PIA 1 that the GIME snoops concerns the picture alone. -/
theorem IntInv.snoopPia1b (h : IntInv g) (addr : Word) (val : Byte) :
    IntInv (g.snoopPia1b addr val) := by
  unfold Tcc1014.snoopPia1b
  split
  · split
    · exact { h with }
    · exact h
  · split
    · exact { h with }
    · exact h

/-- A cycle samples the inputs, whatever it then accesses. -/
theorem IntInv.memCycle (h : IntInv g) (addr : Word) (rnw : Bool) (data : Byte) :
    IntInv (g.memCycle addr rnw data).gime :=
  memCycle_keeps addr rnw data h.edgeDetectIl {
    select := fun _ _ _ _ h => { h with }
    snoop := fun _ addr val h => h.snoopPia1b addr val
    register := fun _ reg val h => h.writeRegister reg val
    ackIrq := fun _ h => h.ackIrq
    ackFirq := fun _ h => h.ackFirq
    mmu := fun _ _ _ h => { h with }
    palette := fun _ _ _ h => { h with }
    sam := fun _ _ h => { h with } }

/-- A reset clears the enables and what is pending, from any state. -/
theorem IntInv.reset (g : Tcc1014) : IntInv g.reset := by
  constructor
  case irq => simp [Tcc1014.reset, Tcc1014.updateFromGimeRegisters, irqLine]
  case firq => simp [Tcc1014.reset, Tcc1014.updateFromGimeRegisters, firqLine]
  all_goals exact Within.zero _

/-- Every event keeps the invariant: the machine's interrupts and inputs, the timer, the CPU's
cycles and its direct paths, RAM being fitted, and a reset. -/
theorem IntInv.step (h : IntInv g) (e : Event) : IntInv (e.step g) := by
  cases e with
  | interrupt source => exact h.setInterrupt source.flag_within
  | il0 high => exact { h with }
  | il1 high => exact { h with }
  | il2 high => exact { h with }
  | tick => exact h.tickScanline
  | cycle addr rnw data => exact h.memCycle addr rnw data
  | write reg val => exact h.writeRegister reg val
  | read reg => exact h.readRegister reg
  | setRam size => exact { h with }
  | reset => exact IntInv.reset g

end

/-! ## The two sides -/

inductive Side
  | irq
  | firq
deriving DecidableEq, Repr

namespace Side

def other : Side → Side
  | .irq => .firq
  | .firq => .irq

/-- The enable register, which is also the status register. -/
def reg : Side → BitVec 4
  | .irq => 2
  | .firq => 3

/-- The master enable in INIT0. -/
def gate : Side → Nat
  | .irq => 5
  | .firq => 4

def pending : Side → Tcc1014 → Byte
  | .irq, g => g.irqState
  | .firq, g => g.firqState

def output : Side → Tcc1014 → Bool
  | .irq, g => g.irq
  | .firq, g => g.firq

end Side

/-- The two ways a read of a status register takes. -/
inductive Path
  | direct
  | cycle
deriving DecidableEq, Repr

/-- A read of a status register. -/
def statusRead (side : Side) : Path → Tcc1014 → Byte × Tcc1014
  | .direct, g => g.readRegister side.reg
  | .cycle, g =>
    let cycle := g.memCycle (0xFF90 + side.reg.setWidth 16) true 0
    (cycle.data, cycle.gime)

/-- The pending bits are enabled, and the outputs follow them and the master enables. -/
structure Consistent (g : Tcc1014) : Prop where
  enabled : ∀ side : Side, Within (side.pending g) (g.registers side.reg)
  output : ∀ side : Side,
    side.output g = true ↔ bit (g.registers 0) side.gate = true ∧ side.pending g ≠ 0

/-- A status read returns and clears its own side; on the other one, what the inputs
latched and every event enabled on both sides stays pending. -/
structure Acknowledges (side : Side) (path : Path) (g : Tcc1014) : Prop where
  value : (statusRead side path g).1 = side.pending g.edgeDetectIl
  cleared : side.pending (statusRead side path g).2 = 0
  released : side.output (statusRead side path g).2 = false
  other : side.other.pending (statusRead side path g).2 = side.other.pending g.edgeDetectIl
  otherOutput : side.other.output (statusRead side path g).2 = side.other.output g.edgeDetectIl
  kept : Within (side.other.pending g) (side.other.pending (statusRead side path g).2)
  latched : ∀ source : Source, Within source.flag (g.registers 2) →
    Within source.flag (g.registers 3) →
    Within source.flag
      (side.other.pending (statusRead side path (g.setInterrupt source.flag)).2)

section

variable {g : Tcc1014}

/-- The invariant says what a reader of the registers can see: only the six sources count for an
output, and only they are ever pending. -/
theorem IntInv.consistent (h : IntInv g) : Consistent g := by
  have hline : ∀ state : Byte, Within state sources → (state &&& 0x3F != 0) = (state != 0) := by
    intro state hstate
    have hsame : state &&& 0x3F = state := hstate
    rw [hsame]
  constructor
  · intro side
    cases side with
    | irq => exact h.irqEnabled
    | firq => exact h.firqEnabled
  · intro side
    cases side with
    | irq =>
      change g.irq = true ↔ _
      rw [h.irq, irqLine, hline _ h.irqSources]
      simp [Side.gate, Side.pending]
    | firq =>
      change g.firq = true ↔ _
      rw [h.firq, firqLine, hline _ h.firqSources]
      simp [Side.gate, Side.pending]

/-- An edge only adds to what is pending. -/
theorem edge_pending (side : Side) (g : Tcc1014) (line : Bool) (state flag : Byte) :
    Within (side.pending g) (side.pending (g.edge line state flag)) := by
  unfold Tcc1014.edge
  split
  · cases side <;> exact Within.or_left _ _
  · cases side <;> exact BitVec.and_self

/-- Sampling the inputs forgets no pending event. -/
theorem edgeDetectIl_pending (side : Side) (g : Tcc1014) :
    Within (side.pending g) (side.pending g.edgeDetectIl) := by
  have h2 : Within (side.pending g) (side.pending g.sampleIl2) := by
    cases side <;> exact edge_pending _ g g.il2 g.il2State intEi2
  have h1 (g : Tcc1014) : Within (side.pending g) (side.pending g.sampleIl1) := by
    cases side <;> exact edge_pending _ g g.il1 g.il1State intEi1
  have h0 (g : Tcc1014) : Within (side.pending g) (side.pending g.sampleIl0) := by
    cases side <;> exact edge_pending _ g g.il0 g.il0State intEi0
  exact (h2.trans (h1 _)).trans (h0 _)

/-- Either path samples the inputs, then acknowledges. -/
theorem statusRead_other (side : Side) (path : Path) (g : Tcc1014) :
    side.other.pending (statusRead side path g).2 = side.other.pending g.edgeDetectIl := by
  cases side <;> cases path <;> rfl

/-- Nothing pending on the other side is lost by the read. -/
theorem statusRead_kept (side : Side) (path : Path) (g : Tcc1014) :
    Within (side.other.pending g) (side.other.pending (statusRead side path g).2) := by
  rw [statusRead_other]
  exact edgeDetectIl_pending side.other g

/-- An event that both sides enable is pending on both. -/
theorem setInterrupt_pending (side : Side) {flag : Byte} (h2 : Within flag (g.registers 2))
    (h3 : Within flag (g.registers 3)) : Within flag (side.pending (g.setInterrupt flag)) := by
  have hirq : flag &&& g.registers 2 = flag := h2
  have hfirq : flag &&& g.registers 3 = flag := h3
  cases side with
  | irq =>
    change Within flag (g.irqState ||| (flag &&& g.registers 2))
    rw [hirq]
    exact Within.or_right _ _
  | firq =>
    change Within flag (g.firqState ||| (flag &&& g.registers 3))
    rw [hfirq]
    exact Within.or_right _ _

/-- The acknowledge by either path, from any state: the decode of a cycle and the direct path of the
machine do the same to the status registers. -/
theorem acknowledges (side : Side) (path : Path) (g : Tcc1014) : Acknowledges side path g where
  value := by cases side <;> cases path <;> rfl
  cleared := by cases side <;> cases path <;> rfl
  released := by cases side <;> cases path <;> rfl
  other := statusRead_other side path g
  otherOutput := by cases side <;> cases path <;> rfl
  kept := statusRead_kept side path g
  latched := by
    intro source h2 h3
    exact (setInterrupt_pending side.other h2 h3).trans (statusRead_kept side path _)

/-- After any events, in any order and however often the chip is reset: only enabled interrupts are
pending, each output follows its pending bits and its master enable, and a read of either status
register, by the decode or by the direct path, returns and clears the bits of its own side and
takes none from the other. -/
theorem interrupt_controller (events : List Event) :
    Consistent (runAll Event.step events {}) ∧
      ∀ side path, Acknowledges side path (runAll Event.step events {}) := by
  have hinv : Always Event.step IntInv events {} :=
    Always.of_step (C := fun _ _ => True) IntInv.start (fun e _ h _ => h.step e)
      (EachStep.of_forall fun _ _ _ => trivial)
  constructor
  · exact hinv.last.consistent
  · intro side path
    exact acknowledges side path _

end

end CocoEmulator.Gime
