/-
  Gime/Events.lean --- what happens to the GIME, and what it leaves alone.

  A run of the chip is a list of `Event`s.  Interrupts and the timer move a small set
  of fields (`OnlyInts`); a memory cycle samples the inputs and then makes one of a few
  accesses, so a property kept by each of them is kept by the cycle.

      onlyInts_tickScanline   the timer moves only the interrupt fields
      memCycle_keeps          the rule for memory cycles
-/
import CocoEmulator.Gime.Tcc1014

set_option autoImplicit false

namespace CocoEmulator.Gime

/-! ## Events -/

/-- The sources of interrupts. -/
inductive Source
  | tmr
  | hbord
  | vbord
  | ei2
  | ei1
  | ei0
deriving DecidableEq, Repr

def Source.flag : Source → Byte
  | .tmr => intTmr
  | .hbord => intHbord
  | .vbord => intVbord
  | .ei2 => intEi2
  | .ei1 => intEi1
  | .ei0 => intEi0

/-- What happens to the chip: the machine raises an interrupt or moves an input, a
scanline ends, the CPU makes a cycle or takes a direct path to a register, and the
machine is reset or given RAM. -/
inductive Event
  | interrupt (source : Source)
  | il0 (high : Bool)
  | il1 (high : Bool)
  | il2 (high : Bool)
  | tick
  | cycle (addr : Word) (rnw : Bool) (data : Byte)
  | write (reg : BitVec 4) (val : Byte)
  | read (reg : BitVec 4)
  | setRam (size : Unsigned)
  | reset
deriving DecidableEq, Repr

def Event.step : Event → Tcc1014 → Tcc1014
  | .interrupt source, g => g.setInterrupt source.flag
  | .il0 high, g => { g with il0 := high }
  | .il1 high, g => { g with il1 := high }
  | .il2 high, g => { g with il2 := high }
  | .tick, g => g.tickScanline
  | .cycle addr rnw data, g => (g.memCycle addr rnw data).gime
  | .write reg val, g => g.writeRegister reg val
  | .read reg, g => (g.readRegister reg).2
  | .setRam size, g => g.setRam size
  | .reset, g => g.reset

/-! ## What interrupts leave alone -/

/-- The fields that interrupts and the timer move. -/
structure Ints where
  irqState : Byte
  firqState : Byte
  irq : Bool
  firq : Bool
  il0State : Byte
  il1State : Byte
  il2State : Byte
  timerCounter : Nat
  timerLeftX2 : Int
  timerFires : Unsigned
  blink : Bool

def Tcc1014.withInts (g : Tcc1014) (i : Ints) : Tcc1014 :=
  { g with
    irqState := i.irqState
    firqState := i.firqState
    irq := i.irq
    firq := i.firq
    il0State := i.il0State
    il1State := i.il1State
    il2State := i.il2State
    timerCounter := i.timerCounter
    timerLeftX2 := i.timerLeftX2
    timerFires := i.timerFires
    blink := i.blink }

/-- Only those fields differ. -/
def OnlyInts (g g' : Tcc1014) : Prop := ∃ i, g' = g.withInts i

section

variable {g : Tcc1014}

theorem OnlyInts.refl (g : Tcc1014) : OnlyInts g g :=
  ⟨⟨g.irqState, g.firqState, g.irq, g.firq, g.il0State, g.il1State, g.il2State, g.timerCounter,
    g.timerLeftX2, g.timerFires, g.blink⟩, rfl⟩

theorem OnlyInts.trans {g' g'' : Tcc1014} (h : OnlyInts g g') (h' : OnlyInts g' g'') :
    OnlyInts g g'' := by
  obtain ⟨i, rfl⟩ := h
  obtain ⟨j, rfl⟩ := h'
  exact ⟨j, rfl⟩

/-- Raising an interrupt latches it in the status registers and recomputes the outputs. -/
theorem onlyInts_setInterrupt (g : Tcc1014) (flag : Byte) : OnlyInts g (g.setInterrupt flag) :=
  ⟨⟨_, _, _, _, _, _, _, _, _, _, _⟩, rfl⟩

/-- An input that rises raises its interrupt; one that does not leaves the chip alone. -/
theorem onlyInts_edge (g : Tcc1014) (line : Bool) (state flag : Byte) :
    OnlyInts g (g.edge line state flag) := by
  unfold Tcc1014.edge
  split
  · exact onlyInts_setInterrupt g flag
  · exact OnlyInts.refl g

/-- A detection samples three inputs one after another, each as an edge and a record. -/
theorem onlyInts_edgeDetectIl (g : Tcc1014) : OnlyInts g g.edgeDetectIl := by
  have h2 (g : Tcc1014) : OnlyInts g g.sampleIl2 :=
    (onlyInts_edge g g.il2 g.il2State intEi2).trans ⟨⟨_, _, _, _, _, _, _, _, _, _, _⟩, rfl⟩
  have h1 (g : Tcc1014) : OnlyInts g g.sampleIl1 :=
    (onlyInts_edge g g.il1 g.il1State intEi1).trans ⟨⟨_, _, _, _, _, _, _, _, _, _, _⟩, rfl⟩
  have h0 (g : Tcc1014) : OnlyInts g g.sampleIl0 :=
    (onlyInts_edge g g.il0 g.il0State intEi0).trans ⟨⟨_, _, _, _, _, _, _, _, _, _, _⟩, rfl⟩
  exact ((h2 g).trans (h1 _)).trans (h0 _)

theorem onlyInts_armTimer (g : Tcc1014) : OnlyInts g g.armTimer :=
  ⟨⟨_, _, _, _, _, _, _, _, _, _, _⟩, rfl⟩

theorem onlyInts_timerExpired (g : Tcc1014) : OnlyInts g g.timerExpired :=
  ⟨⟨_, _, _, _, _, _, _, _, _, _, _⟩, rfl⟩

/-- The fast timer may expire more than once in a scanline; each time it raises its interrupt,
blinks and is armed anew.  The induction is on the rounds of that loop. -/
theorem onlyInts_expireFast (g : Tcc1014) : OnlyInts g (Tcc1014.expireFast g) := by
  induction g using Tcc1014.expireFast.induct with
  | case1 g hleft armed hstopped =>
    unfold Tcc1014.expireFast
    rw [if_pos hleft]
    dsimp only
    rw [if_pos hstopped]
    exact (onlyInts_timerExpired g).trans (onlyInts_armTimer _)
  | case2 g hleft armed hrunning ih =>
    unfold Tcc1014.expireFast
    rw [if_pos hleft]
    dsimp only
    rw [if_neg hrunning]
    have harmed := (onlyInts_timerExpired g).trans (onlyInts_armTimer _)
    refine (harmed.trans ?_).trans ih
    exact ⟨⟨_, _, _, _, _, _, _, _, _, _, _⟩, rfl⟩
  | case3 g hleft =>
    unfold Tcc1014.expireFast
    rw [if_neg hleft]
    exact OnlyInts.refl g

/-- So the timer moves nothing that a line of the picture or the memory map depends on, from either
source. -/
theorem onlyInts_tickScanline (g : Tcc1014) : OnlyInts g g.tickScanline := by
  unfold Tcc1014.tickScanline
  split
  · exact OnlyInts.refl g
  · split
    · have hdown : OnlyInts g { g with timerCounter := g.timerCounter - 1 } :=
        ⟨⟨_, _, _, _, _, _, _, _, _, _, _⟩, rfl⟩
      dsimp only
      split
      · exact (hdown.trans (onlyInts_timerExpired _)).trans (onlyInts_armTimer _)
      · exact hdown
    · have hleft : OnlyInts g { g with timerLeftX2 := g.timerLeftX2 - timerFastX2PerLine } :=
        ⟨⟨_, _, _, _, _, _, _, _, _, _, _⟩, rfl⟩
      exact hleft.trans (onlyInts_expireFast _)

/-- Reading a status register acknowledges its side; the other registers are only read. -/
theorem onlyInts_readRegister (g : Tcc1014) (reg : BitVec 4) :
    OnlyInts g (g.readRegister reg).2 := by
  unfold Tcc1014.readRegister
  split
  · exact (onlyInts_edgeDetectIl g).trans ⟨⟨_, _, _, _, _, _, _, _, _, _, _⟩, rfl⟩
  · split
    · exact (onlyInts_edgeDetectIl g).trans ⟨⟨_, _, _, _, _, _, _, _, _, _, _⟩, rfl⟩
    · exact OnlyInts.refl g

end

/-! ## Memory cycles -/

/-- Every access a memory cycle can make keeps `P`. -/
structure KeptByAccess (P : Tcc1014 → Prop) : Prop where
  select : ∀ g s ras z, P g → P { g with s, ras, z }
  snoop : ∀ g addr val, P g → P (Tcc1014.snoopPia1b g addr val)
  register : ∀ g reg val, P g → P (Tcc1014.writeRegister g reg val)
  ackIrq : ∀ g, P g → P (Tcc1014.ackIrq g).2
  ackFirq : ∀ g, P g → P (Tcc1014.ackFirq g).2
  mmu : ∀ g offset val, P g → P (Tcc1014.writeMmu g offset val)
  palette : ∀ g offset val, P g → P (Tcc1014.writePalette g offset val)
  sam : ∀ g offset, P g → P (Tcc1014.writeSam g offset)

section

variable {P : Tcc1014 → Prop} {g : Tcc1014}

/-- A cycle in $FF90-$FF9F is a write or a read of one register. -/
theorem registerCycle_keeps (addr : Word) (rnw : Bool) (data : Byte) (h : P g)
    (hkept : KeptByAccess P) : P (g.registerCycle addr rnw data).gime := by
  unfold Tcc1014.registerCycle
  split
  · exact hkept.register g _ _ h
  split
  · exact hkept.ackIrq g h
  split
  · exact hkept.ackFirq g h
  split
  · exact h
  · exact h

/-- What holds once the inputs were sampled, and is kept by each kind of access, holds after the
cycle.  The decode picks one kind by the address, so a proof about cycles never has to open it. -/
theorem memCycle_keeps (addr : Word) (rnw : Bool) (data : Byte) (h : P g.edgeDetectIl)
    (hkept : KeptByAccess P) : P (g.memCycle addr rnw data).gime := by
  have hsampled : P { g.edgeDetectIl with s := .none, ras := false } :=
    hkept.select g.edgeDetectIl .none false g.edgeDetectIl.z h
  unfold Tcc1014.memCycle
  generalize { g.edgeDetectIl with s := .none, ras := false } = g at hsampled ⊢
  dsimp only
  split
  · exact hkept.select g _ _ _ hsampled
  split
  · split
    · have hpia : P { g with s := .pia } := hkept.select g .pia g.ras g.z hsampled
      dsimp only
      split
      · exact hkept.snoop _ addr data hpia
      · exact hpia
    · exact hsampled
  split
  · dsimp only
    split
    · exact hkept.select g .scs g.ras g.z hsampled
    · exact hsampled
  split
  · exact hsampled
  split
  · exact registerCycle_keeps addr rnw data hsampled hkept
  split
  · split
    · exact hkept.mmu g _ data hsampled
    · exact hsampled
  split
  · split
    · exact hkept.palette g _ data hsampled
    · exact hsampled
  split
  · dsimp only
    split
    · exact hkept.sam g _ hsampled
    · exact hsampled
  · exact hkept.select g .rom g.ras g.z hsampled

end

end CocoEmulator.Gime
