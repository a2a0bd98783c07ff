/-
  Gime/Video.lean --- the vertical parameters of the GIME follow its registers.

  The top border and the active lines are recomputed on every write that moves their
  inputs; only the scanline function and a reset move the vertical counter.

      VideoAt.step   an event other than a reset keeps the parameters current and the
                     counter where it is
-/
import CocoEmulator.Base.Run
import CocoEmulator.Gime.Events

set_option autoImplicit false

namespace CocoEmulator.Gime

open CocoEmulator.Base

/-- The parameters are current, and the vertical state machine is at `lcount`. -/
structure VideoAt (activeArea : Bool) (lcount : Unsigned) (g : Tcc1014) : Prop where
  lTB : g.vertical.lTB = g.topBorder
  lAA : g.vertical.lAA = g.activeLines
  activeArea : g.vertical.activeArea = activeArea
  lcount : g.vertical.lcount = lcount

section

variable {a : Bool} {n : Unsigned} {g : Tcc1014}

/-- Interrupts and the timer do not move the vertical state. -/
theorem VideoAt.onlyInts (h : VideoAt a n g) {g' : Tcc1014} (hints : OnlyInts g g') :
    VideoAt a n g' := by
  obtain ⟨i, rfl⟩ := hints
  exact { h with }

/-- Recomputing makes the parameters current. -/
theorem videoAt_update (g : Tcc1014) :
    VideoAt g.vertical.activeArea g.vertical.lcount g.updateFromGimeRegisters :=
  ⟨rfl, rfl, rfl, rfl⟩

theorem VideoAt.update (h : VideoAt a n g) {g' : Tcc1014} (hsame : g'.vertical = g.vertical) :
    VideoAt a n g'.updateFromGimeRegisters := by
  have hupdate := videoAt_update g'
  rw [hsame, h.activeArea, h.lcount] at hupdate
  exact hupdate

theorem VideoAt.selectTimer (h : VideoAt a n g) (tins : Bool) : VideoAt a n (g.selectTimer tins) := by
  unfold Tcc1014.selectTimer
  split
  · exact { h with }
  · exact h

theorem VideoAt.selectTask (h : VideoAt a n g) (tr : BitVec 4) : VideoAt a n (g.selectTask tr) := by
  unfold Tcc1014.selectTask
  split
  · exact { h with }
  · exact h

theorem VideoAt.writeVbank (h : VideoAt a n g) (val : Byte) : VideoAt a n (g.writeVbank val) := by
  unfold Tcc1014.writeVbank
  split
  · exact { h with }
  · exact h

/-- Writes of the registers change the setting of the picture, never where it stands. -/
theorem VideoAt.writeRegister (h : VideoAt a n g) (reg : BitVec 4) (val : Byte) :
    VideoAt a n (g.writeRegister reg val) := by
  have hstore : VideoAt a n { g with registers := Function.update g.registers reg val } :=
    { h with }
  unfold Tcc1014.writeRegister
  dsimp only
  split
  · exact hstore.update rfl
  · exact (hstore.selectTimer _).selectTask _
  · exact { hstore with }
  · exact { hstore with }
  · exact { hstore with }
  · exact hstore.update rfl
  · exact hstore.update rfl
  · exact hstore.update rfl
  · exact hstore.writeVbank val
  · exact hstore.update rfl
  · exact { hstore with }
  · exact { hstore with }
  · exact hstore.update rfl
  · exact hstore

theorem VideoAt.snoopPia1b (h : VideoAt a n g) (addr : Word) (val : Byte) :
    VideoAt a n (g.snoopPia1b addr val) := by
  unfold Tcc1014.snoopPia1b
  split
  · split
    · exact h.update rfl
    · exact h
  · split
    · exact { h with }
    · exact h

/-- Nor does any cycle of the CPU. -/
theorem VideoAt.memCycle (h : VideoAt a n g) (addr : Word) (rnw : Bool) (data : Byte) :
    VideoAt a n (g.memCycle addr rnw data).gime :=
  memCycle_keeps addr rnw data (h.onlyInts (onlyInts_edgeDetectIl g)) {
    select := fun _ _ _ _ h => { h with }
    snoop := fun _ addr val h => h.snoopPia1b addr val
    register := fun _ reg val h => h.writeRegister reg val
    ackIrq := fun _ h => { h with }
    ackFirq := fun _ h => { h with }
    mmu := fun _ _ _ h => { h with }
    palette := fun _ _ _ h => { h with }
    sam := fun _ _ h => h.update rfl }

/-- Any event but a reset leaves the line counter and the active area as they were; the scanline loop
alone moves them. -/
theorem VideoAt.step (h : VideoAt a n g) {e : Event} (he : e ≠ .reset) : VideoAt a n (e.step g) := by
  cases e with
  | interrupt source => exact { h with }
  | il0 high => exact { h with }
  | il1 high => exact { h with }
  | il2 high => exact { h with }
  | tick => exact h.onlyInts (onlyInts_tickScanline g)
  | cycle addr rnw data => exact h.memCycle addr rnw data
  | write reg val => exact h.writeRegister reg val
  | read reg => exact h.onlyInts (onlyInts_readRegister g reg)
  | setRam size => exact { h with }
  | reset => exact absurd rfl he

/-- So along a run without a reset. -/
theorem VideoAt.run (h : VideoAt a n g) {events : List Event} (hno : ∀ e ∈ events, e ≠ .reset) :
    VideoAt a n (runAll Event.step events g) := by
  have hall : Always Event.step (VideoAt a n) events g :=
    Always.of_step (C := fun e _ => e ≠ .reset) h (fun _ _ h he => h.step he)
      (EachStep.of_forall fun e he _ => hno e he)
  exact hall.last

/-- A reset puts the state machine at the top of the field. -/
theorem videoAt_reset (g : Tcc1014) : VideoAt false 0 g.reset := ⟨rfl, rfl, rfl, rfl⟩

/-- After a reset the parameters stay current, through further resets too. -/
theorem videoAt_afterReset (g : Tcc1014) (events : List Event) :
    ∃ a n, VideoAt a n (runAll Event.step events g.reset) := by
  have hall : Always Event.step (fun g => ∃ a n, VideoAt a n g) events g.reset := by
    apply Always.of_step (C := fun _ _ => True) ⟨false, 0, videoAt_reset g⟩
    · rintro e g ⟨a, n, h⟩ _
      by_cases he : e = .reset
      · rw [he]
        exact ⟨false, 0, videoAt_reset g⟩
      · exact ⟨a, n, h.step he⟩
    · exact EachStep.of_forall fun _ _ _ => trivial
  exact hall.last

end

end CocoEmulator.Gime
