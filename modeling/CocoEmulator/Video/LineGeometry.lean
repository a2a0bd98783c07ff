/-
  Video/LineGeometry.lean --- what the registers say about a line of video.

  The bytes of a line, the pixels they become and the bank they come from are decoded from
  several registers at once, on every write that moves one of them.

      LineBase.update   a recomputation makes the geometry current
      lineFit_always    so it is in every state of a run of the CoCo 3

  Source: tcc1014.cpp, machine.cpp.
-/
import CocoEmulator.Gime.Pages
import CocoEmulator.Video.Scanline

set_option autoImplicit false

namespace CocoEmulator.Video

open CocoEmulator.Base CocoEmulator.Gime CocoEmulator.Machine

/-! ## The geometry of a line -/

/-- What the registers say about a line, in every state of a run. -/
structure LineFit (g : Tcc1014) : Prop where
  resolution : g.resolution < 4
  width : g.bpr * (32 >>> g.resolution) ≤ 640
  words : 4 ∣ g.bpr
  attr : attrText g = true → g.bpr ≤ 80
  even : g.x.toNat % 2 = 0
  bank : ∃ m < 32, g.vramMask.toNat + 1 = 2 ^ m
  row : g.row < 16
  rowmask : g.coco = false → g.rowmask = lprRowmask g.lpr
  lines : g.vertical.lAA.toNat < 2 ^ 16

/-- The part of it that no recomputation moves. -/
structure LineBase (g : Tcc1014) : Prop where
  even : g.x.toNat % 2 = 0
  bank : ∃ m < 32, g.vramMask.toNat + 1 = 2 ^ m
  row : g.row < 16

section

variable {g : Tcc1014}

theorem LineFit.base (h : LineFit g) : LineBase g := ⟨h.even, h.bank, h.row⟩

/-- The graphics modes are 512 or 640 pixels wide. -/
theorem graphics_fit : ∀ hres : BitVec 3,
    hres.toNat >>> 1 < 4 ∧ vresHresBpr hres * (32 >>> (hres.toNat >>> 1)) ≤ 640 ∧
      4 ∣ vresHresBpr hres := by
  decide

/-- So are the text modes. -/
theorem text_fit : ∀ hres : BitVec 3,
    vresHresBprText hres * (32 >>> if bit hres 2 = true then 2 else 1) ≤ 640 ∧
      vresHresBprText hres ≤ 80 ∧ 4 ∣ vresHresBprText hres := by
  decide

/-- The count of active lines is at most the one for no end. -/
theorem activeLines_lt (g : Tcc1014) : g.activeLines.toNat < 2 ^ 16 := by
  have hlpf : ∀ lpf, (vresLpfLAA lpf).toNat < 2 ^ 16 := by decide
  unfold Tcc1014.activeLines
  split
  · decide
  · exact hlpf g.lpf

/-- Every recomputation makes the geometry current. -/
theorem LineBase.update (h : LineBase g) : LineFit g.updateFromGimeRegisters := by
  have hgraphics := graphics_fit g.hres
  have htext := text_fit g.hres
  cases hcoco : g.coco with
  | true =>
    refine { resolution := ?_, width := ?_, words := ?_, attr := ?_, even := h.even,
             bank := h.bank, row := h.row, rowmask := ?_, lines := activeLines_lt g }
    · simp only [Tcc1014.updateFromGimeRegisters, hcoco, if_true]
      split <;> decide
    · simp only [Tcc1014.updateFromGimeRegisters, Tcc1014.rowBytes, hcoco, if_true]
      split <;> decide
    · simp only [Tcc1014.updateFromGimeRegisters, Tcc1014.rowBytes, hcoco, if_true]
      split <;> decide
    · intro hattr
      simp [attrText, Tcc1014.updateFromGimeRegisters, hcoco] at hattr
    · intro hnative
      exact absurd (hnative.symm.trans hcoco) Bool.false_ne_true
  | false =>
    cases hbp : g.bp with
    | true =>
      refine { resolution := ?_, width := ?_, words := ?_, attr := ?_, even := h.even,
               bank := h.bank, row := h.row, rowmask := ?_, lines := activeLines_lt g }
      · simpa [Tcc1014.updateFromGimeRegisters, hcoco, hbp] using hgraphics.1
      · simpa [Tcc1014.updateFromGimeRegisters, Tcc1014.rowBytes, hcoco, hbp] using hgraphics.2.1
      · simpa [Tcc1014.updateFromGimeRegisters, Tcc1014.rowBytes, hcoco, hbp] using hgraphics.2.2
      · intro hattr
        simp [attrText, Tcc1014.updateFromGimeRegisters, hcoco, hbp] at hattr
      · intro _
        simp [Tcc1014.updateFromGimeRegisters, hcoco]
    | false =>
      refine { resolution := ?_, width := ?_, words := ?_, attr := ?_, even := h.even,
               bank := h.bank, row := h.row, rowmask := ?_, lines := activeLines_lt g }
      · simp only [Tcc1014.updateFromGimeRegisters, hcoco, hbp, Bool.false_eq_true, if_false]
        split <;> decide
      · simpa [Tcc1014.updateFromGimeRegisters, Tcc1014.rowBytes, hcoco, hbp] using htext.1
      · simpa [Tcc1014.updateFromGimeRegisters, Tcc1014.rowBytes, hcoco, hbp] using htext.2.2
      · intro _
        simpa [Tcc1014.updateFromGimeRegisters, Tcc1014.rowBytes, hcoco, hbp] using htext.2.1
      · intro _
        simp [Tcc1014.updateFromGimeRegisters, hcoco]

theorem LineFit.onlyInts (h : LineFit g) {g' : Tcc1014} (hints : OnlyInts g g') : LineFit g' := by
  obtain ⟨i, rfl⟩ := hints
  exact { h with }

/-- A horizontal offset is even. -/
theorem offset_even (val : Byte) : ((val &&& 0x7F) <<< 1).toNat % 2 = 0 := by
  rw [BitVec.toNat_shiftLeft]
  simp only [Nat.shiftLeft_eq, BitVec.toNat_and]
  omega

theorem LineFit.selectTimer (h : LineFit g) (tins : Bool) : LineFit (g.selectTimer tins) := by
  unfold Tcc1014.selectTimer
  split
  · exact { h with }
  · exact h

theorem LineFit.selectTask (h : LineFit g) (tr : BitVec 4) : LineFit (g.selectTask tr) := by
  unfold Tcc1014.selectTask
  split
  · exact { h with }
  · exact h

theorem LineFit.writeVbank (h : LineFit g) (val : Byte) : LineFit (g.writeVbank val) := by
  unfold Tcc1014.writeVbank
  split
  · exact { h with }
  · exact h

theorem LineFit.writeRegister (h : LineFit g) (reg : BitVec 4) (val : Byte) :
    LineFit (g.writeRegister reg val) := by
  have hstore : LineFit { g with registers := Function.update g.registers reg val } := { h with }
  unfold Tcc1014.writeRegister
  dsimp only
  split
  · exact LineBase.update { h.base with }
  · exact (hstore.selectTimer _).selectTask _
  · exact { hstore with }
  · exact { hstore with }
  · exact { hstore with }
  · exact LineBase.update { h.base with }
  · exact LineBase.update { h.base with }
  · exact LineBase.update { h.base with }
  · exact hstore.writeVbank val
  · exact LineBase.update { h.base with }
  · exact { hstore with }
  · exact { hstore with }
  · exact LineBase.update { h.base with even := offset_even val }
  · exact hstore

theorem LineFit.snoopPia1b (h : LineFit g) (addr : Word) (val : Byte) :
    LineFit (g.snoopPia1b addr val) := by
  unfold Tcc1014.snoopPia1b
  split
  · split
    · exact LineBase.update { h.base with }
    · exact h
  · split
    · exact { h with }
    · exact h

theorem LineFit.setSamRegister (h : LineFit g) (val : Word) :
    LineFit (g.setSamRegister val) :=
  LineBase.update { h.base with }

/-- The RAM sizes are powers of two, and a bank is at most 512 KB. -/
theorem bank_of_supported {size : Unsigned} (h : Supported size) :
    ∃ m < 32, ((if size < 0x80000 then size else 0x80000) - 1).toNat + 1 = 2 ^ m := by
  rcases h with rfl | rfl | rfl | rfl
  · exact ⟨17, by decide, by decide⟩
  · exact ⟨19, by decide, by decide⟩
  · exact ⟨19, by decide, by decide⟩
  · exact ⟨19, by decide, by decide⟩

theorem LineFit.clearRegisters (h : LineFit g) : LineFit g.clearRegisters := by
  unfold Tcc1014.clearRegisters
  generalize List.range 16 = regs
  induction regs generalizing g with
  | nil => exact h
  | cons i regs ih =>
    apply ih
    exact { h.writeRegister (BitVec.ofNat 4 i) 0 with }

theorem LineFit.reset (h : LineFit g) : LineFit g.reset := by
  have hcleared := (h.clearRegisters.setSamRegister 0).base
  unfold Tcc1014.reset
  generalize g.clearRegisters.setSamRegister 0 = g at hcleared ⊢
  exact LineBase.update { hcleared with row := Nat.zero_lt_succ _ }

theorem LineFit.memCycle (h : LineFit g) (addr : Word) (rnw : Bool) (data : Byte) :
    LineFit (g.memCycle addr rnw data).gime :=
  memCycle_keeps addr rnw data (h.onlyInts (onlyInts_edgeDetectIl g)) {
    select := fun _ _ _ _ h => { h with }
    snoop := fun _ addr val h => h.snoopPia1b addr val
    register := fun _ reg val h => h.writeRegister reg val
    ackIrq := fun _ h => { h with }
    ackFirq := fun _ h => { h with }
    mmu := fun _ _ _ h => { h with }
    palette := fun _ _ _ h => { h with }
    sam := fun _ _ h => h.setSamRegister _ }

theorem LineFit.step (h : LineFit g) {e : Gime.Event} (hfits : e.Fits) : LineFit (e.step g) := by
  cases e with
  | interrupt source => exact h.onlyInts (onlyInts_setInterrupt g source.flag)
  | il0 high => exact { h with }
  | il1 high => exact { h with }
  | il2 high => exact { h with }
  | tick => exact h.onlyInts (onlyInts_tickScanline g)
  | cycle addr rnw data => exact h.memCycle addr rnw data
  | write reg val => exact h.writeRegister reg val
  | read reg => exact h.onlyInts (onlyInts_readRegister g reg)
  | setRam size => exact { h with bank := bank_of_supported hfits }
  | reset => exact h.reset

/-- The geometry of a chip that nobody wrote to. -/
theorem lineFit_new : LineFit {} where
  resolution := by decide
  width := by decide
  words := by decide
  attr := fun _ => Nat.zero_le _
  even := rfl
  bank := ⟨0, by decide, rfl⟩
  row := by decide
  rowmask := fun _ => rfl
  lines := by decide

end

/-! ## The geometry over a run -/

section

variable {b : Coco3Board}

theorem LineFit.enterActive (h : LineFit b.gime) : LineFit b.enterActive.gime := by
  have hfirst : Coco3Board.firstRow b.gime < 16 := by
    unfold Coco3Board.firstRow
    split
    · split
      · exact Nat.zero_lt_succ _
      · exact b.gime.vsc.isLt
    · exact Nat.zero_lt_succ _
  unfold Coco3Board.enterActive
  split
  · exact { h with row := hfirst }
  · exact h

theorem LineFit.leaveActive (h : LineFit b.gime) : LineFit b.leaveActive.gime := by
  unfold Coco3Board.leaveActive
  dsimp only
  split
  · have hoff : LineFit { b.gime with vertical := { b.gime.vertical with activeArea := false } } :=
      { h with }
    exact hoff.onlyInts (onlyInts_setInterrupt _ intVbord)
  · exact h

theorem LineFit.advanceRow (h : LineFit b.gime) : LineFit b.advanceRow.gime := by
  refine { h with row := ?_ }
  change (if _ then 0 else (b.gime.row + 1) &&& 15) < 16
  split
  · exact Nat.zero_lt_succ _
  · exact Nat.lt_succ_of_le Nat.and_le_right

theorem LineFit.showLine (h : LineFit b.gime) : LineFit b.showLine.gime := by
  unfold Coco3Board.showLine
  dsimp only
  split
  · apply LineFit.advanceRow
    exact { h with }
  · exact h

theorem LineFit.countLine (h : LineFit b.gime) : LineFit b.countLine.gime := { h with }

theorem LineFit.shown (h : LineFit b.gime) :
    LineFit b.enterActive.lineBorder.leaveActive.gime :=
  LineFit.leaveActive (b := b.enterActive.lineBorder) { h.enterActive with }

theorem LineFit.onScanline (h : LineFit b.gime) (n : Nat) {f : Coco3Board → Coco3Board}
    (hf : LineFit b.gime → LineFit (f b).gime) : LineFit (b.onScanline n f).gime := by
  unfold Coco3Board.onScanline
  split
  · exact hf h
  · exact h

theorem LineFit.fieldStart (h : LineFit b.gime) : LineFit b.fieldStart.gime := by
  refine { h with lines := ?_ }
  change BitVec.toNat (if _ then _ else if _ then _ else if _ then _ else if _ then _ else _) < _
  split
  · decide
  split
  · decide
  split
  · decide
  split
  · decide
  · decide

theorem LineFit.beforePicture (h : LineFit b.gime) : LineFit b.beforePicture.gime := by
  have hrouted : LineFit (b.withGime b.gime.tickScanline).horizontalSync.routeInterrupts.gime :=
    h.onlyInts (onlyInts_tickScanline b.gime)
  have hsynced := LineFit.onScanline (hrouted.onScanline 0 fun h => h.fieldStart) 4
    (f := (Coco3Board.runPia0 · (Chip.Mc6821.mc6821Cb1Transition true)))
    fun h => h
  exact hsynced.onScanline 7 fun h => { h with }

theorem LineFit.scanline (h : LineFit b.gime) : LineFit (b.runScanline id).gime := by
  have hbefore := h.beforePicture
  rw [runScanline_eq]
  apply LineFit.onlyInts _ (onlyInts_setInterrupt _ intHbord)
  split
  · exact hbefore.shown.showLine.countLine
  · exact hbefore

/-- RAM is attached in a supported size. -/
def RamFits : FrameEvent → Prop
  | .chip e => e.Fits
  | .snoop _ _ | .scanline => True

instance : DecidablePred RamFits
  | .chip e => inferInstanceAs (Decidable e.Fits)
  | .snoop _ _ | .scanline => isTrue trivial

theorem LineFit.frameStep (h : LineFit b.gime) {e : FrameEvent} (hfits : RamFits e) :
    LineFit (e.step b).gime := by
  cases e with
  | chip e => exact h.step hfits
  | snoop addr val => exact h.snoopPia1b addr val
  | scanline => exact h.scanline

/-- Through any writes and scanlines from power on. -/
theorem lineFit_always (events : List FrameEvent) (hfits : ∀ e ∈ events, RamFits e) :
    Always FrameEvent.step (fun b => LineFit b.gime) events { gime := {} } :=
  Always.of_step (C := fun e _ => RamFits e) lineFit_new (fun _ _ h hc => h.frameStep hc)
    (.of_forall fun e he _ => hfits e he)

/-- So does the line that the next scanline shows. -/
theorem LineFit.rendered (h : LineFit b.gime) {g : Tcc1014} (hg : b.rendered = some g) :
    LineFit g ∧ g.vertical.activeArea = true := by
  unfold Coco3Board.rendered at hg
  dsimp only at hg
  split at hg
  next hshown =>
    rw [← Option.some.inj hg]
    exact ⟨h.beforePicture.shown, hshown.2⟩
  next => exact absurd hg (by simp)

end

end CocoEmulator.Video
