/-
  Machine/Coco3Font.lean --- the index of the font in the text lines of a CoCo 3.

  The font has 128 characters of 12 rows.  The native renderer puts its row counter back
  inside a character; the renderer of the VDG modes trusts it.  The counter runs to 15
  and wraps where a mask says so, and both the mode and the mask may change between two
  lines.

      fontSafe_iff      the one character and the rows that reach past the font
      RowInv.scanline   a scanline keeps the counter on its way to a wrap inside the font
      font_in_bounds    no line of a run indexes past the font, while no write leaves the
                        counter with no such wrap ahead

  Source: tcc1014.cpp, `render_coco_text` and `render_native_text`; machine.cpp.
-/
import CocoEmulator.Machine.Coco3Frame

set_option autoImplicit false

namespace CocoEmulator.Machine

open CocoEmulator.Base CocoEmulator.Chip CocoEmulator.Chip.Mc6821 CocoEmulator.Gime

/-- `sizeof(font_gime_dram)` -/
def fontSize : Nat := 1536

/-- The character of a byte in the VDG text mode; GM0 selects lower case. -/
def cocoChar (gm0 : Bool) (v : Byte) : Nat :=
  let c := v.toNat &&& 0x7F
  if c < 0x20 then c ||| (if gm0 = true then 0x60 else 0x40)
  else if 0x60 ≤ c then c ^^^ 0x40 else c

/-- What `render_coco_text` reads for a byte; semigraphics read nothing. -/
def cocoTextIndex (g : Tcc1014) (v : Byte) : Option Nat :=
  if bit v 7 = true then none else some (cocoChar g.vdg.gm0 v * 12 + (g.row &&& 0x0F))

/-- The row of `render_native_text`. -/
def nativeFontRow (g : Tcc1014) : Nat :=
  let fontRow := (g.row + 1) &&& 0x0F
  if 11 < fontRow then 0 else fontRow

/-- What `render_native_text` reads for a character byte. -/
def nativeTextIndex (g : Tcc1014) (v : Byte) : Nat := (v.toNat &&& 0x7F) * 12 + nativeFontRow g

/-- What `render_line` reads from the font for a byte of video memory. -/
def fontIndex (g : Tcc1014) (v : Byte) : Option Nat :=
  if g.coco = true then if g.vdg.gna = true then none else cocoTextIndex g v
  else if g.bp = true then none else some (nativeTextIndex g v)

/-- No byte of video memory makes the renderers read past the font. -/
def FontSafe (g : Tcc1014) : Prop := ∀ v i, fontIndex g v = some i → i < fontSize

/-- VDG text with lower case: the mode that shows the last character of the font. -/
def LowerText (g : Tcc1014) : Prop := g.coco = true ∧ g.vdg.gna = false ∧ g.vdg.gm0 = true

instance : DecidablePred LowerText := fun _ => inferInstanceAs (Decidable (_ ∧ _ ∧ _))

/-- Only lower case reaches the last character. -/
theorem cocoChar_le : ∀ v : Byte, cocoChar true v ≤ 0x7F ∧ cocoChar false v ≤ 0x5F := by
  decide +kernel

theorem nativeFontRow_le (g : Tcc1014) : nativeFontRow g ≤ 11 := by
  unfold nativeFontRow
  dsimp only
  split <;> omega

/-- The font is left at one character only, and at rows past its twelve. -/
theorem fontSafe_iff (g : Tcc1014) : FontSafe g ↔ (LowerText g → g.row &&& 0x0F < 12) := by
  have hrow : g.row &&& 0x0F ≤ 15 := Nat.and_le_right
  constructor
  · rintro hsafe ⟨hcoco, hgna, hgm0⟩
    have hindex : fontIndex g 0x1F = some (0x7F * 12 + (g.row &&& 0x0F)) := by
      simp only [fontIndex, hcoco, hgna, cocoTextIndex, hgm0, if_true, Bool.false_eq_true, if_false]
      rfl
    have hlt := hsafe 0x1F _ hindex
    unfold fontSize at hlt
    omega
  · intro hlower v i hi
    unfold fontIndex at hi
    split at hi
    next hcoco =>
      split at hi
      next => exact absurd hi (by simp)
      next hgna =>
        unfold cocoTextIndex at hi
        split at hi
        next => exact absurd hi (by simp)
        next =>
          have hchar := cocoChar_le v
          rw [← Option.some.inj hi]
          unfold fontSize
          cases hgm0 : g.vdg.gm0 with
          | true =>
            have := hlower ⟨hcoco, Bool.eq_false_iff.mpr hgna, hgm0⟩
            omega
          | false => omega
    next =>
      split at hi
      next => exact absurd hi (by simp)
      next =>
        have hfont := nativeFontRow_le g
        have hchar : v.toNat &&& 0x7F ≤ 0x7F := Nat.and_le_right
        rw [← Option.some.inj hi]
        unfold fontSize nativeTextIndex
        omega

/-! ## What a scanline renders -/

namespace Coco3Board

/-- A scanline without the CPU's part, up to the picture. -/
def beforePicture (b : Coco3Board) : Coco3Board :=
  let b := (b.withGime b.gime.tickScanline).horizontalSync.routeInterrupts
  ((b.onScanline 0 fieldStart).onScanline 4 (runPia0 · (mc6821Cb1Transition true))).onScanline
    7 blankingEnd

/-- The chip as `tcc1014_render_scanline` sees it, on a line that shows video. -/
def rendered (b : Coco3Board) : Option Tcc1014 :=
  let b := b.beforePicture
  let shown := b.enterActive.lineBorder.leaveActive
  if 7 ≤ b.scanline ∧ shown.gime.vertical.activeArea = true then some shown.gime else none

/-- The next line, if it shows video, keeps inside the font. -/
def LineSafe (b : Coco3Board) : Prop := ∀ g, b.rendered = some g → FontSafe g

end Coco3Board

/-! ## A run -/

/-- A step of the chip, a write of PIA1 port B that it snoops, or a scanline. -/
inductive FrameEvent
  | chip (e : Event)
  | snoop (addr : Word) (val : Byte)
  | scanline
deriving DecidableEq, Repr

def FrameEvent.step (e : FrameEvent) (b : Coco3Board) : Coco3Board :=
  match e with
  | .chip e => b.withGime (e.step b.gime)
  | .snoop addr val => b.withGime (b.gime.snoopPia1b addr val)
  | .scanline => b.runScanline id

/-- Counted on, the row wraps while it is inside the font. -/
def WrapsInFont (row mask : Nat) : Prop := ∃ r ∈ List.range 13, row < r ∧ r &&& mask = mask

instance (row mask : Nat) : Decidable (WrapsInFont row mask) :=
  inferInstanceAs (Decidable (∃ _ ∈ _, _))

/-- In the active area lower case text has such a wrap ahead. -/
def Fits (g : Tcc1014) : Prop :=
  g.vertical.activeArea = true → LowerText g → WrapsInFont g.row g.rowmask

instance : DecidablePred Fits := fun _ => inferInstanceAs (Decidable (_ → _))

/-- No write leaves lower case text without a wrap of the row inside the font ahead. -/
def KeepsFit (e : FrameEvent) (b : Coco3Board) : Prop :=
  match e with
  | .scanline => True
  | .chip _ | .snoop _ _ => Fits (e.step b).gime

instance : (e : FrameEvent) → (b : Coco3Board) → Decidable (KeepsFit e b)
  | .scanline, _ => isTrue trivial
  | .chip e, b => inferInstanceAs (Decidable (Fits ((FrameEvent.chip e).step b).gime))
  | .snoop addr val, b =>
    inferInstanceAs (Decidable (Fits ((FrameEvent.snoop addr val).step b).gime))

/-- In VDG text the mask is one of the scroll register's. -/
def TextMask (g : Tcc1014) : Prop :=
  g.coco = true → g.vdg.gna = false → ∃ vsc, g.rowmask = vscRowmask vsc

/-- Those masks wrap a row that starts from the top. -/
theorem wraps_vscRowmask : ∀ vsc, WrapsInFont 0 (vscRowmask vsc) := by
  decide

theorem WrapsInFont.lt {row mask : Nat} (h : WrapsInFont row mask) : row < 12 := by
  obtain ⟨r, hr, hlt, _⟩ := h
  have := List.mem_range.mp hr
  omega

/-- A line on: the row wraps, or is nearer to its wrap. -/
theorem WrapsInFont.next {row mask : Nat} (h : WrapsInFont row mask)
    (hstay : ¬((row + 1) &&& 15) &&& mask = mask) : WrapsInFont ((row + 1) &&& 15) mask := by
  have hlt := h.lt
  have hsmall : (row + 1) &&& 15 = row + 1 := by
    rw [Nat.and_two_pow_sub_one_eq_mod _ 4, Nat.mod_eq_of_lt (by omega)]
  obtain ⟨r, hr, hgt, hwrap⟩ := h
  rw [hsmall] at hstay ⊢
  refine ⟨r, hr, Nat.lt_of_le_of_ne hgt ?_, hwrap⟩
  intro heq
  rw [← heq] at hwrap
  exact hstay hwrap

/-! ## What the chip does to the mask -/

section

variable {g : Tcc1014}

/-- Every recomputation makes the mask current. -/
theorem textMask_update (g : Tcc1014) : TextMask g.updateFromGimeRegisters := by
  intro hcoco hgna
  refine ⟨g.vsc, ?_⟩
  have hcoco' : g.coco = true := hcoco
  have hgna' : bit g.pia1bPdr 7 = false := hgna
  simp only [Tcc1014.updateFromGimeRegisters, hcoco', hgna', if_true, Bool.false_eq_true, if_false]

theorem TextMask.onlyInts (h : TextMask g) {g' : Tcc1014} (hints : OnlyInts g g') :
    TextMask g' := by
  obtain ⟨i, rfl⟩ := hints
  exact h

theorem TextMask.writeRegister (h : TextMask g) (reg : BitVec 4) (val : Byte) :
    TextMask (g.writeRegister reg val) := by
  have hselect (tins : Bool) (g : Tcc1014) (h : TextMask g) : TextMask (g.selectTimer tins) := by
    unfold Tcc1014.selectTimer
    split
    · exact h
    · exact h
  have htask (tr : BitVec 4) (g : Tcc1014) (h : TextMask g) : TextMask (g.selectTask tr) := by
    unfold Tcc1014.selectTask
    split
    · exact h
    · exact h
  have hvbank (g : Tcc1014) (h : TextMask g) : TextMask (g.writeVbank val) := by
    unfold Tcc1014.writeVbank
    split
    · exact h
    · exact h
  unfold Tcc1014.writeRegister
  dsimp only
  split
  · exact textMask_update _
  · exact htask _ _ (hselect _ _ h)
  · exact h
  · exact h
  · exact h
  · exact textMask_update _
  · exact textMask_update _
  · exact textMask_update _
  · exact hvbank _ h
  · exact textMask_update _
  · exact h
  · exact h
  · exact textMask_update _
  · exact h

theorem TextMask.snoopPia1b (h : TextMask g) (addr : Word) (val : Byte) :
    TextMask (g.snoopPia1b addr val) := by
  unfold Tcc1014.snoopPia1b
  split
  · split
    · exact textMask_update _
    · exact h
  · split
    · exact h
    · exact h

theorem TextMask.step (h : TextMask g) (e : Event) : TextMask (e.step g) := by
  cases e with
  | interrupt source => exact h
  | il0 high => exact h
  | il1 high => exact h
  | il2 high => exact h
  | tick => exact h.onlyInts (onlyInts_tickScanline g)
  | cycle addr rnw data =>
    exact memCycle_keeps addr rnw data (h.onlyInts (onlyInts_edgeDetectIl g)) {
      select := fun _ _ _ _ h => h
      snoop := fun _ addr val h => h.snoopPia1b addr val
      register := fun _ reg val h => h.writeRegister reg val
      ackIrq := fun _ h => h
      ackFirq := fun _ h => h
      mmu := fun _ _ _ h => h
      palette := fun _ _ _ h => h
      sam := fun _ _ _ => textMask_update _ }
  | write reg val => exact h.writeRegister reg val
  | read reg => exact h.onlyInts (onlyInts_readRegister g reg)
  | setRam size => exact h
  | reset => exact textMask_update _

end

/-! ## A scanline -/

/-- The mask is current, and the row is on its way to a wrap inside the font. -/
structure RowInv (b : Coco3Board) : Prop where
  mask : TextMask b.gime
  fits : Fits b.gime

section

variable {b : Coco3Board}

theorem RowInv.onlyInts (h : RowInv b) {g : Tcc1014} (hints : OnlyInts b.gime g) :
    RowInv (b.withGime g) := by
  refine ⟨h.mask.onlyInts hints, ?_⟩
  obtain ⟨i, hi⟩ := hints
  have hfits := h.fits
  rw [Coco3Board.withGime, hi]
  exact hfits

theorem RowInv.enterActive (h : RowInv b) : RowInv b.enterActive := by
  unfold Coco3Board.enterActive
  split
  next =>
    refine ⟨h.mask, fun _ hlower => ?_⟩
    have hcoco : b.gime.coco = true := hlower.1
    have hfirst : Coco3Board.firstRow b.gime = 0 := by
      rw [Coco3Board.firstRow, hcoco]
      rfl
    obtain ⟨vsc, hvsc⟩ := h.mask hcoco hlower.2.1
    change WrapsInFont (Coco3Board.firstRow b.gime) b.gime.rowmask
    rw [hfirst, hvsc]
    exact wraps_vscRowmask vsc
  next => exact h

theorem RowInv.leaveActive (h : RowInv b) : RowInv b.leaveActive := by
  unfold Coco3Board.leaveActive
  dsimp only
  split
  next => exact ⟨h.mask, fun hactive => absurd hactive Bool.false_ne_true⟩
  next => exact h

theorem RowInv.advanceRow (h : RowInv b) : RowInv b.advanceRow := by
  refine ⟨h.mask, fun hactive hlower => ?_⟩
  change WrapsInFont (if decide (_ = _) = true then 0 else _) b.gime.rowmask
  split
  next =>
    obtain ⟨vsc, hvsc⟩ := h.mask hlower.1 hlower.2.1
    rw [hvsc]
    exact wraps_vscRowmask vsc
  next hstay => exact (h.fits hactive hlower).next fun hwrap => hstay (decide_eq_true hwrap)

theorem RowInv.showLine (h : RowInv b) : RowInv b.showLine := by
  unfold Coco3Board.showLine
  dsimp only
  split
  next =>
    apply RowInv.advanceRow
    exact ⟨h.mask, h.fits⟩
  next => exact ⟨h.mask, h.fits⟩

theorem RowInv.lineBorder (h : RowInv b) : RowInv b.lineBorder := ⟨h.mask, h.fits⟩

theorem RowInv.countLine (h : RowInv b) : RowInv b.countLine := ⟨h.mask, h.fits⟩

theorem RowInv.pictureLine (h : RowInv b) : RowInv b.pictureLine :=
  h.enterActive.lineBorder.leaveActive.showLine.countLine

theorem RowInv.endScanline (h : RowInv b) : RowInv b.endScanline := by
  have hint := h.onlyInts (onlyInts_setInterrupt b.gime intHbord)
  exact ⟨hint.mask, hint.fits⟩

theorem RowInv.fieldStart (h : RowInv b) : RowInv b.fieldStart := ⟨h.mask, h.fits⟩

theorem RowInv.blankingEnd (h : RowInv b) : RowInv b.blankingEnd :=
  ⟨h.mask, fun hactive => absurd hactive Bool.false_ne_true⟩

theorem RowInv.onScanline (h : RowInv b) (n : Nat) {f : Coco3Board → Coco3Board}
    (hf : RowInv b → RowInv (f b)) : RowInv (b.onScanline n f) := by
  unfold Coco3Board.onScanline
  split
  next => exact hf h
  next => exact h

theorem RowInv.beforePicture (h : RowInv b) : RowInv b.beforePicture := by
  have hticked := h.onlyInts (onlyInts_tickScanline b.gime)
  have hrouted : RowInv (b.withGime b.gime.tickScanline).horizontalSync.routeInterrupts :=
    ⟨hticked.mask, hticked.fits⟩
  have hsynced := (hrouted.onScanline 0 fun h => h.fieldStart).onScanline 4
    (f := (Coco3Board.runPia0 · (mc6821Cb1Transition true))) fun h => ⟨h.mask, h.fits⟩
  exact hsynced.onScanline 7 fun h => h.blankingEnd

/-- A line that is shown keeps inside the font. -/
theorem RowInv.lineSafe (h : RowInv b) : b.LineSafe := by
  have hleft := h.beforePicture.enterActive.lineBorder.leaveActive
  intro g hg
  unfold Coco3Board.rendered at hg
  dsimp only at hg
  split at hg
  next hshown =>
    rw [← Option.some.inj hg, fontSafe_iff]
    intro hlower
    have hrow := (hleft.fits hshown.2 hlower).lt
    exact Nat.lt_of_le_of_lt Nat.and_le_left hrow
  next => exact absurd hg (by simp)

/-- `rendered` is what the scanline shows. -/
theorem runScanline_eq (b : Coco3Board) :
    b.runScanline id =
      (if 7 ≤ b.beforePicture.scanline then b.beforePicture.pictureLine
        else b.beforePicture).endScanline := rfl

theorem RowInv.scanline (h : RowInv b) : RowInv (b.runScanline id) := by
  have hbefore := h.beforePicture
  rw [runScanline_eq]
  apply RowInv.endScanline
  split
  next => exact hbefore.pictureLine
  next => exact hbefore

theorem RowInv.step (h : RowInv b) {e : FrameEvent} (hfits : KeepsFit e b) : RowInv (e.step b) := by
  cases e with
  | chip e => exact ⟨h.mask.step e, hfits⟩
  | snoop addr val => exact ⟨h.mask.snoopPia1b addr val, hfits⟩
  | scanline => exact h.scanline

/-- After a reset no line is in the active area. -/
theorem rowInv_reset {g : Tcc1014} (h : b.gime = g.reset) : RowInv b := by
  refine ⟨?_, ?_⟩
  · rw [h]
    exact textMask_update _
  · rw [h]
    exact fun hactive => absurd hactive Bool.false_ne_true

end

/-- From a reset on, through any writes and scanlines: if no write in the active area leaves
lower case text without a wrap of the row inside the font ahead, no line that is shown reads
past the font. -/
theorem font_in_bounds (g : Tcc1014) (b : Coco3Board) (hreset : b.gime = g.reset)
    (events : List FrameEvent) (hfits : EachStep FrameEvent.step KeepsFit events b) :
    Always FrameEvent.step Coco3Board.LineSafe events b := by
  have hall : Always FrameEvent.step RowInv events b :=
    Always.of_step (rowInv_reset hreset) (fun _ _ h hc => h.step hc) hfits
  exact hall.imp fun _ h => h.lineSafe

/-- A line of lower case text whose row is past the font. -/
theorem not_lineSafe {b : Coco3Board}
    (h : b.rendered.map (fun g => decide (LowerText g ∧ 12 ≤ g.row &&& 0x0F)) = some true) :
    ¬b.LineSafe := by
  intro hsafe
  obtain ⟨g, hg, hpast⟩ := Option.map_eq_some_iff.mp h
  obtain ⟨hlower, hrow⟩ := of_decide_eq_true hpast
  have hlt := (fontSafe_iff g).mp (hsafe g hg) hlower
  omega

/-- The board after a reset. -/
def resetBoard : Coco3Board where
  gime := ({} : Tcc1014).reset

/-- A native mode whose row never wraps, scrolled to row 12, up to its first active line. -/
def scrolledLine : List FrameEvent :=
  [.chip (.write 8 0x07), .chip (.write 12 12)] ++ List.replicate 44 .scanline

/-- To lower case text between two lines. -/
def toLowerText : List FrameEvent :=
  [.snoop 0xFF23 0x04, .snoop 0xFF22 0x10, .chip (.write 0 0x80)]

/-- The next line shows the last character at row 13. -/
theorem font_passed :
    ¬Always FrameEvent.step Coco3Board.LineSafe (scrolledLine ++ toLowerText) resetBoard := by
  apply not_always_of_last
  apply not_lineSafe
  decide +kernel

/-- In VDG text from the top of the frame, the mask may change while the row has not passed it. -/
theorem font_in_bounds_text :
    Always FrameEvent.step Coco3Board.LineSafe
      (toLowerText ++ List.replicate 46 .scanline ++ [.chip (.write 12 15), .scanline])
      resetBoard :=
  font_in_bounds {} resetBoard rfl _ (by decide +kernel)

end CocoEmulator.Machine
