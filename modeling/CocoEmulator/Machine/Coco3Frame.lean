/-
  Machine/Coco3Frame.lean --- the scanlines of a CoCo 3 frame (machine.cpp).

  A scanline runs the CPU, ticks the timer, moves the sync inputs of PIA0, routes the
  interrupts and then does the vertical timing.  A frame is 262 of them.  What the CPU
  does in a scanline is a parameter.

      frame_screen   the lines of a frame, as a function of the border and active counts
      frame_timing   a frame shows all active lines and raises VBORD after the last one
                     exactly in the 60 Hz modes

  Not modelled: the pixels of a line, the cycle budget of the CPU, and the pak's serial
  port beyond its interrupt.
-/
import CocoEmulator.Base.RingBuffer
import CocoEmulator.Base.Run
import CocoEmulator.Chip.Mc6821
import CocoEmulator.Cpu.State
import CocoEmulator.Gime.Video

set_option autoImplicit false

namespace CocoEmulator.Machine

open CocoEmulator.Base CocoEmulator.Chip CocoEmulator.Chip.Mc6821 CocoEmulator.Gime
open CocoEmulator.Cpu (Pins)

/-- `SCANLINES_PER_FRAME`. -/
def scanlinesPerFrame : Nat := 262

/-- What the display is sent, and the vertical interrupt. -/
inductive Line
  | active (line : Unsigned)
  | border (line : Unsigned)
  | vbord
deriving DecidableEq, Repr

/-- The parts of a CoCo 3 a scanline moves, and what it sent to the display, by scanline. -/
structure Coco3Board where
  gime : Tcc1014
  pia0 : Mc6821 := {}
  pia1 : Mc6821 := {}
  pins : Pins := {}
  pakIrq : Bool := false
  scanline : Nat := 0
  screen : List (Nat × Line) := []

namespace Coco3Board

variable (b : Coco3Board)

/-- The callbacks of the PIAs do nothing on this machine. -/
def runPia0 (prog : Mc6821.M Unit) : Coco3Board := { b with pia0 := (prog b.pia0).st }

/-- Combined interrupt routing. -/
def routeInterrupts : Coco3Board :=
  { b with pins := { b.pins with
      irqPending := b.pia0.active .a || b.pia0.active .b || b.gime.irq
      firqPending := b.pia1.active .a || b.pia1.active .b || b.gime.firq || b.pakIrq } }

def withGime (g : Tcc1014) : Coco3Board := { b with gime := g }

def send (line : Line) : Coco3Board := { b with screen := b.screen ++ [(b.scanline, line)] }

/-! ## Vertical timing -/

/-- Field sync falls, and the vertical parameters are latched. -/
def fieldStart : Coco3Board :=
  let b := b.runPia0 (mc6821Cb1Transition false)
  let lAA : Unsigned := if b.gime.coco = true then 192 else if b.gime.lpf = 0 then 192
    else if b.gime.lpf = 1 then 199 else if b.gime.lpf = 3 then 225 else 0xFFFF
  let lTB : Unsigned := if b.gime.coco = true then if b.gime.h50 = true then 63 else 36
    else b.gime.vertical.lTB
  b.withGime { b.gime with vertical := { b.gime.vertical with lAA, lTB } }

/-- The end of sync and blanking resets the video address. -/
def blankingEnd : Coco3Board :=
  let y := if b.gime.coco = true then (b.gime.y &&& 0x701FF) ||| (b.gime.samF.setWidth 32 <<< 9)
    else b.gime.y
  b.withGime { b.gime with
    b := y
    vertical := { b.gime.vertical with lcount := 0, activeArea := false } }

/-- The first row of the active area. -/
def firstRow (g : Tcc1014) : Nat :=
  if g.coco = false then if g.vsc.toNat &&& g.rowmask = g.rowmask then 0 else g.vsc.toNat else 0

/-- The active area begins on the line after the top border. -/
def enterActive : Coco3Board :=
  if b.gime.vertical.activeArea = false ∧ b.gime.vertical.lcount = b.gime.vertical.lTB then
    b.withGime { b.gime with
      vertical := { b.gime.vertical with activeArea := true }
      row := firstRow b.gime }
  else b

/-- The border colour of the line. -/
def lineBorder : Coco3Board :=
  b.withGime { b.gime with
    borderColour := if b.gime.coco = true then Tcc1014.vdgBorder b.gime.vdg b.gime.pia1bPdr
      else b.gime.brdr }

/-- The active area ends, and VBORD is raised, on the line after the last active one. -/
def leaveActive : Coco3Board :=
  let g := { b.gime with vertical := { b.gime.vertical with activeArea := false } }
  if b.gime.vertical.activeArea = true ∧
      b.gime.vertical.lAA ≤ b.gime.vertical.lcount - b.gime.vertical.lTB then
    (b.withGime (g.setInterrupt intVbord)).send .vbord
  else b

/-- The row counter and the video address after a line. -/
def advanceRow : Coco3Board :=
  let row := (b.gime.row + 1) &&& 15
  let wraps := decide (row &&& b.gime.rowmask = b.gime.rowmask)
  let advance := wraps && !(!b.gime.coco && b.gime.lpr == 7)
  b.withGime { b.gime with
    row := if wraps = true then 0 else row
    b := if advance = true then b.gime.b + BitVec.ofNat 32 b.gime.rowStride else b.gime.b }

/-- A line is shown: of the active area, or of the border. -/
def showLine : Coco3Board :=
  let displayLine := b.gime.vertical.lcount - b.gime.vertical.lTB
  if b.gime.vertical.activeArea = true then
    ((b.withGime { b.gime with
        xoff := b.gime.x.toNat
        rowStride := b.gime.stride b.gime.bpr }).send (.active displayLine)).advanceRow
  else b.send (.border displayLine)

def countLine : Coco3Board :=
  b.withGime { b.gime with
    vertical := { b.gime.vertical with lcount := b.gime.vertical.lcount + 1 } }

/-- A scanline after sync and blanking. -/
def pictureLine : Coco3Board := b.enterActive.lineBorder.leaveActive.showLine.countLine

/-- What is done on one scanline only. -/
def onScanline (k : Nat) (f : Coco3Board → Coco3Board) : Coco3Board :=
  if b.scanline = k then f b else b

/-- The vertical timing of `machine_run_scanline_coco3`. -/
def verticalTiming : Coco3Board :=
  let b := ((b.onScanline 0 fieldStart).onScanline 4 (runPia0 · (mc6821Cb1Transition true))).onScanline
    7 blankingEnd
  if 7 ≤ b.scanline then b.pictureLine else b

/-- The horizontal sync of PIA0. -/
def horizontalSync : Coco3Board :=
  (b.runPia0 (mc6821Ca1Transition false)).runPia0 (mc6821Ca1Transition true)

/-- The horizontal border interrupt, and the next scanline. -/
def endScanline : Coco3Board :=
  { b.withGime (b.gime.setInterrupt intHbord) with
    scanline := if scanlinesPerFrame ≤ b.scanline + 1 then 0 else b.scanline + 1 }

/-- `machine_run_scanline_coco3`; `cpu` is what the CPU does in it. -/
def runScanline (cpu : Coco3Board → Coco3Board) : Coco3Board :=
  let b := cpu b
  (b.withGime b.gime.tickScanline).horizontalSync.routeInterrupts.verticalTiming.endScanline

/-- The first `n` scanlines of a frame. -/
def runLines (cpu : Nat → Coco3Board → Coco3Board) : Nat → Coco3Board
  | 0 => { b with scanline := 0, screen := [] }
  | n + 1 => (runLines cpu n).runScanline (cpu n)

/-- The scanlines of `machine_run_frame_coco3`. -/
def runFrame (cpu : Nat → Coco3Board → Coco3Board) : Coco3Board := b.runLines cpu scanlinesPerFrame

end Coco3Board

/-! ## The lines of a frame -/

/-- What scanline `k` sends, with `tb` lines of top border and `aa` active ones. -/
def lineOut (tb aa k : Nat) : List (Nat × Line) :=
  if k < 7 then []
  else
    let shown := BitVec.ofNat 32 (k - 7) - BitVec.ofNat 32 tb
    if tb ≤ k - 7 ∧ k - 7 < tb + aa then [(k, .active shown)]
    else if k - 7 = tb + aa then [(k, .vbord), (k, .border shown)]
    else [(k, .border shown)]

/-- The active area is on when line `v` begins. -/
def activeBefore (tb aa v : Nat) : Bool := decide (tb < v ∧ v ≤ tb + aa)

/-- The registers the vertical timing depends on. -/
structure Setting where
  coco : Bool
  h50 : Bool
  lpf : BitVec 2
deriving DecidableEq, Repr

def setting (g : Tcc1014) : Setting := ⟨g.coco, g.h50, g.lpf⟩

namespace Setting

/-- The lines of top border. -/
def border (s : Setting) : Unsigned :=
  if s.coco = true then if s.h50 = true then 63 else 36 else vresLpfLTB s.h50 s.lpf

/-- The lines of active area. -/
def lines (s : Setting) : Unsigned := if s.coco = true then 192 else vresLpfLAA s.lpf

/-- The line count is finite. -/
def finite (s : Setting) : Prop := s.coco = true ∨ s.lpf ≠ 2

instance (s : Setting) : Decidable s.finite := inferInstanceAs (Decidable (_ ∨ _))

theorem bounds (s : Setting) : s.border.toNat < 2 ^ 16 ∧ 0 < s.lines.toNat ∧
    s.lines.toNat < 2 ^ 16 := by
  obtain ⟨coco, h50, lpf⟩ := s
  revert coco h50 lpf
  decide

theorem ofNat_border (s : Setting) : BitVec.ofNat 32 s.border.toNat = s.border := by
  rw [BitVec.ofNat_toNat, BitVec.setWidth_eq]

end Setting

/-- Where the board stands in a frame: the active area is `a`, `v` lines are counted, and
`out` is sent by scanline `k`. -/
structure Drawn (s : Setting) (a : Bool) (v k : Nat) (out : List (Nat × Line))
    (b : Coco3Board) : Prop where
  setting : setting b.gime = s
  video : VideoAt a (BitVec.ofNat 32 v) b.gime
  scanline : b.scanline = k
  screen : b.screen = out

section Picture

variable {b : Coco3Board} {s : Setting} {a : Bool} {v k : Nat} {out : List (Nat × Line)}

theorem Drawn.lTB (h : Drawn s a v k out b) : b.gime.vertical.lTB = s.border := by
  rw [h.video.lTB, ← h.setting]
  rfl

theorem Drawn.lAA (h : Drawn s a v k out b) : b.gime.vertical.lAA = s.lines := by
  rw [h.video.lAA, ← h.setting]
  rfl

theorem Drawn.enter
    (h : Drawn s (activeBefore s.border.toNat s.lines.toNat v) v k out b) (hv : v < 255) :
    Drawn s (decide (s.border.toNat ≤ v ∧ v ≤ s.border.toNat + s.lines.toNat)) v k out
      b.enterActive := by
  obtain ⟨htb, _, _⟩ := s.bounds
  have hcount := h.video.lcount
  have hactive := h.video.activeArea
  unfold activeBefore at hactive
  have heq : b.gime.vertical.lcount = b.gime.vertical.lTB ↔ v = s.border.toNat := by
    rw [hcount, h.lTB]
    constructor
    · intro heq
      rw [← heq, BitVec.toNat_ofNat]
      omega
    · intro heq
      rw [heq]
      exact s.ofNat_border
  unfold Coco3Board.enterActive
  split
  · next hnow =>
    have hv := heq.mp hnow.2
    refine { h with video := { h.video with activeArea := ?_ } }
    exact (decide_eq_true (by omega)).symm
  · next hnot =>
    refine { h with video := { h.video with activeArea := ?_ } }
    rw [hactive]
    apply decide_eq_decide.mpr
    rw [heq, hactive, decide_eq_false_iff_not] at hnot
    omega

theorem Drawn.lineBorder (h : Drawn s a v k out b) : Drawn s a v k out b.lineBorder :=
  { h with video := { h.video with } }

theorem Drawn.leave
    (h : Drawn s (decide (s.border.toNat ≤ v ∧ v ≤ s.border.toNat + s.lines.toNat)) v k out b)
    (hv : v < 255) :
    Drawn s (decide (s.border.toNat ≤ v ∧ v < s.border.toNat + s.lines.toNat)) v k
      (out ++ if v = s.border.toNat + s.lines.toNat then [(k, .vbord)] else []) b.leaveActive := by
  obtain ⟨_, hpos, haa⟩ := s.bounds
  have hactive := h.video.activeArea
  have hge : s.border.toNat ≤ v → (b.gime.vertical.lAA ≤
      b.gime.vertical.lcount - b.gime.vertical.lTB ↔ s.lines.toNat ≤ v - s.border.toNat) := by
    intro hle
    rw [h.video.lcount, h.lTB, h.lAA, ← s.ofNat_border, RingBuffer.ofNat_sub_ofNat hle,
      BitVec.le_def, BitVec.toNat_ofNat, Nat.mod_eq_of_lt (by omega), s.ofNat_border]
  unfold Coco3Board.leaveActive
  dsimp only
  split
  · next hlast =>
    have hactive' : b.gime.vertical.activeArea = true := by
      rw [hactive]
      exact decide_eq_true (by omega)
    rw [if_pos ⟨hactive', (hge (by omega)).mpr (by omega)⟩, ← h.screen, ← h.scanline]
    refine { h with video := { h.video with activeArea := ?_ }, scanline := rfl, screen := rfl }
    exact (decide_eq_false (by omega)).symm
  · next hother =>
    have hstay : ¬(b.gime.vertical.activeArea = true ∧ b.gime.vertical.lAA ≤
        b.gime.vertical.lcount - b.gime.vertical.lTB) := by
      rintro ⟨hon, hend⟩
      rw [hactive, decide_eq_true_eq] at hon
      have hlines := (hge hon.1).mp hend
      omega
    rw [if_neg hstay, List.append_nil]
    refine { h with video := { h.video with activeArea := ?_ } }
    rw [hactive]
    apply decide_eq_decide.mpr
    omega

theorem Drawn.show (h : Drawn s a v k out b) :
    Drawn s a v k (out ++ [(k, if a = true then .active (BitVec.ofNat 32 v - s.border)
      else .border (BitVec.ofNat 32 v - s.border))]) b.showLine := by
  have hshown : b.gime.vertical.lcount - b.gime.vertical.lTB = BitVec.ofNat 32 v - s.border := by
    rw [h.video.lcount, h.lTB]
  unfold Coco3Board.showLine
  dsimp only
  rw [h.video.activeArea, hshown, ← h.screen, ← h.scanline]
  split
  · exact { h with video := { h.video with }, scanline := rfl, screen := rfl }
  · exact { h with video := { h.video with }, scanline := rfl, screen := rfl }

theorem Drawn.count (h : Drawn s a v k out b) : Drawn s a (v + 1) k out b.countLine := by
  refine { h with video := { h.video with lcount := ?_ } }
  unfold Coco3Board.countLine
  change b.gime.vertical.lcount + 1 = _
  rw [h.video.lcount]
  exact RingBuffer.ofNat_add_ofNat v 1

/-- A picture line sends what it should and leaves the counter at the next one. -/
theorem Drawn.picture
    (h : Drawn s (activeBefore s.border.toNat s.lines.toNat v) v (v + 7) out b) (hv : v < 255) :
    Drawn s (activeBefore s.border.toNat s.lines.toNat (v + 1)) (v + 1) (v + 7)
      (out ++ lineOut s.border.toNat s.lines.toNat (v + 7)) b.pictureLine := by
  have hdone := (((h.enter hv).lineBorder.leave hv).show).count
  have hnext : activeBefore s.border.toNat s.lines.toNat (v + 1) =
      decide (s.border.toNat ≤ v ∧ v < s.border.toNat + s.lines.toNat) := by
    unfold activeBefore
    apply decide_eq_decide.mpr
    omega
  have hout : lineOut s.border.toNat s.lines.toNat (v + 7) =
      (if v = s.border.toNat + s.lines.toNat then [(v + 7, .vbord)] else []) ++
        [(v + 7, if decide (s.border.toNat ≤ v ∧ v < s.border.toNat + s.lines.toNat) = true then
          .active (BitVec.ofNat 32 v - s.border)
        else .border (BitVec.ofNat 32 v - s.border))] := by
    unfold lineOut
    rw [if_neg (by omega), Nat.add_sub_cancel, s.ofNat_border]
    dsimp only
    by_cases hin : s.border.toNat ≤ v ∧ v < s.border.toNat + s.lines.toNat
    · rw [if_pos hin, if_neg (by omega), if_pos (decide_eq_true hin)]
      rfl
    · rw [if_neg hin, decide_eq_false hin]
      split <;> rfl
  rw [hnext, hout, ← List.append_assoc]
  exact hdone

end Picture

/-! ## Frames -/

/-- What the CPU does in a scanline: accesses to the chip, but no reset, that leave the
setting as it was. -/
structure Steady (b b' : Coco3Board) : Prop where
  events : ∃ events, (∀ e ∈ events, e ≠ Event.reset) ∧ b'.gime = runAll Event.step events b.gime
  setting : setting b'.gime = setting b.gime
  scanline : b'.scanline = b.scanline
  screen : b'.screen = b.screen

/-- The lines of a frame's first `n` scanlines. -/
def frameOut (s : Setting) (n : Nat) : List (Nat × Line) :=
  (List.range n).flatMap (lineOut s.border.toNat s.lines.toNat)

theorem frameOut_succ (s : Setting) (n : Nat) :
    frameOut s (n + 1) = frameOut s n ++ lineOut s.border.toNat s.lines.toNat n := by
  unfold frameOut
  rw [List.range_succ, List.flatMap_append, List.flatMap_singleton]

/-- Where the board stands after `n` scanlines of a frame. -/
def FrameInv (s : Setting) (n : Nat) (b : Coco3Board) : Prop :=
  ∃ a v, Drawn s a v (n % scanlinesPerFrame) (frameOut s n) b ∧
    (7 < n → v + 7 = n ∧ a = activeBefore s.border.toNat s.lines.toNat v)

section Frames

variable {b b' : Coco3Board} {s : Setting} {a : Bool} {v k n : Nat} {out : List (Nat × Line)}

theorem Drawn.steady (h : Drawn s a v k out b) (hsteady : Steady b b') : Drawn s a v k out b' := by
  obtain ⟨events, hno, hgime⟩ := hsteady.events
  refine ⟨hsteady.setting.trans h.setting, ?_, hsteady.scanline.trans h.scanline,
    hsteady.screen.trans h.screen⟩
  rw [hgime]
  exact h.video.run hno

theorem Drawn.tick (h : Drawn s a v k out b) :
    Drawn s a v k out (b.withGime b.gime.tickScanline) := by
  have hints := onlyInts_tickScanline b.gime
  refine { h with setting := ?_, video := h.video.onlyInts hints }
  obtain ⟨i, hi⟩ := hints
  change Machine.setting b.gime.tickScanline = s
  rw [hi]
  exact h.setting

theorem Drawn.fieldStart (h : Drawn s a v k out b) : Drawn s a v k out b.fieldStart := by
  have hlTB := h.video.lTB
  refine { h with video := { h.video with lTB := ?_, lAA := ?_ } }
  · change (if b.gime.coco = true then if b.gime.h50 = true then 63 else 36
      else b.gime.vertical.lTB) = b.gime.topBorder
    rw [hlTB]
    unfold Tcc1014.topBorder
    split <;> rfl
  · change (if b.gime.coco = true then 192 else if b.gime.lpf = 0 then 192
      else if b.gime.lpf = 1 then 199 else if b.gime.lpf = 3 then 225 else 0xFFFF) =
        b.gime.activeLines
    unfold Tcc1014.activeLines
    generalize b.gime.lpf = lpf
    split
    · rfl
    · revert lpf
      decide

theorem Drawn.blankingEnd (h : Drawn s a v k out b) : Drawn s false 0 k out b.blankingEnd :=
  { h with video := { h.video with activeArea := rfl, lcount := rfl } }

theorem Drawn.onScanline (h : Drawn s a v k out b) (n : Nat) {f : Coco3Board → Coco3Board}
    (hf : Drawn s a v k out b → Drawn s a v k out (f b)) :
    Drawn s a v k out (b.onScanline n f) := by
  unfold Coco3Board.onScanline
  split
  · exact hf h
  · exact h

/-- The vertical timing of scanline `k`. -/
theorem Drawn.verticalTiming (h : Drawn s a v k out b) (hk : k < scanlinesPerFrame)
    (hat : 7 < k → v + 7 = k ∧ a = activeBefore s.border.toNat s.lines.toNat v) :
    ∃ a v, Drawn s a v k (out ++ lineOut s.border.toNat s.lines.toNat k) b.verticalTiming ∧
      (7 < k + 1 → v + 7 = k + 1 ∧ a = activeBefore s.border.toNat s.lines.toNat v) := by
  have hstart := h.onScanline 0 fun h => h.fieldStart
  have hsync : Drawn s a v k out ((b.onScanline 0 Coco3Board.fieldStart).onScanline 4
      (Coco3Board.runPia0 · (mc6821Cb1Transition true))) :=
    hstart.onScanline 4 fun h => { h with }
  unfold Coco3Board.verticalTiming
  generalize (b.onScanline 0 Coco3Board.fieldStart).onScanline 4
      (Coco3Board.runPia0 · (mc6821Cb1Transition true)) = b at hsync
  have hscan := hsync.scanline
  unfold scanlinesPerFrame at hk
  dsimp only
  rcases Nat.lt_trichotomy k 7 with hlt | heq | hgt
  · have hskip : b.onScanline 7 Coco3Board.blankingEnd = b := if_neg (by omega)
    have hnone : lineOut s.border.toNat s.lines.toNat k = [] := if_pos hlt
    rw [hskip, if_neg (by omega), hnone, List.append_nil]
    exact ⟨a, v, hsync, fun hlate => absurd hlate (by omega)⟩
  · -- the counter starts on scanline 7
    have hblanked : b.onScanline 7 Coco3Board.blankingEnd = b.blankingEnd := if_pos (by omega)
    have hblank := hsync.blankingEnd
    have hzero : activeBefore s.border.toNat s.lines.toNat 0 = false := decide_eq_false (by omega)
    rw [hblanked, if_pos (by rw [hblank.scanline]; omega)]
    rw [heq, ← hzero] at hblank
    rw [heq]
    exact ⟨_, 1, hblank.picture (by omega), fun _ => ⟨rfl, rfl⟩⟩
  · have hskip : b.onScanline 7 Coco3Board.blankingEnd = b := if_neg (by omega)
    obtain ⟨hv, ha⟩ := hat hgt
    rw [hskip, if_pos (by omega)]
    rw [ha, ← hv] at hsync
    rw [← hv]
    exact ⟨_, v + 1, hsync.picture (by omega), fun _ => ⟨by omega, rfl⟩⟩

theorem Drawn.endScanline (h : Drawn s a v k out b) (hk : k < scanlinesPerFrame) :
    Drawn s a v ((k + 1) % scanlinesPerFrame) out b.endScanline := by
  refine { h with video := { h.video with }, scanline := ?_ }
  unfold Coco3Board.endScanline
  dsimp only
  rw [h.scanline]
  unfold scanlinesPerFrame at hk ⊢
  split <;> omega

theorem FrameInv.scanline (h : FrameInv s n b) (hn : n < scanlinesPerFrame)
    {cpu : Coco3Board → Coco3Board} (hsteady : Steady b (cpu b)) :
    FrameInv s (n + 1) (b.runScanline cpu) := by
  obtain ⟨a, v, hdrawn, hat⟩ := h
  rw [Nat.mod_eq_of_lt hn] at hdrawn
  have hticked := (hdrawn.steady hsteady).tick
  have hrouted : Drawn s a v n (frameOut s n)
      ((cpu b).withGime (cpu b).gime.tickScanline).horizontalSync.routeInterrupts :=
    { hticked with }
  obtain ⟨a, v, htimed, hnext⟩ := hrouted.verticalTiming hn hat
  refine ⟨a, v, ?_, hnext⟩
  rw [frameOut_succ]
  exact htimed.endScanline hn

theorem frameInv_runLines {cpu : Nat → Coco3Board → Coco3Board} {a : Bool} {c : Unsigned}
    (hvideo : VideoAt a c b.gime)
    (hsteady : ∀ n, n < scanlinesPerFrame → Steady (b.runLines cpu n) (cpu n (b.runLines cpu n)))
    (hn : n ≤ scanlinesPerFrame) : FrameInv (setting b.gime) n (b.runLines cpu n) := by
  induction n with
  | zero =>
    refine ⟨a, c.toNat, ⟨rfl, ?_, rfl, rfl⟩, fun hlate => absurd hlate (by omega)⟩
    rw [BitVec.ofNat_toNat, BitVec.setWidth_eq]
    exact hvideo
  | succ n ih => exact (ih (by omega)).scanline hn (hsteady n hn)

/-- What a frame sends depends on the setting alone. -/
theorem frame_screen {cpu : Nat → Coco3Board → Coco3Board} {a : Bool} {c : Unsigned}
    (hvideo : VideoAt a c b.gime)
    (hsteady : ∀ n, n < scanlinesPerFrame → Steady (b.runLines cpu n) (cpu n (b.runLines cpu n))) :
    (b.runFrame cpu).screen = frameOut (setting b.gime) scanlinesPerFrame := by
  obtain ⟨a, v, hdrawn, _⟩ := frameInv_runLines hvideo hsteady (Nat.le_refl scanlinesPerFrame)
  exact hdrawn.screen

end Frames

/-! ## The law -/

/-- The scanlines that show an active line. -/
def activesOf (out : List (Nat × Line)) : List Nat :=
  out.filterMap fun
    | (k, .active _) => some k
    | _ => none

/-- The scanlines on which VBORD is raised. -/
def vbordsOf (out : List (Nat × Line)) : List Nat :=
  out.filterMap fun
    | (k, .vbord) => some k
    | _ => none

/-- All active lines are shown, and VBORD is raised once, after the last of them. -/
def FrameOk (lines : Nat) (out : List (Nat × Line)) : Prop :=
  (activesOf out).length = lines ∧ (vbordsOf out).length = 1 ∧
    vbordsOf out = ((activesOf out).getLast?.map (· + 1)).toList

instance (lines : Nat) (out : List (Nat × Line)) : Decidable (FrameOk lines out) :=
  inferInstanceAs (Decidable (_ ∧ _ ∧ _))

/-- The frames of the finite settings: with 50 Hz borders the line after the last active
one is beyond the frame. -/
theorem frameOk_iff {s : Setting} (hfinite : s.finite) :
    FrameOk s.lines.toNat (frameOut s scanlinesPerFrame) ↔ s.h50 = false := by
  obtain ⟨coco, h50, lpf⟩ := s
  revert coco h50 lpf
  decide +kernel

/-- A frame from any state of the chip after a reset, whatever the CPU does in the scanlines but a
reset and a change of COCO, H50 and LPF: it shows every active line of its setting and raises
VBORD once, on the scanline after the last of them, exactly when H50 is clear. -/
theorem frame_timing (events : List Event) (b : Coco3Board)
    (hgime : b.gime = runAll Event.step events ({} : Tcc1014).reset)
    (hfinite : (setting b.gime).finite) (cpu : Nat → Coco3Board → Coco3Board)
    (hsteady : ∀ n, n < scanlinesPerFrame → Steady (b.runLines cpu n) (cpu n (b.runLines cpu n))) :
    FrameOk (setting b.gime).lines.toNat (b.runFrame cpu).screen ↔ b.gime.h50 = false := by
  obtain ⟨a, c, hvideo⟩ := videoAt_afterReset {} events
  rw [← hgime] at hvideo
  rw [frame_screen hvideo hsteady]
  exact frameOk_iff hfinite

/-! ## Instances -/

/-- A CPU that leaves the machine alone. -/
def waiting (_ : Nat) (b : Coco3Board) : Coco3Board := b

theorem steady_refl (b : Coco3Board) : Steady b b :=
  ⟨⟨[], by simp, rfl⟩, rfl, rfl, rfl⟩

/-- The board after a reset and a write of VMODE. -/
def boardWith (vmode : Byte) : Coco3Board where
  gime := runAll Event.step [.write 8 vmode] ({} : Tcc1014).reset

theorem frame_timing_60 : FrameOk 192 ((boardWith 0x00).runFrame waiting).screen := by
  have hlaw := frame_timing [.write 8 0x00] (boardWith 0x00) rfl (by decide +kernel) waiting
    fun n _ => steady_refl _
  have hlines : (setting (boardWith 0x00).gime).lines.toNat = 192 := by decide +kernel
  rw [hlines] at hlaw
  exact hlaw.mpr (by decide +kernel)

/-- In a 50 Hz mode VBORD is never raised. -/
theorem frame_50_no_vbord :
    vbordsOf ((boardWith 0x08).runFrame waiting).screen = [] ∧
      ¬FrameOk (setting (boardWith 0x08).gime).lines.toNat
        ((boardWith 0x08).runFrame waiting).screen := by
  obtain ⟨a, c, hvideo⟩ := videoAt_afterReset {} [.write 8 0x08]
  have hscreen : ((boardWith 0x08).runFrame waiting).screen =
      frameOut (setting (boardWith 0x08).gime) scanlinesPerFrame :=
    frame_screen hvideo fun n _ => steady_refl _
  rw [hscreen]
  exact ⟨by decide +kernel, by decide +kernel⟩

end CocoEmulator.Machine
