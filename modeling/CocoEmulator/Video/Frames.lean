/-
  Video/Frames.lean --- the picture after a frame of the CoCo 3 (machine.cpp).

  A frame sends each of its lines once: the active ones, and those of the border around them.

      Frame.Ok.placed    what a frame sends is at different places
      frame_on_display   after a frame all that it sent is on the display

  The CPU of a frame leaves COCO, H50 and LPF as they were, since the height and the place of the
  picture depend on them; the other registers, the palette and the RAM it may write in any scanline.
-/
import CocoEmulator.Machine.Coco3Frame
import CocoEmulator.Video.Repaint

set_option autoImplicit false

namespace CocoEmulator.Video

open CocoEmulator.Base CocoEmulator.Gime CocoEmulator.Machine

/-! ## The lines of a frame -/

/-- What a scanline past the blanking shows: an active line, or one of the border. -/
def pictureSends (b : Coco3Board) (ram : Unsigned → Byte) (capture : Bool) : PictureEvent :=
  let g := b.enterActive.lineBorder.leaveActive.gime
  if g.vertical.activeArea = true then
    .line g ram capture (g.vertical.lcount - g.vertical.lTB).toNat
  else .border (g.vertical.lcount.toInt - g.vertical.lTB.toInt) g.vertical.lAA.toNat g.borderColour

/-- What a scanline sends to the picture after the CPU's part of it. -/
def scanlineSends (b : Coco3Board) (ram : Unsigned → Byte) (capture : Bool) :
    List PictureEvent :=
  let b := b.beforePicture
  if 7 ≤ b.scanline then [pictureSends b ram capture] else []

/-- What there is besides the board in a frame, by scanline: what the CPU does, the RAM, and
whether a screenshot is taken. -/
structure Frame where
  cpu : Nat → Coco3Board → Coco3Board
  ram : Nat → Unsigned → Byte
  capture : Nat → Bool

def Frame.scanline (f : Frame) (k : Nat) (b : Coco3Board) : Coco3Board := b.runScanline (f.cpu k)

/-- What the scanlines of a frame send. -/
def Frame.sendsOn (f : Frame) : List Nat → Coco3Board → List PictureEvent
  | [], _ => []
  | k :: ks, b => scanlineSends (f.cpu k b) (f.ram k) (f.capture k) ++ f.sendsOn ks (f.scanline k b)

/-- A board about to start a frame. -/
def atFrameStart (b : Coco3Board) : Coco3Board := { b with scanline := 0, screen := [] }

/-- `machine_run_frame_coco3`, up to the end of its scanlines. -/
def Frame.sends (f : Frame) (b : Coco3Board) : List PictureEvent :=
  f.sendsOn (List.range' 0 scanlinesPerFrame) (atFrameStart b)

/-- What the CPU does in a scanline: accesses to the chip, but no reset, that leave COCO, H50 and
LPF as they were. -/
structure Settled (b b' : Coco3Board) : Prop where
  events : ∃ events, (∀ e ∈ events, e ≠ Gime.Event.reset ∧ e.Fits) ∧
    b'.gime = runAll Gime.Event.step events b.gime
  setting : setting b'.gime = setting b.gime
  scanline : b'.scanline = b.scanline
  screen : b'.screen = b.screen

section

variable {b b' : Coco3Board} {s : Setting} {k n : Nat}

theorem Settled.steady (h : Settled b b') : Steady b b' := by
  obtain ⟨events, hno, hgime⟩ := h.events
  exact ⟨⟨events, fun e he => (hno e he).1, hgime⟩, h.setting, h.scanline, h.screen⟩

/-- A CPU that leaves the chip alone. -/
theorem settled_refl (b : Coco3Board) : Settled b b := ⟨⟨[], by simp, rfl⟩, rfl, rfl, rfl⟩

theorem Settled.fit (h : Settled b b') (hfit : LineFit b.gime) : LineFit b'.gime := by
  obtain ⟨events, hno, hgime⟩ := h.events
  rw [hgime]
  clear hgime
  generalize b.gime = g at hfit
  induction events generalizing g with
  | nil => exact hfit
  | cons e events ih =>
    exact ih (fun e' he' => hno e' (List.mem_cons_of_mem _ he')) _
      (hfit.step (hno e List.mem_cons_self).2)

/-- It is at the place of the line that is counted. -/
theorem picture_placed {out : List (Nat × Line)} {v : Nat}
    (h : Drawn s (activeBefore s.border.toNat s.lines.toNat v) v k out b) (hv : v < 255)
    (hfit : LineFit b.gime) (ram : Unsigned → Byte) (capture : Bool) :
    (pictureSends b ram capture).Placed s.lines ∧
      (pictureSends b ram capture).place = some ((v : Int) - s.border.toNat) := by
  have hshown := (h.enter hv).lineBorder.leave hv
  have hpicture := hfit.shown
  obtain ⟨hborder, -, hlines⟩ := s.bounds
  have hcount : b.enterActive.lineBorder.leaveActive.gime.vertical.lcount.toNat = v := by
    rw [hshown.video.lcount, BitVec.toNat_ofNat]
    omega
  have htop := congrArg BitVec.toNat hshown.lTB
  have hactive := hshown.video.activeArea
  unfold pictureSends
  dsimp only
  generalize hg : b.enterActive.lineBorder.leaveActive.gime = g at *
  have hlAA : g.vertical.lAA = s.lines := by
    rw [← hg]
    exact hshown.lAA
  split
  next hon =>
    rw [hactive, decide_eq_true_eq] at hon
    have hline : (g.vertical.lcount - g.vertical.lTB).toNat = v - s.border.toNat := by
      rw [BitVec.toNat_sub, hcount, htop]
      omega
    refine ⟨⟨hpicture, hlAA, by omega⟩, ?_⟩
    simp only [PictureEvent.place, hline]
    exact congrArg some (by omega)
  next hoff =>
    rw [hactive, decide_eq_true_eq] at hoff
    have hvline : g.vertical.lcount.toInt = v := by
      rw [BitVec.toInt_eq_toNat_of_lt (by omega), hcount]
    have hstart : g.vertical.lTB.toInt = s.border.toNat := by
      rw [BitVec.toInt_eq_toNat_of_lt (by omega), htop]
    rw [hvline, hstart, hlAA]
    exact ⟨⟨rfl, by omega⟩, rfl⟩

/-- What a scanline sends is at its own place. -/
theorem scanline_placed (h : FrameInv s k b) (hk : k < scanlinesPerFrame) (hsettled : Settled b b')
    (hfit : LineFit b.gime) (ram : Unsigned → Byte) (capture : Bool) :
    scanlineSends b' ram capture = [] ∨ ∃ e, scanlineSends b' ram capture = [e] ∧
      e.Placed s.lines ∧ e.place = some ((k : Int) - 7 - s.border.toNat) := by
  obtain ⟨a, v, hdrawn, hat⟩ := h
  rw [Nat.mod_eq_of_lt hk] at hdrawn
  have hpicture := (hsettled.fit hfit).beforePicture
  have hrouted : Drawn s a v k (frameOut s k)
      (b'.withGime b'.gime.tickScanline).horizontalSync.routeInterrupts :=
    { (hdrawn.steady hsettled.steady).tick with }
  have hstart := hrouted.onScanline 0 fun h => h.fieldStart
  have hsync := hstart.onScanline 4
    (f := (Coco3Board.runPia0 · (Chip.Mc6821.mc6821Cb1Transition true))) fun h => { h with }
  have hbefore : b'.beforePicture = Coco3Board.onScanline _ 7 Coco3Board.blankingEnd := rfl
  have hscan := hsync.scanline
  unfold scanlinesPerFrame at hk
  rcases Nat.lt_trichotomy k 7 with hlt | heq | hgt
  · left
    rw [Coco3Board.onScanline, if_neg (by rw [hscan]; omega)] at hbefore
    exact if_neg (by rw [hbefore, hscan]; omega)
  · -- the counter starts on scanline 7
    right
    rw [Coco3Board.onScanline, if_pos (by rw [hscan]; exact heq)] at hbefore
    have hzero : activeBefore s.border.toNat s.lines.toNat 0 = false := decide_eq_false (by omega)
    have hblank := hsync.blankingEnd
    rw [← hbefore, ← hzero] at hblank
    refine ⟨_, if_pos (by rw [hblank.scanline]; omega), ?_⟩
    rw [heq]
    exact picture_placed hblank (by omega) hpicture ram capture
  · right
    obtain ⟨hv, ha⟩ := hat hgt
    rw [Coco3Board.onScanline, if_neg (by rw [hscan]; omega)] at hbefore
    rw [← hbefore, ha] at hsync
    refine ⟨_, if_pos (by rw [hsync.scanline]; omega), ?_⟩
    have hplaced := picture_placed hsync (by omega) hpicture ram capture
    exact ⟨hplaced.1, hplaced.2.trans (congrArg some (by omega))⟩

/-- What the scanlines of a frame send is at different places. -/
theorem sendsOn_placed {f : Frame} {n k : Nat} {b : Coco3Board} (h : FrameInv s k b)
    (hfit : LineFit b.gime) (hn : k + n ≤ scanlinesPerFrame)
    (hsettled : EachStep f.scanline (fun k b => Settled b (f.cpu k b)) (List.range' k n) b) :
    (∀ e ∈ f.sendsOn (List.range' k n) b, e.Placed s.lines ∧
        ∃ m, k ≤ m ∧ e.place = some ((m : Int) - 7 - s.border.toNat)) ∧
      ((f.sendsOn (List.range' k n) b).map PictureEvent.place).Nodup := by
  induction n generalizing k b with
  | zero => exact ⟨fun e he => absurd he List.not_mem_nil, List.nodup_nil⟩
  | succ n ih =>
    rw [List.range'_succ] at hsettled ⊢
    have hnext : LineFit (f.scanline k b).gime := (hsettled.1.fit hfit).scanline
    have hinv : FrameInv s (k + 1) (f.scanline k b) := h.scanline (by omega) hsettled.1.steady
    obtain ⟨hrest, hdistinct⟩ := ih hinv hnext (by omega) hsettled.2
    have hrest' : ∀ e ∈ f.sendsOn (List.range' (k + 1) n) (f.scanline k b), e.Placed s.lines ∧
        ∃ m, k ≤ m ∧ e.place = some ((m : Int) - 7 - s.border.toNat) := by
      intro e he
      obtain ⟨hplaced, m, hm, hplace⟩ := hrest e he
      exact ⟨hplaced, m, by omega, hplace⟩
    unfold Frame.sendsOn
    rcases scanline_placed h (by omega) hsettled.1 hfit (f.ram k) (f.capture k) with
      hnone | ⟨e, hsent, hplaced, hplace⟩
    · rw [hnone]
      exact ⟨hrest', hdistinct⟩
    · rw [hsent, List.singleton_append, List.map_cons, List.nodup_cons]
      refine ⟨?_, ?_, hdistinct⟩
      · intro e' he'
        rcases List.mem_cons.mp he' with rfl | he'
        · exact ⟨hplaced, k, Nat.le_refl k, hplace⟩
        · exact hrest' e' he'
      · intro hmem
        obtain ⟨e', he', heq⟩ := List.mem_map.mp hmem
        obtain ⟨-, m, hm, hplace'⟩ := hrest e' he'
        rw [hplace, hplace', Option.some.injEq] at heq
        omega

/-- A frame of `total` active lines, from a board as runs of the machine leave it. -/
structure Frame.Ok (total : Unsigned) (f : Frame) (b : Coco3Board) : Prop where
  video : ∃ a c, VideoAt a c b.gime
  fit : LineFit b.gime
  lines : (setting b.gime).lines = total
  settled : EachStep f.scanline (fun k b => Settled b (f.cpu k b)) (List.range' 0 scanlinesPerFrame)
    (atFrameStart b)

theorem Frame.Ok.placed {f : Frame} {total : Unsigned} (h : f.Ok total b) :
    (∀ e ∈ f.sends b, e.Placed total ∧ ∃ n, e.place = some n) ∧
      ((f.sends b).map PictureEvent.place).Nodup := by
  obtain ⟨a, c, hvideo⟩ := h.video
  have hstart : FrameInv (setting b.gime) 0 (atFrameStart b) := by
    refine ⟨a, c.toNat, ⟨rfl, ?_, rfl, rfl⟩, fun hlate => absurd hlate (by omega)⟩
    rw [BitVec.ofNat_toNat, BitVec.setWidth_eq]
    exact hvideo
  obtain ⟨hplaced, hdistinct⟩ :=
    sendsOn_placed (b := atFrameStart b) hstart h.fit (by omega) h.settled
  rw [h.lines] at hplaced
  refine ⟨fun e he => ?_, hdistinct⟩
  obtain ⟨hin, m, -, hm⟩ := hplaced e he
  exact ⟨hin, _, hm⟩

end

/-! ## Histories of frames -/

/-- A frame from its board, and what happens to the picture between it and the next: the end of
the frame, and what is not the machine's. -/
structure FrameRun where
  board : Coco3Board
  frame : Frame
  after : List PictureEvent

/-- What reaches the picture in a history of frames. -/
def historyOf (runs : List FrameRun) : List PictureEvent :=
  runs.flatMap fun run => run.frame.sends run.board ++ run.after

/-- Frames of one number of active lines. -/
def FrameRun.Ok (total : Unsigned) (run : FrameRun) : Prop :=
  run.frame.Ok total run.board ∧ ∀ e ∈ run.after, e.place = none

section

variable {p : Panel} {font : Nat → Byte} {W : Set (List Unsigned)} {total : Unsigned}

theorem PictureEvent.placed_of_none {e : PictureEvent} (h : e.place = none) : e.Placed total := by
  cases e with
  | line g ram capture line => exact absurd h (by simp [PictureEvent.place])
  | border y totalLines colour => exact absurd h (by simp [PictureEvent.place])
  | frame | standardLayout | repaint | reset | artifacts | monitor => trivial

/-- No row is stale: after any history of frames of one number of active lines, in whose scanlines
COCO, H50 and LPF stay as they were, whatever the other registers, the palette and the RAM are,
each line of the last frame and each of its border lines is on the display, painted or left out. -/
theorem frame_on_display (hp : 0 < p.units) (hW : Set.InjOn lineSignature W)
    (runs : List FrameRun) (hruns : ∀ run ∈ runs, run.Ok total) {f : Frame} {b : Coco3Board}
    (hlast : f.Ok total b)
    (hwords : EachStep (Picture.step p font) (PictureEvent.Words W) (historyOf runs ++ f.sends b)
      (Picture.start p)) :
    ∀ e ∈ f.sends b,
      e.Shown p font (runAll (Picture.step p font) (historyOf runs ++ f.sends b)
        (Picture.start p)) := by
  have hhistory : ∀ e ∈ historyOf runs, e.Placed total := by
    intro e he
    obtain ⟨run, hrun, he⟩ := List.mem_flatMap.mp he
    rcases List.mem_append.mp he with he | he
    · exact ((hruns run hrun).1.placed.1 e he).1
    · exact PictureEvent.placed_of_none ((hruns run hrun).2 e he)
  obtain ⟨hplaced, hdistinct⟩ := hlast.placed
  have hall : ∀ e ∈ historyOf runs ++ f.sends b, e.Placed total := by
    intro e he
    rcases List.mem_append.mp he with he | he
    · exact hhistory e he
    · exact (hplaced e he).1
  have hfits : EachStep (Picture.step p font) (PictureEvent.Fits W total)
      (historyOf runs ++ f.sends b) (Picture.start p) :=
    (EachStep.of_forall fun e he _ => hall e he).and hwords
  obtain ⟨hbefore, hframe⟩ := eachStep_append.mp hfits
  have hcurrent := (current_start p font W total).run hp hW hbefore
  rw [runAll_append]
  exact hcurrent.all_shown hp hW hframe (fun e he => (hplaced e he).2) hdistinct

end

/-- A machine with 512 KB after a write of VMODE for graphics. -/
def graphicsBoard : Coco3Board :=
  runAll FrameEvent.step [.chip .reset, .chip (.setRam 0x80000), .chip (.write 8 0x80)]
    { gime := {} }

/-- A frame of empty RAM, in which the CPU does nothing. -/
def emptyFrame : Frame where
  cpu := waiting
  ram := fun _ _ => 0
  capture := fun _ => false

theorem emptyFrame_ok : emptyFrame.Ok 192 graphicsBoard where
  video := videoAt_afterReset {} [.setRam 0x80000, .write 8 0x80]
  fit := (lineFit_always [.chip .reset, .chip (.setRam 0x80000), .chip (.write 8 0x80)]
    (by decide)).last
  lines := by decide +kernel
  settled := .of_forall fun _ _ b => settled_refl b

/-- The words of each of its lines. -/
def emptyWords : List Unsigned := [2, 0xC010, 0, 0, 0, 0, 0, 0, 0, 0]

theorem words_emptyFrame :
    ∀ w ∈ (emptyFrame.sends graphicsBoard).filterMap
        (PictureEvent.words · (Picture.start fullPanel).statics),
      w = emptyWords := by
  decide +kernel

/-- Its 255 lines a second time, when none has to be painted. -/
theorem frame_on_display_empty :
    (emptyFrame.sends graphicsBoard).length = 255 ∧
      ∀ e ∈ emptyFrame.sends graphicsBoard,
        e.Shown fullPanel (fun _ => 0) (runAll (Picture.step fullPanel fun _ => 0)
          (historyOf [⟨graphicsBoard, emptyFrame, []⟩] ++ emptyFrame.sends graphicsBoard)
          (Picture.start fullPanel)) := by
  have hplaces := emptyFrame_ok.placed.1
  have hsent : ∀ e ∈ historyOf [⟨graphicsBoard, emptyFrame, []⟩] ++
      emptyFrame.sends graphicsBoard, e ∈ emptyFrame.sends graphicsBoard := by
    simp [historyOf]
  have hruns : ∀ run ∈ [FrameRun.mk graphicsBoard emptyFrame []], run.Ok 192 := by
    intro run hrun
    rw [List.mem_singleton.mp hrun]
    exact ⟨emptyFrame_ok, fun e he => absurd he List.not_mem_nil⟩
  refine ⟨by decide +kernel, ?_⟩
  exact frame_on_display (by decide) (Set.injOn_singleton lineSignature emptyWords) _ hruns
    emptyFrame_ok (eachStep_words (fun e he => (hplaces e (hsent e he)).2) fun e he w hw =>
      words_emptyFrame w (List.mem_filterMap.mpr ⟨e, hsent e he, hw⟩))

end CocoEmulator.Video
