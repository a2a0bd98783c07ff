/-
  Video/Picture.lean --- what reaches the display, and what it does there.

  The scanlines of the machine show active lines and border lines.  Between them come the
  end of a frame, which may vote the display into its other layout, and what the rest of the
  program does: a repaint, another monitor, other artifact colours.

      renderScanlineGimeRaw_paints   a line moves one row
      paint_rgb565                   in a screenshot too
      showLine_cases                 a line is hidden, clean, or painted
      signature_complete             lines of one signature's words look the same

  Source: hal_video.cpp, tcc1014.cpp, machine.cpp.
-/
import CocoEmulator.Base.Run
import CocoEmulator.Video.Framebuffer

set_option autoImplicit false

namespace CocoEmulator.Video

open CocoEmulator.Base CocoEmulator.Gime
open CocoEmulator.Machine (FrameEvent)

/-! ## The operations -/

/-- The statics of the renderer and of the display. -/
structure Picture where
  statics : Statics
  display : Display

/-- What reaches the picture: the lines of a frame and its end, and what the rest of the program
does to it. -/
inductive PictureEvent
  | line (g : Tcc1014) (ram : Unsigned → Byte) (capture : Bool) (displayLine : Nat)
  | border (line : Int) (totalLines : Int) (colour : Byte)
  | frame (totalLines : Unsigned) (width : Int)
  | standardLayout
  | repaint
  | reset
  | artifacts (mode : Nat)
  | monitor (m : Monitor)

namespace Picture

variable (p : Panel) (font : Nat → Byte) (q : Picture)

/-- `hal_video_force_repaint`, when FabGL's queue is drained. -/
def forceRepaint : Picture where
  statics := invalidateLines q.statics
  display := q.display.borderRowsInvalidate

/-- An active line in `machine_run_scanline_coco3`; the display is there once its tables are. -/
def showLine (g : Tcc1014) (ram : Unsigned → Byte) (capture : Bool) (line : Nat) : Picture :=
  let (s, out) := renderScanline q.statics g font ram (!capture) line
  let total := g.vertical.lAA.toNat
  { statics := s
    display :=
      match out, s.luts with
      | .raw drawn, some luts =>
        q.display.renderScanlineGimeRaw p luts line total g.borderColour drawn
      | .rgb565 drawn, some luts =>
        q.display.renderScanlineGime p luts line total g.borderColour drawn
      | _, _ => q.display }

/-- A border line in the same place. -/
def showBorder (line totalLines : Int) (colour : Byte) : Picture :=
  match q.statics.luts with
  | some luts => { q with display := q.display.renderBorderGime p luts line totalLines colour }
  | none => q

/-- `set_tall`. -/
def setTall (tall : Bool) : Picture :=
  if tall = q.display.tall ∨ q.display.available = false then q
  else
    { statics := invalidateLines q.statics
      display := q.display.setResolution p tall }

/-- A count of votes for the other layout. -/
def vote (n : Nat) : Picture := { q with display := { q.display with tallVotes := n } }

/-- `hal_video_gime_frame`. -/
def gimeFrame (totalLines : Unsigned) (width : Int) : Picture :=
  let want := decide (200 < totalLines.toNat ∧ totalLines.toNat ≤ 240 ∧ 0 < width ∧ width ≤ 512)
  if want = q.display.tall then q.vote 0
  else
    let votes := q.display.tallVotes + 1
    if 30 ≤ votes then (q.vote votes).setTall p want else q.vote votes

/-- `hal_video_gime_colours_changed`. -/
def coloursChanged : Picture where
  statics := invalidateLines
    { q.statics with luts := some (gimeLuts p.rawPixel q.statics.monitor) }
  display := q.display.borderRowsInvalidate

def step (e : PictureEvent) (q : Picture) : Picture :=
  match e with
  | .line g ram capture line => q.showLine p font g ram capture line
  | .border line totalLines colour => q.showBorder p line totalLines colour
  | .frame totalLines width => q.gimeFrame p totalLines width
  | .standardLayout => q.setTall p false
  | .repaint => q.forceRepaint
  | .reset => { q with statics := invalidateLines q.statics }
  | .artifacts mode => { q with statics := setArtifacts q.statics mode }
  | .monitor m => Picture.coloursChanged p { q with statics := setMonitor q.statics m }

end Picture

/-- The picture after `hal_video_init`. -/
def Picture.start (p : Panel) : Picture where
  statics := { luts := some (gimeLuts p.rawPixel .rgb) }
  display := { rows := fun _ _ => p.rawPixel ⟨0, 0, 0⟩ }

/-! ## Rows -/

/-- The display with a row painted over. -/
def Display.paintAt (d : Display) (y : Int) (paint : Row → Row) : Display :=
  { d with rows := fun k => if (k : Int) = y then paint (d.rows k) else d.rows k }

/-- What a line does to its row. -/
def linePaint (vpW : Nat) (luts : RawLuts) (border : Byte) (drawn : Rendered Byte) (row : Row) :
    Row :=
  if drawn.lineWidth = 0 then row
  else
    storeColumns vpW (lineColumn vpW drawn.lineWidth (luts.raw (border &&& 0x3F).toNat)
      (drawn.pixels.getD · 0)) row

/-- What a border line does to its row. -/
def borderPaint (vpW : Nat) (luts : RawLuts) (colour : Byte) (row : Row) : Row :=
  fun x => if x < vpW then luts.raw (colour &&& 0x3F).toNat else row x

/-- The row of a border line; -1 is a line without one. -/
def Display.borderY (d : Display) (p : Panel) (line total : Int) : Int :=
  let y := line + (d.height p - total).tdiv 2
  if total < d.height p ∧ y < d.height p then y else -1

/-- A border row holds the byte that it is remembered with. -/
def Display.BordersHold (d : Display) : Prop :=
  ∀ k b, d.borderRow k = some b → ∀ x < d.width, d.rows k x = b

/-- Displays that agree but for what they remember. -/
structure SameDisplay (d d' : Display) : Prop where
  available : d'.available = d.available
  tall : d'.tall = d.tall
  tallVotes : d'.tallVotes = d.tallVotes
  rows : d'.rows = d.rows

section

variable {d d' : Display} {p : Panel} {luts : RawLuts}

theorem SameDisplay.symm (h : SameDisplay d d') : SameDisplay d' d :=
  ⟨h.available.symm, h.tall.symm, h.tallVotes.symm, h.rows.symm⟩

theorem SameDisplay.trans {d'' : Display} (h : SameDisplay d d') (h' : SameDisplay d' d'') :
    SameDisplay d d'' :=
  ⟨h'.available.trans h.available, h'.tall.trans h.tall, h'.tallVotes.trans h.tallVotes,
    h'.rows.trans h.rows⟩

theorem SameDisplay.paintAt (h : SameDisplay d d') (y : Int) (paint : Row → Row) :
    SameDisplay (d.paintAt y paint) (d'.paintAt y paint) := by
  refine ⟨h.available, h.tall, h.tallVotes, ?_⟩
  unfold Display.paintAt
  rw [h.rows]

/-- Painting over what is there already. -/
theorem paintAt_held {y : Int} {paint : Row → Row}
    (h : ∀ k : Nat, (k : Int) = y → paint (d.rows k) = d.rows k) :
    SameDisplay (d.paintAt y paint) d := by
  refine ⟨rfl, rfl, rfl, ?_⟩
  funext k
  change d.rows k = if (k : Int) = y then paint (d.rows k) else d.rows k
  split
  next hk => exact (h k hk).symm
  next => rfl

theorem Display.height_le (d : Display) (p : Panel) : d.height p ≤ 240 := by
  unfold Display.height
  split <;> omega

theorem Display.height_pos (d : Display) (hp : 0 < p.units) : 0 < d.height p := by
  unfold Display.height
  split <;> omega

/-- A line painted twice is a line painted once. -/
theorem linePaint_again (vpW : Nat) (luts : RawLuts) (border : Byte) (drawn : Rendered Byte)
    (row : Row) :
    linePaint vpW luts border drawn (linePaint vpW luts border drawn row) =
      linePaint vpW luts border drawn row := by
  unfold linePaint
  split
  · rfl
  · exact storeColumns_again ..

theorem borderPaint_again (vpW : Nat) (luts : RawLuts) (colour : Byte) (row : Row) :
    borderPaint vpW luts colour (borderPaint vpW luts colour row) =
      borderPaint vpW luts colour row := by
  funext x
  unfold borderPaint
  split <;> rfl

/-- A line is painted into its row. -/
theorem renderScanlineGimeRaw_paints (p : Panel) (luts : RawLuts) (havailable : d.available = true)
    (line total : Int) (border : Byte) (drawn : Rendered Byte) :
    SameDisplay
      (d.paintAt (gimeDisplayY line total (d.height p)) (linePaint d.width luts border drawn))
      (d.renderScanlineGimeRaw p luts line total border drawn) := by
  unfold Display.renderScanlineGimeRaw
  split
  next hnone =>
    have hzero : drawn.lineWidth = 0 := by
      rcases hnone with h | h
      · exact absurd (h.symm.trans havailable) Bool.false_ne_true
      · exact h
    exact paintAt_held fun k _ => if_pos hzero
  next hdraw =>
    unfold Display.putLine
    dsimp only
    split
    next hy => exact paintAt_held fun k hk => absurd hk (by omega)
    next hy =>
      refine ⟨rfl, rfl, rfl, ?_⟩
      funext k
      change Function.update d.rows _ _ k =
        if (k : Int) = _ then linePaint d.width luts border drawn (d.rows k) else d.rows k
      have hplace : k = (gimeDisplayY line total (d.height p)).toNat ↔
          (k : Int) = gimeDisplayY line total (d.height p) := by omega
      rw [Function.update_apply, if_congr hplace rfl rfl]
      split
      next hk =>
        rw [paintRaw_eq, ← hplace.mpr hk]
        exact (if_neg fun h => hdraw (.inr h)).symm
      next => rfl

/-- What a border row is remembered with outlives a line elsewhere. -/
theorem Display.BordersHold.line (h : d.BordersHold) (line total : Int) (border : Byte)
    (drawn : Rendered Byte) :
    (d.renderScanlineGimeRaw p luts line total border drawn).BordersHold := by
  unfold Display.renderScanlineGimeRaw
  split
  · exact h
  unfold Display.putLine
  dsimp only
  split
  · exact h
  · intro k b hk x hx
    change Function.update d.borderRow _ none k = some b at hk
    change Function.update d.rows _ _ k x = b
    rw [Function.update_apply] at hk ⊢
    split at hk
    next => exact absurd hk (by simp)
    next hother =>
      rw [if_neg hother]
      exact h k b hk x hx

/-- So is a border line: one that is left out would paint what its row holds. -/
theorem renderBorderGime_paints (p : Panel) (luts : RawLuts) (havailable : d.available = true)
    (h : d.BordersHold) (line total : Int) (colour : Byte) :
    SameDisplay (d.paintAt (d.borderY p line total) (borderPaint d.width luts colour))
      (d.renderBorderGime p luts line total colour) := by
  have hheight := d.height_le p
  have hon : ¬d.available = false := by simp [havailable]
  unfold Display.renderBorderGime Display.borderY
  dsimp only
  rw [if_neg hon]
  by_cases hspare : (d.height p : Int) ≤ total ∨ 256 < (d.height p : Int)
  · rw [if_pos hspare, if_neg (by omega)]
    exact paintAt_held fun k hk => absurd hk (by omega)
  rw [if_neg hspare]
  generalize line + ((d.height p : Int) - total).tdiv 2 = y
  by_cases hout : y < 0 ∨ (d.height p : Int) ≤ y
  · rw [if_pos hout]
    refine paintAt_held fun k hk => ?_
    split at hk <;> omega
  rw [if_neg hout, if_pos (by omega)]
  split
  next hkept =>
    refine paintAt_held fun k hk => ?_
    have hrow : k = y.toNat := by omega
    funext x
    change (if x < d.width then luts.raw (colour &&& 0x3F).toNat else d.rows k x) = d.rows k x
    split
    next hx => exact (h k _ (hrow ▸ hkept) x hx).symm
    next => rfl
  next =>
    refine ⟨rfl, rfl, rfl, ?_⟩
    funext k
    change Function.update d.rows _ _ k =
      if (k : Int) = y then borderPaint d.width luts colour (d.rows k) else d.rows k
    have hplace : k = y.toNat ↔ (k : Int) = y := by omega
    rw [Function.update_apply, if_congr hplace rfl rfl]
    split
    next hk => rw [hplace.mpr hk]; rfl
    next => rfl

theorem Display.BordersHold.border (h : d.BordersHold) (line total : Int) (colour : Byte) :
    (d.renderBorderGime p luts line total colour).BordersHold := by
  unfold Display.renderBorderGime
  dsimp only
  split
  · exact h
  split
  · exact h
  split
  · exact h
  split
  · exact h
  intro k b hk x hx
  change Function.update d.borderRow _ _ k = some b at hk
  change Function.update d.rows _ _ k x = b
  rw [Function.update_apply] at hk ⊢
  split at hk
  next hrow =>
    rw [if_pos hrow]
    exact (if_pos hx).trans (Option.some.inj hk)
  next hother =>
    rw [if_neg hother]
    exact h k b hk x hx

theorem bordersHold_none (h : ∀ k, d.borderRow k = none) : d.BordersHold := by
  intro k b hk
  rw [h k] at hk
  exact absurd hk (by simp)

end

/-! ## The same line for a screenshot -/

section

variable {P : Type} {s s' : Statics} {g : Tcc1014} {font : Nat → Byte} {ram : Unsigned → Byte}

theorem length_emit4 {res : Nat} (hres : res < 4) (c0 c1 c2 c3 : P) :
    (emit4 res c0 c1 c2 c3).length = 16 >>> res := by
  have hcases : res = 0 ∨ res = 1 ∨ res = 2 ∨ res = 3 := by omega
  rcases hcases with rfl | rfl | rfl | rfl <;> simp [emit4]

theorem length_emitBits8 {res : Nat} (hres : res < 4) (v : Byte) (fg bg : P) :
    (emitBits8 res v fg bg).length = 32 >>> res := by
  have hdouble : ∀ res < 4, 16 >>> res + 16 >>> res = 32 >>> res := by decide
  simp only [emitBits8, List.length_append, length_emit4 hres, hdouble res hres]

theorem length_eachByte {n w : Nat} {draw : Nat → List P} (h : ∀ k, (draw k).length = w) :
    (eachByte n draw).length = n * w := by
  simp [eachByte, List.length_flatMap, h]

/-- Every renderer makes as many pixels of a byte. -/
theorem length_renderLine (s : Statics) (g : Tcc1014) (font src : Nat → Byte) (pal : Nat → P)
    (n : Nat) (toPixel : Nat → P) :
    (renderLine s g font src pal n toPixel).2.length = n * (32 >>> (g.resolution &&& 3)) := by
  have hres : g.resolution &&& 3 < 4 := and_lt _ 2
  have hdouble : ∀ res < 4, 16 >>> res + 16 >>> res = 32 >>> res := by decide
  have htwo := hdouble _ hres
  unfold renderLine
  dsimp only
  split
  · split
    · split
      · exact length_eachByte fun k => by simp only [List.length_append, length_emit4 hres, htwo]
      split
      next hart =>
        have hone : g.resolution &&& 3 = 1 := by
          simp only [artifactLine, Bool.and_eq_true, beq_iff_eq] at hart
          exact hart.1.2
        rw [hone]
        simp [gimeArtifactLine, artifactPair, List.length_flatMap]
      split
      · exact length_eachByte fun k => length_emitBits8 hres ..
      · exact length_eachByte fun k => by simp only [List.length_append, length_emit4 hres, htwo]
    · exact length_eachByte fun k => by
        simp only [apply_ite List.length, List.length_append, length_emit4 hres, htwo,
          length_emitBits8 hres, ite_self]
  split
  · exact length_eachByte fun k => by
      simp only [apply_ite List.length, List.length_append, length_emit4 hres, htwo, ite_self]
  · exact length_eachByte fun k => by
      simp only [apply_ite List.length, length_emitBits8 hres, ite_self]

/-- The table of a screenshot's pixels and the display's own agree. -/
theorem gimeLuts_pixel (rawPixel : Rgb222 → Byte) (m : Monitor) :
    (∀ c < 64, (gimeLuts rawPixel m).raw c =
        pixelRawLut rawPixel (displayRgb565Swapped (gimeMonitorColour m c))) ∧
      ∀ c < 64, (gimeLuts rawPixel m).direct c = pixelRawLut rawPixel (displayRgb565Swapped c) := by
  constructor
  · intro c _
    exact congrArg rawPixel (rgb222_of_pixel _ (gimeMonitorColour_lt m c)).symm
  · intro c hc
    exact congrArg rawPixel (rgb222_of_pixel c hc).symm

/-- A screenshot's line leaves the rows of the line for the display. -/
theorem paint_rgb565 (d : Display) (p : Panel) (hmixed : Mixed s) (g : Tcc1014) (font : Nat → Byte)
    (ram : Unsigned → Byte) (line total : Int) :
    d.renderScanlineGime p (gimeLuts p.rawPixel s.monitor) line total g.borderColour
        (drawRgb565 s g font ram).2 =
      d.renderScanlineGimeRaw p (gimeLuts p.rawPixel s.monitor) line total g.borderColour
        (drawRaw s (gimeLuts p.rawPixel s.monitor) g font ram).2 := by
  have htables := gimeLuts_pixel p.rawPixel s.monitor
  obtain ⟨hpixels, hwidth⟩ : (drawRaw s (gimeLuts p.rawPixel s.monitor) g font ram).2.pixels =
        (drawRgb565 s g font ram).2.pixels.map (pixelRawLut p.rawPixel) ∧
      (drawRaw s (gimeLuts p.rawPixel s.monitor) g font ram).2.lineWidth =
        (drawRgb565 s g font ram).2.lineWidth :=
    drawRgb565_map ram hmixed htables.1 htables.2
  have hlength : (drawRgb565 s g font ram).2.pixels.length =
      (drawRgb565 s g font ram).2.lineWidth := length_renderLine ..
  unfold Display.renderScanlineGime Display.renderScanlineGimeRaw
  rw [hpixels, hwidth]
  split
  next => rfl
  next hdraw =>
    have hpos : 0 < (drawRgb565 s g font ram).2.lineWidth := by omega
    congr 1
    funext y row
    rw [paintRaw_eq]
    refine storeColumns_congr (fun x hx => lineColumn_congr _ hpos (fun k hk => ?_) hx) row
    rw [List.getD_eq_getElem _ _ (by omega), List.getD_eq_getElem _ _ (by simpa [hlength] using hk),
      List.getElem_map]

/-- A line does not depend on the signatures and the mix kept. -/
theorem sameLine_refl (h : s.artifacts = s'.artifacts) (g : Tcc1014) (src : Nat → Byte) :
    SameLine s s' g g src src where
  coco := rfl
  bp := rfl
  cres := rfl
  hres := rfl
  resolution := rfl
  vdg := rfl
  invertedText := rfl
  blink := fun _ => rfl
  modeBits := rfl
  row := rfl
  lpr := fun _ => rfl
  border := rfl
  shown := rfl
  lines := rfl
  artifacts := h
  palette := fun _ => rfl
  bytes := fun _ _ => rfl

theorem SameSettings.symm (h : SameSettings s s') : SameSettings s' s :=
  ⟨h.artifacts.symm, h.monitor.symm, h.luts.symm⟩

theorem SameSettings.trans {s'' : Statics} (h : SameSettings s s') (h' : SameSettings s' s'') :
    SameSettings s s'' :=
  ⟨h'.artifacts.trans h.artifacts, h'.monitor.trans h.monitor, h'.luts.trans h.luts⟩

theorem SameSettings.drawRaw (h : SameSettings s s') (hmixed : Mixed s) (hmixed' : Mixed s')
    (luts : RawLuts) (g : Tcc1014) (font : Nat → Byte) (ram : Unsigned → Byte) :
    (drawRaw s' luts g font ram).2 = (drawRaw s luts g font ram).2 :=
  drawRaw_same luts (sameLine_refl h.artifacts _ _) hmixed' hmixed h.monitor

theorem SameSettings.scanWords (h : SameSettings s s') (g : Tcc1014) (ram : Unsigned → Byte) :
    scanWords s' g ram = scanWords s g ram := by
  simp only [Video.scanWords, lineWords, modeWord, sizeWord, h.artifacts]

end

/-! ## What a line does -/

/-- A line outside the active area, or without RAM. -/
def Hidden (g : Tcc1014) : Prop := g.vertical.activeArea = false ∨ g.ram = false

instance : DecidablePred Hidden := fun _ => inferInstanceAs (Decidable (_ ∨ _))

/-- The line `g` of a picture, drawn for the display. -/
def Statics.drawn (p : Panel) (font : Nat → Byte) (s : Statics) (g : Tcc1014)
    (ram : Unsigned → Byte) : Rendered Byte :=
  (drawRaw s (gimeLuts p.rawPixel s.monitor) g font ram).2

/-- What becomes of a picture by an active line. -/
inductive LineShown (p : Panel) (font : Nat → Byte) (q : Picture) (g : Tcc1014)
    (ram : Unsigned → Byte) (line : Nat) : Picture → Prop
  | hidden (h : Hidden g) : LineShown p font q g ram line q
  | clean (h : ¬Hidden g) (hline : line < gimeMaxLines)
      (hkept : lineSignature (scanWords q.statics g ram) = q.statics.lineSig line) :
      LineShown p font q g ram line q
  | painted (h : ¬Hidden g) (s : Statics)
      (hkeeps : LineKeeps (keepSignature q.statics g ram line) s) :
      LineShown p font q g ram line
        { statics := s
          display := q.display.renderScanlineGimeRaw p (gimeLuts p.rawPixel q.statics.monitor) line
            g.vertical.lAA.toNat g.borderColour (q.statics.drawn p font g ram) }

section

variable {p : Panel} {font : Nat → Byte} {q : Picture} {g : Tcc1014} {ram : Unsigned → Byte}
  {line : Nat}

/-- Keeping a signature moves nothing else. -/
theorem sameSettings_keepSignature (s : Statics) (g : Tcc1014) (ram : Unsigned → Byte)
    (line : Nat) : SameSettings s (keepSignature s g ram line) := by
  unfold keepSignature
  split
  · exact ⟨rfl, rfl, rfl⟩
  · exact ⟨rfl, rfl, rfl⟩

theorem Mixed.keepSignature {s : Statics} (h : Mixed s) (g : Tcc1014) (ram : Unsigned → Byte)
    (line : Nat) : Mixed (keepSignature s g ram line) := by
  unfold Video.keepSignature
  split
  · exact ⟨h.mode, h.kept⟩
  · exact h

/-- A line is hidden, or clean, or painted, for the display or for a screenshot alike. -/
theorem Picture.showLine_cases (p : Panel) (font : Nat → Byte) (q : Picture)
    (hmixed : Mixed q.statics)
    (hluts : q.statics.luts = some (gimeLuts p.rawPixel q.statics.monitor)) (g : Tcc1014)
    (ram : Unsigned → Byte) (capture : Bool) (line : Nat) :
    LineShown p font q g ram line (q.showLine p font g ram capture line) := by
  have hset := sameSettings_keepSignature q.statics g ram line
  have hkept := hmixed.keepSignature g ram line
  have hdrawn := hset.drawRaw hmixed hkept (gimeLuts p.rawPixel q.statics.monitor) g font ram
  unfold Picture.showLine renderScanline
  by_cases hhidden : g.vertical.activeArea = false ∨ g.ram = false
  · simp only [if_pos hhidden]
    exact .hidden hhidden
  simp only [if_neg hhidden]
  cases capture with
  | false =>
    simp only [Bool.not_false, if_true, hluts]
    by_cases hclean : line < gimeMaxLines ∧
        lineSignature (scanWords q.statics g ram) = q.statics.lineSig line
    · simp only [if_pos hclean]
      exact .clean hhidden hclean.1 hclean.2
    · simp only [if_neg hclean]
      have hkeeps : LineKeeps (Video.keepSignature q.statics g ram line)
          (drawRaw (Video.keepSignature q.statics g ram line)
            (gimeLuts p.rawPixel q.statics.monitor) g font ram).1 := drawLine_keeps ..
      have hafter := hkeeps.luts.trans (hset.luts.trans hluts)
      simp only [hafter, hdrawn]
      exact .painted hhidden _ hkeeps
  | true =>
    simp only [Bool.not_true, Bool.false_eq_true, if_false]
    have hkeeps : LineKeeps (Video.keepSignature q.statics g ram line)
        (drawRgb565 (Video.keepSignature q.statics g ram line) g font ram).1 := drawLine_keeps ..
    have hafter := hkeeps.luts.trans (hset.luts.trans hluts)
    have hpaint := paint_rgb565 q.display p hkept g font ram line
      g.vertical.lAA.toNat
    rw [hset.monitor, hdrawn] at hpaint
    simp only [hafter, hpaint]
    exact .painted hhidden _ hkeeps

end

/-! ## Lines of the same words -/

section

variable {p : Panel} {font : Nat → Byte} {q : Picture}

/-- A scanline moves no setting, and what it leaves mixed is mixed of its own pair. -/
theorem renderScanline_keeps (s : Statics) (g : Tcc1014) (font : Nat → Byte)
    (ram : Unsigned → Byte) (rawOutput : Bool) (line : Nat) :
    SameSettings s (renderScanline s g font ram rawOutput line).1 ∧
      (Mixed s → Mixed (renderScanline s g font ram rawOutput line).1) := by
  have hset := sameSettings_keepSignature s g ram line
  have hdrawn {P : Type} (pal toPixel : Nat → P) :=
    drawLine_keeps (keepSignature s g ram line) g font ram pal toPixel
  unfold renderScanline
  split
  · exact ⟨⟨rfl, rfl, rfl⟩, id⟩
  split
  · split
    · exact ⟨⟨rfl, rfl, rfl⟩, id⟩
    · exact ⟨hset.trans (hdrawn _ _).toSameSettings,
        fun h => (hdrawn _ _).mixed (h.keepSignature g ram line)⟩
  · exact ⟨hset.trans (hdrawn _ _).toSameSettings,
      fun h => (hdrawn _ _).mixed (h.keepSignature g ram line)⟩

theorem Mixed.setArtifacts {s : Statics} (h : Mixed s) (mode : Nat) :
    Mixed (setArtifacts s mode) := by
  unfold Video.setArtifacts
  split
  · exact h
  next hmode => exact ⟨by change mode < 3; omega, h.kept⟩

theorem Mixed.setTall (h : Mixed q.statics) (tall : Bool) : Mixed (q.setTall p tall).statics := by
  unfold Picture.setTall
  split
  · exact h
  · exact ⟨h.mode, h.kept⟩

theorem Mixed.gimeFrame (h : Mixed q.statics) (totalLines : Unsigned) (width : Int) :
    Mixed (q.gimeFrame p totalLines width).statics := by
  unfold Picture.gimeFrame
  dsimp only
  split
  · exact h
  split
  · have hvote : Mixed (q.vote (q.display.tallVotes + 1)).statics := h
    exact hvote.setTall _
  · exact h

theorem Mixed.step (h : Mixed q.statics) (e : PictureEvent) :
    Mixed (Picture.step p font e q).statics := by
  cases e with
  | line g ram capture line => exact (renderScanline_keeps ..).2 h
  | border y totalLines colour =>
    unfold Picture.step Picture.showBorder
    dsimp only
    split
    · exact h
    · exact h
  | frame totalLines width => exact h.gimeFrame totalLines width
  | standardLayout => exact h.setTall false
  | repaint => exact ⟨h.mode, h.kept⟩
  | reset => exact ⟨h.mode, h.kept⟩
  | artifacts mode => exact h.setArtifacts mode
  | monitor m => exact ⟨h.mode, h.kept⟩

/-- A line that some run of the machine shows. -/
def ReachedLine (g : Tcc1014) : Prop :=
  ∃ events : List FrameEvent, (∀ e ∈ events, RamFits e) ∧
    (runAll FrameEvent.step events { gime := {} }).rendered = some g

/-- Statics that some run of the picture leaves. -/
def ReachedStatics (p : Panel) (font : Nat → Byte) (s : Statics) : Prop :=
  ∃ events : List PictureEvent,
    (runAll (Picture.step p font) events (Picture.start p)).statics = s

theorem ReachedLine.fit {g : Tcc1014} (h : ReachedLine g) : LineFit g := by
  obtain ⟨events, hfits, hg⟩ := h
  exact ((lineFit_always events hfits).last.rendered hg).1

theorem ReachedStatics.mixed {s : Statics} (h : ReachedStatics p font s) : Mixed s := by
  obtain ⟨events, rfl⟩ := h
  have hall : Always (Picture.step p font) (fun q => Mixed q.statics) events (Picture.start p) :=
    Always.of_step (C := fun _ _ => True) ⟨mixed_new.mode, mixed_new.kept⟩
      (fun e _ h _ => h.step e) (.of_forall fun _ _ _ => trivial)
  exact hall.last

/-- Two lines that look the same wherever they are shown. -/
structure SameLook (s s' : Statics) (g g' : Tcc1014) (ram ram' : Unsigned → Byte) : Prop where
  raw : ∀ luts font, (drawRaw s luts g font ram).2 = (drawRaw s' luts g' font ram').2
  rgb565 : ∀ font, (drawRgb565 s g font ram).2 = (drawRgb565 s' g' font ram').2
  row : ∀ line rows,
    gimeDisplayY line g.vertical.lAA.toNat rows = gimeDisplayY line g'.vertical.lAA.toNat rows
  border : ∀ luts : RawLuts,
    luts.raw (g.borderColour &&& 0x3F).toNat = luts.raw (g'.borderColour &&& 0x3F).toNat

/-- The signature's words say all: lines of any two runs, and statics of any two pictures with one
monitor, look the same when their words do. -/
theorem signature_complete {font' : Nat → Byte} {p' : Panel} {g g' : Tcc1014} {s s' : Statics}
    (hg : ReachedLine g) (hg' : ReachedLine g') (hs : ReachedStatics p font s)
    (hs' : ReachedStatics p' font' s') (hmonitor : s.monitor = s'.monitor)
    {ram ram' : Unsigned → Byte} (hwords : scanWords s g ram = scanWords s' g' ram') :
    SameLook s s' g g' ram ram' := by
  have hsame : SameLine s s' g g' _ _ :=
    sameLine_of_words hg.fit hg'.fit hs.mixed.mode hs'.mixed.mode hwords
  have hpalette : paletteRgb565 s g = paletteRgb565 s' g' := by
    funext slot
    unfold paletteRgb565
    rw [hmonitor, hsame.colour]
  refine ⟨fun luts font => drawRaw_same luts hsame hs.mixed hs'.mixed hmonitor, fun font => ?_,
    fun line rows => by rw [hsame.lines], fun luts => by rw [hsame.border]⟩
  unfold drawRgb565
  rw [hpalette]
  exact drawLine_same hsame hs.mixed hs'.mixed hmonitor

/-- A line of native text on 512 KB. -/
def textLine : Tcc1014 :=
  ((runAll FrameEvent.step ([.chip (.setRam 0x80000), .chip (.write 8 0x03), .chip (.write 9 0x15),
    .chip (.write 15 0x7F)] ++ List.replicate 50 .scanline) { gime := {} }).rendered).getD {}

theorem reached_textLine : ReachedLine textLine := by
  refine ⟨[.chip (.setRam 0x80000), .chip (.write 8 0x03), .chip (.write 9 0x15),
    .chip (.write 15 0x7F)] ++ List.replicate 50 .scanline, by decide, ?_⟩
  have hshown : ((runAll FrameEvent.step ([.chip (.setRam 0x80000), .chip (.write 8 0x03),
    .chip (.write 9 0x15), .chip (.write 15 0x7F)] ++ List.replicate 50 .scanline)
    { gime := {} }).rendered).isSome = true := by decide +kernel
  obtain ⟨g, hg⟩ := Option.isSome_iff_exists.mp hshown
  unfold textLine
  rw [hg]
  rfl

theorem reached_start (p : Panel) (font : Nat → Byte) :
    ReachedStatics p font (Picture.start p).statics :=
  ⟨[], rfl⟩

/-- A display whose pool was got in full. -/
def fullPanel : Panel where
  rawPixel := fun c => BitVec.ofNat 8 (c.r + 4 * c.g + 16 * c.b)
  units := 50
  aligned := fun _ => true

/-- RAM that the line does not show. -/
theorem signature_complete_elsewhere :
    SameLook (Picture.start fullPanel).statics (Picture.start fullPanel).statics textLine textLine
      (fun _ => 0) (fun a => if a = 0x10000 then 0xFF else 0) :=
  signature_complete reached_textLine reached_textLine (reached_start fullPanel fun _ => 0)
    (reached_start fullPanel fun _ => 0) rfl (by decide +kernel)

end

end CocoEmulator.Video
