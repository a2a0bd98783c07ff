/-
  Video/Repaint.lean --- the picture with and without what is remembered of it.

  The renderer leaves out a line whose signature is the one it kept, and the display leaves
  out a border row that it painted in that colour last.  `hal_video_force_repaint` forgets
  both.  As long as the number of active lines stays the same, no row is stale.

      Current.paints   a line paints its row, whether it is left out or not
      Current.step     what is remembered is on the display, through every operation
      skip_unseen      the rows of a run are those of the run that remembers nothing

  Source: hal_video.cpp, tcc1014.cpp.
-/
import CocoEmulator.Video.Picture

set_option autoImplicit false

namespace CocoEmulator.Video

open CocoEmulator.Base CocoEmulator.Gime

/-! ## Places of lines -/

section

variable {line line' k : Nat} {total rows : Nat}

/-- A picture that is not taller than the viewport is centred. -/
theorem gimeDisplayY_short (hshort : total ≤ rows) (hline : line < total) :
    gimeDisplayY line total rows = line + ((rows : Int) - total).tdiv 2 := by
  unfold gimeDisplayY
  dsimp only
  rw [if_neg (by omega), if_neg (by omega : ¬(total : Int) ≤ 0), if_pos (by omega),
    Int.tdiv_eq_ediv_of_nonneg (by omega), if_pos (by omega)]

/-- Two lines of a picture never share a row. -/
theorem displayRow_inj (hrows : 0 < rows) (hline : line < total) (hline' : line' < total)
    (hk : (k : Int) = gimeDisplayY line total rows)
    (hk' : (k : Int) = gimeDisplayY line' total rows) : line = line' := by
  have hplace : LosesExcess total rows (gimeDisplayY · total rows) := by
    rcases Nat.lt_or_ge rows total with htall | hshort
    · exact display_rows_tall hrows htall
    · exact display_rows_short (by omega) (by omega)
  have hshown : gimeDisplayY line total rows ≠ -1 := by omega
  have hshown' : gimeDisplayY line' total rows ≠ -1 := by omega
  rcases Nat.lt_trichotomy line line' with hlt | heq | hgt
  · have hup := hplace.increasing line line' (by omega) (by omega) (by omega) hshown hshown'
    omega
  · exact heq
  · have hup := hplace.increasing line' line (by omega) (by omega) (by omega) hshown' hshown
    omega

end

/-! ## What an operation paints -/

section

variable (p : Panel) (font : Nat → Byte) (W : Set (List Unsigned)) (total : Unsigned)

namespace PictureEvent

/-- The row that a line goes to. -/
def row (e : PictureEvent) (d : Display) : Int :=
  match e with
  | .line g _ _ displayLine => gimeDisplayY displayLine g.vertical.lAA.toNat (d.height p)
  | .border y totalLines _ => d.borderY p y totalLines
  | .frame _ _ | .standardLayout | .repaint | .reset | .artifacts _ | .monitor _ => -1

/-- What a line does to it when it is not left out. -/
def paint (e : PictureEvent) (q : Picture) : Row → Row :=
  let luts := gimeLuts p.rawPixel q.statics.monitor
  match e with
  | .line g ram _ _ =>
    if Hidden g then id
    else linePaint q.display.width luts g.borderColour (q.statics.drawn p font g ram)
  | .border _ _ colour => borderPaint q.display.width luts colour
  | .frame _ _ | .standardLayout | .repaint | .reset | .artifacts _ | .monitor _ => id

/-- The number of a line, borders counted on at both ends. -/
def place : PictureEvent → Option Int
  | .line _ _ _ displayLine => some displayLine
  | .border y _ _ => some y
  | .frame _ _ | .standardLayout | .repaint | .reset | .artifacts _ | .monitor _ => none

/-- What a line paints is on the display. -/
def Shown (e : PictureEvent) (q : Picture) : Prop :=
  ∀ k : Nat, (k : Int) = e.row p q.display →
    e.paint p font q (q.display.rows k) = q.display.rows k

/-- A line of a picture of `total` lines, or a border outside it. -/
def Placed : PictureEvent → Prop
  | .line g _ _ displayLine => LineFit g ∧ g.vertical.lAA = total ∧ displayLine < total.toNat
  | .border y totalLines _ => totalLines = total.toNat ∧ ¬(0 ≤ y ∧ y < totalLines)
  | .frame _ _ | .standardLayout | .repaint | .reset | .artifacts _ | .monitor _ => True

/-- The words of a line's signature. -/
def words (e : PictureEvent) (s : Statics) : Option (List Unsigned) :=
  match e with
  | .line g ram _ _ => some (scanWords s g ram)
  | .border _ _ _ | .frame _ _ | .standardLayout | .repaint | .reset | .artifacts _ | .monitor _ =>
    none

/-- They are among those that no signature confuses. -/
def Words (e : PictureEvent) (q : Picture) : Prop := ∀ w, e.words q.statics = some w → w ∈ W

def Fits (e : PictureEvent) (q : Picture) : Prop := e.Placed total ∧ e.Words W q

end PictureEvent

/-- The kept signature of a line is that of a line on the display. -/
structure Remembered (q : Picture) (g : Tcc1014) (ram : Unsigned → Byte) (line : Nat) : Prop where
  fits : (PictureEvent.line g ram false line).Fits W total q
  visible : ¬Hidden g
  signature : q.statics.lineSig line = lineSignature (scanWords q.statics g ram)
  shown : (PictureEvent.line g ram false line).Shown p font q

/-- All that the renderer and the display remember is on the display. -/
structure Current (q : Picture) : Prop where
  available : q.display.available = true
  mixed : Mixed q.statics
  luts : q.statics.luts = some (gimeLuts p.rawPixel q.statics.monitor)
  borders : q.display.BordersHold
  lines : ∀ line < gimeMaxLines, q.statics.lineSig line ≠ 0 →
    ∃ g ram, Remembered p font W total q g ram line

end

/-- Pictures that differ in what they remember. -/
structure SamePicture (q r : Picture) : Prop where
  settings : SameSettings q.statics r.statics
  mixed : Mixed r.statics
  display : SameDisplay q.display r.display

section

variable {p : Panel} {font : Nat → Byte} {W : Set (List Unsigned)} {total : Unsigned}
  {q q' r : Picture} {e e' : PictureEvent}

/-- What is drawn depends on the settings. -/
theorem SameSettings.drawn {s s' : Statics} (h : SameSettings s s') (hmixed : Mixed s)
    (hmixed' : Mixed s') (g : Tcc1014) (ram : Unsigned → Byte) :
    s'.drawn p font g ram = s.drawn p font g ram := by
  unfold Statics.drawn
  rw [h.monitor]
  exact h.drawRaw hmixed hmixed' _ g font ram

theorem PictureEvent.paint_hidden {g : Tcc1014} {ram : Unsigned → Byte} {capture : Bool}
    {line : Nat} (h : Hidden g) :
    (PictureEvent.line g ram capture line).paint p font q = id := if_pos h

theorem PictureEvent.paint_visible {g : Tcc1014} {ram : Unsigned → Byte} {capture : Bool}
    {line : Nat} (h : ¬Hidden g) :
    (PictureEvent.line g ram capture line).paint p font q =
      linePaint q.display.width (gimeLuts p.rawPixel q.statics.monitor) g.borderColour
        (q.statics.drawn p font g ram) := if_neg h

/-- The row of a line depends on the layout. -/
theorem PictureEvent.row_congr {d d' : Display} (h : d'.tall = d.tall) :
    e.row p d' = e.row p d := by
  have hheight : d'.height p = d.height p := by
    unfold Display.height
    rw [h]
  cases e <;> simp only [PictureEvent.row, Display.borderY, hheight]

/-- What it paints depends on the settings too. -/
theorem PictureEvent.paint_congr (hset : SameSettings q.statics q'.statics)
    (hmixed : Mixed q.statics) (hmixed' : Mixed q'.statics)
    (htall : q'.display.tall = q.display.tall) : e.paint p font q' = e.paint p font q := by
  have hwidth : q'.display.width = q.display.width := by
    unfold Display.width
    rw [htall]
  cases e <;>
    simp only [PictureEvent.paint, hset.monitor, hwidth, hset.drawn hmixed hmixed']

theorem PictureEvent.paint_again (row : Row) :
    e.paint p font q (e.paint p font q row) = e.paint p font q row := by
  cases e with
  | line g ram capture line =>
    simp only [PictureEvent.paint]
    split
    · rfl
    · exact linePaint_again ..
  | border y totalLines colour => exact borderPaint_again ..
  | frame | standardLayout | repaint | reset | artifacts | monitor => rfl

theorem SameSettings.words (h : SameSettings q.statics q'.statics) (hwords : e.Words W q) :
    e.Words W q' := by
  have hsame : e.words q'.statics = e.words q.statics := by
    cases e <;> simp only [PictureEvent.words, h.scanWords]
  intro w hw
  exact hwords w (hsame ▸ hw)

theorem SameSettings.fits (h : SameSettings q.statics q'.statics) (hfits : e.Fits W total q) :
    e.Fits W total q' :=
  ⟨hfits.1, h.words hfits.2⟩

/-- A line that is shown moves no setting. -/
theorem sameSettings_step {n : Int} (hn : e.place = some n) :
    SameSettings q.statics (Picture.step p font e q).statics := by
  cases e with
  | line g ram capture line => exact (renderScanline_keeps ..).1
  | border y totalLines colour =>
    unfold Picture.step Picture.showBorder
    dsimp only
    split
    · exact ⟨rfl, rfl, rfl⟩
    · exact ⟨rfl, rfl, rfl⟩
  | frame | standardLayout | repaint | reset | artifacts | monitor =>
    exact absurd hn (by simp [PictureEvent.place])

/-- So the words of a run of lines are those at its start. -/
theorem eachStep_words {events : List PictureEvent} (hplaces : ∀ e ∈ events, ∃ n, e.place = some n)
    (hwords : ∀ e ∈ events, e.Words W q) :
    EachStep (Picture.step p font) (PictureEvent.Words W) events q := by
  have hstart : EachStep (Picture.step p font)
      (fun e _ => (∃ n, e.place = some n) ∧ e.Words W q) events q :=
    .of_forall fun e he _ => ⟨hplaces e he, hwords e he⟩
  refine hstart.of_inv (I := fun q' => SameSettings q.statics q'.statics) ⟨rfl, rfl, rfl⟩ ?_ ?_
  · rintro e q' hset ⟨⟨n, hn⟩, -⟩
    exact hset.trans (sameSettings_step hn)
  · rintro e q' hset ⟨-, hwords⟩
    exact hset.words hwords

/-- In a picture that is not taller than the viewport the rows follow the places. -/
theorem PictureEvent.row_short {d : Display} (hfits : e.Fits W total q) {n : Int}
    (hn : e.place = some n) {k : Nat} (hk : (k : Int) = e.row p d)
    (hshort : total.toNat ≤ d.height p) :
    (k : Int) = n + ((d.height p : Int) - total.toNat).tdiv 2 := by
  cases e with
  | line g ram capture line =>
    obtain ⟨⟨-, hlines, hinside⟩, -⟩ := hfits
    have hrow : (k : Int) = gimeDisplayY line total.toNat (d.height p) := by
      rw [← hlines]
      exact hk
    rw [← Option.some.inj hn, hrow]
    exact gimeDisplayY_short hshort hinside
  | border y totalLines colour =>
    obtain ⟨⟨rfl, -⟩, -⟩ := hfits
    rw [← Option.some.inj hn]
    simp only [PictureEvent.row, Display.borderY] at hk
    split at hk <;> omega
  | frame | standardLayout | repaint | reset | artifacts | monitor =>
    exact absurd hn (by simp [PictureEvent.place])

/-- Lines at different places go to different rows. -/
theorem PictureEvent.row_ne {d : Display} (hp : 0 < p.units) (hfits : e.Fits W total q)
    (hfits' : e'.Fits W total q) {n n' : Int} (hn : e.place = some n) (hn' : e'.place = some n')
    (hne : n ≠ n') {k : Nat} (hk : (k : Int) = e.row p d) : (k : Int) ≠ e'.row p d := by
  intro hk'
  rcases Nat.lt_or_ge (d.height p) total.toNat with htall | hshort
  · have hline {e : PictureEvent} {n : Int} (hfits : e.Fits W total q) (hn : e.place = some n)
        (hk : (k : Int) = e.row p d) : ∃ l : Nat, n = l ∧ l < total.toNat ∧
          (k : Int) = gimeDisplayY l total.toNat (d.height p) := by
      cases e with
      | line g ram capture line =>
        obtain ⟨⟨-, hlines, hinside⟩, -⟩ := hfits
        exact ⟨line, (Option.some.inj hn).symm, hinside, by rw [← hlines]; exact hk⟩
      | border y totalLines colour =>
        obtain ⟨⟨rfl, -⟩, -⟩ := hfits
        simp only [PictureEvent.row, Display.borderY] at hk
        split at hk <;> omega
      | frame | standardLayout | repaint | reset | artifacts | monitor =>
        exact absurd hn (by simp [PictureEvent.place])
    obtain ⟨l, rfl, hl, hrow⟩ := hline hfits hn hk
    obtain ⟨l', rfl, hl', hrow'⟩ := hline hfits' hn' hk'
    exact hne (congrArg Int.ofNat (displayRow_inj (d.height_pos hp) hl hl' hrow hrow'))
  · have hrow := PictureEvent.row_short hfits hn hk hshort
    have hrow' := PictureEvent.row_short hfits' hn' hk' hshort
    omega

/-- The signature kept is never that of no line. -/
theorem lineSignature_ne_zero (words : List Unsigned) : lineSignature words ≠ 0 := by
  unfold lineSignature
  dsimp only
  split
  next h => exact h
  next => decide

/-- A line that is clean is on the display already. -/
theorem Current.clean (h : Current p font W total q) (hW : Set.InjOn lineSignature W)
    {g : Tcc1014} {ram : Unsigned → Byte} {capture : Bool} {line : Nat}
    (hfits : (PictureEvent.line g ram capture line).Fits W total q) (hvisible : ¬Hidden g)
    (hline : line < gimeMaxLines)
    (hkept : lineSignature (scanWords q.statics g ram) = q.statics.lineSig line) :
    (PictureEvent.line g ram capture line).Shown p font q := by
  obtain ⟨⟨hfit, hlines, -⟩, hwords⟩ := hfits
  obtain ⟨g', ram', hremembered⟩ := h.lines line hline (hkept ▸ lineSignature_ne_zero _)
  obtain ⟨⟨hfit', hlines', -⟩, hwords'⟩ := hremembered.fits
  have hsame : SameLine q.statics q.statics g g' _ _ :=
    sameLine_of_words hfit hfit' h.mixed.mode h.mixed.mode
      (hW (hwords _ rfl) (hwords' _ rfl) (hkept.trans hremembered.signature))
  have hdrawn : q.statics.drawn p font g ram = q.statics.drawn p font g' ram' :=
    drawRaw_same _ hsame h.mixed h.mixed rfl
  intro k hk
  have hrow : (k : Int) = gimeDisplayY line g'.vertical.lAA.toNat (q.display.height p) := by
    rw [hlines', ← hlines]
    exact hk
  have hshown := hremembered.shown k hrow
  rw [PictureEvent.paint_visible hremembered.visible] at hshown
  rw [PictureEvent.paint_visible hvisible, hdrawn]
  unfold linePaint at hshown ⊢
  rw [hsame.border]
  exact hshown

/-- A line paints its row, whether it is left out or not. -/
theorem Current.paints (h : Current p font W total q) (hW : Set.InjOn lineSignature W)
    (hfits : e.Fits W total q) {n : Int} (hn : e.place = some n) :
    SameSettings q.statics (Picture.step p font e q).statics ∧
      Mixed (Picture.step p font e q).statics ∧
      SameDisplay (q.display.paintAt (e.row p q.display) (e.paint p font q))
        (Picture.step p font e q).display := by
  cases e with
  | line g ram capture line =>
    have hshown := Picture.showLine_cases p font q h.mixed h.luts g ram capture line
    unfold Picture.step
    dsimp only
    generalize q.showLine p font g ram capture line = q' at hshown
    cases hshown with
    | hidden hhidden =>
      refine ⟨⟨rfl, rfl, rfl⟩, h.mixed, paintAt_held fun k _ => ?_⟩
      rw [PictureEvent.paint_hidden hhidden]
      rfl
    | clean hvisible hline hkept =>
      exact ⟨⟨rfl, rfl, rfl⟩, h.mixed, paintAt_held (h.clean hW hfits hvisible hline hkept)⟩
    | painted hvisible s hkeeps =>
      have hset := sameSettings_keepSignature q.statics g ram line
      refine ⟨hset.trans hkeeps.toSameSettings, hkeeps.mixed (h.mixed.keepSignature g ram line), ?_⟩
      have hpaints := renderScanlineGimeRaw_paints p (gimeLuts p.rawPixel q.statics.monitor)
        h.available line g.vertical.lAA.toNat g.borderColour (q.statics.drawn p font g ram)
      rw [PictureEvent.paint_visible hvisible]
      exact hpaints
  | border y totalLines colour =>
    have hpaints := renderBorderGime_paints p (gimeLuts p.rawPixel q.statics.monitor) h.available
      h.borders y totalLines colour
    unfold Picture.step Picture.showBorder
    simp only [h.luts]
    exact ⟨⟨rfl, rfl, rfl⟩, h.mixed, hpaints⟩
  | frame | standardLayout | repaint | reset | artifacts | monitor =>
    exact absurd hn (by simp [PictureEvent.place])

/-- So it is on the display then. -/
theorem Current.shows (h : Current p font W total q) (hW : Set.InjOn lineSignature W)
    (hfits : e.Fits W total q) {n : Int} (hn : e.place = some n) :
    e.Shown p font (Picture.step p font e q) := by
  obtain ⟨hset, hmixed, hsame⟩ := h.paints hW hfits hn
  intro k hk
  have hrow : (k : Int) = e.row p q.display := by
    rw [hk]
    exact PictureEvent.row_congr hsame.tall
  rw [PictureEvent.paint_congr hset h.mixed hmixed hsame.tall, hsame.rows]
  change e.paint p font q (if (k : Int) = e.row p q.display then _ else _) =
    if (k : Int) = e.row p q.display then _ else _
  rw [if_pos hrow]
  exact PictureEvent.paint_again _

/-- And it stays there while lines at other places are painted. -/
theorem PictureEvent.Shown.step (hshown : e'.Shown p font q) (hp : 0 < p.units)
    (h : Current p font W total q) (hW : Set.InjOn lineSignature W) (hfits : e.Fits W total q)
    {n : Int} (hn : e.place = some n) (hfits' : e'.Fits W total q) {n' : Int}
    (hn' : e'.place = some n') (hne : n' ≠ n) : e'.Shown p font (Picture.step p font e q) := by
  obtain ⟨hset, hmixed, hsame⟩ := h.paints hW hfits hn
  intro k hk
  have hrow : (k : Int) = e'.row p q.display := by
    rw [hk]
    exact PictureEvent.row_congr hsame.tall
  have hrows : (Picture.step p font e q).display.rows k = q.display.rows k :=
    (congrFun hsame.rows k).trans
      (if_neg (PictureEvent.row_ne hp hfits' hfits hn' hn hne hrow))
  rw [PictureEvent.paint_congr hset h.mixed hmixed hsame.tall, hrows]
  exact hshown k hrow

/-- A line stays remembered while lines at other places are painted. -/
theorem Remembered.step {g : Tcc1014} {ram : Unsigned → Byte} {line : Nat}
    (hremembered : Remembered p font W total q g ram line) (hp : 0 < p.units)
    (h : Current p font W total q) (hW : Set.InjOn lineSignature W) (hfits : e.Fits W total q)
    {n : Int} (hn : e.place = some n) (hne : (line : Int) ≠ n)
    (hsig : (Picture.step p font e q).statics.lineSig line = q.statics.lineSig line) :
    Remembered p font W total (Picture.step p font e q) g ram line := by
  have hset := (h.paints hW hfits hn).1
  refine ⟨hset.fits hremembered.fits, hremembered.visible, ?_, ?_⟩
  · rw [hset.scanWords, hsig]
    exact hremembered.signature
  · exact hremembered.shown.step hp h hW hfits hn hremembered.fits rfl hne

/-- With no signature kept there is nothing to be stale. -/
theorem Current.forgotten (havailable : q.display.available = true) (hmixed : Mixed q.statics)
    (hluts : q.statics.luts = some (gimeLuts p.rawPixel q.statics.monitor))
    (hborders : q.display.BordersHold) (hsig : ∀ line, q.statics.lineSig line = 0) :
    Current p font W total q :=
  ⟨havailable, hmixed, hluts, hborders, fun line _ hkept => absurd (hsig line) hkept⟩

/-- The tables of the display follow the settings. -/
theorem SameSettings.tables (h : SameSettings q.statics q'.statics)
    (hluts : q.statics.luts = some (gimeLuts p.rawPixel q.statics.monitor)) :
    q'.statics.luts = some (gimeLuts p.rawPixel q'.statics.monitor) := by
  rw [h.luts, h.monitor]
  exact hluts

theorem Current.showLine (hp : 0 < p.units) (h : Current p font W total q)
    (hW : Set.InjOn lineSignature W) {g : Tcc1014} {ram : Unsigned → Byte} {capture : Bool}
    {line : Nat} (hfits : (PictureEvent.line g ram capture line).Fits W total q) :
    Current p font W total (q.showLine p font g ram capture line) := by
  obtain ⟨hset, hmixed, hsame⟩ := h.paints hW hfits rfl
  have hshows := h.shows hW hfits rfl
  have hother {line' : Nat} {g' : Tcc1014} {ram' : Unsigned → Byte}
      (hremembered : Remembered p font W total q g' ram' line') (hne : line' ≠ line) :=
    hremembered.step hp h hW hfits rfl (by omega : (line' : Int) ≠ line)
  have hshown := Picture.showLine_cases p font q h.mixed h.luts g ram capture line
  unfold Picture.step at hset hmixed hsame hshows hother
  dsimp only at hset hmixed hsame hshows hother
  generalize q.showLine p font g ram capture line = q' at *
  cases hshown with
  | hidden => exact h
  | clean => exact h
  | painted hvisible s hkeeps =>
    refine ⟨hsame.available.trans h.available, hmixed, hset.tables h.luts, h.borders.line _ _ _ _,
      fun line' hline' hkept => ?_⟩
    change s.lineSig line' ≠ 0 at hkept
    by_cases heq : line' = line
    · subst heq
      refine ⟨g, ram, hset.fits hfits, hvisible, ?_, hshows⟩
      change s.lineSig line' = _
      rw [hset.scanWords, hkeeps.lineSig]
      unfold keepSignature
      rw [if_pos hline']
      exact Function.update_self ..
    · have hsig : s.lineSig line' = q.statics.lineSig line' := by
        rw [hkeeps.lineSig]
        unfold keepSignature
        split
        · exact Function.update_of_ne heq ..
        · rfl
      obtain ⟨g', ram', hremembered⟩ := h.lines line' hline' (hsig ▸ hkept)
      exact ⟨g', ram', hother hremembered heq hsig⟩

theorem Current.showBorder (hp : 0 < p.units) (h : Current p font W total q)
    (hW : Set.InjOn lineSignature W) {y totalLines : Int} {colour : Byte}
    (hfits : (PictureEvent.border y totalLines colour).Fits W total q) :
    Current p font W total (Picture.step p font (.border y totalLines colour) q) := by
  obtain ⟨hset, hmixed, hsame⟩ := h.paints hW hfits rfl
  have hstep : Picture.step p font (.border y totalLines colour) q =
      { q with
        display := q.display.renderBorderGime p (gimeLuts p.rawPixel q.statics.monitor) y totalLines
          colour } := by
    unfold Picture.step Picture.showBorder
    simp only [h.luts]
  have hborders : (Picture.step p font (.border y totalLines colour) q).display.BordersHold := by
    rw [hstep]
    exact h.borders.border _ _ _
  have hstatics : (Picture.step p font (.border y totalLines colour) q).statics = q.statics := by
    rw [hstep]
  refine ⟨hsame.available.trans h.available, hmixed, hset.tables h.luts, hborders,
    fun line hline hkept => ?_⟩
  obtain ⟨g, ram, hremembered⟩ := h.lines line hline (hstatics ▸ hkept)
  have hinside := hremembered.fits.1.2.2
  have houtside := hfits.1.2
  have htotal := hfits.1.1
  exact ⟨g, ram, hremembered.step hp h hW hfits rfl (by omega) (by rw [hstatics])⟩

theorem Current.setTall (h : Current p font W total q) (tall : Bool) :
    Current p font W total (q.setTall p tall) := by
  unfold Picture.setTall
  split
  · exact h
  · exact .forgotten h.available ⟨h.mixed.mode, h.mixed.kept⟩ h.luts (bordersHold_none fun _ => rfl)
      fun _ => rfl

/-- Votes for the other layout show nothing. -/
theorem Current.vote (h : Current p font W total q) (n : Nat) :
    Current p font W total (q.vote n) := by
  refine ⟨h.available, h.mixed, h.luts, h.borders, fun line hline hkept => ?_⟩
  obtain ⟨g, ram, hremembered⟩ := h.lines line hline hkept
  exact ⟨g, ram, hremembered.fits, hremembered.visible, hremembered.signature, hremembered.shown⟩

theorem Current.gimeFrame (h : Current p font W total q) (totalLines : Unsigned) (width : Int) :
    Current p font W total (q.gimeFrame p totalLines width) := by
  unfold Picture.gimeFrame
  dsimp only
  split
  · exact h.vote 0
  split
  · exact (h.vote _).setTall _
  · exact h.vote _

theorem Current.artifacts (h : Current p font W total q) (mode : Nat) :
    Current p font W total { q with statics := setArtifacts q.statics mode } := by
  have hmixed := h.mixed.setArtifacts mode
  by_cases hsame : 3 ≤ mode ∨ q.statics.artifacts = mode
  · have hstay : setArtifacts q.statics mode = q.statics := if_pos hsame
    rw [hstay]
    exact h
  · have hmove : setArtifacts q.statics mode =
        invalidateLines { q.statics with artifacts := mode } := if_neg hsame
    rw [hmove] at hmixed ⊢
    exact .forgotten h.available hmixed h.luts h.borders fun _ => rfl

/-- What is remembered is on the display, through every operation. -/
theorem Current.step (hp : 0 < p.units) (hW : Set.InjOn lineSignature W)
    (h : Current p font W total q) (hfits : e.Fits W total q) :
    Current p font W total (Picture.step p font e q) := by
  have hmixed : Mixed (invalidateLines q.statics) := ⟨h.mixed.mode, h.mixed.kept⟩
  cases e with
  | line g ram capture line => exact h.showLine hp hW hfits
  | border y totalLines colour => exact h.showBorder hp hW hfits
  | frame totalLines width => exact h.gimeFrame totalLines width
  | standardLayout => exact h.setTall false
  | repaint =>
    exact .forgotten h.available hmixed h.luts (bordersHold_none fun _ => rfl) fun _ => rfl
  | reset => exact .forgotten h.available hmixed h.luts h.borders fun _ => rfl
  | artifacts mode => exact h.artifacts mode
  | monitor m =>
    exact .forgotten h.available ⟨h.mixed.mode, h.mixed.kept⟩ rfl (bordersHold_none fun _ => rfl)
      fun _ => rfl

end

/-! ## The picture without what is remembered -/

section

variable {p : Panel} {font : Nat → Byte} {W : Set (List Unsigned)} {total : Unsigned}
  {q r : Picture} {e : PictureEvent}

theorem SamePicture.forget (h : SamePicture q r) : SamePicture q r.forceRepaint :=
  ⟨⟨h.settings.artifacts, h.settings.monitor, h.settings.luts⟩, ⟨h.mixed.mode, h.mixed.kept⟩,
    ⟨h.display.available, h.display.tall, h.display.tallVotes, h.display.rows⟩⟩

/-- A picture that remembers nothing. -/
theorem SamePicture.current (h : SamePicture q r) (hc : Current p font W total q) :
    Current p font W total r.forceRepaint :=
  .forgotten (h.display.available.trans hc.available) ⟨h.mixed.mode, h.mixed.kept⟩
    (h.forget.settings.tables hc.luts) (bordersHold_none fun _ => rfl) fun _ => rfl

/-- Pictures that differ in what they remember paint a line alike. -/
theorem SamePicture.paint (h : SamePicture q r) (hq : Current p font W total q)
    (hr : Current p font W total r) (hW : Set.InjOn lineSignature W) (hfits : e.Fits W total q)
    {n : Int} (hn : e.place = some n) :
    SamePicture (Picture.step p font e q) (Picture.step p font e r) := by
  obtain ⟨hset, hmixed, hsame⟩ := hq.paints hW hfits hn
  obtain ⟨hset', hmixed', hsame'⟩ := hr.paints hW (h.settings.fits hfits) hn
  rw [PictureEvent.paint_congr h.settings hq.mixed hr.mixed h.display.tall,
    PictureEvent.row_congr h.display.tall] at hsame'
  exact ⟨hset.symm.trans (h.settings.trans hset'), hmixed',
    hsame.symm.trans ((h.display.paintAt _ _).trans hsame')⟩

theorem SamePicture.setTall (h : SamePicture q r) (tall : Bool) :
    SamePicture (q.setTall p tall) (r.setTall p tall) := by
  unfold Picture.setTall
  rw [h.display.tall, h.display.available]
  split
  · exact h
  · exact ⟨⟨h.settings.artifacts, h.settings.monitor, h.settings.luts⟩,
      ⟨h.mixed.mode, h.mixed.kept⟩, ⟨h.display.available, rfl, rfl, rfl⟩⟩

theorem SamePicture.vote (h : SamePicture q r) (n : Nat) : SamePicture (q.vote n) (r.vote n) :=
  ⟨h.settings, h.mixed, ⟨h.display.available, h.display.tall, rfl, h.display.rows⟩⟩

theorem SamePicture.gimeFrame (h : SamePicture q r) (totalLines : Unsigned) (width : Int) :
    SamePicture (q.gimeFrame p totalLines width) (r.gimeFrame p totalLines width) := by
  unfold Picture.gimeFrame
  dsimp only
  rw [h.display.tall, h.display.tallVotes]
  split
  · exact h.vote 0
  split
  · exact (h.vote _).setTall _
  · exact h.vote _

theorem SamePicture.artifacts (h : SamePicture q r) (mode : Nat) :
    SamePicture { q with statics := setArtifacts q.statics mode }
      { r with statics := setArtifacts r.statics mode } := by
  refine ⟨?_, h.mixed.setArtifacts mode, h.display⟩
  unfold Video.setArtifacts
  rw [h.settings.artifacts]
  split
  · exact h.settings
  · exact ⟨rfl, h.settings.monitor, h.settings.luts⟩

/-- To forget before an operation does not show. -/
theorem SamePicture.step (h : SamePicture q r) (hc : Current p font W total q)
    (hW : Set.InjOn lineSignature W) (hfits : e.Fits W total q) :
    SamePicture (Picture.step p font e q) (Picture.step p font e r.forceRepaint) := by
  have hforget := h.forget
  have hsettings : SameSettings (invalidateLines q.statics)
      (invalidateLines r.forceRepaint.statics) :=
    ⟨h.settings.artifacts, h.settings.monitor, h.settings.luts⟩
  have hmixed : Mixed (invalidateLines r.forceRepaint.statics) := ⟨h.mixed.mode, h.mixed.kept⟩
  have hdisplay : SameDisplay q.display.borderRowsInvalidate
      r.forceRepaint.display.borderRowsInvalidate :=
    ⟨h.display.available, h.display.tall, h.display.tallVotes, h.display.rows⟩
  cases e with
  | line g ram capture line => exact hforget.paint hc (h.current hc) hW hfits rfl
  | border y totalLines colour => exact hforget.paint hc (h.current hc) hW hfits rfl
  | frame totalLines width => exact hforget.gimeFrame totalLines width
  | standardLayout => exact hforget.setTall false
  | repaint => exact ⟨hsettings, hmixed, hdisplay⟩
  | reset => exact ⟨hsettings, hmixed, hforget.display⟩
  | artifacts mode => exact hforget.artifacts mode
  | monitor m =>
    exact ⟨⟨h.settings.artifacts, rfl, rfl⟩, ⟨h.mixed.mode, h.mixed.kept⟩, hdisplay⟩

end

/-! ## A run -/

section

variable {p : Panel} {font : Nat → Byte} {W : Set (List Unsigned)} {total : Unsigned}
  {events : List PictureEvent} {q r : Picture} {e : PictureEvent}

theorem current_start (p : Panel) (font : Nat → Byte) (W : Set (List Unsigned))
    (total : Unsigned) : Current p font W total (Picture.start p) :=
  .forgotten rfl ⟨mixed_new.mode, mixed_new.kept⟩ rfl (bordersHold_none fun _ => rfl) fun _ => rfl

theorem Current.run (hp : 0 < p.units) (hW : Set.InjOn lineSignature W)
    (h : Current p font W total q)
    (hfits : EachStep (Picture.step p font) (PictureEvent.Fits W total) events q) :
    Current p font W total (runAll (Picture.step p font) events q) := by
  induction events generalizing q with
  | nil => exact h
  | cons e events ih => exact ih (h.step hp hW hfits.1) hfits.2

theorem SamePicture.run (hp : 0 < p.units) (hW : Set.InjOn lineSignature W)
    (h : SamePicture q r) (hc : Current p font W total q)
    (hfits : EachStep (Picture.step p font) (PictureEvent.Fits W total) events q) :
    SamePicture (runAll (Picture.step p font) events q)
      (runAll (fun e r => Picture.step p font e r.forceRepaint) events r) := by
  induction events generalizing q r with
  | nil => exact h
  | cons e events ih => exact ih (h.step hc hW hfits.1) (hc.step hp hW hfits.1) hfits.2

/-- What is on the display stays there through lines at other places. -/
theorem PictureEvent.Shown.run (hshown : e.Shown p font q) (hp : 0 < p.units)
    (hW : Set.InjOn lineSignature W) (h : Current p font W total q) (hfits : e.Fits W total q)
    {n : Int} (hn : e.place = some n)
    (hother : ∀ e' ∈ events, ∃ n', e'.place = some n' ∧ n ≠ n')
    (hall : EachStep (Picture.step p font) (PictureEvent.Fits W total) events q) :
    e.Shown p font (runAll (Picture.step p font) events q) := by
  induction events generalizing q with
  | nil => exact hshown
  | cons e' events ih =>
    obtain ⟨n', hn', hne⟩ := hother e' List.mem_cons_self
    have hset := (h.paints hW hall.1 hn').1
    exact ih (hshown.step hp h hW hall.1 hn' hfits hn hne) (h.step hp hW hall.1) (hset.fits hfits)
      (fun e'' he'' => hother e'' (List.mem_cons_of_mem _ he'')) hall.2

/-- After lines at different places each of them is on the display. -/
theorem Current.all_shown (hp : 0 < p.units) (hW : Set.InjOn lineSignature W)
    (h : Current p font W total q)
    (hfits : EachStep (Picture.step p font) (PictureEvent.Fits W total) events q)
    (hplaces : ∀ e ∈ events, ∃ n, e.place = some n)
    (hdistinct : (events.map PictureEvent.place).Nodup) :
    ∀ e ∈ events, e.Shown p font (runAll (Picture.step p font) events q) := by
  induction events generalizing q with
  | nil => exact fun e he => absurd he (List.not_mem_nil)
  | cons e events ih =>
    rw [List.map_cons, List.nodup_cons] at hdistinct
    obtain ⟨n, hn⟩ := hplaces e List.mem_cons_self
    have hrest (e' : PictureEvent) (he' : e' ∈ events) := hplaces e' (List.mem_cons_of_mem _ he')
    intro e' he'
    rcases List.mem_cons.mp he' with rfl | he'
    · have hset := (h.paints hW hfits.1 hn).1
      refine (h.shows hW hfits.1 hn).run hp hW (h.step hp hW hfits.1) (hset.fits hfits.1) hn ?_
        hfits.2
      intro e'' he''
      obtain ⟨n'', hn''⟩ := hrest e'' he''
      refine ⟨n'', hn'', fun heq => hdistinct.1 ?_⟩
      rw [hn, heq, ← hn'']
      exact List.mem_map_of_mem he''
    · exact ih (h.step hp hW hfits.1) hfits.2 hrest hdistinct.2 e' he'

/-- As long as the number of active lines stays the same and no signature stands for two lines,
every row of the display is what it would be if nothing were ever left out. -/
theorem skip_unseen (hp : 0 < p.units) (hW : Set.InjOn lineSignature W)
    (events : List PictureEvent)
    (hfits : EachStep (Picture.step p font) (PictureEvent.Fits W total) events
      (Picture.start p)) :
    (runAll (Picture.step p font) events (Picture.start p)).display.rows =
      (runAll (fun e q => Picture.step p font e q.forceRepaint) events
        (Picture.start p)).display.rows := by
  have hstart : SamePicture (Picture.start p) (Picture.start p) :=
    ⟨⟨rfl, rfl, rfl⟩, ⟨mixed_new.mode, mixed_new.kept⟩, ⟨rfl, rfl, rfl, rfl⟩⟩
  exact (hstart.run hp hW (current_start p font W total) hfits).display.rows.symm

end

/-- A line of text and a line of the border, each shown twice. -/
def twiceShown : List PictureEvent :=
  [.line textLine (fun _ => 0) false 7, .border (-1) 192 0x12, .line textLine (fun _ => 0) false 7,
    .border (-1) 192 0x12]

theorem placed_twiceShown : ∀ e ∈ twiceShown, e.Placed 192 ∧ ∃ n, e.place = some n := by
  have hline : (PictureEvent.line textLine (fun _ => 0) false 7).Placed 192 :=
    ⟨reached_textLine.fit, by decide +kernel, by decide⟩
  have hborder : (PictureEvent.border (-1) 192 0x12).Placed 192 := ⟨by decide, by decide⟩
  intro e he
  simp only [twiceShown, List.mem_cons, List.not_mem_nil, or_false] at he
  rcases he with rfl | rfl | rfl | rfl
  · exact ⟨hline, 7, rfl⟩
  · exact ⟨hborder, -1, rfl⟩
  · exact ⟨hline, 7, rfl⟩
  · exact ⟨hborder, -1, rfl⟩

theorem words_twiceShown (q : Picture) :
    ∀ e ∈ twiceShown, e.Words {scanWords q.statics textLine fun _ => 0} q := by
  intro e he w hw
  simp only [twiceShown, List.mem_cons, List.not_mem_nil, or_false] at he
  rcases he with rfl | rfl | rfl | rfl
  · exact (Option.some.inj hw).symm
  · exact absurd hw (by simp [PictureEvent.words])
  · exact (Option.some.inj hw).symm
  · exact absurd hw (by simp [PictureEvent.words])

theorem skip_unseen_twiceShown :
    (runAll (Picture.step fullPanel fun _ => 0) twiceShown (Picture.start fullPanel)).display.rows =
      (runAll (fun e q => Picture.step fullPanel (fun _ => 0) e q.forceRepaint) twiceShown
        (Picture.start fullPanel)).display.rows := by
  have hfits : EachStep (Picture.step fullPanel fun _ => 0)
      (PictureEvent.Fits {scanWords (Picture.start fullPanel).statics textLine fun _ => 0} 192)
      twiceShown (Picture.start fullPanel) :=
    (EachStep.of_forall fun e he _ => (placed_twiceShown e he).1).and
      (eachStep_words (fun e he => (placed_twiceShown e he).2) (words_twiceShown _))
  exact skip_unseen (by decide) (Set.injOn_singleton _ _) twiceShown hfits

end CocoEmulator.Video
