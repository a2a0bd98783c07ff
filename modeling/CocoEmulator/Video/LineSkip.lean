/-
  Video/LineSkip.lean --- what a line of video depends on.

  A line is not drawn again while its signature stays the same.  The signature is taken of
  a few words that pack the mode, the palette and the bytes of the line side by side.

      sameLine_of_words   the words say everything that the renderers read
      renderLine_same     lines that agree in that are drawn the same
      renderLine_map      a renderer does nothing with a pixel but place it

  Source: tcc1014.cpp.
-/
import CocoEmulator.Base.Packing
import CocoEmulator.Video.ScanlineAgree

set_option autoImplicit false

namespace CocoEmulator.Video

open CocoEmulator.Base CocoEmulator.Base.Packing CocoEmulator.Gime CocoEmulator.Machine

/-! ## The words -/

/-- The fields of the mode word. -/
def modeFields (s : Statics) (g : Tcc1014) : List (Nat × Nat) :=
  [(1, g.coco.toNat), (1, g.bp.toNat), (2, g.cres.toNat &&& 3), (3, g.hres.toNat &&& 7),
    (2, g.resolution &&& 3), (1, g.vdg.gna.toNat), (1, g.vdg.gm1.toNat), (1, g.vdg.gm0.toNat),
    (1, g.vdg.css.toNat), (1, g.invertedText.toNat), (1, (attrText g && g.blink).toNat),
    (1, (allModeBits g).toNat), (4, g.row &&& 15), (5, g.rowmask &&& 31),
    (6, (g.borderColour &&& 0x3F).toNat), (1, (s.artifacts != 0).toNat)]

/-- The fields of the size word. -/
def sizeFields (s : Statics) (g : Tcc1014) : List (Nat × Nat) :=
  [(8, shownBytes g), (16, g.vertical.lAA.toNat), (8, s.artifacts)]

/-- The fields of a word of four bytes. -/
def byteFields (bytes : Nat → Byte) (k : Nat) : List (Nat × Nat) :=
  [(8, (bytes k).toNat), (8, (bytes (k + 1)).toNat), (8, (bytes (k + 2)).toNat),
    (8, (bytes (k + 3)).toNat)]

theorem modeWord_eq (s : Statics) (g : Tcc1014) : modeWord s g = pack (modeFields s g) := by
  simp only [modeWord, modeFields, pack, Nat.shiftLeft_or_distrib, ← Nat.shiftLeft_add,
    Nat.zero_shiftLeft, Nat.or_zero, Nat.or_assoc, Nat.reduceAdd]

theorem sizeWord_eq (s : Statics) (g : Tcc1014) : sizeWord s g = pack (sizeFields s g) := by
  simp only [sizeWord, sizeFields, pack, Nat.shiftLeft_or_distrib, ← Nat.shiftLeft_add,
    Nat.zero_shiftLeft, Nat.or_zero, Nat.or_assoc, Nat.reduceAdd]

theorem word4_eq (bytes : Nat → Byte) (k : Nat) :
    word4 bytes k = pack (byteFields bytes k) := by
  simp only [word4, byteFields, pack, Nat.shiftLeft_or_distrib, ← Nat.shiftLeft_add,
    Nat.zero_shiftLeft, Nat.or_zero, Nat.or_assoc, Nat.reduceAdd]

theorem bool_lt (b : Bool) : b.toNat < 2 ^ 1 := by
  cases b <;> decide

theorem and_lt (v n : Nat) : v &&& (2 ^ n - 1) < 2 ^ n :=
  Nat.and_lt_two_pow _ (Nat.sub_lt (Nat.two_pow_pos n) Nat.one_pos)

theorem fit_mode (s : Statics) (g : Tcc1014) : Fit (modeFields s g) := by
  have hborder : (g.borderColour &&& 0x3F).toNat < 2 ^ 6 := by
    rw [BitVec.toNat_and]
    exact and_lt _ 6
  simp only [modeFields, fit_cons, bool_lt, hborder, true_and]
  exact ⟨and_lt _ 2, and_lt _ 3, and_lt _ 2, and_lt _ 4, and_lt _ 5, by simp [Fit]⟩

theorem fit_bytes (bytes : Nat → Byte) (k : Nat) : Fit (byteFields bytes k) := by
  simp only [byteFields, fit_cons, BitVec.isLt, true_and]
  simp [Fit]

section

variable {s s' : Statics} {g g' : Tcc1014} {src src' : Nat → Byte}

theorem LineFit.shownBytes_le (hfit : LineFit g) : shownBytes g ≤ 160 := by
  have hfetched := hfit.fetchedBytes_le
  unfold fetchedBytes at hfetched
  split at hfetched
  · omega
  · exact hfetched

theorem fit_size (hfit : LineFit g) (hmode : s.artifacts < 3) : Fit (sizeFields s g) := by
  have hshown := hfit.shownBytes_le
  have hlines := hfit.lines
  simp only [sizeFields, fit_cons]
  exact ⟨by omega, hlines, by omega, by simp [Fit]⟩

/-- Four bytes are read back from their word. -/
theorem bytes_of_word {k : Nat}
    (h : BitVec.ofNat 32 (word4 src k) = BitVec.ofNat 32 (word4 src' k)) :
    ∀ j < 4, src (k + j) = src' (k + j) := by
  rw [word4_eq, word4_eq] at h
  have hfields : byteFields src k = byteFields src' k :=
    ofNat_pack_inj rfl (by simp [width, byteFields]) (fit_bytes src k) (fit_bytes src' k) h
  simp only [byteFields, List.cons.injEq, Prod.mk.injEq, true_and, BitVec.toNat_inj] at hfields
  intro j hj
  have hcases : j = 0 ∨ j = 1 ∨ j = 2 ∨ j = 3 := by omega
  rcases hcases with rfl | rfl | rfl | rfl
  · exact hfields.1
  · exact hfields.2.1
  · exact hfields.2.2.1
  · exact hfields.2.2.2.1

/-- So are the bytes of an array from its words. -/
theorem bytes_of_words {w : List Nat} {n : Nat}
    (h : w.map (fun k => BitVec.ofNat 32 (word4 src (4 * k))) =
      w.map fun k => BitVec.ofNat 32 (word4 src' (4 * k)))
    (hcover : ∀ k < n, k / 4 ∈ w) : ∀ k < n, src k = src' k := by
  intro k hk
  have hword := List.map_inj_left.mp h (k / 4) (hcover k hk)
  have hbyte := bytes_of_word hword (k % 4) (Nat.mod_lt _ (by decide))
  rwa [Nat.div_add_mod] at hbyte

/-! ## What is read of a line -/

/-- Two lines agree in everything that the renderers and the display read. -/
structure SameLine (s s' : Statics) (g g' : Tcc1014) (src src' : Nat → Byte) : Prop where
  coco : g.coco = g'.coco
  bp : g.bp = g'.bp
  cres : g.cres = g'.cres
  hres : g.hres = g'.hres
  resolution : g.resolution = g'.resolution
  vdg : g.vdg = g'.vdg
  invertedText : g.invertedText = g'.invertedText
  blink : attrText g = true → g.blink = g'.blink
  modeBits : allModeBits g = allModeBits g'
  row : g.row = g'.row
  lpr : g.coco = false → g.lpr = g'.lpr
  border : g.borderColour &&& 0x3F = g'.borderColour &&& 0x3F
  shown : shownBytes g = shownBytes g'
  lines : g.vertical.lAA = g'.vertical.lAA
  artifacts : s.artifacts = s'.artifacts
  palette : ∀ slot, g.paletteReg slot = g'.paletteReg slot
  bytes : ∀ k < fetchedBytes g, src k = src' k

theorem lprRowmask_inj : ∀ l l' : BitVec 3,
    lprRowmask l &&& 31 = lprRowmask l' &&& 31 → l = l' := by
  decide

theorem toNat_bool_inj : ∀ {b b' : Bool}, b.toNat = b'.toNat → b = b' := by
  decide

theorem cres_inj : ∀ {c c' : BitVec 2}, c.toNat &&& 3 = c'.toNat &&& 3 → c = c' := by
  decide

theorem hres_inj : ∀ {h h' : BitVec 3}, h.toNat &&& 7 = h'.toNat &&& 7 → h = h' := by
  decide

theorem LineFit.low_row (hfit : LineFit g) : g.row &&& 15 = g.row := by
  rw [Nat.and_two_pow_sub_one_eq_mod _ 4, Nat.mod_eq_of_lt hfit.row]

/-- Lines of one mode take as many bytes. -/
theorem attrText_eq (hcoco : g.coco = g'.coco) (hbp : g.bp = g'.bp) (hcres : g.cres = g'.cres) :
    attrText g = attrText g' := by
  simp only [attrText, hcoco, hbp, hcres]

/-- The words say everything that is read. -/
theorem sameLine_of_words (hfit : LineFit g) (hfit' : LineFit g') (hmode : s.artifacts < 3)
    (hmode' : s'.artifacts < 3) (h : lineWords s g src = lineWords s' g' src') :
    SameLine s s' g g' src src' := by
  simp only [lineWords, List.cons_append, List.nil_append, List.cons.injEq, List.map_cons,
    List.map_nil, modeWord_eq, sizeWord_eq] at h
  obtain ⟨hmodes, hsizes, h0, h4, h8, h12, hrest⟩ := h
  have hmodes : modeFields s g = modeFields s' g' :=
    ofNat_pack_inj rfl (by simp [width, modeFields]) (fit_mode s g) (fit_mode s' g') hmodes
  have hsizes : sizeFields s g = sizeFields s' g' :=
    ofNat_pack_inj rfl (by simp [width, sizeFields]) (fit_size hfit hmode) (fit_size hfit' hmode')
      hsizes
  simp only [modeFields, List.cons.injEq, Prod.mk.injEq, true_and, and_true] at hmodes
  simp only [sizeFields, List.cons.injEq, Prod.mk.injEq, true_and, and_true,
    BitVec.toNat_inj] at hsizes
  obtain ⟨hcoco, hbp, hcres, hhres, hresolution, hgna, hgm1, hgm0, hcss, hinverted, hblink, hbits,
    hrow, hrowmask, hborder, -⟩ := hmodes
  obtain ⟨hshown, hlines, hartifacts⟩ := hsizes
  have hcoco := toNat_bool_inj hcoco
  have hbp := toNat_bool_inj hbp
  have hcres := cres_inj hcres
  have hattr := attrText_eq hcoco hbp hcres
  have hfetched : fetchedBytes g = fetchedBytes g' := by
    unfold fetchedBytes
    rw [hattr, hshown]
  have hpalette : ∀ i < 16, g.paletteReg (BitVec.ofNat 4 i) = g'.paletteReg (BitVec.ofNat 4 i) := by
    refine bytes_of_words (w := [0, 1, 2, 3]) (by simp [h0, h4, h8, h12]) fun i hi => ?_
    have hcases : i / 4 = 0 ∨ i / 4 = 1 ∨ i / 4 = 2 ∨ i / 4 = 3 := by omega
    simpa using hcases
  rw [hfit.low_row, hfit'.low_row] at hrow
  rw [hfit.low_resolution, hfit'.low_resolution] at hresolution
  rw [hfetched] at hrest
  refine { coco := hcoco, bp := hbp, cres := hcres, hres := hres_inj hhres,
           resolution := hresolution, vdg := ?_, invertedText := toNat_bool_inj hinverted,
           blink := ?_, modeBits := toNat_bool_inj hbits, row := hrow, lpr := ?_,
           border := BitVec.eq_of_toNat_eq hborder, shown := hshown, lines := hlines,
           artifacts := hartifacts, palette := ?_, bytes := ?_ }
  · rw [Vdg.mk.injEq]
    exact ⟨toNat_bool_inj hgna, toNat_bool_inj hgm1, toNat_bool_inj hgm0, toNat_bool_inj hcss⟩
  · intro htext
    rw [← hattr, htext, Bool.true_and, Bool.true_and] at hblink
    exact toNat_bool_inj hblink
  · intro hnative
    rw [hfit.rowmask hnative, hfit'.rowmask (hcoco ▸ hnative)] at hrowmask
    exact lprRowmask_inj _ _ hrowmask
  · intro slot
    have hslot := hpalette slot.toNat slot.isLt
    rwa [BitVec.ofNat_toNat, BitVec.setWidth_eq] at hslot
  · intro k hk
    rw [hfetched] at hk
    exact bytes_of_words hrest (fun k hk => List.mem_range.mpr (by omega)) k hk

end

/-! ## The colours of a line with artifacts -/

/-- `artifact_key`'s fields: the pair of colours, the monitor and the mode. -/
def keyFields (mode : Nat) (m : Monitor) (c0 c1 : Nat) : List (Nat × Nat) :=
  [(8, c1), (8, c0), (8, m.number), (8, mode)]

/-- The mode exists, and the colours kept are the mix that they are kept under. -/
structure Mixed (s : Statics) : Prop where
  mode : s.artifacts < 3
  kept : ∀ mode m c0 c1, mode ≠ 0 → Fit (keyFields mode m c0 c1) →
    s.artKey = pack (keyFields mode m c0 c1) → s.artColours = gimeArtifactMix mode m c0 c1

theorem artifactKey_eq (s : Statics) (c0 c1 : Nat) :
    artifactKey s c0 c1 = pack (keyFields s.artifacts s.monitor c0 c1) := by
  simp only [artifactKey, keyFields, pack, Nat.shiftLeft_or_distrib, ← Nat.shiftLeft_add,
    Nat.zero_shiftLeft, Nat.or_zero, Nat.reduceAdd]
  rw [Nat.or_comm _ c1, Nat.or_comm _ (c0 <<< 8), Nat.or_comm (s.artifacts <<< 24)]

theorem number_inj {m m' : Monitor} (h : m.number = m'.number) : m = m' := by
  cases m <;> cases m' <;> first | rfl | exact absurd h (by decide)

theorem paletteColour_lt (g : Tcc1014) (slot : Nat) : paletteColour g slot < 64 := by
  unfold paletteColour
  rw [BitVec.toNat_and]
  exact and_lt _ 6

theorem fit_key {s : Statics} (hmode : s.artifacts < 3) {c0 c1 : Nat} (h0 : c0 < 64)
    (h1 : c1 < 64) :
    Fit (keyFields s.artifacts s.monitor c0 c1) := by
  have hnumber : s.monitor.number < 2 := by
    cases s.monitor <;> decide
  simp only [keyFields, fit_cons]
  exact ⟨by omega, by omega, by omega, by omega, by simp [Fit]⟩

/-- A reset of the program keeps no mix. -/
theorem mixed_new : Mixed {} where
  mode := by decide
  kept := by
    intro mode m c0 c1 hmode hfit hkey
    have hzero : pack (keyFields 0 .rgb 0 0) = pack (keyFields mode m c0 c1) := hkey
    have hfields : keyFields 0 .rgb 0 0 = keyFields mode m c0 c1 :=
      pack_inj rfl (by decide) hfit hzero
    simp only [keyFields, List.cons.injEq, Prod.mk.injEq, true_and, and_true] at hfields
    exact absurd hfields.2.2.2.symm hmode

section

variable {s : Statics} {g : Tcc1014}

/-- The colours of a line are the mix of its own pair. -/
theorem Mixed.colours (h : Mixed s) (hon : s.artifacts ≠ 0) (g : Tcc1014) :
    (artifactColours s g).artColours =
      gimeArtifactMix s.artifacts s.monitor (paletteColour g (graphicsBg g.vdg.css))
        (paletteColour g (graphicsFg g.vdg.css)) := by
  unfold artifactColours
  dsimp only
  split
  next => rfl
  next hkey =>
    rw [ne_eq, Decidable.not_not, artifactKey_eq] at hkey
    exact h.kept _ _ _ _ hon (fit_key h.mode (paletteColour_lt g _) (paletteColour_lt g _))
      hkey.symm

/-- They are kept under the pair. -/
theorem Mixed.keep (h : Mixed s) (g : Tcc1014) : Mixed (artifactColours s g) := by
  unfold artifactColours
  dsimp only
  split
  next =>
    refine ⟨h.mode, fun mode m c0 c1 _ hfit hkey => ?_⟩
    have hown := fit_key h.mode (paletteColour_lt g (graphicsBg g.vdg.css))
      (paletteColour_lt g (graphicsFg g.vdg.css))
    have hpack := (artifactKey_eq s _ _).symm.trans hkey
    change gimeArtifactMix s.artifacts s.monitor _ _ = _
    generalize paletteColour g (graphicsBg g.vdg.css) = b0,
      paletteColour g (graphicsFg g.vdg.css) = b1 at hown hpack ⊢
    have hfields : keyFields s.artifacts s.monitor b0 b1 = keyFields mode m c0 c1 :=
      pack_inj rfl hown hfit hpack
    simp only [keyFields, List.cons.injEq, Prod.mk.injEq, true_and, and_true] at hfields
    obtain ⟨hc1, hc0, hnumber, hmode⟩ := hfields
    rw [hc1, hc0, number_inj hnumber, hmode]
  next => exact h

end

/-! ## Lines that agree -/

section

variable {P Q : Type} {s s' : Statics} {g g' : Tcc1014} {src src' : Nat → Byte} {n : Nat}
  {font : Nat → Byte} {pal toPixel : Nat → P}

theorem SameLine.colour (h : SameLine s s' g g' src src') (slot : Nat) :
    paletteColour g slot = paletteColour g' slot := by
  unfold paletteColour
  rw [h.palette]

theorem SameLine.artifactLine (h : SameLine s s' g g' src src') :
    artifactLine s g = artifactLine s' g' := by
  simp only [Video.artifactLine, h.artifacts, h.coco, h.vdg, h.resolution, h.modeBits]

theorem SameLine.attrText (h : SameLine s s' g g' src src') : attrText g = attrText g' :=
  attrText_eq h.coco h.bp h.cres

/-- Text without attributes reads the row. -/
theorem renderNativeText_same (attr : Bool) (res : Nat) (hrow : g.row = g'.row)
    (hlpr : g.lpr = g'.lpr) (hblink : attr = true → g.blink = g'.blink) :
    renderNativeText attr res g font src n pal = renderNativeText attr res g' font src n pal := by
  cases attr with
  | true => simp only [renderNativeText, nativeFontRow, hrow, hlpr, hblink rfl]
  | false => simp only [renderNativeText, nativeFontRow, hrow, hlpr, Bool.false_eq_true, if_false]

/-- The line renderer reads nothing of the chip but what the words say. -/
theorem renderLine_same (h : SameLine s s' g g' src src') (hmixed : Mixed s) (hmixed' : Mixed s')
    (hmonitor : s.monitor = s'.monitor) :
    (renderLine s g font src pal (shownBytes g) toPixel).2 =
      (renderLine s' g' font src' pal (shownBytes g') toPixel).2 := by
  have hbytes : ∀ k < if attrText g = true then 2 * shownBytes g else shownBytes g,
      src k = src' k := h.bytes
  rw [renderLine_congr hbytes, ← h.shown]
  unfold renderLine
  dsimp only
  have hzero : zeroesSecond g = zeroesSecond g' := by
    simp only [zeroesSecond, h.hres, h.cres]
  rw [h.artifactLine, hzero, h.coco, h.bp, h.cres, h.vdg, h.resolution, h.modeBits]
  cases hcoco : g'.coco with
  | true =>
    simp only [if_true]
    split
    · split
      · simp only [renderCocoCg, h.vdg]
      split
      next hart =>
        have hon : s'.artifacts ≠ 0 := by
          intro hoff
          simp [artifactLine, hoff] at hart
        rw [hmixed.colours (h.artifacts ▸ hon), hmixed'.colours hon, h.border, h.artifacts,
          hmonitor, h.vdg, h.colour, h.colour]
      split
      · simp only [renderCocoRg, h.vdg]
      · simp only [renderCocoRg2, h.vdg]
    · simp only [renderCocoText, h.row, h.vdg, h.invertedText]
  | false =>
    simp only [Bool.false_eq_true, if_false]
    cases hbp : g'.bp with
    | true => rfl
    | false =>
      simp only [Bool.false_eq_true, if_false]
      refine renderNativeText_same _ _ h.row (h.lpr (h.coco.trans hcoco)) fun hattr => ?_
      refine h.blink ?_
      rw [h.attrText]
      simp only [attrText, hcoco, hbp, hattr, Bool.not_false, Bool.and_true]

/-! ## Pixels of another kind -/

theorem eachByte_map (f : P → Q) (draw : Nat → List P) :
    (eachByte n draw).map f = eachByte n fun k => (draw k).map f :=
  List.map_flatMap ..

theorem emit4_map (f : P → Q) (res : Nat) (c0 c1 c2 c3 : P) :
    (emit4 res c0 c1 c2 c3).map f = emit4 res (f c0) (f c1) (f c2) (f c3) := by
  unfold emit4
  split
  · simp
  split
  · simp
  split <;> simp

theorem emitBits8_map (f : P → Q) (res : Nat) (v : Byte) (fg bg : P) :
    (emitBits8 res v fg bg).map f = emitBits8 res v (f fg) (f bg) := by
  simp only [emitBits8, List.map_append, emit4_map, apply_ite f]

theorem gimeArtifactLine_map (f : P → Q) (colours : Nat → P) (borderIsC1 : Bool) :
    (gimeArtifactLine src n colours borderIsC1).map f =
      gimeArtifactLine src n (fun i => f (colours i)) borderIsC1 := by
  simp only [gimeArtifactLine, List.map_flatMap, artifactPair, List.map_cons, List.map_nil]
  rfl

/-- The mixed colours of a line are display colours. -/
theorem Mixed.colours_lt (h : Mixed s) (hon : s.artifacts ≠ 0) (g : Tcc1014) (i : Nat) :
    (artifactColours s g).artColours i < 64 := by
  rw [h.colours hon]
  exact gimeArtifactMix_lt ..

/-- A renderer does nothing with a pixel but place it. -/
theorem renderLine_map (hmixed : Mixed s) {f : P → Q} {palQ toPixelQ : Nat → Q}
    (hpal : ∀ slot, palQ slot = f (pal slot)) (hpixel : ∀ c < 64, toPixelQ c = f (toPixel c)) :
    (renderLine s g font src palQ n toPixelQ).2 =
      (renderLine s g font src pal n toPixel).2.map f := by
  have hpal : palQ = fun slot => f (pal slot) := funext hpal
  unfold renderLine
  dsimp only
  rw [hpal]
  split
  · split
    · split
      · simp only [renderCocoCg, eachByte_map, List.map_append, emit4_map]
      split
      next hart =>
        have hon : s.artifacts ≠ 0 := by
          intro hoff
          simp [artifactLine, hoff] at hart
        simp only [gimeArtifactLine_map]
        exact gimeArtifactLine_congr _ (fun _ _ => rfl) fun i _ =>
          hpixel _ (hmixed.colours_lt hon g i)
      split
      · simp only [renderCocoRg, eachByte_map, emitBits8_map]
      · simp only [renderCocoRg2, eachByte_map, List.map_append, emit4_map, apply_ite f]
    · simp only [renderCocoText, eachByte_map, apply_ite (List.map f), List.map_append, emit4_map,
        emitBits8_map, apply_ite f]
  split
  · simp only [renderNativeGfx, eachByte_map, apply_ite (List.map f), List.map_append, emit4_map]
  · simp only [renderNativeText, eachByte_map, apply_ite (List.map f), emitBits8_map]

/-! ## A whole line -/

/-- Drawing a line moves the mix kept, and nothing else. -/
theorem renderLine_statics (s : Statics) (g : Tcc1014) (font src : Nat → Byte)
    (pal : Nat → P) (n : Nat) (toPixel : Nat → P) :
    (renderLine s g font src pal n toPixel).1 = s ∨
      (renderLine s g font src pal n toPixel).1 = artifactColours s g := by
  unfold renderLine
  dsimp only
  split
  · split
    · split
      · exact .inl rfl
      split
      · exact .inr rfl
      split
      · exact .inl rfl
      · exact .inl rfl
    · exact .inl rfl
  split
  · exact .inl rfl
  · exact .inl rfl

/-- Statics that differ in the mix kept and in the signatures. -/
structure SameSettings (s s' : Statics) : Prop where
  artifacts : s'.artifacts = s.artifacts
  monitor : s'.monitor = s.monitor
  luts : s'.luts = s.luts

theorem sameSettings_artifacts (s : Statics) (g : Tcc1014) :
    SameSettings s (artifactColours s g) ∧ (artifactColours s g).lineSig = s.lineSig := by
  unfold artifactColours
  dsimp only
  split
  · exact ⟨⟨rfl, rfl, rfl⟩, rfl⟩
  · exact ⟨⟨rfl, rfl, rfl⟩, rfl⟩

/-- What drawing a line keeps. -/
structure LineKeeps (s s' : Statics) : Prop extends SameSettings s s' where
  lineSig : s'.lineSig = s.lineSig
  mixed : Mixed s → Mixed s'

theorem drawLine_keeps (s : Statics) (g : Tcc1014) (font : Nat → Byte)
    (ram : Unsigned → Byte) (pal toPixel : Nat → P) :
    LineKeeps s (drawLine s g font ram pal toPixel).1 := by
  have hstatics := renderLine_statics s g font (fetchLineBytes g ram (fetchedBytes g)) pal
    (shownBytes g) toPixel
  change LineKeeps s (renderLine s g font _ pal _ toPixel).1
  rcases hstatics with h | h
  · rw [h]
    exact ⟨⟨rfl, rfl, rfl⟩, rfl, id⟩
  · rw [h]
    exact ⟨(sameSettings_artifacts s g).1, (sameSettings_artifacts s g).2, fun hm => hm.keep g⟩

/-- Lines whose words are the same are drawn the same, in the same colours. -/
theorem drawLine_same {ram ram' : Unsigned → Byte}
    (h : SameLine s s' g g' (fetchLineBytes g ram (fetchedBytes g))
      (fetchLineBytes g' ram' (fetchedBytes g')))
    (hmixed : Mixed s) (hmixed' : Mixed s') (hmonitor : s.monitor = s'.monitor) :
    (drawLine s g font ram pal toPixel).2 = (drawLine s' g' font ram' pal toPixel).2 := by
  have hpixels : (renderLine s g font _ pal (shownBytes g) toPixel).2 =
      (renderLine s' g' font _ pal (shownBytes g') toPixel).2 :=
    renderLine_same h hmixed hmixed' hmonitor
  unfold drawLine
  dsimp only
  rw [hpixels, h.shown, h.resolution]

/-- So are they for the display. -/
theorem drawRaw_same {ram ram' : Unsigned → Byte} (luts : RawLuts)
    (h : SameLine s s' g g' (fetchLineBytes g ram (fetchedBytes g))
      (fetchLineBytes g' ram' (fetchedBytes g')))
    (hmixed : Mixed s) (hmixed' : Mixed s') (hmonitor : s.monitor = s'.monitor) :
    (drawRaw s luts g font ram).2 = (drawRaw s' luts g' font ram').2 := by
  have hpal : (fun slot => luts.raw (paletteColour g slot)) =
      fun slot => luts.raw (paletteColour g' slot) := by
    funext slot
    rw [h.colour]
  unfold drawRaw
  rw [hpal]
  exact drawLine_same h hmixed hmixed' hmonitor

/-- A line for a screenshot, looked up in the display's table, is the line for the display. -/
theorem drawRgb565_map {f : Word → Byte} {luts : RawLuts} (ram : Unsigned → Byte)
    (hmixed : Mixed s)
    (hraw : ∀ c < 64, luts.raw c = f (displayRgb565Swapped (gimeMonitorColour s.monitor c)))
    (hdirect : ∀ c < 64, luts.direct c = f (displayRgb565Swapped c)) :
    (drawRaw s luts g font ram).2.pixels = (drawRgb565 s g font ram).2.pixels.map f ∧
      (drawRaw s luts g font ram).2.lineWidth = (drawRgb565 s g font ram).2.lineWidth :=
  ⟨renderLine_map hmixed (fun slot => hraw _ (paletteColour_lt g slot)) hdirect, rfl⟩

end

end CocoEmulator.Video
