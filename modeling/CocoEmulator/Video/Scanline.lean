/-
  Video/Scanline.lean --- a line of video, drawn by the two renderers of the GIME.

  The reference renderer fetches bytes in pairs and looks at the mode again for every
  nibble.  The renderers that replaced it pick one loop a line, over the bytes of the line.

  A pixel is of any type, and a line is the list of its pixels.  RAM and the font are
  functions of an index.

  Source: tcc1014.cpp.
-/
import CocoEmulator.Machine.Coco3Font
import CocoEmulator.Video.Artifact

set_option autoImplicit false

namespace CocoEmulator.Video

open CocoEmulator.Gime
open CocoEmulator.Machine (cocoChar nativeFontRow)

/-! ## Colours -/

/-- The palette slots of the VDG modes. -/
inductive Slot
  | green
  | yellow
  | blue
  | red
  | white
  | cyan
  | magenta
  | orange
  | rgcss00
  | rgcss01
  | rgcss10
  | rgcss11
  | darkGreen
  | brightGreen
  | darkOrange
  | brightOrange
deriving DecidableEq, Repr

/-- The number of a slot. -/
def Slot.index : Slot → Nat
  | .green => 0
  | .yellow => 1
  | .blue => 2
  | .red => 3
  | .white => 4
  | .cyan => 5
  | .magenta => 6
  | .orange => 7
  | .rgcss00 => 8
  | .rgcss01 => 9
  | .rgcss10 => 10
  | .rgcss11 => 11
  | .darkGreen => 12
  | .brightGreen => 13
  | .darkOrange => 14
  | .brightOrange => 15

/-- The foreground of a line of VDG graphics. -/
def graphicsFg (css : Bool) : Nat := if css = true then Slot.rgcss11.index else Slot.rgcss01.index

/-- Its background. -/
def graphicsBg (css : Bool) : Nat := if css = true then Slot.rgcss10.index else Slot.rgcss00.index

/-- The first of the four colours of colour graphics. -/
def graphicsBase (css : Bool) : Nat := if css = true then Slot.white.index else Slot.green.index

/-- The foreground of VDG text. -/
def textFg (css : Bool) : Nat :=
  if css = true then Slot.brightOrange.index else Slot.brightGreen.index

/-- Its background. -/
def textBg (css : Bool) : Nat := if css = true then Slot.darkOrange.index else Slot.darkGreen.index

/-- `LPR_underline_row`; -1 is no row. -/
def lprUnderlineRow (lpr : BitVec 3) : Int := [-1, -1, -1, 7, 8, 8, 9, -1].getD lpr.toNat 0

/-- GM2, GM1 and GM0 are all set: the 256-pixel mode. -/
def allModeBits (g : Tcc1014) : Bool := g.pia1bPdr &&& 0x70 == 0x70

variable {P : Type}

/-- The four colours of a nibble of two-colour pixels, bit 7 first. -/
def bits4 (gdata : Byte) (fg bg : P) : P × P × P × P :=
  (if bit gdata 7 = true then fg else bg, if bit gdata 6 = true then fg else bg,
    if bit gdata 5 = true then fg else bg, if bit gdata 4 = true then fg else bg)

/-! ## The reference renderer -/

/-- `tcc1014_render_mode`. -/
inductive RenderMode
  | sg
  | cg
  | rg
  | rg2
deriving DecidableEq, Repr

/-- The byte that a 16-bit fetch leaves for the next one. -/
structure PairFetch where
  xoff : Nat
  haveVdataCache : Bool := false
  vdataCache : Byte := 0

/-- A byte of video memory. -/
def vram (g : Tcc1014) (ram : Unsigned → Byte) (addr : Unsigned) : Byte := ram (g.vramBase + addr)

/-- `fetch_byte_vram`. -/
def fetchByteVram (g : Tcc1014) (ram : Unsigned → Byte) (f : PairFetch) : Byte × PairFetch :=
  if f.haveVdataCache = true then (f.vdataCache, { f with haveVdataCache := false })
  else
    let addr := (g.b + BitVec.ofNat 32 (f.xoff &&& 0xFF)) &&& g.vramMask
    (vram g ram addr,
      { xoff := f.xoff + 2
        haveVdataCache := true
        vdataCache := vram g ram ((addr + 1) &&& g.vramMask) })

/-- What a byte means: its bits, their colours, and how to draw them. -/
structure Cell where
  renderMode : RenderMode
  gdata : Byte
  fgColour : Nat := 0
  bgColour : Nat := 0
  cgColours : Nat := 0

/-- A byte of a VDG mode. -/
def cocoCell (g : Tcc1014) (font : Nat → Byte) (vdata : Byte) : Cell :=
  let fontRow := g.row &&& 0x0F
  if g.vdg.gna = true then
    { gdata := vdata
      fgColour := graphicsFg g.vdg.css
      bgColour := graphicsBg g.vdg.css
      cgColours := graphicsBase g.vdg.css
      renderMode :=
        if g.vdg.gm0 = true then
          if g.resolution ≠ 0 ∨ allModeBits g = true then .rg else .rg2
        else .cg }
  else if bit vdata 7 = true then
    { gdata := if fontRow < 6 then vdata >>> 2 else vdata
      fgColour := ((vdata >>> 4) &&& 7).toNat
      bgColour := Slot.rgcss00.index
      renderMode := .sg }
  else
    let inv := bit vdata 6 ^^ g.vdg.gm1
    let inv := if (vdata &&& 0x7F).toNat < 0x20 then inv ^^ g.vdg.gm0 else inv
    let gdata := font (cocoChar g.vdg.gm0 vdata * 12 + fontRow)
    { gdata := if (inv ^^ g.invertedText) = true then ~~~gdata else gdata
      fgColour := textFg g.vdg.css
      bgColour := textBg g.vdg.css
      renderMode := .rg }

/-- A character of native text with its attributes. -/
def attrCell (g : Tcc1014) (gdata attr : Byte) : Cell :=
  let fgColour := 8 ||| ((attr >>> 3) &&& 7).toNat
  let bgColour := (attr &&& 7).toNat
  { gdata :=
      if bit attr 6 = true ∧ (g.row : Int) = lprUnderlineRow g.lpr then 0xFF else gdata
    fgColour := if bit attr 7 = true ∧ g.blink = true then bgColour else fgColour
    bgColour := bgColour
    renderMode := .rg }

/-- The 16-colour mode of 16 bytes a line shows every second byte as zero. -/
def zeroesSecond (g : Tcc1014) : Bool := decide (g.hres = 0 ∧ 2 ≤ g.cres)

/-- The fetch and the interpretation of a byte, or of a character and its attributes. -/
def legacyCell (g : Tcc1014) (font : Nat → Byte) (ram : Unsigned → Byte) (f : PairFetch) :
    Cell × PairFetch :=
  let (vdata, f) := fetchByteVram g ram f
  if g.coco = true then (cocoCell g font vdata, f)
  else if g.bp = true then
    ({ gdata := vdata, renderMode := .rg },
      if zeroesSecond g = true then { f with vdataCache := 0 } else f)
  else
    let gdata := font ((vdata &&& 0x7F).toNat * 12 + nativeFontRow g)
    if bit g.cres 0 = true then
      let (attr, f) := fetchByteVram g ram f
      (attrCell g gdata attr, f)
    else ({ gdata, fgColour := 1, bgColour := 0, renderMode := .rg }, f)

/-- The four colours of a nibble, and the bits of the next. -/
def legacyNibble (g : Tcc1014) (pal : Nat → P) (c : Cell) : (P × P × P × P) × Byte :=
  let fg := pal c.fgColour
  let bg := pal c.bgColour
  let gdata := c.gdata
  if g.coco = true then
    match c.renderMode with
    | .sg =>
      let c0 := if bit gdata 1 = true then fg else bg
      ((c0, c0, c0, c0), gdata <<< 1)
    | .cg =>
      let c0 := pal (c.cgColours + ((gdata >>> 6) &&& 3).toNat)
      let c2 := pal (c.cgColours + ((gdata >>> 4) &&& 3).toNat)
      ((c0, c0, c2, c2), gdata <<< 4)
    | .rg => (bits4 gdata fg bg, gdata <<< 4)
    | .rg2 =>
      let c0 := if bit gdata 6 = true then fg else bg
      let c2 := if bit gdata 4 = true then fg else bg
      ((c0, c0, c2, c2), gdata <<< 4)
  else if g.bp = true then
    (match g.cres.toNat with
      | 1 =>
        let c0 := pal ((gdata >>> 6) &&& 3).toNat
        let c2 := pal ((gdata >>> 4) &&& 3).toNat
        (c0, c0, c2, c2)
      | 2 | 3 =>
        let c0 := pal ((gdata >>> 4) &&& 15).toNat
        (c0, c0, c0, c0)
      | _ =>
        (pal ((gdata >>> 7) &&& 1).toNat, pal ((gdata >>> 6) &&& 1).toNat,
          pal ((gdata >>> 5) &&& 1).toNat, pal ((gdata >>> 4) &&& 1).toNat),
      gdata <<< 4)
  else (bits4 gdata fg bg, gdata <<< 4)

/-- The expansion to the resolution of the line. -/
def expand (resolution : Nat) : P × P × P × P → List P
  | (c0, c1, c2, c3) =>
    match resolution with
    | 0 =>
      List.replicate 4 c0 ++ List.replicate 4 c1 ++ List.replicate 4 c2 ++ List.replicate 4 c3
    | 1 => [c0, c0, c1, c1, c2, c2, c3, c3]
    | 2 => [c0, c1, c2, c3]
    | 3 => [c0, c2]
    | _ => []

/-- The loop over the bytes of a line; it leaves off at 640 pixels, in the middle of a byte
too. -/
def legacyBytes (g : Tcc1014) (font : Nat → Byte) (ram : Unsigned → Byte) (pal : Nat → P) :
    Nat → PairFetch → List P → List P
  | 0, _, pixels => pixels
  | left + 1, f, pixels =>
    let (c, f) := legacyCell g font ram f
    let (high, gdata) := legacyNibble g pal c
    let pixels := pixels ++ expand g.resolution high
    if 640 ≤ pixels.length then pixels
    else
      let pixels := pixels ++ expand g.resolution (legacyNibble g pal { c with gdata }).1
      if 640 ≤ pixels.length then pixels else legacyBytes g font ram pal left f pixels

/-- A line, as the renderer leaves it: its pixels, and how many of them count. -/
structure Rendered (P : Type) where
  pixels : List P
  lineWidth : Nat

/-- `tcc1014_render_scanline_legacy`, where it draws. -/
def renderScanlineLegacy (g : Tcc1014) (font : Nat → Byte) (ram : Unsigned → Byte)
    (pal : Nat → P) : Option (Rendered P) :=
  if g.vertical.activeArea = false ∨ g.ram = false then none
  else
    let pixels := legacyBytes g font ram pal g.bpr
      { xoff := if g.coco = true then 0 else g.x.toNat } []
    some { pixels, lineWidth := if pixels.length ≤ 640 then pixels.length else 640 }

/-! ## The line's bytes -/

/-- Where in the 256-byte window a line begins. -/
def startX (g : Tcc1014) : Nat := if g.coco = true then 0 else g.x.toNat

/-- `fetch_line_bytes`: a pointer into RAM where the line wraps nowhere, otherwise the bytes one
by one. -/
def fetchLineBytes (g : Tcc1014) (ram : Unsigned → Byte) (n k : Nat) : Byte :=
  let a := (g.b + BitVec.ofNat 32 (startX g)) &&& g.vramMask
  if startX g + n ≤ 256 ∧ a + BitVec.ofNat 32 n ≤ g.vramMask + 1 then
    vram g ram (a + BitVec.ofNat 32 k)
  else vram g ram ((g.b + BitVec.ofNat 32 ((startX g + k) &&& 0xFF)) &&& g.vramMask)

/-! ## The renderers of a mode -/

/-- `emit4`. -/
def emit4 (res : Nat) (c0 c1 c2 c3 : P) : List P :=
  if res = 0 then
    List.replicate 4 c0 ++ List.replicate 4 c1 ++ List.replicate 4 c2 ++ List.replicate 4 c3
  else if res = 1 then [c0, c0, c1, c1, c2, c2, c3, c3]
  else if res = 2 then [c0, c1, c2, c3]
  else [c0, c2]

/-- `emit_bits8`. -/
def emitBits8 (res : Nat) (g : Byte) (fg bg : P) : List P :=
  emit4 res (if bit g 7 = true then fg else bg) (if bit g 6 = true then fg else bg)
      (if bit g 5 = true then fg else bg) (if bit g 4 = true then fg else bg) ++
    emit4 res (if bit g 3 = true then fg else bg) (if bit g 2 = true then fg else bg)
      (if bit g 1 = true then fg else bg) (if bit g 0 = true then fg else bg)

/-- A loop over the bytes of a line. -/
def eachByte (n : Nat) (draw : Nat → List P) : List P := (List.range n).flatMap draw

/-- `render_native_gfx`. -/
def renderNativeGfx (cres res : Nat) (src : Nat → Byte) (n : Nat) (pal : Nat → P) : List P :=
  eachByte n fun k =>
    let v := src k
    if cres = 0 then
      emit4 res (pal ((v >>> 7) &&& 1).toNat) (pal ((v >>> 6) &&& 1).toNat)
          (pal ((v >>> 5) &&& 1).toNat) (pal ((v >>> 4) &&& 1).toNat) ++
        emit4 res (pal ((v >>> 3) &&& 1).toNat) (pal ((v >>> 2) &&& 1).toNat)
          (pal ((v >>> 1) &&& 1).toNat) (pal (v &&& 1).toNat)
    else if cres = 1 then
      let a := pal ((v >>> 6) &&& 3).toNat
      let b := pal ((v >>> 4) &&& 3).toNat
      let c := pal ((v >>> 2) &&& 3).toNat
      let e := pal (v &&& 3).toNat
      emit4 res a a b b ++ emit4 res c c e e
    else
      let a := pal (v >>> 4).toNat
      let b := pal (v &&& 15).toNat
      emit4 res a a a a ++ emit4 res b b b b

/-- `render_native_text`. -/
def renderNativeText (attr : Bool) (res : Nat) (g : Tcc1014) (font : Nat → Byte)
    (src : Nat → Byte) (n : Nat) (pal : Nat → P) : List P :=
  let fontRow := nativeFontRow g
  let underline := decide ((g.row : Int) = lprUnderlineRow g.lpr)
  eachByte n fun k =>
    if attr = true then
      let gdata := font (fontRow + (src (2 * k) &&& 0x7F).toNat * 12)
      let a := src (2 * k + 1)
      let bg := (a &&& 7).toNat
      let fg := if (bit a 7 && g.blink) = true then bg else 8 ||| ((a >>> 3) &&& 7).toNat
      emitBits8 res (if (bit a 6 && underline) = true then 0xFF else gdata) (pal fg) (pal bg)
    else emitBits8 res (font (fontRow + (src k &&& 0x7F).toNat * 12)) (pal 1) (pal 0)

/-- `render_coco_cg`. -/
def renderCocoCg (res : Nat) (g : Tcc1014) (src : Nat → Byte) (n : Nat) (pal : Nat → P) :
    List P :=
  let cg (i : Nat) := pal (graphicsBase g.vdg.css + i)
  eachByte n fun k =>
    let v := src k
    let a := cg ((v >>> 6) &&& 3).toNat
    let b := cg ((v >>> 4) &&& 3).toNat
    let c := cg ((v >>> 2) &&& 3).toNat
    let e := cg (v &&& 3).toNat
    emit4 res a a b b ++ emit4 res c c e e

/-- `render_coco_rg`. -/
def renderCocoRg (res : Nat) (g : Tcc1014) (src : Nat → Byte) (n : Nat) (pal : Nat → P) :
    List P :=
  eachByte n fun k =>
    emitBits8 res (src k) (pal (graphicsFg g.vdg.css)) (pal (graphicsBg g.vdg.css))

/-- `render_coco_rg2`. -/
def renderCocoRg2 (res : Nat) (g : Tcc1014) (src : Nat → Byte) (n : Nat) (pal : Nat → P) :
    List P :=
  let fg := pal (graphicsFg g.vdg.css)
  let bg := pal (graphicsBg g.vdg.css)
  eachByte n fun k =>
    let v := src k
    let a := if bit v 6 = true then fg else bg
    let b := if bit v 4 = true then fg else bg
    let c := if bit v 2 = true then fg else bg
    let e := if bit v 0 = true then fg else bg
    emit4 res a a b b ++ emit4 res c c e e

/-- `render_coco_text`. -/
def renderCocoText (res : Nat) (g : Tcc1014) (font : Nat → Byte) (src : Nat → Byte) (n : Nat)
    (pal : Nat → P) : List P :=
  let fontRow := g.row &&& 0x0F
  let invBase := g.vdg.gm1 ^^ g.invertedText
  eachByte n fun k =>
    let v := src k
    if bit v 7 = true then
      -- semigraphics: one colour a nibble
      let gd := if fontRow < 6 then v >>> 2 else v
      let sfg := pal ((v >>> 4) &&& 7).toNat
      let a := if bit gd 1 = true then sfg else pal Slot.rgcss00.index
      let b := if bit gd 0 = true then sfg else pal Slot.rgcss00.index
      emit4 res a a a a ++ emit4 res b b b b
    else
      let inv := bit v 6
      let inv := if (v &&& 0x7F).toNat < 0x20 then inv ^^ g.vdg.gm0 else inv
      let gd := font (fontRow + cocoChar g.vdg.gm0 v * 12)
      emitBits8 res (if (inv ^^ invBase) = true then ~~~gd else gd) (pal (textFg g.vdg.css))
        (pal (textBg g.vdg.css))

/-! ## The line renderer -/

/-- The display's bytes for palette colours and for display colours. -/
structure RawLuts where
  raw : Nat → Byte
  direct : Nat → Byte

/-- The file's statics: the artifact mode, the monitor, the colours last mixed, a signature for
each line, and the tables of the display once it has set them. -/
structure Statics where
  artifacts : Nat := 0
  monitor : Monitor := .rgb
  artKey : Nat := 0
  artColours : Nat → Nat := fun _ => 0
  lineSig : Nat → BitVec 64 := fun _ => 0
  luts : Option RawLuts := none

/-- The number of a monitor. -/
def Monitor.number : Monitor → Nat
  | .rgb => 0
  | .composite => 1

/-- A palette register. -/
def paletteColour (g : Tcc1014) (slot : Nat) : Nat :=
  (g.paletteReg (BitVec.ofNat 4 slot) &&& 0x3F).toNat

/-- `artifact_line`. -/
def artifactLine (s : Statics) (g : Tcc1014) : Bool :=
  s.artifacts != 0 && g.coco && g.vdg.gna && g.vdg.gm0 && (g.resolution &&& 3) == 1 &&
    allModeBits g

/-- What the mixed colours are kept under. -/
def artifactKey (s : Statics) (c0 c1 : Nat) : Nat :=
  (s.artifacts <<< 24) ||| (s.monitor.number <<< 16) ||| (c0 <<< 8) ||| c1

/-- `artifact_colours`; the mixes are kept until the pair, the mode or the monitor changes. -/
def artifactColours (s : Statics) (g : Tcc1014) : Statics :=
  let c0 := paletteColour g (graphicsBg g.vdg.css)
  let c1 := paletteColour g (graphicsFg g.vdg.css)
  let key := artifactKey s c0 c1
  if key ≠ s.artKey then
    { s with artColours := gimeArtifactMix s.artifacts s.monitor c0 c1, artKey := key }
  else s

/-- The bytes of the 16-colour mode that has every second one zeroed. -/
def zeroSecond (src : Nat → Byte) (k : Nat) : Byte := if k &&& 1 ≠ 0 then 0 else src k

/-- `render_line`. -/
def renderLine (s : Statics) (g : Tcc1014) (font : Nat → Byte) (src : Nat → Byte)
    (pal : Nat → P) (n : Nat) (toPixel : Nat → P) : Statics × List P :=
  let res := g.resolution &&& 3
  if g.coco = true then
    if g.vdg.gna = true then
      if g.vdg.gm0 = false then (s, renderCocoCg res g src n pal)
      else if artifactLine s g = true then
        let s := artifactColours s g
        let borderIsC1 := (g.borderColour &&& 0x3F).toNat == paletteColour g (graphicsFg g.vdg.css)
        (s, gimeArtifactLine src n (fun i => toPixel (s.artColours i)) borderIsC1)
      else if g.resolution ≠ 0 ∨ allModeBits g = true then (s, renderCocoRg res g src n pal)
      else (s, renderCocoRg2 res g src n pal)
    else (s, renderCocoText res g font src n pal)
  else if g.bp = true then
    let src := if zeroesSecond g = true then zeroSecond src else src
    (s, renderNativeGfx g.cres.toNat res src n pal)
  else (s, renderNativeText (bit g.cres 0) res g font src n pal)

/-- The bytes of a line that are shown: all, or what 640 pixels hold. -/
def shownBytes (g : Tcc1014) : Nat := min g.bpr (640 / (32 >>> (g.resolution &&& 3)))

/-- Characters with attributes take two bytes. -/
def attrText (g : Tcc1014) : Bool := !g.coco && !g.bp && bit g.cres 0

/-- The bytes of a line that are fetched. -/
def fetchedBytes (g : Tcc1014) : Nat :=
  if attrText g = true then 2 * shownBytes g else shownBytes g

/-- The drawing of `tcc1014_render_scanline`, onto pixels of one kind. -/
def drawLine (s : Statics) (g : Tcc1014) (font : Nat → Byte) (ram : Unsigned → Byte)
    (pal : Nat → P) (toPixel : Nat → P) : Statics × Rendered P :=
  let src := fetchLineBytes g ram (fetchedBytes g)
  let (s, pixels) := renderLine s g font src pal (shownBytes g) toPixel
  (s, { pixels, lineWidth := shownBytes g * (32 >>> (g.resolution &&& 3)) })

/-! ## The signature of a line -/

/-- `GIME_MAX_LINES`. -/
def gimeMaxLines : Nat := 225

/-- `tcc1014_invalidate_lines`. -/
def invalidateLines (s : Statics) : Statics := { s with lineSig := fun _ => 0 }

/-- `tcc1014_set_artifacts`. -/
def setArtifacts (s : Statics) (mode : Nat) : Statics :=
  if 3 ≤ mode ∨ s.artifacts = mode then s else invalidateLines { s with artifacts := mode }

/-- `tcc1014_set_monitor`. -/
def setMonitor (s : Statics) (monitor : Monitor) : Statics := invalidateLines { s with monitor }

/-- The word of the mode and of the state of the line. -/
def modeWord (s : Statics) (g : Tcc1014) : Nat :=
  g.coco.toNat ||| (g.bp.toNat <<< 1) ||| ((g.cres.toNat &&& 3) <<< 2) |||
    ((g.hres.toNat &&& 7) <<< 4) ||| ((g.resolution &&& 3) <<< 7) |||
    (g.vdg.gna.toNat <<< 9) ||| (g.vdg.gm1.toNat <<< 10) |||
    (g.vdg.gm0.toNat <<< 11) ||| (g.vdg.css.toNat <<< 12) |||
    (g.invertedText.toNat <<< 13) ||| ((attrText g && g.blink).toNat <<< 14) |||
    ((allModeBits g).toNat <<< 15) |||
    ((g.row &&& 15) <<< 16) ||| ((g.rowmask &&& 31) <<< 20) |||
    ((g.borderColour &&& 0x3F).toNat <<< 25) |||
    ((s.artifacts != 0).toNat <<< 31)

/-- The word of the line's size. -/
def sizeWord (s : Statics) (g : Tcc1014) : Nat :=
  shownBytes g ||| (g.vertical.lAA.toNat <<< 8) ||| (s.artifacts <<< 24)

/-- Four bytes, the first in the low place. -/
def word4 (bytes : Nat → Byte) (k : Nat) : Nat :=
  (bytes k).toNat ||| ((bytes (k + 1)).toNat <<< 8) ||| ((bytes (k + 2)).toNat <<< 16) |||
    ((bytes (k + 3)).toNat <<< 24)

/-- The words that `line_signature` mixes. -/
def lineWords (s : Statics) (g : Tcc1014) (src : Nat → Byte) : List Unsigned :=
  let pal (i : Nat) : Byte := g.paletteReg (BitVec.ofNat 4 i)
  [BitVec.ofNat 32 (modeWord s g), BitVec.ofNat 32 (sizeWord s g)] ++
    [0, 4, 8, 12].map (fun i => BitVec.ofNat 32 (word4 pal i)) ++
    (List.range ((fetchedBytes g + 3) / 4)).map fun k => BitVec.ofNat 32 (word4 src (4 * k))

/-- `SIG_MIX`. -/
def sigMix (h : Unsigned × Unsigned) (w : Unsigned) : Unsigned × Unsigned :=
  ((h.1 ^^^ w).rotateLeft 5 * 0x9E3779B1, (h.2 + w).rotateLeft 11 * 0xC2B2AE35)

/-- `line_signature`, of the words it mixes. -/
def lineSignature (words : List Unsigned) : BitVec 64 :=
  let (h1, h2) := words.foldl sigMix (0x811C9DC5, 0x01000193)
  let h1 := h1 ^^^ (h1 >>> 15)
  let h2 := h2 ^^^ (h2 >>> 13)
  let sig := (h1.setWidth 64 <<< 32) ||| h2.setWidth 64
  if sig ≠ 0 then sig else 1

/-! ## A scanline -/

/-- `display_rgb565_swapped`. -/
def displayRgb565Swapped (c : Nat) : Word :=
  let rgb := gimeColourRgb c
  let v : Word := BitVec.ofNat 16
    ((((rgb >>> 16) &&& 0xF8) <<< 8) ||| (((rgb >>> 8) &&& 0xFC) <<< 3) ||| ((rgb &&& 0xFF) >>> 3))
  (v >>> 8) ||| (v <<< 8)

/-- `palette_rgb565`, as a screenshot refreshes it. -/
def paletteRgb565 (s : Statics) (g : Tcc1014) (slot : Nat) : Word :=
  displayRgb565Swapped (gimeMonitorColour s.monitor (paletteColour g slot))

/-- What a scanline leaves: nothing outside the active area, a line that the display already
has, or its pixels, for the display or for a screenshot. -/
inductive Scanned
  | hidden
  | clean
  | raw (line : Rendered Byte)
  | rgb565 (line : Rendered Word)

/-- The words of the line that is about to be drawn. -/
def scanWords (s : Statics) (g : Tcc1014) (ram : Unsigned → Byte) : List Unsigned :=
  lineWords s g (fetchLineBytes g ram (fetchedBytes g))

/-- Keep a line's signature. -/
def keepSignature (s : Statics) (g : Tcc1014) (ram : Unsigned → Byte) (scanline : Nat) : Statics :=
  if scanline < gimeMaxLines then
    { s with lineSig := Function.update s.lineSig scanline (lineSignature (scanWords s g ram)) }
  else s

/-- Draw for the display. -/
def drawRaw (s : Statics) (luts : RawLuts) (g : Tcc1014) (font : Nat → Byte)
    (ram : Unsigned → Byte) : Statics × Rendered Byte :=
  drawLine s g font ram (fun slot => luts.raw (paletteColour g slot)) luts.direct

/-- Draw for a screenshot. -/
def drawRgb565 (s : Statics) (g : Tcc1014) (font : Nat → Byte) (ram : Unsigned → Byte) :
    Statics × Rendered Word :=
  drawLine s g font ram (paletteRgb565 s g) displayRgb565Swapped

/-- `tcc1014_render_scanline`. -/
def renderScanline (s : Statics) (g : Tcc1014) (font : Nat → Byte) (ram : Unsigned → Byte)
    (rawOutput : Bool) (scanline : Nat) : Statics × Scanned :=
  if g.vertical.activeArea = false ∨ g.ram = false then (s, .hidden)
  else
    match if rawOutput = true then s.luts else none with
    | some luts =>
      if scanline < gimeMaxLines ∧ lineSignature (scanWords s g ram) = s.lineSig scanline then
        (s, .clean)
      else
        let (s, line) := drawRaw (keepSignature s g ram scanline) luts g font ram
        (s, .raw line)
    | none =>
      let (s, line) := drawRgb565 (keepSignature s g ram scanline) g font ram
      (s, .rgb565 line)

end CocoEmulator.Video
