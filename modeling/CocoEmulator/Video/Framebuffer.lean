/-
  Video/Framebuffer.lean --- the rows of the display (hal_video.cpp).

  A row of the framebuffer has the two halves of every 32-bit word swapped, so column `x`
  is byte `x ^ 2`.  A line is placed in its row by column; where everything is a whole
  number of words it is copied a word at a time.

      paintRaw_eq          the copies by the word and by the byte leave the same row
      rgb222_of_pixel      a display colour survives as a pixel of a screenshot
      storeColumns_again   columns stored again are not changed

  Not modelled: the signal that FabGL makes of the rows.
-/
import CocoEmulator.Video.DisplayRow
import CocoEmulator.Video.LineSkip

set_option autoImplicit false

namespace CocoEmulator.Video

open CocoEmulator.Base.Packing CocoEmulator.Gime

/-! ## Colours of the display -/

/-- `RGB222`. -/
structure Rgb222 where
  r : Nat
  g : Nat
  b : Nat
deriving DecidableEq, Repr

/-- `gime_idx_to_rgb222`. -/
def gimeIdxToRgb222 (i : Nat) : Rgb222 where
  r := ((i >>> 4) &&& 2) ||| ((i >>> 2) &&& 1)
  g := ((i >>> 3) &&& 2) ||| ((i >>> 1) &&& 1)
  b := ((i >>> 2) &&& 2) ||| (i &&& 1)

/-- `rgb565_to_rgb222`. -/
def rgb565ToRgb222 (c : Word) : Rgb222 where
  r := ((c >>> 14) &&& 3).toNat
  g := ((c >>> 9) &&& 3).toNat
  b := ((c >>> 3) &&& 3).toNat

/-- `__builtin_bswap16`. -/
def bswap16 (v : Word) : Word := (v >>> 8) ||| (v <<< 8)

/-- The tables of `init_gime_lut` for palette colours and for display colours; `rawPixel` is
`createRawPixel`. -/
def gimeLuts (rawPixel : Rgb222 → Byte) (m : Monitor) : RawLuts where
  raw := fun c => rawPixel (gimeIdxToRgb222 (gimeMonitorColour m c))
  direct := fun c => rawPixel (gimeIdxToRgb222 c)

/-- Its table for the pixels of a screenshot. -/
def pixelRawLut (rawPixel : Rgb222 → Byte) (v : Word) : Byte :=
  rawPixel (rgb565ToRgb222 (bswap16 v))

/-- A display colour survives as a pixel of a screenshot. -/
theorem rgb222_of_pixel : ∀ c < 64,
    rgb565ToRgb222 (bswap16 (displayRgb565Swapped c)) = gimeIdxToRgb222 c := by
  decide

/-! ## A row -/

/-- The bytes of a row as they lie in memory. -/
abbrev Row := Nat → Byte

/-- `row[x ^ 2] = b` for the columns below `n` in turn. -/
def storeColumns (n : Nat) (column : Nat → Byte) (row : Row) : Row :=
  (List.range n).foldl (fun row x => Function.update row (x ^^^ 2) (column x)) row

/-- Byte `j` of a 32-bit word in memory. -/
def wordByte (w : Unsigned) (j : Nat) : Byte := (w >>> (8 * j)).setWidth 8

/-- Four bytes in memory as a 32-bit word. -/
def loadWord (raw : Nat → Byte) (i : Nat) : Unsigned := BitVec.ofNat 32 (word4 raw (4 * i))

/-- `dst[i] = w`. -/
def storeWord (row : Row) (i : Nat) (w : Unsigned) : Row :=
  (List.range 4).foldl (fun row j => Function.update row (4 * i + j) (wordByte w j)) row

/-- The same for the words below `n` in turn. -/
def storeWords (n : Nat) (word : Nat → Unsigned) (row : Row) : Row :=
  (List.range n).foldl (fun row i => storeWord row i (word i)) row

/-- The halves of a word swapped. -/
def swapHalves (w : Unsigned) : Unsigned := (w >>> 16) ||| (w <<< 16)

/-- Two pixels, each doubled, with the halves swapped. -/
def doublePixels (raw : Nat → Byte) (i : Nat) : Unsigned :=
  let s : Unsigned := (raw (2 * i)).setWidth 32 ||| ((raw (2 * i + 1)).setWidth 32 <<< 8)
  ((s >>> 8) &&& 0xFF) * 0x0101 ||| (s &&& 0xFF) * 0x01010000

/-- What a line of `width` pixels puts into a column of a row of `vpW`: the pixel, its half, a
border on both sides, or the nearest of too many. -/
def lineColumn (vpW width : Nat) (border : Byte) (raw : Nat → Byte) (x : Nat) : Byte :=
  let xOff := (vpW - width) / 2
  if width = vpW then raw x
  else if width * 2 = vpW then raw (x / 2)
  else if width < vpW then if xOff ≤ x ∧ x < xOff + width then raw (x - xOff) else border
  else raw (x * width / vpW)

/-- The width of the border on the left. -/
def lineOffset (vpW width : Nat) : Nat := if width < vpW then (vpW - width) / 2 else 0

/-- The row of `hal_video_render_scanline_gime_raw`; `aligned` is that the row is word-aligned. -/
def paintRaw (aligned : Bool) (vpW width : Nat) (border : Byte) (raw : Nat → Byte) (row : Row) :
    Row :=
  let xOff := lineOffset vpW width
  let words := aligned && vpW % 4 == 0 && xOff % 4 == 0 && width % 4 == 0
  if words = true ∧ width = vpW then
    storeWords (vpW / 4) (fun i => swapHalves (loadWord raw i)) row
  else if words = true ∧ width * 2 = vpW then storeWords (width / 2) (doublePixels raw) row
  else if words = true ∧ width < vpW then
    let bw := border.setWidth 32 * 0x01010101
    storeWords (vpW / 4) (fun i =>
      if xOff / 4 ≤ i ∧ i < xOff / 4 + width / 4 then swapHalves (loadWord raw (i - xOff / 4))
      else bw) row
  else storeColumns vpW (lineColumn vpW width border raw) row

/-! ## Stores by column and by word -/

section

variable {n : Nat} {row : Row}

/-- The halves of the words change places. -/
theorem xor_two (x : Nat) : x ^^^ 2 = 4 * (x / 4) + (x % 4 + 2) % 4 := by
  have hhigh : (x ^^^ 2) / 4 = x / 4 := by
    have hdiv : (x ^^^ 2) / 2 ^ 2 = (x / 2 ^ 2) ^^^ (2 / 2 ^ 2) := Nat.xor_div_two_pow
    simpa using hdiv
  have hlow : (x ^^^ 2) % 4 = (x % 4 + 2) % 4 := by
    have hmod : (x ^^^ 2) % 2 ^ 2 = (x % 2 ^ 2) ^^^ (2 % 2 ^ 2) := Nat.xor_mod_two_pow
    have hall : ∀ r < 4, r ^^^ 2 = (r + 2) % 4 := by decide
    rw [← hall _ (Nat.mod_lt x (by decide))]
    exact hmod
  omega

theorem xor_two_xor (x : Nat) : (x ^^^ 2) ^^^ 2 = x := by
  rw [Nat.xor_assoc, Nat.xor_self, Nat.xor_zero]

theorem xor_two_lt (hn : n % 4 = 0) (x : Nat) : x ^^^ 2 < n ↔ x < n := by
  rw [xor_two]
  omega

theorem storeColumns_apply (n : Nat) (column : Nat → Byte) (row : Row) (p : Nat) :
    storeColumns n column row p = if p ^^^ 2 < n then column (p ^^^ 2) else row p := by
  unfold storeColumns
  induction n with
  | zero => simp
  | succ n ih =>
    rw [List.range_succ, List.foldl_append, List.foldl_cons, List.foldl_nil, Function.update_apply]
    split
    next h =>
      rw [h, xor_two_xor, if_pos (Nat.lt_succ_self n)]
    next h =>
      have hne : p ^^^ 2 ≠ n := by
        intro heq
        exact h (by rw [← heq, xor_two_xor])
      rw [ih]
      split <;> split <;> first | rfl | omega

theorem storeWord_apply (row : Row) (i : Nat) (w : Unsigned) (p : Nat) :
    storeWord row i w p = if p / 4 = i then wordByte w (p % 4) else row p := by
  have hfold : storeWord row i w = Function.update (Function.update (Function.update
      (Function.update row (4 * i) (wordByte w 0)) (4 * i + 1) (wordByte w 1)) (4 * i + 2)
      (wordByte w 2)) (4 * i + 3) (wordByte w 3) := rfl
  rw [hfold]
  simp only [Function.update_apply]
  split
  next h => rw [h, if_pos (by omega)]; congr 1; omega
  split
  next h => rw [h, if_pos (by omega)]; congr 1; omega
  split
  next h => rw [h, if_pos (by omega)]; congr 1; omega
  split
  next h => rw [h, if_pos (by omega)]; congr 1; omega
  next => rw [if_neg (by omega)]

theorem storeWords_apply (n : Nat) (word : Nat → Unsigned) (row : Row) (p : Nat) :
    storeWords n word row p = if p / 4 < n then wordByte (word (p / 4)) (p % 4) else row p := by
  unfold storeWords
  induction n with
  | zero => simp
  | succ n ih =>
    rw [List.range_succ, List.foldl_append, List.foldl_cons, List.foldl_nil, storeWord_apply, ih]
    split
    next h => rw [h, if_pos (Nat.lt_succ_self n)]
    next h => split <;> split <;> first | rfl | omega

theorem toNat_wordByte (w : Unsigned) (j : Nat) :
    (wordByte w j).toNat = w.toNat / 2 ^ (8 * j) % 256 := by
  rw [wordByte, BitVec.toNat_setWidth, BitVec.toNat_ushiftRight, Nat.shiftRight_eq_div_pow]

/-- Four bytes, the first in the low place. -/
def wordOf (b0 b1 b2 b3 : Byte) : Unsigned :=
  BitVec.ofNat 32 (pack ([b0.toNat, b1.toNat, b2.toNat, b3.toNat].map fun v => (8, v)))

theorem bytes_lt (b0 b1 b2 b3 : Byte) :
    ∀ v ∈ [b0.toNat, b1.toNat, b2.toNat, b3.toNat], v < 2 ^ 8 := by
  simpa using ⟨b0.isLt, b1.isLt, b2.isLt, b3.isLt⟩

theorem toNat_wordOf_pack (b0 b1 b2 b3 : Byte) : (wordOf b0 b1 b2 b3).toNat =
    pack ([b0.toNat, b1.toNat, b2.toNat, b3.toNat].map fun v => (8, v)) := by
  have hlt : pack ([b0.toNat, b1.toNat, b2.toNat, b3.toNat].map fun v => (8, v)) < 2 ^ 32 :=
    pack_lt (by simpa [Fit] using ⟨b0.isLt, b1.isLt, b2.isLt, b3.isLt⟩)
  rw [wordOf, BitVec.toNat_ofNat, Nat.mod_eq_of_lt hlt]

theorem toNat_wordOf (b0 b1 b2 b3 : Byte) : (wordOf b0 b1 b2 b3).toNat =
    b0.toNat + b1.toNat * 256 + b2.toNat * 65536 + b3.toNat * 16777216 := by
  rw [toNat_wordOf_pack]
  simp only [List.map_cons, List.map_nil]
  rw [pack_cons _ b0.isLt, pack_cons _ b1.isLt, pack_cons _ b2.isLt, pack_cons _ b3.isLt]
  simp only [pack]
  omega

/-- Each is read back from its place. -/
theorem wordByte_wordOf (b0 b1 b2 b3 : Byte) {j : Nat} (hj : j < 4) :
    wordByte (wordOf b0 b1 b2 b3) j = [b0, b1, b2, b3].getD j 0 := by
  have hcases : j = 0 ∨ j = 1 ∨ j = 2 ∨ j = 3 := by omega
  apply BitVec.eq_of_toNat_eq
  rw [toNat_wordByte, toNat_wordOf_pack]
  refine (digit_pack (bytes_lt b0 b1 b2 b3) j).trans ?_
  rcases hcases with rfl | rfl | rfl | rfl <;> rfl

theorem loadWord_eq (raw : Nat → Byte) (i : Nat) : loadWord raw i =
    wordOf (raw (4 * i)) (raw (4 * i + 1)) (raw (4 * i + 2)) (raw (4 * i + 3)) := by
  rw [loadWord, word4_eq]
  rfl

theorem swapHalves_wordOf (b0 b1 b2 b3 : Byte) :
    swapHalves (wordOf b0 b1 b2 b3) = wordOf b2 b3 b0 b1 := by
  have h0 := b0.isLt
  have h1 := b1.isLt
  have h2 := b2.isLt
  have h3 := b3.isLt
  have hhigh : (wordOf b0 b1 b2 b3).toNat / 2 ^ 16 = b2.toNat + b3.toNat * 256 := by
    rw [toNat_wordOf]
    omega
  have hlow : (wordOf b0 b1 b2 b3).toNat * 2 ^ 16 % 2 ^ 32 =
      (b0.toNat + b1.toNat * 256) * 2 ^ 16 := by
    rw [toNat_wordOf]
    omega
  apply BitVec.eq_of_toNat_eq
  rw [swapHalves, BitVec.toNat_or, BitVec.toNat_ushiftRight, BitVec.toNat_shiftLeft,
    Nat.shiftRight_eq_div_pow, Nat.shiftLeft_eq, hhigh, hlow, ← Nat.shiftLeft_eq,
    or_shiftLeft _ (by omega), toNat_wordOf]
  omega

/-- A byte in all four places. -/
theorem border_wordOf (b : Byte) : b.setWidth 32 * 0x01010101 = wordOf b b b b := by
  have hb := b.isLt
  have hmul : (0x01010101 : Unsigned).toNat = 16843009 := rfl
  apply BitVec.eq_of_toNat_eq
  rw [BitVec.toNat_mul, BitVec.toNat_setWidth_of_le (by decide), hmul, toNat_wordOf]
  omega

/-- Two pixels, each twice, the second one in the low half. -/
theorem doublePixels_eq (raw : Nat → Byte) (i : Nat) : doublePixels raw i =
    wordOf (raw (2 * i + 1)) (raw (2 * i + 1)) (raw (2 * i)) (raw (2 * i)) := by
  unfold doublePixels
  generalize raw (2 * i) = p, raw (2 * i + 1) = q
  have hp := p.isLt
  have hq := q.isLt
  have hfirst : (q.toNat * 2 ^ 8 + p.toNat) % 2 ^ 8 = p.toNat := by omega
  have hsecond : (q.toNat * 2 ^ 8 + p.toNat) / 2 ^ 8 % 2 ^ 8 = q.toNat := by omega
  have hdouble : p.toNat * (257 * 2 ^ 16) % 2 ^ 32 = (p.toNat * 257) * 2 ^ 16 := by
    rw [Nat.mod_eq_of_lt (by omega), Nat.mul_assoc]
  have hdouble' : q.toNat * 257 % 2 ^ 32 = q.toNat * 257 := Nat.mod_eq_of_lt (by omega)
  have hff : (0xFF : Unsigned).toNat = 2 ^ 8 - 1 := rfl
  have hlow : (0x0101 : Unsigned).toNat = 257 := rfl
  have hhigh : (0x01010000 : Unsigned).toNat = 257 * 2 ^ 16 := rfl
  have hpair : (p.setWidth 32 ||| (q.setWidth 32 <<< 8) : Unsigned).toNat =
      q.toNat * 2 ^ 8 + p.toNat := by
    rw [BitVec.toNat_or, BitVec.toNat_shiftLeft, BitVec.toNat_setWidth_of_le (by decide),
      BitVec.toNat_setWidth_of_le (by decide), ← or_shiftLeft _ hp, Nat.shiftLeft_eq,
      Nat.mod_eq_of_lt (by omega)]
  apply BitVec.eq_of_toNat_eq
  dsimp only
  rw [BitVec.toNat_or, BitVec.toNat_mul, BitVec.toNat_mul, BitVec.toNat_and, BitVec.toNat_and,
    BitVec.toNat_ushiftRight, hpair, hff, hlow, hhigh, Nat.and_two_pow_sub_one_eq_mod,
    Nat.and_two_pow_sub_one_eq_mod, Nat.shiftRight_eq_div_pow, toNat_wordOf]
  rw [hfirst, hsecond, hdouble, hdouble', ← Nat.shiftLeft_eq, or_shiftLeft _ (by omega)]
  omega

/-! ## The copies by the word and by the byte -/

/-- A loop over words leaves what a loop over columns does, when each word holds its columns
with the halves swapped. -/
theorem storeWords_columns {n : Nat} {word : Nat → Unsigned} (column : Nat → Byte)
    (h : ∀ i < n, word i = wordOf (column (4 * i + 2)) (column (4 * i + 3)) (column (4 * i))
      (column (4 * i + 1))) (row : Row) :
    storeWords n word row = storeColumns (4 * n) column row := by
  funext p
  rw [storeWords_apply, storeColumns_apply]
  have hplace : p ^^^ 2 < 4 * n ↔ p / 4 < n := by
    rw [xor_two_lt (Nat.mul_mod_right 4 n)]
    omega
  have hmod := Nat.mod_lt p (by decide : 0 < 4)
  have hcases : p % 4 = 0 ∨ p % 4 = 1 ∨ p % 4 = 2 ∨ p % 4 = 3 := by omega
  simp only [hplace]
  split
  next hp =>
    rw [h _ hp, wordByte_wordOf _ _ _ _ hmod, xor_two]
    rcases hcases with h | h | h | h <;> rw [h] <;> rfl
  next => rfl

/-- The copy by the word leaves the row of the copy by the byte. -/
theorem paintRaw_eq (aligned : Bool) {vpW width : Nat} (border : Byte) (raw : Nat → Byte)
    (row : Row) :
    paintRaw aligned vpW width border raw row =
      storeColumns vpW (lineColumn vpW width border raw) row := by
  unfold paintRaw
  dsimp only
  split
  next h =>
    obtain ⟨hwords, hwidth⟩ := h
    simp only [Bool.and_eq_true, beq_iff_eq] at hwords
    have hfour : 4 * (vpW / 4) = vpW := by omega
    rw [storeWords_columns (lineColumn vpW width border raw), hfour]
    intro i _
    rw [loadWord_eq, swapHalves_wordOf]
    simp only [lineColumn, hwidth, if_true]
  next hfull =>
  split
  next h =>
    obtain ⟨hwords, hwidth⟩ := h
    have hne : width ≠ vpW := fun heq => hfull ⟨hwords, heq⟩
    simp only [Bool.and_eq_true, beq_iff_eq] at hwords
    have hfour : 4 * (width / 2) = vpW := by omega
    rw [storeWords_columns (lineColumn vpW width border raw), hfour]
    intro i _
    rw [doublePixels_eq]
    simp only [lineColumn, if_neg hne, if_pos hwidth]
    congr 2 <;> omega
  next hdouble =>
  split
  next h =>
    obtain ⟨hwords, hless⟩ := h
    have hne : width ≠ vpW := fun heq => hfull ⟨hwords, heq⟩
    have hne' : ¬width * 2 = vpW := fun heq => hdouble ⟨hwords, heq⟩
    simp only [Bool.and_eq_true, beq_iff_eq, lineOffset, if_pos hless] at hwords ⊢
    have hfour : 4 * (vpW / 4) = vpW := by omega
    rw [storeWords_columns (lineColumn vpW width border raw), hfour]
    intro i _
    simp only [lineColumn, if_neg hne, if_neg hne', if_pos hless]
    generalize (vpW - width) / 2 = x at hwords ⊢
    split
    next hinside =>
      have hcol (j : Nat) (hj : j < 4) : x ≤ 4 * i + j ∧ 4 * i + j < x + width := by omega
      have hshift (j : Nat) (hj : j < 4) : 4 * (i - x / 4) + j = 4 * i + j - x := by omega
      rw [loadWord_eq, swapHalves_wordOf, if_pos (hcol 2 (by decide)), if_pos (hcol 3 (by decide)),
        if_pos (hcol 1 (by decide)), ← hshift 1 (by decide),
        ← hshift 2 (by decide), ← hshift 3 (by decide)]
      refine congrArg (wordOf _ _ · _) ((congrArg raw (hshift 0 (by decide))).trans ?_)
      exact (if_pos (hcol 0 (by decide))).symm
    next houtside =>
      have hcol (j : Nat) (hj : j < 4) : ¬(x ≤ 4 * i + j ∧ 4 * i + j < x + width) := by omega
      rw [border_wordOf, if_neg (hcol 2 (by decide)), if_neg (hcol 3 (by decide)),
        if_neg (hcol 1 (by decide))]
      exact congrArg (wordOf border border · border) (if_neg (hcol 0 (by decide))).symm
  next => rfl

/-- A line of at least one pixel shows its own pixels only. -/
theorem lineColumn_congr {vpW width : Nat} (border : Byte) {raw raw' : Nat → Byte}
    (hwidth : 0 < width) (h : ∀ k < width, raw k = raw' k) {x : Nat} (hx : x < vpW) :
    lineColumn vpW width border raw x = lineColumn vpW width border raw' x := by
  unfold lineColumn
  dsimp only
  split
  · exact h x (by omega)
  split
  · exact h (x / 2) (by omega)
  split
  · split
    · exact h _ (by omega)
    · rfl
  · refine h _ ((Nat.div_lt_iff_lt_mul (by omega)).mpr ?_)
    rw [Nat.mul_comm width]
    exact Nat.mul_lt_mul_of_pos_right hx hwidth

theorem storeColumns_congr {n : Nat} {column column' : Nat → Byte}
    (h : ∀ x < n, column x = column' x) (row : Row) :
    storeColumns n column row = storeColumns n column' row := by
  funext p
  rw [storeColumns_apply, storeColumns_apply]
  split
  next hp => exact h _ hp
  next => rfl

theorem storeColumns_again (n : Nat) (column : Nat → Byte) (row : Row) :
    storeColumns n column (storeColumns n column row) = storeColumns n column row := by
  funext p
  rw [storeColumns_apply]
  split
  next hp => rw [storeColumns_apply, if_pos hp]
  next => rfl

end

/-! ## The display -/

/-- What the display is made of: FabGL's byte of a colour, the chunks of the framebuffer that
`allocatePool` got, in units of 2560 bytes, and whether a row lies on a word. -/
structure Panel where
  rawPixel : Rgb222 → Byte
  units : Nat
  aligned : Nat → Bool

/-- The state of the HAL's display and its rows; -1 in `s_border_row` is `none`. -/
structure Display where
  available : Bool := true
  tall : Bool := false
  tallVotes : Nat := 0
  borderRow : Nat → Option Byte := fun _ => none
  rows : Nat → Row

/-- `getViewPortWidth`. -/
def Display.width (d : Display) : Nat := if d.tall = true then 512 else 640

/-- `getViewPortHeight`: the rows of the layout, or fewer if the pool came up short. -/
def Display.height (d : Display) (p : Panel) : Nat :=
  if d.tall = true then min 240 (5 * p.units) else min 200 (4 * p.units)

/-- A line into its row, by what is done to the row. -/
def Display.putLine (d : Display) (p : Panel) (line totalLines : Int) (draw : Nat → Row → Row) :
    Display :=
  let y := gimeDisplayY line totalLines (d.height p)
  if y < 0 then d
  else
    { d with
      borderRow := Function.update d.borderRow y.toNat none
      rows := Function.update d.rows y.toNat (draw y.toNat (d.rows y.toNat)) }

/-- `hal_video_render_scanline_gime_raw`. -/
def Display.renderScanlineGimeRaw (d : Display) (p : Panel) (luts : RawLuts)
    (line totalLines : Int) (borderColour : Byte) (drawn : Rendered Byte) : Display :=
  if d.available = false ∨ drawn.lineWidth = 0 then d
  else
    d.putLine p line totalLines fun y =>
      paintRaw (p.aligned y) d.width drawn.lineWidth (luts.raw (borderColour &&& 0x3F).toNat)
        (drawn.pixels.getD · 0)

/-- `hal_video_render_scanline_gime`. -/
def Display.renderScanlineGime (d : Display) (p : Panel) (luts : RawLuts)
    (line totalLines : Int) (borderColour : Byte) (drawn : Rendered Word) : Display :=
  if d.available = false ∨ drawn.lineWidth = 0 then d
  else
    d.putLine p line totalLines fun _ =>
      storeColumns d.width (lineColumn d.width drawn.lineWidth
        (luts.raw (borderColour &&& 0x3F).toNat)
        fun k => pixelRawLut p.rawPixel (drawn.pixels.getD k 0))

/-- `hal_video_render_border_gime`. -/
def Display.renderBorderGime (d : Display) (p : Panel) (luts : RawLuts) (line : Int)
    (totalLines : Int) (borderColour : Byte) : Display :=
  let vpH : Int := d.height p
  if d.available = false then d
  else if vpH ≤ totalLines ∨ 256 < vpH then d
  else
    let y := line + (vpH - totalLines).tdiv 2
    if y < 0 ∨ vpH ≤ y then d
    else
      let b := luts.raw (borderColour &&& 0x3F).toNat
      if d.borderRow y.toNat = some b then d
      else
        { d with
          borderRow := Function.update d.borderRow y.toNat (some b)
          rows := Function.update d.rows y.toNat fun x =>
            if x < d.width then b else d.rows y.toNat x }

/-- `border_rows_invalidate`. -/
def Display.borderRowsInvalidate (d : Display) : Display := { d with borderRow := fun _ => none }

/-- The framebuffer in the other layout comes back black. -/
def Display.setResolution (d : Display) (p : Panel) (tall : Bool) : Display :=
  { d with
    tall
    tallVotes := 0
    borderRow := fun _ => none
    rows := fun _ _ => p.rawPixel ⟨0, 0, 0⟩ }

end CocoEmulator.Video
