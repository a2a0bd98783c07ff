/-
  Video/ScanlineAgree.lean --- the renderers of a mode against the reference renderer.

  The reference renderer takes the bytes of a line off a pair cache, one after the other.
  What it takes off is the array that the renderers of a mode read (`fetch_spec`), and
  each of them draws a byte as the reference renderer does (`renderLine_cells`).

      drawLine_legacy    with the geometry of a run the two draw the same line
      renderers_agree    so they do on every line of every run
-/
import CocoEmulator.Video.LineGeometry

set_option autoImplicit false

namespace CocoEmulator.Video

open CocoEmulator.Base CocoEmulator.Gime CocoEmulator.Machine

/-! ## The bytes of a line -/

/-- Byte `k` of a line: the window of 256 bytes wraps, and so does the bank. -/
def lineByte (g : Tcc1014) (ram : Unsigned → Byte) (k : Nat) : Byte :=
  vram g ram ((g.b + BitVec.ofNat 32 ((startX g + k) &&& 0xFF)) &&& g.vramMask)

/-- In a bank the address wraps after the sum as it does after each term. -/
theorem and_mask_add {mask : Unsigned} {m : Nat} (hm : m < 32) (hmask : mask.toNat + 1 = 2 ^ m)
    (a c : Unsigned) :
    ((a &&& mask) + c) &&& mask = (a + c) &&& mask := by
  have hmod (x : Unsigned) : (x &&& mask).toNat = x.toNat % 2 ^ m := by
    rw [BitVec.toNat_and, Nat.eq_sub_of_add_eq hmask, Nat.and_two_pow_sub_one_eq_mod]
  have hdvd : 2 ^ m ∣ 2 ^ 32 := Nat.pow_dvd_pow 2 hm.le
  apply BitVec.eq_of_toNat_eq
  rw [hmod, hmod, BitVec.toNat_add, BitVec.toNat_add, hmod, Nat.mod_mod_of_dvd _ hdvd,
    Nat.mod_mod_of_dvd _ hdvd, Nat.mod_add_mod]

/-- An address inside the bank does not wrap. -/
theorem and_mask_of_lt {mask : Unsigned} {m : Nat} (hmask : mask.toNat + 1 = 2 ^ m) {a : Unsigned}
    (h : a.toNat < 2 ^ m) : a &&& mask = a := by
  apply BitVec.eq_of_toNat_eq
  rw [BitVec.toNat_and, Nat.eq_sub_of_add_eq hmask, Nat.and_two_pow_sub_one_eq_mod,
    Nat.mod_eq_of_lt h]

section

variable {g : Tcc1014} {ram : Unsigned → Byte}

/-- The pointer into RAM and the staged copy hold the bytes of the line. -/
theorem fetchLineBytes_eq (hfit : LineFit g) {n k : Nat} (hn : n ≤ 256) (hk : k < n) :
    fetchLineBytes g ram n k = lineByte g ram k := by
  obtain ⟨m, hm, hmask⟩ := hfit.bank
  unfold fetchLineBytes
  dsimp only
  split
  next hflat =>
    obtain ⟨hwindow, hbank⟩ := hflat
    have hx : (startX g + k) &&& 0xFF = startX g + k := by
      rw [Nat.and_two_pow_sub_one_eq_mod _ 8, Nat.mod_eq_of_lt (by omega)]
    have hpow : 2 ^ m ≤ 2 ^ 31 := Nat.pow_le_pow_right Nat.two_pos (by omega)
    have hlt : ((g.b + BitVec.ofNat 32 (startX g)) &&& g.vramMask).toNat < 2 ^ m := by
      rw [← hmask, BitVec.toNat_and]
      exact Nat.lt_succ_of_le Nat.and_le_right
    have hsum : g.b + BitVec.ofNat 32 (startX g + k) =
        g.b + BitVec.ofNat 32 (startX g) + BitVec.ofNat 32 k := by
      rw [BitVec.ofNat_add, BitVec.add_assoc]
    unfold lineByte
    rw [hx, hsum, ← and_mask_add hm hmask (g.b + BitVec.ofNat 32 (startX g))]
    generalize (g.b + BitVec.ofNat 32 (startX g)) &&& g.vramMask = a at hlt hbank ⊢
    have hend : a.toNat + n ≤ 2 ^ m := by
      have hone : (1 : Unsigned).toNat = 1 := rfl
      rw [BitVec.le_def, BitVec.toNat_add, BitVec.toNat_add, BitVec.toNat_ofNat, hone,
        hmask] at hbank
      omega
    rw [and_mask_of_lt hmask]
    rw [BitVec.toNat_add, BitVec.toNat_ofNat]
    omega
  next => rfl

/-- The odd byte of a pair is the next byte of the line. -/
theorem lineByte_pair (hfit : LineFit g) {k : Nat} (hk : k % 2 = 0) :
    vram g ram ((((g.b + BitVec.ofNat 32 ((startX g + k) &&& 0xFF)) &&& g.vramMask) + 1) &&&
      g.vramMask) = lineByte g ram (k + 1) := by
  obtain ⟨m, hm, hmask⟩ := hfit.bank
  have hx : startX g % 2 = 0 := by
    unfold startX
    split
    · rfl
    · exact hfit.even
  have hnext : (startX g + (k + 1)) &&& 0xFF = ((startX g + k) &&& 0xFF) + 1 := by
    rw [Nat.and_two_pow_sub_one_eq_mod _ 8, Nat.and_two_pow_sub_one_eq_mod _ 8]
    omega
  unfold lineByte
  rw [hnext, and_mask_add hm hmask, BitVec.ofNat_add, BitVec.add_assoc]
  rfl

/-- Byte `k` as the reference renderer comes to see it. -/
def seenByte (zeroed : Bool) (g : Tcc1014) (ram : Unsigned → Byte) (k : Nat) : Byte :=
  if zeroed = true ∧ k % 2 = 1 then 0 else lineByte g ram k

/-- `k` bytes are fetched; the odd ones may be zeroed in the cache. -/
structure FetchedTo (zeroed : Bool) (g : Tcc1014) (ram : Unsigned → Byte) (k : Nat)
    (f : PairFetch) : Prop where
  xoff : f.xoff = startX g + 2 * ((k + 1) / 2)
  cached : f.haveVdataCache = decide (k % 2 = 1)
  cache : k % 2 = 1 → f.vdataCache = seenByte zeroed g ram k

/-- The pair cache delivers the bytes of the line in order. -/
theorem fetch_spec (hfit : LineFit g) {zeroed : Bool} {k : Nat} {f : PairFetch}
    (h : FetchedTo zeroed g ram k f) :
    (fetchByteVram g ram f).1 = seenByte zeroed g ram k ∧
      FetchedTo false g ram (k + 1) (fetchByteVram g ram f).2 := by
  unfold fetchByteVram
  dsimp only
  split
  next hcached =>
    have hodd : k % 2 = 1 := of_decide_eq_true (h.cached.symm.trans hcached)
    refine ⟨h.cache hodd, ?_, ?_, ?_⟩
    · change f.xoff = _
      rw [h.xoff]
      omega
    · exact (decide_eq_false (by omega)).symm
    · omega
  next hempty =>
    have heven : k % 2 = 0 := by
      have hne : ¬k % 2 = 1 := fun hodd => hempty (h.cached.trans (decide_eq_true hodd))
      omega
    have hoff : f.xoff = startX g + k := by
      rw [h.xoff]
      omega
    rw [hoff]
    refine ⟨?_, ?_, ?_, ?_⟩
    · unfold seenByte
      rw [if_neg (by omega)]
      rfl
    · change startX g + k + 2 = _
      omega
    · exact (decide_eq_true (by omega)).symm
    · intro _
      unfold seenByte
      rw [if_neg (by simp)]
      exact lineByte_pair hfit heven

/-- Zeroing the cache shows the odd byte as zero. -/
theorem FetchedTo.zero {k : Nat} {f : PairFetch} (h : FetchedTo false g ram k f) :
    FetchedTo true g ram k { f with vdataCache := 0 } := by
  refine ⟨h.xoff, h.cached, ?_⟩
  intro hodd
  unfold seenByte
  rw [if_pos ⟨rfl, hodd⟩]

theorem fetchedTo_start (zeroed : Bool) (g : Tcc1014) (ram : Unsigned → Byte) :
    FetchedTo zeroed g ram 0 { xoff := startX g } :=
  ⟨rfl, rfl, fun h => absurd h (by decide)⟩

end

/-! ## A nibble at a time -/

/-- The fields of the low nibble, moved up, are those of the byte. -/
theorem low_fields (v : Byte) :
    (((v <<< 4) >>> 7) &&& 1).toNat = ((v >>> 3) &&& 1).toNat ∧
      (((v <<< 4) >>> 6) &&& 1).toNat = ((v >>> 2) &&& 1).toNat ∧
      (((v <<< 4) >>> 5) &&& 1).toNat = ((v >>> 1) &&& 1).toNat ∧
      (((v <<< 4) >>> 4) &&& 1).toNat = (v &&& 1).toNat ∧
      (((v <<< 4) >>> 6) &&& 3).toNat = ((v >>> 2) &&& 3).toNat ∧
      (((v <<< 4) >>> 4) &&& 3).toNat = (v &&& 3).toNat ∧
      (((v <<< 4) >>> 4) &&& 15).toNat = (v &&& 15).toNat ∧
      ((v >>> 4) &&& 15).toNat = (v >>> 4).toNat := by
  have h1 : (1 : Byte).toNat = 2 ^ 1 - 1 := rfl
  have h3 : (3 : Byte).toNat = 2 ^ 2 - 1 := rfl
  have h15 : (15 : Byte).toNat = 2 ^ 4 - 1 := rfl
  simp only [BitVec.toNat_and, BitVec.toNat_ushiftRight, BitVec.toNat_shiftLeft, h1, h3, h15,
    Nat.and_two_pow_sub_one_eq_mod, Nat.shiftRight_eq_div_pow, Nat.shiftLeft_eq]
  omega

section

variable {P : Type}

theorem bits4_low (v : Byte) (fg bg : P) :
    bits4 (v <<< 4) fg bg =
      (if bit v 3 = true then fg else bg, if bit v 2 = true then fg else bg,
        if bit v 1 = true then fg else bg, if bit v 0 = true then fg else bg) := by
  simp [bits4, bit]

/-- Up to 3 both expansions are the same. -/
theorem expand_eq {res : Nat} (hres : res < 4) (c0 c1 c2 c3 : P) :
    expand res (c0, c1, c2, c3) = emit4 (res &&& 3) c0 c1 c2 c3 := by
  have hcases : res = 0 ∨ res = 1 ∨ res = 2 ∨ res = 3 := by omega
  rcases hcases with rfl | rfl | rfl | rfl <;> rfl

theorem length_expand {res : Nat} (hres : res < 4) (colours : P × P × P × P) :
    (expand res colours).length * 2 = 32 >>> res := by
  obtain ⟨c0, c1, c2, c3⟩ := colours
  have hcases : res = 0 ∨ res = 1 ∨ res = 2 ∨ res = 3 := by omega
  rcases hcases with rfl | rfl | rfl | rfl <;> simp [expand]

theorem width_pos {res : Nat} (hres : res < 4) : 0 < 32 >>> res := by
  have hcases : res = 0 ∨ res = 1 ∨ res = 2 ∨ res = 3 := by omega
  rcases hcases with rfl | rfl | rfl | rfl <;> decide

/-- The pixels of a cell: two nibbles. -/
def cellPixels (g : Tcc1014) (pal : Nat → P) (c : Cell) : List P :=
  let high := legacyNibble g pal c
  let low := legacyNibble g pal { c with gdata := high.2 }
  expand g.resolution high.1 ++ expand g.resolution low.1

theorem length_cellPixels {g : Tcc1014} (hres : g.resolution < 4) (pal : Nat → P) (c : Cell) :
    (cellPixels g pal c).length = 32 >>> g.resolution := by
  unfold cellPixels
  dsimp only
  have hhigh := length_expand hres (legacyNibble g pal c).1
  have hlow := length_expand hres
    (legacyNibble g pal { c with gdata := (legacyNibble g pal c).2 }).1
  rw [List.length_append]
  omega

variable {g : Tcc1014} {pal : Nat → P}

/-- The pixels of a cell, given what its mode makes of a nibble. -/
theorem cellPixels_of_nibble (hres : g.resolution < 4) {c : Cell}
    {c0 c1 c2 c3 : Byte → P} {next : Byte → Byte}
    (hnibble : ∀ gdata, legacyNibble g pal { c with gdata } =
      ((c0 gdata, c1 gdata, c2 gdata, c3 gdata), next gdata)) :
    cellPixels g pal c =
      emit4 (g.resolution &&& 3) (c0 c.gdata) (c1 c.gdata) (c2 c.gdata) (c3 c.gdata) ++
        emit4 (g.resolution &&& 3) (c0 (next c.gdata)) (c1 (next c.gdata)) (c2 (next c.gdata))
          (c3 (next c.gdata)) := by
  have hhigh : legacyNibble g pal c = _ := hnibble c.gdata
  unfold cellPixels
  dsimp only
  rw [hhigh, hnibble, expand_eq hres, expand_eq hres]

/-- Two-colour pixels. -/
theorem cellPixels_bits (hres : g.resolution < 4) {c : Cell}
    (hbits : ∀ gdata, legacyNibble g pal { c with gdata } =
      (bits4 gdata (pal c.fgColour) (pal c.bgColour), gdata <<< 4)) :
    cellPixels g pal c =
      emitBits8 (g.resolution &&& 3) c.gdata (pal c.fgColour) (pal c.bgColour) := by
  have hlow := bits4_low c.gdata (pal c.fgColour) (pal c.bgColour)
  simp only [bits4, Prod.mk.injEq] at hlow
  rw [cellPixels_of_nibble hres hbits, hlow.1, hlow.2.1, hlow.2.2.1, hlow.2.2.2]
  rfl

/-- The cell that byte `k` of the line, or pair `k` of bytes, makes. -/
def seenCell (g : Tcc1014) (font : Nat → Byte) (ram : Unsigned → Byte) (k : Nat) : Cell :=
  if g.coco = true then cocoCell g font (lineByte g ram k)
  else if g.bp = true then { gdata := seenByte (zeroesSecond g) g ram k, renderMode := .rg }
  else if bit g.cres 0 = true then
    attrCell g (font ((lineByte g ram (2 * k) &&& 0x7F).toNat * 12 + nativeFontRow g))
      (lineByte g ram (2 * k + 1))
  else
    { gdata := font ((lineByte g ram k &&& 0x7F).toNat * 12 + nativeFontRow g)
      fgColour := 1
      bgColour := 0
      renderMode := .rg }

/-- Odd bytes are zeroed on this line. -/
def zeroedLine (g : Tcc1014) : Bool := !g.coco && g.bp && zeroesSecond g

/-- The bytes of a cell. -/
def cellBytes (g : Tcc1014) : Nat := if attrText g = true then 2 else 1

/-- A cell is what its bytes make, and the fetch goes on after them. -/
theorem legacyCell_spec (hfit : LineFit g) (font : Nat → Byte) {ram : Unsigned → Byte}
    {k : Nat} {f : PairFetch} (h : FetchedTo (zeroedLine g) g ram (cellBytes g * k) f) :
    (legacyCell g font ram f).1 = seenCell g font ram k ∧
      FetchedTo (zeroedLine g) g ram (cellBytes g * (k + 1)) (legacyCell g font ram f).2 := by
  have hseen (k : Nat) : seenByte false g ram k = lineByte g ram k := if_neg (by simp)
  unfold legacyCell seenCell
  cases hcoco : g.coco with
  | true =>
    have hzero : zeroedLine g = false := by simp [zeroedLine, hcoco]
    have hone : cellBytes g = 1 := by simp [cellBytes, attrText, hcoco]
    rw [hzero, hone, Nat.one_mul] at h ⊢
    obtain ⟨hbyte, hnext⟩ := fetch_spec hfit h
    rw [hseen] at hbyte
    simpa [hbyte] using hnext
  | false =>
    cases hbp : g.bp with
    | true =>
      have hzero : zeroedLine g = zeroesSecond g := by simp [zeroedLine, hcoco, hbp]
      have hone : cellBytes g = 1 := by simp [cellBytes, attrText, hbp]
      rw [hzero, hone, Nat.one_mul] at h ⊢
      obtain ⟨hbyte, hnext⟩ := fetch_spec hfit h
      cases hzeroes : zeroesSecond g with
      | true =>
        rw [hzeroes] at hbyte
        simpa [hbyte] using hnext.zero
      | false =>
        rw [hzeroes] at hbyte
        simpa [hbyte] using hnext
    | false =>
      have hzero : zeroedLine g = false := by simp [zeroedLine, hbp]
      cases hattr : bit g.cres 0 with
      | true =>
        have htwo : cellBytes g = 2 := by simp [cellBytes, attrText, hcoco, hbp, hattr]
        rw [hzero, htwo] at h ⊢
        obtain ⟨hbyte, hsecond⟩ := fetch_spec hfit h
        obtain ⟨hbyte', hnext⟩ := fetch_spec hfit hsecond
        rw [hseen] at hbyte hbyte'
        simpa [hbyte, hbyte', Nat.mul_add] using hnext
      | false =>
        have hone : cellBytes g = 1 := by
          simp only [cellBytes, attrText, hattr, Bool.and_false, Bool.false_eq_true, if_false]
        rw [hzero, hone, Nat.one_mul] at h ⊢
        obtain ⟨hbyte, hnext⟩ := fetch_spec hfit h
        rw [hseen] at hbyte
        simpa [hbyte] using hnext

/-- The loop draws the cells one after the other; where it leaves off, no cell is left. -/
theorem legacyBytes_eq (hfit : LineFit g) (font : Nat → Byte) (ram : Unsigned → Byte)
    (pal : Nat → P) (left : Nat) {k : Nat} {f : PairFetch} {pixels : List P}
    (h : FetchedTo (zeroedLine g) g ram (cellBytes g * k) f)
    (hlength : pixels.length = k * (32 >>> g.resolution))
    (hroom : (k + left) * (32 >>> g.resolution) ≤ 640) :
    legacyBytes g font ram pal left f pixels =
      pixels ++ (List.range' k left).flatMap fun j => cellPixels g pal (seenCell g font ram j) := by
  induction left generalizing k f pixels with
  | zero => simp [legacyBytes]
  | succ left ih =>
    obtain ⟨hcell, hnext⟩ := legacyCell_spec hfit font h
    have hhigh := length_expand hfit.resolution (legacyNibble g pal (seenCell g font ram k)).1
    have hwhole := length_cellPixels hfit.resolution pal (seenCell g font ram k)
    have hpos := width_pos hfit.resolution
    have hroom' : (k + 1 + left) * (32 >>> g.resolution) ≤ 640 := by
      rw [Nat.add_right_comm, Nat.add_assoc]
      exact hroom
    have hmul : (k + 1 + left) * (32 >>> g.resolution) = k * (32 >>> g.resolution) +
        32 >>> g.resolution + left * (32 >>> g.resolution) := by
      rw [Nat.add_mul, Nat.add_mul, Nat.one_mul]
    have hlength' : (pixels ++ cellPixels g pal (seenCell g font ram k)).length =
        (k + 1) * (32 >>> g.resolution) := by
      rw [List.length_append, hlength, hwhole, Nat.add_mul, Nat.one_mul]
    have hrest := ih hnext hlength' hroom'
    rw [List.range'_succ, List.flatMap_cons, ← List.append_assoc]
    unfold legacyBytes
    dsimp only
    rw [hcell, if_neg (by rw [List.length_append]; omega), List.append_assoc]
    change (if 640 ≤ (pixels ++ cellPixels g pal (seenCell g font ram k)).length then
        pixels ++ cellPixels g pal (seenCell g font ram k) else _) = _
    split
    next hfull =>
      have hlast : left = 0 := by
        rw [hlength', Nat.add_mul, Nat.one_mul] at hfull
        have hnone : left * (32 >>> g.resolution) = 0 := by omega
        exact (Nat.mul_eq_zero.mp hnone).resolve_right (Nat.ne_of_gt hpos)
      rw [hlast]
      exact (List.append_nil _).symm
    next => exact hrest

/-! ## The renderers of a mode, byte by byte -/

/-- A byte of colour graphics. -/
theorem cell_cg (hres : g.resolution < 4) (hcoco : g.coco = true) (hgna : g.vdg.gna = true)
    (hgm0 : g.vdg.gm0 = false) (font : Nat → Byte) (v : Byte) :
    cellPixels g pal (cocoCell g font v) =
      (let cg (i : Nat) := pal (graphicsBase g.vdg.css + i)
      let a := cg ((v >>> 6) &&& 3).toNat
      let b := cg ((v >>> 4) &&& 3).toNat
      let c := cg ((v >>> 2) &&& 3).toNat
      let e := cg (v &&& 3).toNat
      emit4 (g.resolution &&& 3) a a b b ++ emit4 (g.resolution &&& 3) c c e e) := by
  obtain ⟨-, -, -, -, hc, he, -, -⟩ := low_fields v
  have hgdata : (cocoCell g font v).gdata = v := by simp only [cocoCell, hgna, if_true]
  have hnibble (gdata : Byte) :
      legacyNibble g pal { cocoCell g font v with gdata } =
        ((pal (graphicsBase g.vdg.css + ((gdata >>> 6) &&& 3).toNat),
            pal (graphicsBase g.vdg.css + ((gdata >>> 6) &&& 3).toNat),
            pal (graphicsBase g.vdg.css + ((gdata >>> 4) &&& 3).toNat),
            pal (graphicsBase g.vdg.css + ((gdata >>> 4) &&& 3).toNat)),
          gdata <<< 4) := by
    simp only [legacyNibble, hcoco, cocoCell, hgna, hgm0, if_true, Bool.false_eq_true, if_false]
  rw [cellPixels_of_nibble hres hnibble]
  simp only [hgdata, hc, he]

/-- A byte of two-colour graphics. -/
theorem cell_rg (hres : g.resolution < 4) (hcoco : g.coco = true) (hgna : g.vdg.gna = true)
    (hgm0 : g.vdg.gm0 = true) (hfine : g.resolution ≠ 0 ∨ allModeBits g = true)
    (font : Nat → Byte) (v : Byte) :
    cellPixels g pal (cocoCell g font v) =
      emitBits8 (g.resolution &&& 3) v (pal (graphicsFg g.vdg.css))
        (pal (graphicsBg g.vdg.css)) := by
  have hcell : cocoCell g font v =
      { gdata := v
        fgColour := graphicsFg g.vdg.css
        bgColour := graphicsBg g.vdg.css
        cgColours := graphicsBase g.vdg.css
        renderMode := .rg } := by
    simp only [cocoCell, hgna, hgm0, if_true, if_pos hfine]
  rw [hcell, cellPixels_bits hres fun gdata => by simp only [legacyNibble, hcoco, if_true]]

/-- A byte of two-colour graphics at half the resolution. -/
theorem cell_rg2 (hres : g.resolution < 4) (hcoco : g.coco = true) (hgna : g.vdg.gna = true)
    (hgm0 : g.vdg.gm0 = true) (hcoarse : ¬(g.resolution ≠ 0 ∨ allModeBits g = true))
    (font : Nat → Byte) (v : Byte) :
    cellPixels g pal (cocoCell g font v) =
      (let fg := pal (graphicsFg g.vdg.css)
      let bg := pal (graphicsBg g.vdg.css)
      let a := if bit v 6 = true then fg else bg
      let b := if bit v 4 = true then fg else bg
      let c := if bit v 2 = true then fg else bg
      let e := if bit v 0 = true then fg else bg
      emit4 (g.resolution &&& 3) a a b b ++ emit4 (g.resolution &&& 3) c c e e) := by
  have hcell : cocoCell g font v =
      { gdata := v
        fgColour := graphicsFg g.vdg.css
        bgColour := graphicsBg g.vdg.css
        cgColours := graphicsBase g.vdg.css
        renderMode := .rg2 } := by
    simp only [cocoCell, hgna, hgm0, if_true, if_neg hcoarse]
  have hlow := bits4_low v (pal (graphicsFg g.vdg.css)) (pal (graphicsBg g.vdg.css))
  simp only [bits4, Prod.mk.injEq] at hlow
  rw [hcell, cellPixels_of_nibble hres fun gdata => by
    simp only [legacyNibble, hcoco, if_true]
    exact rfl]
  simp only [hlow.2.1, hlow.2.2.2]

/-- A byte of semigraphics. -/
theorem cell_sg (hres : g.resolution < 4) (hcoco : g.coco = true) (hgna : g.vdg.gna = false)
    (font : Nat → Byte) {v : Byte} (hsna : bit v 7 = true) :
    cellPixels g pal (cocoCell g font v) =
      (let gd := if g.row &&& 0x0F < 6 then v >>> 2 else v
      let sfg := pal ((v >>> 4) &&& 7).toNat
      let a := if bit gd 1 = true then sfg else pal Slot.rgcss00.index
      let b := if bit gd 0 = true then sfg else pal Slot.rgcss00.index
      emit4 (g.resolution &&& 3) a a a a ++ emit4 (g.resolution &&& 3) b b b b) := by
  have hcell : cocoCell g font v =
      { gdata := if g.row &&& 0x0F < 6 then v >>> 2 else v
        fgColour := ((v >>> 4) &&& 7).toNat
        bgColour := Slot.rgcss00.index
        renderMode := .sg } := by
    simp only [cocoCell, hgna, hsna, if_true, Bool.false_eq_true, if_false]
  have hshift (gd : Byte) : bit (gd <<< 1) 1 = bit gd 0 := by simp [bit]
  rw [hcell, cellPixels_of_nibble hres fun gdata => by
    simp only [legacyNibble, hcoco, if_true]
    exact rfl]
  simp only [hshift]

/-- A character of VDG text. -/
theorem cell_text (hres : g.resolution < 4) (hcoco : g.coco = true) (hgna : g.vdg.gna = false)
    (font : Nat → Byte) {v : Byte} (hsna : bit v 7 = false) :
    cellPixels g pal (cocoCell g font v) =
      (let inv := bit v 6
      let inv := if (v &&& 0x7F).toNat < 0x20 then inv ^^ g.vdg.gm0 else inv
      let gd := font ((g.row &&& 0x0F) + cocoChar g.vdg.gm0 v * 12)
      emitBits8 (g.resolution &&& 3)
        (if (inv ^^ (g.vdg.gm1 ^^ g.invertedText)) = true then ~~~gd else gd)
        (pal (textFg g.vdg.css)) (pal (textBg g.vdg.css))) := by
  have hinv : ((if (v &&& 0x7F).toNat < 0x20 then (bit v 6 ^^ g.vdg.gm1) ^^ g.vdg.gm0
        else bit v 6 ^^ g.vdg.gm1) ^^ g.invertedText) =
      ((if (v &&& 0x7F).toNat < 0x20 then bit v 6 ^^ g.vdg.gm0 else bit v 6) ^^
        (g.vdg.gm1 ^^ g.invertedText)) := by
    split
    · rw [Bool.xor_right_comm (bit v 6) g.vdg.gm1 g.vdg.gm0, Bool.xor_assoc]
    · rw [Bool.xor_assoc]
  rw [cellPixels_bits hres fun gdata => by
    simp only [legacyNibble, hcoco, cocoCell, hgna, hsna, if_true, Bool.false_eq_true, if_false]]
  simp only [cocoCell, hgna, hsna, Bool.false_eq_true, if_false, hinv,
    Nat.add_comm (g.row &&& 0x0F)]

/-- A byte of native graphics. -/
theorem cell_gfx (hres : g.resolution < 4) (hcoco : g.coco = false) (hbp : g.bp = true)
    (v : Byte) :
    cellPixels g pal { gdata := v, renderMode := .rg } =
      (if g.cres.toNat = 0 then
        emit4 (g.resolution &&& 3) (pal ((v >>> 7) &&& 1).toNat) (pal ((v >>> 6) &&& 1).toNat)
            (pal ((v >>> 5) &&& 1).toNat) (pal ((v >>> 4) &&& 1).toNat) ++
          emit4 (g.resolution &&& 3) (pal ((v >>> 3) &&& 1).toNat) (pal ((v >>> 2) &&& 1).toNat)
            (pal ((v >>> 1) &&& 1).toNat) (pal (v &&& 1).toNat)
      else if g.cres.toNat = 1 then
        let a := pal ((v >>> 6) &&& 3).toNat
        let b := pal ((v >>> 4) &&& 3).toNat
        let c := pal ((v >>> 2) &&& 3).toNat
        let e := pal (v &&& 3).toNat
        emit4 (g.resolution &&& 3) a a b b ++ emit4 (g.resolution &&& 3) c c e e
      else
        let a := pal (v >>> 4).toNat
        let b := pal (v &&& 15).toNat
        emit4 (g.resolution &&& 3) a a a a ++ emit4 (g.resolution &&& 3) b b b b) := by
  obtain ⟨h7, h6, h5, h4, hc, he, hb, ha⟩ := low_fields v
  have hdepth : g.cres.toNat = 0 ∨ g.cres.toNat = 1 ∨ g.cres.toNat = 2 ∨ g.cres.toNat = 3 := by
    have := g.cres.isLt
    omega
  rcases hdepth with hcres | hcres | hcres | hcres
  · rw [cellPixels_of_nibble hres fun gdata => by
      simp only [legacyNibble, hcoco, hbp, hcres, if_true, Bool.false_eq_true, if_false]
      exact rfl, hcres]
    simp only [h7, h6, h5, h4, if_true]
  · rw [cellPixels_of_nibble hres fun gdata => by
      simp only [legacyNibble, hcoco, hbp, hcres, if_true, Bool.false_eq_true, if_false]
      exact rfl, hcres]
    simp only [hc, he, if_true, Nat.one_ne_zero, if_false]
  · rw [cellPixels_of_nibble hres fun gdata => by
      simp only [legacyNibble, hcoco, hbp, hcres, if_true, Bool.false_eq_true, if_false]
      exact rfl, hcres]
    simp only [ha, hb, Nat.reduceEqDiff, if_false]
  · rw [cellPixels_of_nibble hres fun gdata => by
      simp only [legacyNibble, hcoco, hbp, hcres, if_true, Bool.false_eq_true, if_false]
      exact rfl, hcres]
    simp only [ha, hb, Nat.reduceEqDiff, if_false]

/-- A character of native text. -/
theorem cell_native (hres : g.resolution < 4) (hcoco : g.coco = false) (hbp : g.bp = false)
    (c : Cell) :
    cellPixels g pal c =
      emitBits8 (g.resolution &&& 3) c.gdata (pal c.fgColour) (pal c.bgColour) :=
  cellPixels_bits hres fun gdata => by
    simp only [legacyNibble, hcoco, hbp, Bool.false_eq_true, if_false]

theorem eachByte_congr {n : Nat} {draw draw' : Nat → List P} (h : ∀ k < n, draw k = draw' k) :
    eachByte n draw = eachByte n draw' :=
  List.flatMap_congr fun k hk => h k (List.mem_range.mp hk)

theorem seenByte_eq (zeroed : Bool) (g : Tcc1014) (ram : Unsigned → Byte) (k : Nat) :
    seenByte zeroed g ram k =
      (if zeroed = true then zeroSecond (lineByte g ram) else lineByte g ram) k := by
  unfold seenByte
  cases zeroed with
  | true =>
    have hparity : k % 2 = 1 ↔ k &&& 1 ≠ 0 := by
      rw [Nat.and_one_is_mod]
      omega
    simp only [zeroSecond, hparity, true_and, if_true]
  | false => simp

/-- On a line without artifacts the line renderer draws the cells one after the other. -/
theorem renderLine_cells (hfit : LineFit g) {s : Statics} (hoff : s.artifacts = 0)
    (font : Nat → Byte) (ram : Unsigned → Byte) (pal : Nat → P) (n : Nat)
    (toPixel : Nat → P) :
    (renderLine s g font (lineByte g ram) pal n toPixel).2 =
      eachByte n fun k => cellPixels g pal (seenCell g font ram k) := by
  have hplain : artifactLine s g = false := by simp [artifactLine, hoff]
  have hres := hfit.resolution
  unfold renderLine
  dsimp only
  rw [hplain]
  cases hcoco : g.coco with
  | true =>
    have hcell (k : Nat) : seenCell g font ram k = cocoCell g font (lineByte g ram k) :=
      if_pos hcoco
    simp only [hcell, if_true, Bool.false_eq_true, if_false]
    cases hgna : g.vdg.gna with
    | true =>
      cases hgm0 : g.vdg.gm0 with
      | false => exact eachByte_congr fun k _ => (cell_cg hres hcoco hgna hgm0 font _).symm
      | true =>
        simp only [if_true, Bool.true_eq_false, if_false]
        split
        next hfine =>
          exact eachByte_congr fun k _ => (cell_rg hres hcoco hgna hgm0 hfine font _).symm
        next hcoarse =>
          exact eachByte_congr fun k _ => (cell_rg2 hres hcoco hgna hgm0 hcoarse font _).symm
    | false =>
      refine eachByte_congr fun k _ => ?_
      dsimp only
      split
      next hsna => exact (cell_sg hres hcoco hgna font hsna).symm
      next hsna =>
        exact (cell_text hres hcoco hgna font (Bool.eq_false_iff.mpr hsna)).symm
  | false =>
    cases hbp : g.bp with
    | true =>
      have hcell (k : Nat) : seenCell g font ram k = _ :=
        (if_neg (by simp [hcoco])).trans (if_pos hbp)
      simp only [hcell, Bool.false_eq_true, if_false, if_true]
      refine eachByte_congr fun k _ => ?_
      rw [cell_gfx hres hcoco hbp, seenByte_eq]
    | false =>
      simp only [seenCell, hcoco, hbp, Bool.false_eq_true, if_false, cell_native hres hcoco hbp]
      refine eachByte_congr fun k _ => ?_
      dsimp only
      split
      next hattr =>
        simp only [attrCell, Bool.and_eq_true, decide_eq_true_eq, Nat.add_comm (nativeFontRow g)]
      next hattr => simp only [Nat.add_comm (nativeFontRow g)]

/-- The line renderer reads the bytes that were fetched, and no others. -/
theorem renderLine_congr {s : Statics} {font : Nat → Byte} {src src' : Nat → Byte}
    {n : Nat} (h : ∀ k < if attrText g = true then 2 * n else n, src k = src' k)
    (toPixel : Nat → P) :
    renderLine s g font src pal n toPixel = renderLine s g font src' pal n toPixel := by
  unfold renderLine
  dsimp only
  cases hcoco : g.coco with
  | true =>
    have hplain : attrText g = false := by simp [attrText, hcoco]
    rw [hplain] at h
    have hsrc (k : Nat) (hk : k < n) : src k = src' k := h k hk
    simp only [if_true]
    split
    · split
      · exact congrArg (s, ·) (eachByte_congr fun k hk => by rw [hsrc k hk])
      split
      · exact congrArg (artifactColours s g, ·) (gimeArtifactLine_congr _ hsrc fun _ _ => rfl)
      split
      · exact congrArg (s, ·) (eachByte_congr fun k hk => by rw [hsrc k hk])
      · exact congrArg (s, ·) (eachByte_congr fun k hk => by rw [hsrc k hk])
    · exact congrArg (s, ·) (eachByte_congr fun k hk => by rw [hsrc k hk])
  | false =>
    simp only [Bool.false_eq_true, if_false]
    cases hbp : g.bp with
    | true =>
      have hplain : attrText g = false := by simp [attrText, hbp]
      rw [hplain] at h
      have hsrc (k : Nat) (hk : k < n) : src k = src' k := h k hk
      have hzero (k : Nat) (hk : k < n) :
          (if zeroesSecond g = true then zeroSecond src else src) k =
            (if zeroesSecond g = true then zeroSecond src' else src') k := by
        split
        · unfold zeroSecond
          rw [hsrc k hk]
        · exact hsrc k hk
      simp only [if_true]
      exact congrArg (s, ·) (eachByte_congr fun k hk => by rw [hzero k hk])
    | false =>
      simp only [Bool.false_eq_true, if_false]
      refine congrArg (s, ·) (eachByte_congr fun k hk => ?_)
      cases hattr : bit g.cres 0 with
      | true =>
        have htwo : attrText g = true := by
          simp only [attrText, hcoco, hbp, hattr, Bool.not_false, Bool.and_true]
        rw [if_pos htwo] at h
        simp only [if_true, h (2 * k) (by omega), h (2 * k + 1) (by omega)]
      | false =>
        have hplain : attrText g = false := by simp only [attrText, hattr, Bool.and_false]
        rw [hplain] at h
        have hsrc : src k = src' k := h k hk
        simp only [Bool.false_eq_true, if_false, hsrc]

/-! ## The two renderers -/

theorem LineFit.low_resolution (hfit : LineFit g) : g.resolution &&& 3 = g.resolution := by
  rw [Nat.and_two_pow_sub_one_eq_mod _ 2, Nat.mod_eq_of_lt hfit.resolution]

/-- No line is wider than the screen. -/
theorem LineFit.shownBytes_eq (hfit : LineFit g) : shownBytes g = g.bpr := by
  unfold shownBytes
  rw [hfit.low_resolution]
  exact Nat.min_eq_left
    ((Nat.le_div_iff_mul_le (width_pos hfit.resolution)).mpr hfit.width)

/-- What is fetched for a line fits the staging buffer. -/
theorem LineFit.fetchedBytes_le (hfit : LineFit g) : fetchedBytes g ≤ 160 := by
  have hwidth : 4 ≤ 32 >>> g.resolution := by
    have hres := hfit.resolution
    have hcases : g.resolution = 0 ∨ g.resolution = 1 ∨ g.resolution = 2 ∨ g.resolution = 3 := by
      omega
    rcases hcases with h | h | h | h <;> rw [h] <;> decide
  have hbytes : g.bpr * 4 ≤ 640 := (Nat.mul_le_mul_left _ hwidth).trans hfit.width
  unfold fetchedBytes
  rw [hfit.shownBytes_eq]
  split
  next hattr =>
    have htext := hfit.attr hattr
    omega
  next => omega

/-- With that geometry, and without artifacts, the two renderers draw the same line. -/
theorem drawLine_legacy (hfit : LineFit g) {s : Statics} (hoff : s.artifacts = 0)
    (font : Nat → Byte) (ram : Unsigned → Byte) (pal toPixel : Nat → P) :
    (drawLine s g font ram pal toPixel).2.pixels =
        legacyBytes g font ram pal g.bpr { xoff := startX g } [] ∧
      (drawLine s g font ram pal toPixel).2.lineWidth =
        (legacyBytes g font ram pal g.bpr { xoff := startX g } []).length := by
  have hfetched := hfit.fetchedBytes_le
  have hsrc : ∀ k < if attrText g = true then 2 * g.bpr else g.bpr,
      fetchLineBytes g ram (fetchedBytes g) k = lineByte g ram k := by
    intro k hk
    refine fetchLineBytes_eq hfit (by omega) ?_
    unfold fetchedBytes
    rw [hfit.shownBytes_eq]
    exact hk
  have hlegacy : legacyBytes g font ram pal g.bpr { xoff := startX g } [] =
      [] ++ (List.range' 0 g.bpr).flatMap fun j => cellPixels g pal (seenCell g font ram j) :=
    legacyBytes_eq hfit font ram pal g.bpr (fetchedTo_start _ g ram) (by simp)
      (by rw [Nat.zero_add]; exact hfit.width)
  have hdrawn : (drawLine s g font ram pal toPixel).2.pixels =
      legacyBytes g font ram pal g.bpr { xoff := startX g } [] := by
    unfold drawLine
    dsimp only
    rw [hfit.shownBytes_eq, renderLine_congr hsrc, renderLine_cells hfit hoff, hlegacy]
    simp [eachByte, List.range_eq_range']
  refine ⟨hdrawn, ?_⟩
  rw [hlegacy, List.nil_append, List.length_flatMap]
  unfold drawLine
  simp [hfit.shownBytes_eq, hfit.low_resolution, length_cellPixels hfit.resolution]

end

/-! ## Every line of a run -/

/-- The two renderers draw the same line. -/
def RenderersAgree (g : Tcc1014) : Prop :=
  ∀ (s : Statics) (font : Nat → Byte) (ram : Unsigned → Byte) (line : Nat),
    s.artifacts = 0 →
      (renderScanline s g font ram false line).2 =
        (renderScanlineLegacy g font ram (paletteRgb565 s g)).elim .hidden .rgb565

theorem LineFit.agree {g : Tcc1014} (hfit : LineFit g) : RenderersAgree g := by
  intro s font ram line hoff
  have hkept : (keepSignature s g ram line).artifacts = 0 := by
    unfold keepSignature
    split
    · exact hoff
    · exact hoff
  have hpal : paletteRgb565 (keepSignature s g ram line) g = paletteRgb565 s g := by
    unfold keepSignature
    split
    · rfl
    · rfl
  obtain ⟨hpixels, hlength⟩ :=
    drawLine_legacy hfit hkept font ram (paletteRgb565 s g) displayRgb565Swapped
  have hscreen : (legacyBytes g font ram (paletteRgb565 s g) g.bpr { xoff := startX g } []).length ≤
      640 := by
    rw [← hlength]
    unfold drawLine
    dsimp only
    rw [hfit.shownBytes_eq, hfit.low_resolution]
    exact hfit.width
  have hline : (drawRgb565 (keepSignature s g ram line) g font ram).2 =
      { pixels := legacyBytes g font ram (paletteRgb565 s g) g.bpr { xoff := startX g } []
        lineWidth :=
          (legacyBytes g font ram (paletteRgb565 s g) g.bpr { xoff := startX g } []).length } := by
    unfold drawRgb565
    rw [hpal, ← hlength, ← hpixels]
  unfold renderScanline renderScanlineLegacy
  split
  next => rfl
  next =>
    change Scanned.rgb565 (drawRgb565 (keepSignature s g ram line) g font ram).2 =
      Scanned.rgb565 { pixels := _, lineWidth := if List.length _ ≤ 640 then _ else _ }
    rw [hline]
    exact congrArg (fun w => Scanned.rgb565 { pixels := _, lineWidth := w }) (if_pos hscreen).symm

/-- Through any writes and scanlines from power on, every line that is shown comes out of the
renderers of its mode as out of the reference renderer, from no more bytes than can be staged. -/
theorem renderers_agree (events : List FrameEvent) (hfits : ∀ e ∈ events, RamFits e) :
    Always FrameEvent.step
      (fun b => ∀ g, b.rendered = some g → RenderersAgree g ∧ fetchedBytes g ≤ 160)
      events { gime := {} } :=
  (lineFit_always events hfits).imp fun _ h _ hg =>
    ⟨(h.rendered hg).1.agree, (h.rendered hg).1.fetchedBytes_le⟩

/-- A screen of native text with attributes on 512 KB, from power on to its first lines. -/
theorem renderers_agree_text :
    Always FrameEvent.step
      (fun b => ∀ g, b.rendered = some g → RenderersAgree g ∧ fetchedBytes g ≤ 160)
      ([.chip (.setRam 0x80000), .chip (.write 8 0x03), .chip (.write 9 0x15),
        .chip (.write 15 0x7F)] ++ List.replicate 50 .scanline) { gime := {} } :=
  renderers_agree _ (by decide)

end CocoEmulator.Video
