/-
  Net/PngWriter.lean --- the PNG encoder for byte-swapped RGB565 frames.

  The encoder lays the rows out as 24-bit pixels, computes the lengths of the zlib
  stream and of the file from a count of blocks, and then writes the file from
  front to back.  Writing at `pos` and moving it on is appending; the checksums are
  taken over ranges of what has been written, with the lengths computed in advance.

  `size_t` is 32 bits wide on this machine, and so is everything computed in it.

      storeLoop_spec         the loop over stored blocks, for every length
      encode_eq              the file is a PNG put together from its parts
      png_encode_round_trip  it fits its buffer and decodes to the pixels

  Source: net/png_writer.cpp.
-/
import CocoEmulator.Base.Png
import CocoEmulator.Base.Words

set_option autoImplicit false

namespace CocoEmulator.Net

open CocoEmulator.Base

/-! ## Checksums -/

/-- `crc = (crc & 1) ? (0xEDB88320u ^ (crc >> 1)) : (crc >> 1)`, eight times. -/
def crcBits : Nat → BitVec 32 → BitVec 32
  | 0, crc => crc
  | k + 1, crc =>
    crcBits k (if crc &&& 1 ≠ 0 then 0xEDB88320 ^^^ crc >>> 1 else crc >>> 1)

/-- `crc32_update` -/
def crc32Update (crc : BitVec 32) (buf : List Byte) : BitVec 32 :=
  buf.foldl (fun crc b => crcBits 8 (crc ^^^ b.setWidth 32)) (crc ^^^ 0xFFFFFFFF) ^^^ 0xFFFFFFFF

/-- The sums of `adler32`. -/
def adlerSum (data : List Byte) : Nat × Nat :=
  data.foldl (fun s d =>
    let a := (s.1 + d.toNat) % 65521
    (a, (s.2 + a) % 65521)) (1, 0)

/-- `adler32` -/
def adler (data : List Byte) : BitVec 32 :=
  BitVec.ofNat 32 (adlerSum data).2 <<< 16 ||| BitVec.ofNat 32 (adlerSum data).1

/-! ## Writing -/

/-- `put_be32` -/
def putBe32 (v : BitVec 32) : List Byte :=
  [(v >>> 24).setWidth 8, (v >>> 16).setWidth 8, (v >>> 8).setWidth 8, v.setWidth 8]

/-- `put_chunk` -/
def putChunk (out : List Byte) (type data : List Byte) : List Byte :=
  let out := out ++ putBe32 (BitVec.ofNat 32 data.length)
  let crcStart := out.length
  let out := out ++ type
  let out := if data.length ≠ 0 then out ++ data else out
  let crc := crc32Update 0 ((out.drop crcStart).take (4 + data.length))
  out ++ putBe32 crc

/-- The three bytes of a byte-swapped RGB565 pixel. -/
def pixelBytes (v : Word) : List Byte :=
  let p := v <<< 8 ||| v >>> 8
  let r5 : Byte := ((p >>> 11) &&& 0x1F).setWidth 8
  let g6 : Byte := ((p >>> 5) &&& 0x3F).setWidth 8
  let b5 : Byte := (p &&& 0x1F).setWidth 8
  [r5 <<< 3 ||| r5 >>> 2, g6 <<< 2 ||| g6 >>> 4, b5 <<< 3 ||| b5 >>> 2]

/-- A row: the filter byte, then the pixels.  `src` is indexed by the distance from the pointer
that is passed, on either side of it. -/
def rawRow (src : Int → Word) (w : Nat) (stride : Int) (y : Nat) : List Byte :=
  0 :: (List.range w).flatMap fun (x : Nat) => pixelBytes (src (y * stride + x))

/-- The rows. -/
def rawData (src : Int → Word) (w h : Nat) (stride : Int) : List Byte :=
  (List.range h).flatMap (rawRow src w stride)

/-! ## Sizes -/

/-- A `size_t`. -/
def sizeT (n : Nat) : Nat := n % 2 ^ 32

def rowBytesLen (w : Nat) : Nat := sizeT (1 + sizeT (w * 3))

def rawLen (w h : Nat) : Nat := sizeT (rowBytesLen w * h)

def nblocks (w h : Nat) : Nat := sizeT (rawLen w h + 65534) / 65535

def idatLen (w h : Nat) : Nat := sizeT (2 + nblocks w h * 5 + rawLen w h + 4)

/-- What is allocated for the file. -/
def outCap (w h : Nat) : Nat := sizeT (8 + (12 + 13) + (12 + idatLen w h) + 12 + 16)

/-! ## The encoder -/

/-- The loop over stored blocks. -/
def storeLoop (raw : List Byte) (off remaining : Nat) (out : List Byte) : List Byte :=
  if remaining = 0 then out
  else
    let block := if 65535 < remaining then 65535 else remaining
    let bfinal : Byte := if block = remaining then 1 else 0
    let nlen : Word := ~~~BitVec.ofNat 16 block
    let out := out ++ [bfinal, BitVec.ofNat 8 block, BitVec.ofNat 8 (block >>> 8),
      nlen.setWidth 8, (nlen >>> 8).setWidth 8]
    let out := out ++ (raw.drop off).take block
    storeLoop raw (off + block) (remaining - block) out
termination_by remaining
decreasing_by
  split <;> omega

/-- The IDAT chunk, written in place. -/
def putIdat (out raw : List Byte) (w h : Nat) : List Byte :=
  let out := out ++ putBe32 (BitVec.ofNat 32 (idatLen w h))
  let crcStart := out.length
  let out := out ++ typeIdat
  let out := out ++ [0x78, 0x01]
  let out := storeLoop raw 0 (rawLen w h) out
  let out := out ++ putBe32 (adler (raw.take (rawLen w h)))
  let crc := crc32Update 0 ((out.drop crcStart).take (4 + idatLen w h))
  out ++ putBe32 crc

/-- The file. -/
def encode (src : Int → Word) (w h : Nat) (stride : Int) : List Byte :=
  let out := pngSignature
  let ihdr := putBe32 (BitVec.ofNat 32 w) ++ putBe32 (BitVec.ofNat 32 h) ++ [8, 2, 0, 0, 0]
  let out := putChunk out typeIhdr ihdr
  let out := putIdat out (rawData src w h stride) w h
  putChunk out typeIend []

/-- `png_encode_rgb565`; each of the two allocations may fail. -/
def pngEncodeRgb565 (rawOk outOk : Bool) (src : Option (Int → Word)) (w h stride : Int) :
    Option (List Byte) :=
  match src with
  | none => none
  | some src =>
    if w ≤ 0 ∨ h ≤ 0 then none
    else if !rawOk then none
    else if !outOk then none
    else some (encode src w.toNat h.toNat stride)

/-! ## The checksums are those of the formats -/

theorem crcBits_eq (n : Nat) (crc : BitVec 32) : crcBits n crc = crcShifts n crc := by
  have hlow (q : BitVec 32) : q &&& 1 ≠ 0 ↔ q.getLsbD 0 = true := by
    have hone : q &&& 1 = (BitVec.ofBool (q.getLsbD 0)).setWidth 32 :=
      BitVec.and_one_eq_setWidth_ofBool_getLsbD
    rw [hone]
    cases q.getLsbD 0 <;> decide
  induction n generalizing crc with
  | zero => rfl
  | succ n ih =>
    unfold crcBits crcShifts crcShift
    simp only [hlow]
    exact ih _

theorem crc32Update_zero (buf : List Byte) : crc32Update 0 buf = crc32 buf := by
  unfold crc32Update
  rw [crc32_reflected]
  simp only [crcBits_eq]
  rfl

theorem adler_toNat (data : List Byte) : (adler data).toNat = adler32 data := by
  obtain ⟨ha, hb⟩ := adlerStep_lt data (s := (1, 0)) ⟨by decide, by decide⟩
  have hsum : adlerSum data = data.foldl adlerStep (1, 0) := rfl
  unfold adler
  rw [hsum, adler32_reduced, BitVec.toNat_or, BitVec.toNat_shiftLeft, BitVec.toNat_ofNat,
    BitVec.toNat_ofNat, Nat.mod_eq_of_lt (by omega), Nat.mod_eq_of_lt (by omega),
    Nat.shiftLeft_eq, Nat.mod_eq_of_lt (by omega), Nat.mul_comm]
  exact (Nat.two_pow_add_eq_or_of_lt (i := 16) (by omega) _).symm

/-! ## What is written -/

theorem putBe32_eq (v : BitVec 32) : putBe32 v = be32 v.toNat := by
  have hbyte (k : Nat) : (v >>> k).setWidth 8 = BitVec.ofNat 8 (v.toNat / 2 ^ k) := by
    apply BitVec.eq_of_toNat_eq
    rw [BitVec.toNat_setWidth, BitVec.toNat_ushiftRight, BitVec.toNat_ofNat,
      Nat.shiftRight_eq_div_pow]
  have hlow : v.setWidth 8 = BitVec.ofNat 8 v.toNat := by
    apply BitVec.eq_of_toNat_eq
    rw [BitVec.toNat_setWidth, BitVec.toNat_ofNat]
  unfold putBe32 be32
  rw [hbyte, hbyte, hbyte, hlow]

theorem putBe32_ofNat {n : Nat} (h : n < 2 ^ 32) : putBe32 (BitVec.ofNat 32 n) = be32 n := by
  rw [putBe32_eq, BitVec.toNat_ofNat, Nat.mod_eq_of_lt h]

theorem putChunk_eq {type data : List Byte} (out : List Byte) (htype : type.length = 4)
    (hlen : data.length < 2 ^ 32) :
    putChunk out type data = out ++ chunkBytes ⟨type, data⟩ := by
  have hdata (bs : List Byte) : (if data.length ≠ 0 then bs ++ data else bs) = bs ++ data := by
    by_cases h : data.length ≠ 0
    · exact if_pos h
    · rw [if_neg h, List.eq_nil_of_length_eq_zero (Decidable.not_not.mp h), List.append_nil]
  have htaken : (type ++ data).take (4 + data.length) = type ++ data := by
    apply List.take_of_length_le
    rw [List.length_append, htype]
  unfold putChunk chunkBytes
  dsimp only
  rw [putBe32_ofNat hlen, hdata, List.append_assoc _ type data, List.drop_left, htaken,
    crc32Update_zero, putBe32_eq]
  simp only [List.append_assoc]

/-- A pixel: the bytes swapped back, and each channel widened by its own high bits. -/
def pixelOf (v : Word) : Rgb :=
  let p : BitVec 16 := v.extractLsb' 0 8 ++ v.extractLsb' 8 8
  let r5 := p.extractLsb' 11 5
  let g6 := p.extractLsb' 5 6
  let b5 := p.extractLsb' 0 5
  ⟨r5 ++ r5.extractLsb' 2 3, g6 ++ g6.extractLsb' 4 2, b5 ++ b5.extractLsb' 2 3⟩

/-- Shifting down and masking `n` bits takes `n` bits from the middle. -/
theorem field_eq {n : Nat} {mask : Word} (hmask : ∀ i < 16, mask.getLsbD i = decide (i < n))
    (p : Word) (k : Nat) : ((p >>> k) &&& mask).setWidth 8 = (p.extractLsb' k n).setWidth 8 := by
  apply BitVec.eq_of_getLsbD_eq
  intro i hi
  have hbit := hmask i (by omega)
  simp only [BitVec.getLsbD_setWidth, BitVec.getLsbD_and, BitVec.getLsbD_ushiftRight, hbit,
    BitVec.getLsbD_extractLsb', hi, decide_true, Bool.true_and]
  exact Bool.and_comm _ _

theorem swap_eq (v : Word) : v <<< 8 ||| v >>> 8 = v.extractLsb' 0 8 ++ v.extractLsb' 8 8 := by
  apply BitVec.eq_of_getLsbD_eq
  intro i hi
  rw [BitVec.getLsbD_or, BitVec.getLsbD_shiftLeft, BitVec.getLsbD_ushiftRight,
    BitVec.getLsbD_append]
  by_cases h : i < 8
  · simp [h, hi]
  · have hgone : v.getLsbD (8 + i) = false := BitVec.getLsbD_of_ge v (8 + i) (by omega)
    have hlow : i - 8 < 8 := by omega
    simp [h, hi, hgone, hlow]

theorem widen_five (c : BitVec 5) :
    c.setWidth 8 <<< 3 ||| c.setWidth 8 >>> 2 = c ++ c.extractLsb' 2 3 := by
  revert c
  decide

theorem widen_six (c : BitVec 6) :
    c.setWidth 8 <<< 2 ||| c.setWidth 8 >>> 4 = c ++ c.extractLsb' 4 2 := by
  revert c
  decide

theorem pixelBytes_eq (v : Word) : pixelBytes v = (pixelOf v).bytes := by
  have hfive : ∀ i < 16, (0x1F : Word).getLsbD i = decide (i < 5) := by decide
  have hsix : ∀ i < 16, (0x3F : Word).getLsbD i = decide (i < 6) := by decide
  have hblue (p : Word) := field_eq hfive p 0
  simp only [BitVec.ushiftRight_zero] at hblue
  unfold pixelBytes pixelOf Rgb.bytes
  dsimp only
  rw [swap_eq, field_eq hfive, field_eq hsix, hblue, widen_five, widen_six, widen_five]

/-- The pixels that are encoded: `stride` from one row to the next. -/
def rowsOf (src : Int → Word) (w h : Nat) (stride : Int) : List (List Rgb) :=
  (List.range h).map fun (y : Nat) =>
    (List.range w).map fun (x : Nat) => pixelOf (src (y * stride + x))

theorem rawData_eq (src : Int → Word) (w h : Nat) (stride : Int) :
    rawData src w h stride = (rowsOf src w h stride).flatMap rowBytes := by
  have hrow (y : Nat) : rawRow src w stride y =
      rowBytes ((List.range w).map fun (x : Nat) => pixelOf (src (y * stride + x))) := by
    unfold rawRow rowBytes
    rw [List.flatMap_map]
    simp only [pixelBytes_eq]
  unfold rawData rowsOf
  rw [List.flatMap_map]
  apply List.flatMap_congr
  intro y _
  exact hrow y

theorem length_rawRow (src : Int → Word) (w : Nat) (stride : Int) (y : Nat) :
    (rawRow src w stride y).length = 1 + 3 * w := by
  have hpixel (v : Word) : (pixelBytes v).length = 3 := rfl
  unfold rawRow
  rw [List.length_cons, List.length_flatMap]
  simp [hpixel]
  omega

theorem length_rawData (src : Int → Word) (w h : Nat) (stride : Int) :
    (rawData src w h stride).length = (1 + 3 * w) * h := by
  unfold rawData
  rw [List.length_flatMap]
  simp [length_rawRow, Nat.mul_comm]

/-! ## Stored blocks -/

/-- The header that the loop writes is that of a stored block. -/
theorem storedHeader_eq (last : Bool) (data : List Byte) :
    [if last then 1 else 0, BitVec.ofNat 8 data.length, BitVec.ofNat 8 (data.length >>> 8),
        (~~~BitVec.ofNat 16 data.length).setWidth 8,
        (~~~BitVec.ofNat 16 data.length >>> 8).setWidth 8] ++ data =
      blockBytes last data := by
  have hlow : (~~~BitVec.ofNat 16 data.length).setWidth 8 = ~~~BitVec.ofNat 8 data.length := by
    apply BitVec.eq_of_getLsbD_eq
    intro i hi
    simp [hi]
  have hhigh : (~~~BitVec.ofNat 16 data.length >>> 8).setWidth 8 =
      ~~~BitVec.ofNat 8 (data.length >>> 8) := by
    apply BitVec.eq_of_getLsbD_eq
    intro i hi
    have hi' : 8 + i < 16 := by omega
    have hbit : (BitVec.ofNat 16 data.length).getLsbD (8 + i) =
        (BitVec.ofNat 8 (data.length >>> 8)).getLsbD i := by
      rw [BitVec.getLsbD_ofNat, BitVec.getLsbD_ofNat, Nat.testBit_shiftRight, decide_eq_true hi,
        decide_eq_true hi']
    simpa [hi, hi'] using hbit
  unfold blockBytes
  rw [hlow, hhigh, Nat.shiftRight_eq_div_pow]
  rfl

theorem length_blockBytes (last : Bool) (data : List Byte) :
    (blockBytes last data).length = 5 + data.length := by
  unfold blockBytes
  simp only [List.length_cons]
  omega

section

variable {raw : List Byte} {off remaining : Nat}

/-- A full block, and the rest after it. -/
theorem storeLoop_more (hlen : off + remaining = raw.length) (hmore : 65535 < remaining)
    (out : List Byte) :
    storeLoop raw off remaining out =
      storeLoop raw (off + 65535) (remaining - 65535)
        (out ++ blockBytes false ((raw.drop off).take 65535)) := by
  have htaken : ((raw.drop off).take 65535).length = 65535 := by
    rw [List.length_take, List.length_drop]
    omega
  have hheader := storedHeader_eq false ((raw.drop off).take 65535)
  have hzero : ¬remaining = 0 := by omega
  have hlast : ¬65535 = remaining := by omega
  rw [htaken] at hheader
  rw [← hheader, ← List.append_assoc]
  conv =>
    lhs
    unfold storeLoop
  simp only [if_neg hzero, if_pos hmore, if_neg hlast]
  rfl

/-- What is left is one block. -/
theorem storeLoop_last (hlen : off + remaining = raw.length) (hpos : 0 < remaining)
    (hone : remaining ≤ 65535) (out : List Byte) :
    storeLoop raw off remaining out = out ++ blockBytes true (raw.drop off) := by
  have hleft : (raw.drop off).length = remaining := by
    rw [List.length_drop]
    omega
  have hheader := storedHeader_eq true (raw.drop off)
  have hzero : ¬remaining = 0 := by omega
  have hmore : ¬65535 < remaining := by omega
  have htaken : (raw.drop off).take remaining = raw.drop off :=
    List.take_of_length_le (by omega)
  rw [hleft] at hheader
  rw [← hheader, ← List.append_assoc]
  unfold storeLoop
  simp only [if_neg hzero, if_neg hmore, Nat.sub_self, htaken]
  unfold storeLoop
  rfl

/-- The loop, for every length: how much it writes, and that it decodes. -/
theorem storeLoop_spec (hlen : off + remaining = raw.length) (hpos : 0 < remaining)
    (out : List Byte) :
    ∃ blocks : List Byte, storeLoop raw off remaining out = out ++ blocks ∧
      blocks.length = (remaining + 65534) / 65535 * 5 + remaining ∧
      ∀ (fuel : Nat) (rest : List Byte), blocks.length ≤ fuel →
        inflateStored fuel (blocks ++ rest) = some (raw.drop off, rest) := by
  induction remaining using Nat.strongRecOn generalizing off out with
  | ind remaining ih =>
    have hleft : (raw.drop off).length = remaining := by
      rw [List.length_drop]
      omega
    by_cases hmore : 65535 < remaining
    · have htaken : ((raw.drop off).take 65535).length = 65535 := by
        rw [List.length_take]
        omega
      obtain ⟨blocks, hloop, hcount, hdecode⟩ := @ih (remaining - 65535) (by omega)
        (off + 65535) (by omega) (by omega) (out ++ blockBytes false ((raw.drop off).take 65535))
      refine ⟨blockBytes false ((raw.drop off).take 65535) ++ blocks, ?_, ?_, ?_⟩
      · rw [storeLoop_more hlen hmore, hloop, List.append_assoc]
      · rw [List.length_append, hcount, length_blockBytes, htaken]
        omega
      · intro fuel rest hfuel
        rw [List.length_append, length_blockBytes] at hfuel
        obtain ⟨fuel, rfl⟩ : ∃ n, fuel = n + 1 := ⟨fuel - 1, by omega⟩
        have hrest := hdecode fuel rest (by omega)
        rw [List.append_assoc, inflateStored_more (by omega) (by omega) hrest, ← List.drop_drop,
          List.take_append_drop]
    · refine ⟨blockBytes true (raw.drop off), storeLoop_last hlen hpos (by omega) out, ?_, ?_⟩
      · rw [length_blockBytes, hleft]
        omega
      · intro fuel rest hfuel
        rw [length_blockBytes] at hfuel
        obtain ⟨fuel, rfl⟩ : ∃ n, fuel = n + 1 := ⟨fuel - 1, by omega⟩
        exact inflateStored_last fuel (by omega) (by omega) rest

end

/-! ## The lengths computed in advance -/

/-- The capacity, computed without a width. -/
def fileBound (w h : Nat) : Nat :=
  let raw := (1 + 3 * w) * h
  8 + (12 + 13) + (12 + (2 + (raw + 65534) / 65535 * 5 + raw + 4)) + 12 + 16

theorem sizeT_eq {n : Nat} (h : n < 2 ^ 32) : sizeT n = n := Nat.mod_eq_of_lt h

section

variable {w h : Nat}

theorem rawLen_eq (hh : 0 < h) (hfit : fileBound w h < 2 ^ 32) : rawLen w h = (1 + 3 * w) * h := by
  have hrow : 1 + 3 * w ≤ (1 + 3 * w) * h := Nat.le_mul_of_pos_right _ hh
  unfold fileBound at hfit
  dsimp only at hfit
  unfold rawLen rowBytesLen
  rw [sizeT_eq (n := w * 3) (by omega), sizeT_eq (n := 1 + w * 3) (by omega), Nat.mul_comm w 3,
    sizeT_eq (by omega)]

theorem nblocks_eq (hh : 0 < h) (hfit : fileBound w h < 2 ^ 32) :
    nblocks w h = ((1 + 3 * w) * h + 65534) / 65535 := by
  unfold nblocks
  rw [rawLen_eq hh hfit]
  unfold fileBound at hfit
  dsimp only at hfit
  rw [sizeT_eq (by omega)]

theorem idatLen_eq (hh : 0 < h) (hfit : fileBound w h < 2 ^ 32) :
    idatLen w h = 2 + ((1 + 3 * w) * h + 65534) / 65535 * 5 + (1 + 3 * w) * h + 4 := by
  unfold idatLen
  rw [nblocks_eq hh hfit, rawLen_eq hh hfit]
  unfold fileBound at hfit
  dsimp only at hfit
  exact sizeT_eq (by omega)

theorem outCap_eq (hh : 0 < h) (hfit : fileBound w h < 2 ^ 32) : outCap w h = fileBound w h := by
  unfold outCap
  rw [idatLen_eq hh hfit]
  exact sizeT_eq hfit

end

/-! ## The file -/

section

variable {w h : Nat}

/-- The IDAT chunk: its length is the one written in advance, and the range of its CRC is its
type and all of its data. -/
theorem putIdat_eq {raw : List Byte} (hh : 0 < h) (hfit : fileBound w h < 2 ^ 32)
    (hraw : raw.length = (1 + 3 * w) * h) (out : List Byte) :
    ∃ stream : List Byte, stream.length = idatLen w h ∧ zlibDecode stream = some raw ∧
      putIdat out raw w h = out ++ chunkBytes ⟨typeIdat, stream⟩ := by
  have hlen := rawLen_eq hh hfit
  have hpos : 0 < rawLen w h := by
    rw [hlen]
    exact Nat.mul_pos (by omega) hh
  have hcount := idatLen_eq hh hfit
  have hadler := (adler raw).isLt
  rw [adler_toNat] at hadler
  obtain ⟨blocks, hloop, hblocks, hdecode⟩ := @storeLoop_spec raw 0 (rawLen w h)
    (by omega) hpos (out ++ putBe32 (BitVec.ofNat 32 (idatLen w h)) ++ typeIdat ++ [0x78, 0x01])
  have hstream : (0x78 :: 0x01 :: (blocks ++ be32 (adler32 raw))).length = idatLen w h := by
    rw [List.length_cons, List.length_cons, List.length_append, length_be32, hblocks, hcount, hlen]
    omega
  refine ⟨0x78 :: 0x01 :: (blocks ++ be32 (adler32 raw)), hstream, ?_, ?_⟩
  · apply zlibDecode_stream _ hadler
    exact hdecode _ _ (by rw [List.length_append]; omega)
  · have htaken : raw.take (rawLen w h) = raw := List.take_of_length_le (by omega)
    have hlt : idatLen w h < 2 ^ 32 := Nat.mod_lt _ (by decide)
    have hwritten (start : List Byte) :
        start ++ typeIdat ++ [0x78, 0x01] ++ blocks ++ be32 (adler32 raw) =
          start ++ (typeIdat ++ 0x78 :: 0x01 :: (blocks ++ be32 (adler32 raw))) := by
      simp only [List.append_assoc, List.cons_append, List.nil_append]
    have hrange : (typeIdat ++ 0x78 :: 0x01 :: (blocks ++ be32 (adler32 raw))).length ≤
        4 + idatLen w h := by
      rw [List.length_append, hstream]
      exact Nat.le_refl _
    unfold putIdat chunkBytes
    dsimp only
    rw [hloop, htaken, putBe32_eq (adler raw), adler_toNat, putBe32_ofNat hlt, hwritten,
      List.drop_left, List.take_of_length_le hrange, crc32Update_zero, putBe32_eq, hstream]
    simp only [List.append_assoc]

/-- The file is a PNG put together from its parts. -/
theorem encode_eq (hw : 0 < w) (hh : 0 < h) (hfit : fileBound w h < 2 ^ 32) (src : Int → Word)
    (stride : Int) :
    (encode src w h stride).length ≤ outCap w h ∧
      decodePng (encode src w h stride) = some ⟨w, h, rowsOf src w h stride⟩ := by
  obtain ⟨stream, hlen, hzlib, hidat⟩ := putIdat_eq hh hfit (length_rawData src w h stride)
    (pngSignature ++ chunkBytes ⟨typeIhdr, be32 w ++ be32 h ++ [8, 2, 0, 0, 0]⟩)
  have hw' : w < 2 ^ 32 := by
    have hrow : 1 + 3 * w ≤ (1 + 3 * w) * h := Nat.le_mul_of_pos_right _ hh
    unfold fileBound at hfit
    dsimp only at hfit
    omega
  have hh' : h < 2 ^ 32 := by
    have hrow : h ≤ (1 + 3 * w) * h := Nat.le_mul_of_pos_left _ (by omega)
    unfold fileBound at hfit
    dsimp only at hfit
    omega
  have hstream : stream.length < 2 ^ 32 := by
    rw [hlen]
    exact Nat.mod_lt _ (by decide)
  have hheader : (be32 w ++ be32 h ++ [8, 2, 0, 0, 0]).length = 13 := rfl
  have hfile : encode src w h stride = pngSignature ++
      chunkBytes ⟨typeIhdr, be32 w ++ be32 h ++ [8, 2, 0, 0, 0]⟩ ++
      chunkBytes ⟨typeIdat, stream⟩ ++ chunkBytes ⟨typeIend, []⟩ := by
    unfold encode
    dsimp only
    rw [putBe32_ofNat hw', putBe32_ofNat hh', @putChunk_eq typeIhdr _ _ rfl (by omega),
      hidat, @putChunk_eq typeIend _ _ rfl (by decide)]
  have hrows : readRows w h (rawData src w h stride) = some (rowsOf src w h stride) := by
    have hwidth : ∀ row ∈ rowsOf src w h stride, row.length = w := by
      unfold rowsOf
      intro row hrow
      obtain ⟨y, _, rfl⟩ := List.mem_map.mp hrow
      rw [List.length_map, List.length_range]
    have hheight : (rowsOf src w h stride).length = h := by
      unfold rowsOf
      rw [List.length_map, List.length_range]
    have hread := readRows_rows (rowsOf src w h stride) hwidth
    rw [hheight] at hread
    rw [rawData_eq]
    exact hread
  constructor
  · have hsignature : pngSignature.length = 8 := rfl
    have hlength : (encode src w h stride).length = 8 + (12 + 13) + (12 + idatLen w h) + 12 := by
      rw [hfile, List.length_append, List.length_append, List.length_append, hsignature,
        length_chunkBytes (c := ⟨typeIhdr, _⟩) rfl, length_chunkBytes (c := ⟨typeIdat, stream⟩) rfl,
        length_chunkBytes (c := ⟨typeIend, []⟩) rfl, hheader, hlen]
      rfl
    rw [hlength, outCap_eq hh hfit, idatLen_eq hh hfit]
    unfold fileBound
    dsimp only
    omega
  · rw [hfile]
    exact decodePng_chunks hw hw' hh hh' hstream hzlib hrows

end

/-- The encoder round-trips: what it writes fits in what it allocates, and is a PNG of the pixels,
each with its bytes swapped back and its channels widened. -/
theorem png_encode_round_trip (src : Int → Word) {w h : Int} (stride : Int) (hw : 0 < w)
    (hh : 0 < h) (hfit : fileBound w.toNat h.toNat < 2 ^ 32) :
    ∃ png, pngEncodeRgb565 true true (some src) w h stride = some png ∧
      png.length ≤ outCap w.toNat h.toNat ∧
      decodePng png = some ⟨w.toNat, h.toNat, rowsOf src w.toNat h.toNat stride⟩ := by
  obtain ⟨hlen, hdecode⟩ := encode_eq (by omega) (by omega) hfit src stride
  refine ⟨encode src w.toNat h.toNat stride, ?_, hlen, hdecode⟩
  unfold pngEncodeRgb565
  dsimp only
  rw [if_neg (by omega)]
  rfl

/-- Rows of four words, of which the first two are pixels, stored with their bytes swapped: red and
green, blue and white, black and red. -/
def sixPixels (i : Int) : Word :=
  ([0x00F8, 0xE007, 0xADDE, 0xADDE, 0x1F00, 0xFFFF, 0xADDE, 0xADDE, 0x0000, 0x00F8] :
    List Word).getD i.toNat 0xADDE

/-- The words between the rows are left out. -/
theorem png_encode_round_trip_six :
    ∃ png, pngEncodeRgb565 true true (some sixPixels) 2 3 4 = some png ∧
      png.length ≤ outCap 2 3 ∧
      decodePng png = some ⟨2, 3, [[⟨255, 0, 0⟩, ⟨0, 255, 0⟩], [⟨0, 0, 255⟩, ⟨255, 255, 255⟩],
        [⟨0, 0, 0⟩, ⟨255, 0, 0⟩]]⟩ := by
  obtain ⟨png, hpng, hlen, hdecode⟩ :=
    png_encode_round_trip sixPixels 4 (w := 2) (h := 3) (by decide) (by decide) (by decide)
  exact ⟨png, hpng, hlen, hdecode⟩

end CocoEmulator.Net
