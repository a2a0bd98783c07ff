/-
  Base/Png.lean --- a decoder for truecolour PNG images in stored blocks.

  Three formats lie inside one another.  A PNG is a signature and chunks, each with
  its length and a CRC-32 of its type and data.  The data of the IDAT chunk is a
  zlib stream: a header, deflate blocks, and an Adler-32 of what they hold.  A
  stored block carries its length, and the complement of it.

  The decoder accepts what has all of that right, reads one chunk of each kind, and
  rows without a filter.  `chunkBytes` and `blockBytes` are what it reads back.

      readChunk_chunkBytes, inflateStored_last, inflateStored_more
      zlibDecode_stream, readRows_rows
      decodePng_chunks   a PNG put together from its parts decodes

  This file names nothing of the emulator.
-/
import CocoEmulator.Base.Checksum

set_option autoImplicit false

namespace CocoEmulator.Base

/-- Split off the first `n` bytes, if there are as many. -/
def splitOff (n : Nat) (bs : List (BitVec 8)) : Option (List (BitVec 8) × List (BitVec 8)) :=
  if n ≤ bs.length then some (bs.take n, bs.drop n) else none

/-- The number that bytes spell, most significant first. -/
def beNat (bs : List (BitVec 8)) : Nat := bs.foldl (fun n b => 256 * n + b.toNat) 0

/-- Four bytes, most significant first. -/
def be32 (n : Nat) : List (BitVec 8) :=
  [BitVec.ofNat 8 (n / 2 ^ 24), BitVec.ofNat 8 (n / 2 ^ 16), BitVec.ofNat 8 (n / 2 ^ 8),
    BitVec.ofNat 8 n]

/-! ## Chunks -/

structure Chunk where
  type : List (BitVec 8)
  data : List (BitVec 8)

/-- Read a chunk, and check its CRC. -/
def readChunk (bs : List (BitVec 8)) : Option (Chunk × List (BitVec 8)) := do
  let (len, bs) ← splitOff 4 bs
  let (body, bs) ← splitOff (4 + beNat len) bs
  let (crc, bs) ← splitOff 4 bs
  if beNat crc = (crc32 body).toNat then some (⟨body.take 4, body.drop 4⟩, bs) else none

/-- A chunk with its length and its CRC. -/
def chunkBytes (c : Chunk) : List (BitVec 8) :=
  be32 c.data.length ++ (c.type ++ c.data) ++ be32 (crc32 (c.type ++ c.data)).toNat

/-! ## Streams -/

/-- Read stored blocks up to the last one.  A block holds at least a byte. -/
def inflateStored : Nat → List (BitVec 8) → Option (List (BitVec 8) × List (BitVec 8))
  | fuel + 1, head :: l₀ :: l₁ :: n₀ :: n₁ :: bs =>
    if head >>> 1 &&& 3 ≠ 0 ∨ n₀ ≠ ~~~l₀ ∨ n₁ ≠ ~~~l₁ ∨ l₀.toNat + 256 * l₁.toNat = 0 then none
    else do
      let (data, bs) ← splitOff (l₀.toNat + 256 * l₁.toNat) bs
      if head.getLsbD 0 then some (data, bs)
      else do
        let (more, bs) ← inflateStored fuel bs
        some (data ++ more, bs)
  | _, _ => none

/-- A stored block. -/
def blockBytes (last : Bool) (data : List (BitVec 8)) : List (BitVec 8) :=
  let l₀ := BitVec.ofNat 8 data.length
  let l₁ := BitVec.ofNat 8 (data.length / 256)
  (if last then 1 else 0) :: l₀ :: l₁ :: ~~~l₀ :: ~~~l₁ :: data

/-- Read a zlib stream: deflate, a window of at most 32 KB, no dictionary, a header divisible
by 31, and the Adler-32 of the data at the end. -/
def zlibDecode (bs : List (BitVec 8)) : Option (List (BitVec 8)) :=
  match bs with
  | cmf :: flg :: bs =>
    if cmf &&& 0x0F ≠ 8 ∨ 7 < (cmf >>> 4).toNat ∨ flg &&& 0x20 ≠ 0 ∨
        (256 * cmf.toNat + flg.toNat) % 31 ≠ 0 then none
    else do
      let (data, bs) ← inflateStored bs.length bs
      if bs.length = 4 ∧ beNat bs = adler32 data then some data else none
  | _ => none

/-! ## Images -/

structure Rgb where
  r : BitVec 8
  g : BitVec 8
  b : BitVec 8
  deriving DecidableEq, Repr

def Rgb.bytes (p : Rgb) : List (BitVec 8) := [p.r, p.g, p.b]

structure Image where
  width : Nat
  height : Nat
  rows : List (List Rgb)

def readPixels : Nat → List (BitVec 8) → Option (List Rgb × List (BitVec 8))
  | 0, bs => some ([], bs)
  | n + 1, r :: g :: b :: bs => do
    let (ps, bs) ← readPixels n bs
    some (⟨r, g, b⟩ :: ps, bs)
  | _, _ => none

/-- Rows without a filter. -/
def readRows (width : Nat) : Nat → List (BitVec 8) → Option (List (List Rgb))
  | 0, [] => some []
  | n + 1, filter :: bs =>
    if filter ≠ 0 then none
    else do
      let (row, bs) ← readPixels width bs
      let rows ← readRows width n bs
      some (row :: rows)
  | _, _ => none

/-- Width and height, of an image with 8 bits a channel, truecolour, not interlaced. -/
def readHeader (data : List (BitVec 8)) : Option (Nat × Nat) := do
  let (width, data) ← splitOff 4 data
  let (height, data) ← splitOff 4 data
  if data = [8, 2, 0, 0, 0] ∧ 0 < beNat width ∧ 0 < beNat height then
    some (beNat width, beNat height)
  else none

/-- `\x89PNG\r\n\x1A\n` -/
def pngSignature : List (BitVec 8) := [137, 80, 78, 71, 13, 10, 26, 10]

/-- `IHDR` -/
def typeIhdr : List (BitVec 8) := [0x49, 0x48, 0x44, 0x52]
/-- `IDAT` -/
def typeIdat : List (BitVec 8) := [0x49, 0x44, 0x41, 0x54]
/-- `IEND` -/
def typeIend : List (BitVec 8) := [0x49, 0x45, 0x4E, 0x44]

/-- Read the chunk of a type. -/
def readTyped (type : List (BitVec 8)) (bs : List (BitVec 8)) :
    Option (List (BitVec 8) × List (BitVec 8)) := do
  let (c, bs) ← readChunk bs
  if c.type = type then some (c.data, bs) else none

/-- Decode a PNG. -/
def decodePng (bs : List (BitVec 8)) : Option Image := do
  let (signature, bs) ← splitOff 8 bs
  if signature ≠ pngSignature then none
  else do
    let (header, bs) ← readTyped typeIhdr bs
    let (stream, bs) ← readTyped typeIdat bs
    let (trailer, bs) ← readTyped typeIend bs
    let (width, height) ← readHeader header
    let raw ← zlibDecode stream
    let rows ← readRows width height raw
    if trailer = [] ∧ bs = [] then some ⟨width, height, rows⟩ else none

/-! ## What is written is read back -/

theorem splitOff_append {n : Nat} {as : List (BitVec 8)} (h : as.length = n) (bs : List (BitVec 8)) :
    splitOff n (as ++ bs) = some (as, bs) := by
  unfold splitOff
  rw [List.length_append, if_pos (by omega), ← h, List.take_left, List.drop_left]

theorem length_be32 (n : Nat) : (be32 n).length = 4 := rfl

theorem beNat_be32 {n : Nat} (h : n < 2 ^ 32) : beNat (be32 n) = n := by
  unfold beNat be32
  simp only [List.foldl_cons, List.foldl_nil, BitVec.toNat_ofNat]
  omega

theorem length_chunkBytes {c : Chunk} (htype : c.type.length = 4) :
    (chunkBytes c).length = 12 + c.data.length := by
  unfold chunkBytes
  simp only [List.length_append, length_be32, htype]
  omega

theorem readChunk_chunkBytes {c : Chunk} (htype : c.type.length = 4) (hlen : c.data.length < 2 ^ 32)
    (bs : List (BitVec 8)) : readChunk (chunkBytes c ++ bs) = some (c, bs) := by
  have hcrc := (crc32 (c.type ++ c.data)).isLt
  unfold readChunk chunkBytes
  rw [List.append_assoc, List.append_assoc, splitOff_append (length_be32 _)]
  dsimp only [Option.bind_eq_bind, Option.bind_some]
  rw [beNat_be32 hlen, splitOff_append (by rw [List.length_append, htype])]
  dsimp only [Option.bind_some]
  rw [splitOff_append (length_be32 _)]
  dsimp only [Option.bind_some]
  rw [beNat_be32 hcrc, if_pos rfl, ← htype, List.take_left, List.drop_left]

theorem readTyped_chunkBytes {c : Chunk} (htype : c.type.length = 4)
    (hlen : c.data.length < 2 ^ 32) (bs : List (BitVec 8)) :
    readTyped c.type (chunkBytes c ++ bs) = some (c.data, bs) := by
  unfold readTyped
  rw [readChunk_chunkBytes htype hlen]
  exact if_pos rfl

section

variable {data : List (BitVec 8)}

theorem blockLength (h : data.length ≤ 65535) :
    (BitVec.ofNat 8 data.length).toNat + 256 * (BitVec.ofNat 8 (data.length / 256)).toNat =
      data.length := by
  rw [BitVec.toNat_ofNat, BitVec.toNat_ofNat]
  omega

theorem inflateStored_block {last : Bool} (fuel : Nat) (h : 1 ≤ data.length)
    (h' : data.length ≤ 65535) (bs : List (BitVec 8)) :
    inflateStored (fuel + 1) (blockBytes last data ++ bs) =
      if last then some (data, bs)
      else (inflateStored fuel bs).bind fun m => some (data ++ m.1, m.2) := by
  have hlen := blockLength h'
  have hempty : ¬(BitVec.ofNat 8 data.length).toNat +
      256 * (BitVec.ofNat 8 (data.length / 256)).toNat = 0 := by omega
  have hstored : (if last then 1 else 0 : BitVec 8) >>> 1 &&& 3 = 0 := by cases last <;> rfl
  have hlast : (if last then 1 else 0 : BitVec 8).getLsbD 0 = last := by cases last <;> rfl
  unfold blockBytes
  dsimp only [List.cons_append]
  conv =>
    lhs
    unfold inflateStored
  rw [if_neg (by simp only [hstored, hempty, ne_eq, not_true, or_self, not_false_eq_true]), hlast,
    splitOff_append hlen.symm]
  rfl

theorem inflateStored_last (fuel : Nat) (h : 1 ≤ data.length) (h' : data.length ≤ 65535)
    (bs : List (BitVec 8)) :
    inflateStored (fuel + 1) (blockBytes true data ++ bs) = some (data, bs) :=
  inflateStored_block fuel h h' bs

theorem inflateStored_more {fuel : Nat} {more bs bs' : List (BitVec 8)} (h : 1 ≤ data.length)
    (h' : data.length ≤ 65535) (hmore : inflateStored fuel bs = some (more, bs')) :
    inflateStored (fuel + 1) (blockBytes false data ++ bs) = some (data ++ more, bs') := by
  rw [inflateStored_block fuel h h', hmore]
  rfl

end

/-- A stream of blocks and the checksum of what they hold. -/
theorem zlibDecode_stream {blocks data : List (BitVec 8)}
    (h : inflateStored (blocks ++ be32 (adler32 data)).length (blocks ++ be32 (adler32 data)) =
      some (data, be32 (adler32 data))) (hlt : adler32 data < 2 ^ 32) :
    zlibDecode (0x78 :: 0x01 :: (blocks ++ be32 (adler32 data))) = some data := by
  unfold zlibDecode
  dsimp only
  rw [if_neg (by decide), h]
  dsimp only [Option.bind_eq_bind, Option.bind_some]
  exact if_pos ⟨length_be32 _, beNat_be32 hlt⟩

theorem readPixels_row (row : List Rgb) (bs : List (BitVec 8)) :
    readPixels row.length (row.flatMap Rgb.bytes ++ bs) = some (row, bs) := by
  induction row with
  | nil => rfl
  | cons p row ih =>
    rw [List.flatMap_cons, List.append_assoc]
    unfold Rgb.bytes
    change readPixels (row.length + 1) (p.r :: p.g :: p.b :: (row.flatMap Rgb.bytes ++ bs)) = _
    unfold readPixels
    rw [ih]
    rfl

/-- A filter byte of zero before each row. -/
def rowBytes (row : List Rgb) : List (BitVec 8) := 0 :: row.flatMap Rgb.bytes

theorem readRows_rows {width : Nat} (rows : List (List Rgb)) (h : ∀ row ∈ rows, row.length = width) :
    readRows width rows.length (rows.flatMap rowBytes) = some rows := by
  induction rows with
  | nil => rfl
  | cons row rows ih =>
    rw [List.flatMap_cons]
    change readRows width (rows.length + 1) (0 :: (row.flatMap Rgb.bytes ++ rows.flatMap rowBytes)) = _
    unfold readRows
    rw [if_neg (by decide), ← h row List.mem_cons_self, readPixels_row]
    dsimp only [Option.bind_eq_bind, Option.bind_some]
    rw [h row List.mem_cons_self, ih fun r hr => h r (List.mem_cons_of_mem row hr)]
    rfl

theorem readHeader_bytes {width height : Nat} (hw : 0 < width) (hw' : width < 2 ^ 32)
    (hh : 0 < height) (hh' : height < 2 ^ 32) :
    readHeader (be32 width ++ be32 height ++ [8, 2, 0, 0, 0]) = some (width, height) := by
  unfold readHeader
  rw [List.append_assoc, splitOff_append (length_be32 _)]
  dsimp only [Option.bind_eq_bind, Option.bind_some]
  rw [splitOff_append (length_be32 _)]
  dsimp only [Option.bind_some]
  rw [beNat_be32 hw', beNat_be32 hh']
  exact if_pos ⟨rfl, hw, hh⟩

/-- A PNG put together from its parts decodes. -/
theorem decodePng_chunks {width height : Nat} {stream raw : List (BitVec 8)} {rows : List (List Rgb)}
    (hw : 0 < width) (hw' : width < 2 ^ 32) (hh : 0 < height) (hh' : height < 2 ^ 32)
    (hstream : stream.length < 2 ^ 32) (hraw : zlibDecode stream = some raw)
    (hrows : readRows width height raw = some rows) :
    decodePng (pngSignature ++
        chunkBytes ⟨typeIhdr, be32 width ++ be32 height ++ [8, 2, 0, 0, 0]⟩ ++
        chunkBytes ⟨typeIdat, stream⟩ ++ chunkBytes ⟨typeIend, []⟩) =
      some ⟨width, height, rows⟩ := by
  have hheader : (be32 width ++ be32 height ++ [8, 2, 0, 0, 0]).length < 2 ^ 32 := by
    change 13 < 2 ^ 32
    decide
  have hsignature : pngSignature.length = 8 := rfl
  have hihdr (bs : List (BitVec 8)) := @readTyped_chunkBytes
    ⟨typeIhdr, be32 width ++ be32 height ++ [8, 2, 0, 0, 0]⟩ rfl hheader bs
  have hidat (bs : List (BitVec 8)) := @readTyped_chunkBytes ⟨typeIdat, stream⟩ rfl hstream bs
  have hiend := @readTyped_chunkBytes ⟨typeIend, []⟩ rfl (by decide) []
  unfold decodePng
  rw [List.append_assoc, List.append_assoc, splitOff_append hsignature]
  dsimp only [Option.bind_eq_bind, Option.bind_some]
  rw [if_neg (fun h => h rfl), hihdr]
  dsimp only [Option.bind_some]
  rw [hidat]
  dsimp only [Option.bind_some]
  rw [← List.append_nil (chunkBytes ⟨typeIend, []⟩), hiend]
  dsimp only [Option.bind_some]
  rw [readHeader_bytes hw hw' hh hh']
  dsimp only [Option.bind_some]
  rw [hraw]
  dsimp only [Option.bind_some]
  rw [hrows]
  rfl

end CocoEmulator.Base
