/-
  Disk/Image.lean --- disk images and their caches (sv_disk.cpp).

  A mounted drive holds its whole image in a heap block; sectors are read and
  written there, and a flush writes the sectors marked dirty back to the file.

  The card is a map from paths to files; a path names one file.  What the card
  and the heap answer is an input: whether an open, a seek or an allocation
  succeeds, and how much each transfer moves, keyed by the position of the call.

  A copy through a null pointer or past the end of a block is undefined in the
  source.  Here it moves nothing and raises the flag `wild`.

  Not modelled: the drive lock (every function here is one step of the drive
  table) and the debug prints.
-/
import CocoEmulator.Base.Bytes
import CocoEmulator.Base.Words

set_option autoImplicit false

namespace CocoEmulator.Disk

open CocoEmulator.Base

/-- `DISK_SECTOR_SIZE`. -/
def diskSectorSize : Nat := 256

/-- `DISK_SECTORS`. -/
def diskSectors : Nat := 18

/-- `DISK_TRACKS`. -/
def diskTracks : Nat := 35

/-! ## Images -/

/-- An allocated heap block. -/
structure Block where
  size : Nat
  byte : Nat → Byte

/-- `SV_DiskImage`.  `dirtyMap` has one flag per sector. -/
structure Image where
  path : List Char := []
  mounted : Bool := false
  dirty : Bool := false
  readOnly : Bool := false
  tracks : Nat := diskTracks
  sectorsPerTrack : Nat := diskSectors
  sectorSize : Nat := diskSectorSize
  sides : Nat := 1
  headerSize : Nat := 0
  imageSize : Nat := 0
  cache : Option Block := none
  cacheSize : Nat := 0
  dirtyMap : Option (Nat → Bool) := none

/-- `sv_disk_mark_dirty`. -/
def svDiskMarkDirty (img : Image) (off len : Nat) : Image :=
  { img with
    dirty := true
    dirtyMap := img.dirtyMap.map fun map s =>
      map s || (len != 0 && decide (off / diskSectorSize ≤ s) &&
        decide (s ≤ (off + len - 1) / diskSectorSize)) }

/-- `sector_offset`; `none` is `UINT32_MAX`. -/
def sectorOffset (img : Image) (track side sector : Nat) : Option Nat :=
  if sector < 1 ∨ img.sectorsPerTrack < sector then none
  else if img.tracks ≤ track then none
  else if img.sides ≤ side then none
  else
    some ((track * img.sides + side) * img.sectorsPerTrack * img.sectorSize +
      (sector - 1) * img.sectorSize)

/-- Does `[off, off + sector_size)` lie in the cache size? -/
def inCache (img : Image) (off : Nat) : Bool := off + img.sectorSize ≤ img.cacheSize

/-- `memcpy(cache + off, src, len)`. -/
def copyIn (cache : Option Block) (off len : Nat) (src : Nat → Byte) : Option Block :=
  cache.map fun b => { b with byte := splice b.byte off len src }

/-- Is a copy of this range to or from this block defined? -/
def copyDefined (cache : Option Block) (off len : Nat) : Bool :=
  match cache with
  | some b => off + len ≤ b.size
  | none => false

/-! ## Geometry -/

/-- `a - b` in 32 bits. -/
def sub32 (a b : Nat) : Nat := (2 ^ 32 - b + a) % 2 ^ 32

/-- `strrchr(path, '.')`. -/
def extension (path : List Char) : Option (List Char) :=
  if path.contains '.' then some ('.' :: (path.reverse.takeWhile (· != '.')).reverse) else none

/-- Is the extension `.vdk`, in either case? -/
def isVdk (path : List Char) : Bool :=
  match extension path with
  | some ext => ext.map Char.toLower == ['.', 'v', 'd', 'k']
  | none => false

/-- `header_size`: a VDK header, or for JVC the remainder of the size. -/
def imageHeader (img : Image) : Nat :=
  if isVdk img.path then 12 else img.imageSize % diskSectorSize

/-- `data_size`.  For VDK the header is taken off twice. -/
def imageData (img : Image) : Nat :=
  sub32 (if isVdk img.path then sub32 img.imageSize 12 else img.imageSize) (imageHeader img)

/-- Sides and tracks from the number of tracks of data; none, or more than the fields
hold, is refused. -/
def setTracks (linearTracks : Nat) (img : Image) : Bool × Image :=
  if linearTracks = 0 then (false, img)
  else if 2 * 255 < linearTracks then (false, img)
  else if 40 < linearTracks then (true, { img with sides := 2, tracks := linearTracks / 2 })
  else (true, { img with sides := 1, tracks := linearTracks })

/-- `sv_disk_detect_geometry`: its result, and the fields it has set by then. -/
def svDiskDetectGeometry (img : Image) : Bool × Image :=
  setTracks (imageData img / (diskSectors * diskSectorSize))
    { img with
      headerSize := imageHeader img
      sectorSize := diskSectorSize
      sectorsPerTrack := diskSectors }

/-! ## Files -/

structure SdFile where
  size : Nat
  byte : Nat → Byte

/-- The card: what each path names. -/
abbrev Card : Type := List Char → Option SdFile

/-- What the card answers during a flush: the open, the seek to the run of sectors
that starts at `first`, and the write at cache position `pos`. -/
structure FlushIo where
  opens : Bool := true
  seeks : Nat → Bool := fun _ => true
  wrote : Nat → Nat := fun _ => 512

/-- An open file and its position, and whether a copy went astray. -/
structure Handle where
  file : SdFile
  pos : Nat := 0
  wild : Bool := false

/-- `file.write`: past the end the file grows. -/
def Handle.write (h : Handle) (n : Nat) (src : Nat → Byte) : Handle :=
  { h with
    file := ⟨max h.file.size (h.pos + n), splice h.file.byte h.pos n src⟩
    pos := h.pos + n }

/-- The size of the bounce buffers. -/
def bounceSize : Nat := 512

/-- The loop of `flush_run`, from cache position `pos`; `fuel` bounds the calls. -/
def flushLoop (io : FlushIo) (cache : Block) : Nat → Nat → Nat → Handle → Handle
  | 0, _, _, h => h
  | fuel + 1, pos, remaining, h =>
      if remaining = 0 then h
      else
        let chunk := min bounceSize remaining
        let h := { h with wild := h.wild || !copyDefined (some cache) pos chunk }
        let wrote := min (io.wrote pos) chunk
        if wrote = 0 then h
        else flushLoop io cache fuel (pos + wrote) (remaining - wrote)
          (h.write wrote fun k => cache.byte (pos + k))

/-- `flush_run`: write `count` sectors from `first` on. -/
def flushRun (io : FlushIo) (img : Image) (cache : Block) (first count : Nat) (h : Handle) :
    Handle :=
  let pos := first * diskSectorSize
  let remaining := min (count * diskSectorSize) (img.cacheSize - pos)
  let h := if io.seeks first then { h with pos := img.headerSize + pos } else h
  flushLoop io cache remaining pos remaining h

/-- The first sector from `s` on that is not dirty. -/
def runEnd (map : Nat → Bool) : Nat → Nat → Nat
  | 0, s => s
  | fuel + 1, s => if map s then runEnd map fuel (s + 1) else s

/-- The loop of `sv_disk_flush` over `fuel` sectors from `s` on: consecutive dirty
sectors are one run. -/
def flushScan (io : FlushIo) (img : Image) (cache : Block) (map : Nat → Bool) (nsec : Nat) :
    Nat → Nat → Handle → Handle
  | 0, _, h => h
  | fuel + 1, s, h =>
      if nsec ≤ s then h
      else if map s then
        let e := runEnd map (nsec - s) s
        flushScan io img cache map nsec fuel e (flushRun io img cache s (e - s) h)
      else flushScan io img cache map nsec fuel (s + 1) h

/-- What a flush writes once the file is open. -/
def flushFile (io : FlushIo) (img : Image) (cache : Block) (h : Handle) : Handle :=
  let nsec := img.cacheSize / diskSectorSize
  match img.dirtyMap with
  | none => flushRun io img cache 0 nsec h
  | some map => flushScan io img cache map nsec nsec 0 h

/-- An image, the card, and whether a copy went astray. -/
structure Store where
  img : Image
  card : Card
  wild : Bool := false

/-- The file a flush opens: the path the image remembers. -/
def flushTarget (io : FlushIo) (s : Store) : Option (Block × SdFile) :=
  if s.img.mounted && s.img.dirty && !s.img.readOnly && io.opens then
    match s.img.cache, s.card s.img.path with
    | some cache, some file => some (cache, file)
    | _, _ => none
  else none

/-- Replace what a path names. -/
def Card.put (card : Card) (path : List Char) (file : SdFile) : Card :=
  fun p => if p = path then some file else card p

/-- `sv_disk_flush`: both marks are cleared once the file was opened. -/
def svDiskFlush (io : FlushIo) (s : Store) : Store :=
  match flushTarget io s with
  | none => s
  | some (cache, file) =>
      let h := flushFile io s.img cache { file := file }
      { img := { s.img with
          dirty := false, dirtyMap := s.img.dirtyMap.map fun _ _ => false }
        card := s.card.put s.img.path h.file
        wild := s.wild || h.wild }

/-- `sv_disk_eject`. -/
def svDiskEject (io : FlushIo) (s : Store) : Store :=
  if s.img.mounted then
    let s := if s.img.dirty && s.img.cache.isSome then svDiskFlush io s else s
    { s with img := { s.img with
        cache := none
        cacheSize := if s.img.cache.isSome then 0 else s.img.cacheSize
        dirtyMap := none
        mounted := false
        dirty := false
        path := [] } }
  else s

/-! ## Mounting -/

/-- What the card and the heap answer during a mount: the eject of the old image, the
open, the allocation of the cache (either heap) and what the block holds then, the
seek past the header, each read, the allocation of the bitmap, and the write probe. -/
structure MountIo where
  eject : FlushIo := {}
  opens : Bool := true
  alloc : Bool := true
  junk : Nat → Byte := fun _ => 0
  seeks : Bool := true
  got : Nat → Nat := fun _ => 512
  map : Bool := true
  probe : Bool := true

/-- How much a read of at most `chunk` bytes at `total` returns. -/
def MountIo.read (io : MountIo) (file : SdFile) (start total chunk : Nat) : Nat :=
  min (io.got total) (min chunk (file.size - (start + total)))

/-- The load loop, with `total` bytes loaded: a read that returns nothing leaves zeros
in the rest. -/
def loadLoop (io : MountIo) (file : SdFile) (start : Nat) :
    Nat → Nat → Nat → (Nat → Byte) → Nat → Byte
  | 0, _, _, cache => cache
  | fuel + 1, total, remaining, cache =>
      if remaining = 0 then cache
      else
        let got := io.read file start total (min bounceSize remaining)
        if got = 0 then splice cache total remaining fun _ => 0
        else loadLoop io file start fuel (total + got) (remaining - got)
          (splice cache total got fun k => file.byte (start + total + k))

/-- `strncpy(img->path, path, sizeof(img->path) - 1)`. -/
def pathField (path : List Char) : List Char := path.take 255

/-- `cache_size` from the geometry. -/
def geometrySize (img : Image) : Nat :=
  let size := img.tracks * img.sectorsPerTrack * img.sectorSize
  if img.sides = 2 then size * 2 else size

/-- The end of `mount_locked`: the cache is loaded and the drive becomes mounted. -/
def finishMount (io : MountIo) (file : SdFile) (img : Image) : Image :=
  let start := if img.headerSize > 0 && io.seeks then img.headerSize else 0
  { img with
    cache := some ⟨img.cacheSize,
      loadLoop io file start img.cacheSize 0 img.cacheSize io.junk⟩
    dirtyMap := if io.map then some fun _ => false else none
    readOnly := !io.probe
    mounted := true }

/-- The fields set from the open file. -/
def openedImage (path : List Char) (file : SdFile) (img : Image) : Image :=
  { img with
    path := pathField path, imageSize := file.size % 2 ^ 32, readOnly := false, dirty := false }

/-- `mount_locked` once the geometry is known: the cache size is set before the
allocation. -/
def mountSized (io : MountIo) (file : SdFile) (img : Image) : Bool × Image :=
  if io.alloc then (true, finishMount io file { img with cacheSize := geometrySize img })
  else (false, { img with cacheSize := geometrySize img, cache := none })

/-- `mount_locked` once the file is open. -/
def mountFile (io : MountIo) (path : List Char) (file : SdFile) (img : Image) : Bool × Image :=
  let r := svDiskDetectGeometry (openedImage path file img)
  if r.1 then mountSized io file r.2 else (false, r.2)

/-- The drive a mount starts from. -/
def ejectFirst (io : MountIo) (s : Store) : Store :=
  if s.img.mounted then svDiskEject io.eject s else s

/-- `mount_locked`. -/
def mountLocked (io : MountIo) (path : List Char) (s : Store) : Bool × Store :=
  let s := ejectFirst io s
  match (if io.opens then s.card path else none) with
  | none => (false, s)
  | some file =>
      let r := mountFile io path file s.img
      (r.1, { s with img := r.2 })

end CocoEmulator.Disk
