/-
  Storage/BlockFile.lean --- image files read and written in place (blockfile.cpp).

  The file is not held open: it opens on an access and is closed by the idle timer.
  The position after the last access is cached, so that a sequential access of the
  same kind skips the seek.

  The card is a map from paths to files, each an array of bytes; a stream on a file
  has a position and remembers what it did since the last seek.  Whether an open or
  a seek succeeds and how much each transfer moves is an input.  A transfer that
  turns a stream round without a seek is undefined in C: it raises the flag `turned`.

  Not modelled: the buffers between the stream and the card, and the debug prints.
-/
import CocoEmulator.Disk.Image
import CocoEmulator.Base.Run

set_option autoImplicit false

namespace CocoEmulator.Storage

open CocoEmulator.Base CocoEmulator.Disk

/-- `UINT32_MAX`: the position is unknown. -/
def unknown : Nat := 2 ^ 32 - 1

/-- `BLOCKFILE_IDLE_MS`. -/
def blockfileIdleMs : Nat := 3000

/-- An open `File`: its position, and whether it wrote or read since the last seek. -/
structure Stream where
  pos : Nat := 0
  wrote : Option Bool := none

/-- `BlockFile`. -/
structure BlockFile where
  file : Option Stream := none
  path : List Char := []
  size : Nat := 0
  readOnly : Bool := false
  dirty : Bool := false
  lastMs : Nat := 0
  pos : Nat := 0
  lastWrite : Bool := false

/-- A block file with the card. -/
structure Blk where
  bf : BlockFile := {}
  card : Card
  turned : Bool := false

/-- What the card and the clock answer during an access. -/
structure BlkIo where
  opens : Bool := true
  seeks : Bool := true
  moves : Nat → Nat := fun _ => 512
  millis : Nat := 0

/-- `blockfile_is_open`. -/
def blockfileIsOpen (bf : BlockFile) : Bool := bf.path != []

/-- The file a path names. -/
def fileAt (card : Card) (path : List Char) : SdFile := (card path).getD ⟨0, fun _ => 0⟩

/-- The image. -/
def Blk.image (s : Blk) : SdFile := fileAt s.card s.bf.path

/-- `ensure_open`. -/
def ensureOpen (io : BlkIo) (s : Blk) : Bool × Blk :=
  if !blockfileIsOpen s.bf then (false, s)
  else
    let s := { s with bf := { s.bf with lastMs := io.millis } }
    if s.bf.file.isSome then (true, s)
    else if io.opens && (s.card s.bf.path).isSome then
      (true, { s with bf := { s.bf with file := some {}, pos := unknown } })
    else (false, s)

/-- `position`. -/
def position (io : BlkIo) (offset : Nat) (write : Bool) (s : Blk) : Bool × Blk :=
  if s.bf.pos = offset ∧ s.bf.lastWrite = write then (true, s)
  else if io.seeks then
    (true, { s with bf := { s.bf with
      lastWrite := write, file := some { pos := offset }, pos := offset } })
  else (false, { s with bf := { s.bf with lastWrite := write, pos := unknown } })

/-- Where the stream stands. -/
def Blk.at (s : Blk) : Nat := (s.bf.file.getD {}).pos

/-- The stream moves on by `n` bytes, written or read. -/
def Blk.advance (write : Bool) (n : Nat) (s : Blk) : Blk :=
  { s with
    bf := { s.bf with file := some ⟨s.at + n, some write⟩ }
    turned := s.turned || (s.bf.file.getD {}).wrote == some (!write) }

/-- The loop of `blockfile_read`, with `done` bytes read into `buf`. -/
def readLoop (io : BlkIo) : Nat → Nat → Nat → (Nat → Byte) → Blk → Nat × (Nat → Byte) × Blk
  | 0, done, _, buf, s => (done, buf, s)
  | fuel + 1, done, len, buf, s =>
      if len ≤ done then (done, buf, s)
      else
        let got := min (min (io.moves done) (min bounceSize (len - done))) (s.image.size - s.at)
        if got = 0 then (done, buf, s.advance false 0)
        else readLoop io fuel (done + got) len
          (splice buf done got fun k => s.image.byte (s.at + k)) (s.advance false got)

/-- The position after an access that moved `done` of `len` bytes. -/
def posAfter (offset done len : Nat) : Nat :=
  if done = len then (offset + done) % 2 ^ 32 else unknown

/-- `blockfile_read`: the bytes read, and what is in the buffer. -/
def blockfileRead (io : BlkIo) (offset : Nat) (buf : Nat → Byte) (len : Nat) (s : Blk) :
    Nat × (Nat → Byte) × Blk :=
  if s.bf.size ≤ offset then (0, buf, s)
  else
    let r := ensureOpen io s
    if !r.1 then (0, buf, r.2)
    else
      let len := min len (s.bf.size - offset)
      let r := position io offset false r.2
      if !r.1 then (0, buf, r.2)
      else
        let (done, buf, s) := readLoop io len 0 len buf r.2
        (done, buf, { s with bf := { s.bf with pos := posAfter offset done len } })

/-- `file.write`: past the end the file grows. -/
def fileWrite (f : SdFile) (pos n : Nat) (src : Nat → Byte) : SdFile :=
  ⟨max f.size (pos + n), splice f.byte pos n src⟩

/-- The loop of `blockfile_write`, with `done` bytes written. -/
def writeLoop (io : BlkIo) : Nat → Nat → Nat → (Nat → Byte) → Blk → Nat × Blk
  | 0, done, _, _, s => (done, s)
  | fuel + 1, done, len, buf, s =>
      if len ≤ done then (done, s)
      else
        let wrote := min (io.moves done) (min bounceSize (len - done))
        if wrote = 0 then (done, s.advance true 0)
        else
          let file := fileWrite s.image s.at wrote fun k => buf (done + k)
          writeLoop io fuel (done + wrote) len buf
            { s.advance true wrote with card := s.card.put s.bf.path file }

/-- What `blockfile_write` notes of what it moved. -/
def noteWrite (offset done : Nat) (bf : BlockFile) : BlockFile :=
  if done = 0 then bf
  else { bf with dirty := true, size := max bf.size ((offset + done) % 2 ^ 32) }

/-- `blockfile_write`. -/
def blockfileWrite (io : BlkIo) (offset : Nat) (buf : Nat → Byte) (len : Nat) (s : Blk) :
    Nat × Blk :=
  if s.bf.readOnly then (0, s)
  else
    let r := ensureOpen io s
    if !r.1 then (0, r.2)
    else
      let r := position io offset true r.2
      if !r.1 then (0, r.2)
      else
        let (done, s) := writeLoop io len 0 len buf r.2
        (done, { s with bf := noteWrite offset done { s.bf with pos := posAfter offset done len } })

/-- `blockfile_flush`. -/
def blockfileFlush (bf : BlockFile) : BlockFile :=
  if bf.file.isSome && bf.dirty then { bf with dirty := false } else bf

/-- `blockfile_tick`: the idle time is counted in 32 bits. -/
def blockfileTick (nowMs : Nat) (bf : BlockFile) : BlockFile :=
  if bf.file.isNone then bf
  else if sub32 nowMs bf.lastMs < blockfileIdleMs then bf
  else { blockfileFlush bf with file := none }

/-- `blockfile_close`. -/
def blockfileClose (bf : BlockFile) : BlockFile :=
  { bf with file := none, path := [], size := 0, readOnly := false, dirty := false }

/-- What the card answers during a mount: the open for writing, the open for reading, and
whether the path is that of a directory. -/
structure OpenIo where
  writes : Bool := true
  reads : Bool := true
  directory : Bool := false
  millis : Nat := 0

/-- `blockfile_open`. -/
def blockfileOpen (io : OpenIo) (path : List Char) (card : Card) (bf : BlockFile) :
    Bool × BlockFile :=
  let bf := blockfileClose bf
  match card path with
  | none => (false, bf)
  | some file =>
      if (!io.writes && !io.reads) || io.directory then (false, bf)
      else
        (true, { bf with
          size := file.size % 2 ^ 32
          path := pathField path
          readOnly := !io.writes
          dirty := false
          lastMs := io.millis })

end CocoEmulator.Storage
