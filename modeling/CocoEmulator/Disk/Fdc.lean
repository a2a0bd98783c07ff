/-
  Disk/Fdc.lean --- the WD1793 disk controller (sv_disk.cpp, `$FF40-$FF5F`).

  Sectors move between the data register and the sector buffer one byte at a
  time; the buffer is exchanged with the cache of the selected drive at once: on
  the first data read of a READ SECTOR, on the last data write of a WRITE SECTOR,
  and at the end of each data field of a WRITE TRACK.

  `signal_nmi` and `signal_halt` call back into the CPU; the supervisor wires them
  to `mc6809_nmi` and to `cpu->halted` before anything else runs, so here they
  store into the CPU's lines directly.

  The fields of `SV_DiskController` are grouped by what they belong to.
  `sv_disk_reset`, which nothing calls, is in Disk/Transfer.lean.
-/
import CocoEmulator.Cpu.State
import CocoEmulator.Disk.Image

set_option autoImplicit false

namespace CocoEmulator.Disk

open CocoEmulator.Base CocoEmulator.Cpu

/-! ## State -/

/-- The states of the WRITE TRACK decoder: `WT_IDLE`, `WT_ID_FIELD`, `WT_WAIT_DAM`,
`WT_DATA_FIELD`. -/
inductive WtState
  | idle
  | idField
  | waitDam
  | dataField
  deriving DecidableEq, Repr, Inhabited

/-- `WT_TRACK_BYTES`. -/
def wtTrackBytes : Nat := 6250

/-- A drive number. -/
abbrev Drive : Type := Fin 4

abbrev drive0 : Drive := 0

/-- The registers of the chip, and the direction of the last step. -/
structure FdcRegs where
  command : Byte := 0
  status : Byte := 0x04
  track : Byte := 0
  sector : Byte := 0
  data : Byte := 0
  stepDirection : Int := -1

/-- The drive select latch (DSKREG). -/
structure Latch where
  driveSelect : Drive := drive0
  motorOn : Bool := false
  haltEnable : Bool := false
  density : Bool := false
  side : Nat := 0
  deriving DecidableEq

/-- The outputs of the chip; `intrqDefer` counts down to INTRQ. -/
structure Flow where
  busy : Bool := false
  drq : Bool := false
  intrq : Bool := false
  intrqDefer : Nat := 0
  deriving DecidableEq

/-- The sector buffer and the transfer that uses it. -/
structure Xfer where
  sectorBuf : Nat → Byte := fun _ => 0
  bufPos : Nat := 0
  bufLen : Nat := 0
  reading : Bool := false
  readPending : Bool := false
  writing : Bool := false
  writeTrack : Bool := false

/-- The decoder of WRITE TRACK. -/
structure Wt where
  state : WtState := .idle
  f5Count : Nat := 0
  idPos : Nat := 0
  idSector : Byte := 0
  dataPos : Nat := 0
  byteCount : Nat := 0
  deriving DecidableEq

/-- `SV_DiskController`, as `sv_disk_init` leaves it. -/
structure Fdc where
  regs : FdcRegs := {}
  latch : Latch := {}
  flow : Flow := {}
  xfer : Xfer := {}
  wt : Wt := {}
  drives : Drive → Image := fun _ => {}

/-- The controller with what it drives: the CPU's lines and the card.  `wild` says that
some copy to or from a cache was not defined. -/
structure Controller where
  fdc : Fdc := {}
  pins : Pins := {}
  card : Card
  wild : Bool := false

/-- `drives[drive_select]`. -/
def Fdc.selected (f : Fdc) : Image := f.drives f.latch.driveSelect

def Fdc.setDrive (d : Drive) (img : Image) (f : Fdc) : Fdc :=
  { f with drives := Function.update f.drives d img }

/-- The address in the registers, with the given sector number, on the selected drive. -/
def Fdc.offset (f : Fdc) (sector : Byte) : Option Nat :=
  sectorOffset f.selected f.regs.track.toNat f.latch.side sector.toNat

/-- Update the registers of the controller. -/
def Controller.onFdc (g : Fdc → Fdc) (c : Controller) : Controller := { c with fdc := g c.fdc }

def Controller.onRegs (g : FdcRegs → FdcRegs) : Controller → Controller :=
  Controller.onFdc fun f => { f with regs := g f.regs }

def Controller.onFlow (g : Flow → Flow) : Controller → Controller :=
  Controller.onFdc fun f => { f with flow := g f.flow }

def Controller.onXfer (g : Xfer → Xfer) : Controller → Controller :=
  Controller.onFdc fun f => { f with xfer := g f.xfer }

def Controller.onWt (g : Wt → Wt) : Controller → Controller :=
  Controller.onFdc fun f => { f with wt := g f.wt }

/-! ## Lines -/

def signalHalt (halted : Bool) (c : Controller) : Controller :=
  { c with pins := { c.pins with halted := halted } }

def signalNmi (active : Bool) (c : Controller) : Controller :=
  { c with pins := nmi active c.pins }

/-- NMI follows INTRQ while the density bit lets it through. -/
def gateNmi (c : Controller) : Controller :=
  signalNmi (!c.fdc.latch.density && c.fdc.flow.intrq) c

/-- Asserting INTRQ releases the CPU. -/
def releaseHalt (c : Controller) : Controller :=
  signalHalt false (c.onFdc fun f => { f with latch := { f.latch with haltEnable := false } })

/-- `set_intrq`. -/
def setIntrq (value : Bool) (c : Controller) : Controller :=
  let c := c.onFlow fun s => { s with intrq := value }
  gateNmi (if value then releaseHalt c else c)

/-- `set_drq`. -/
def setDrq (value : Bool) (c : Controller) : Controller :=
  let c := c.onFlow fun s => { s with drq := value }
  if value then signalHalt false c
  else if c.fdc.latch.haltEnable then signalHalt true c
  else c

/-! ## Commands -/

/-- No transfer. -/
def Xfer.stop (x : Xfer) : Xfer :=
  { x with reading := false, readPending := false, writing := false, writeTrack := false }

/-- What every command starts with: the transfer of the one before is dropped. -/
def beginCommand (cmd : Byte) (f : Fdc) : Fdc :=
  { f with
    xfer := f.xfer.stop
    flow := { f.flow with drq := false, intrqDefer := 0, busy := true }
    regs := { f.regs with command := cmd, status := 0x01 } }

/-- Add NOT READY where no image is mounted. -/
def notReady (f : Fdc) (status : Byte) : Byte :=
  if f.selected.mounted then status else status ||| 0x80

/-- End a command that transfers nothing. -/
def finish (status : Byte) (f : Fdc) : Fdc :=
  { f with regs := { f.regs with status := status }, flow := { f.flow with busy := false } }

/-- Ask for the first byte of a transfer. -/
def request (x : Xfer) (f : Fdc) : Fdc :=
  { f with
    xfer := x, regs := { f.regs with status := 0x03 }, flow := { f.flow with drq := true } }

/-- End a type I command: TRACK 0 and NOT READY in the status. -/
def finishTypeI (f : Fdc) : Fdc :=
  finish (notReady f (if f.regs.track = 0 then 0x04 else 0x00)) f

def restore (f : Fdc) : Fdc :=
  finishTypeI { f with regs := { f.regs with track := 0, stepDirection := -1 } }

def seek (f : Fdc) : Fdc :=
  finishTypeI { f with regs := { f.regs with track := f.regs.data } }

/-- The direction of STEP, STEP IN and STEP OUT. -/
def stepDir (cmd : Byte) (r : FdcRegs) : Int :=
  if 0x40 ≤ cmd ∧ cmd < 0x60 then 1 else if 0x60 ≤ cmd then -1 else r.stepDirection

def stepTrack (cmd : Byte) (r : FdcRegs) : Byte :=
  if cmd &&& 0x10 ≠ 0 then
    BitVec.ofInt 8 (max 0 (min 79 ((r.track.toNat : Int) + stepDir cmd r)))
  else r.track

/-- STEP, STEP IN and STEP OUT. -/
def step (cmd : Byte) (f : Fdc) : Fdc :=
  finishTypeI { f with regs := { f.regs with
    stepDirection := stepDir cmd f.regs, track := stepTrack cmd f.regs } }

/-- Is there an image to transfer to or from? -/
def ready (f : Fdc) : Bool := f.selected.mounted && f.selected.cache.isSome

/-- READ SECTOR: the sector is loaded by the first data read. -/
def readSector (f : Fdc) : Fdc :=
  if ready f then
    request { f.xfer with
      bufPos := 0, bufLen := f.selected.sectorSize, reading := true, readPending := true } f
  else finish 0x80 f

def writeSector (f : Fdc) : Fdc :=
  if !ready f then finish 0x80 f
  else if f.selected.readOnly then finish 0x40 f
  else request { f.xfer with bufPos := 0, bufLen := f.selected.sectorSize, writing := true } f

/-- The six bytes of READ ADDRESS. -/
def addressField (f : Fdc) (i : Nat) : Byte :=
  match i with
  | 0 => f.regs.track
  | 1 => BitVec.ofNat 8 f.latch.side
  | 2 => f.regs.sector
  | 3 => 0x01
  | _ => 0x00

/-- READ ADDRESS also puts the track into the data and the sector register. -/
def readAddress (f : Fdc) : Fdc :=
  request { f.xfer with
    sectorBuf := splice f.xfer.sectorBuf 0 6 (addressField f)
    bufPos := 0, bufLen := 6, reading := true }
    { f with regs := { f.regs with data := f.regs.track, sector := f.regs.track } }

def readTrack (f : Fdc) : Fdc := finish 0x00 f

def writeTrackCommand (f : Fdc) : Fdc :=
  if !ready f then finish 0x80 f
  else if f.selected.readOnly then finish 0x40 f
  else request { f.xfer with writeTrack := true } { f with wt := { idSector := 1 } }

def forceInterrupt (f : Fdc) : Fdc := finishTypeI f

/-- The command's type, `cmd & 0xF0`. -/
def commandBody (cmd : Byte) (f : Fdc) : Fdc :=
  match (cmd >>> 4).toNat with
  | 0x0 => restore f
  | 0x1 => seek f
  | 0x8 => readSector f
  | 0x9 => readSector f
  | 0xA => writeSector f
  | 0xB => writeSector f
  | 0xC => readAddress f
  | 0xD => forceInterrupt f
  | 0xE => readTrack f
  | 0xF => writeTrackCommand f
  | _ => step cmd f

/-- Does INTRQ rise with the command?  It does where nothing is to be transferred; FORCE
INTERRUPT raises it only on bit 3. -/
def raisesIntrq (cmd : Byte) (f : Fdc) : Bool :=
  if cmd &&& 0xF0 = 0xD0 then cmd &&& 0x08 != 0 else !f.flow.busy

/-- `fdc_execute_command`. -/
def fdcExecuteCommand (cmd : Byte) (c : Controller) : Controller :=
  let c := c.onFdc fun f => commandBody cmd (beginCommand cmd f)
  if raisesIntrq cmd c.fdc then setIntrq true c else c

/-! ## Data register -/

/-- `memcpy(sector_buf, cache + off, sector_size)`. -/
def copyFromCache (off : Nat) (c : Controller) : Controller :=
  match c.fdc.selected.cache with
  | none => { c with wild := true }
  | some b =>
      { c.onXfer fun x => { x with
          sectorBuf := splice x.sectorBuf 0 c.fdc.selected.sectorSize fun i => b.byte (off + i) }
        with wild := c.wild || !copyDefined (some b) off c.fdc.selected.sectorSize }

/-- The end of a transfer. -/
def endTransfer (x : Xfer) (status : Byte) (f : Fdc) : Fdc :=
  { f with
    xfer := x
    flow := { f.flow with drq := false, busy := false }
    regs := { f.regs with status := status } }

def endRead (status : Byte) (f : Fdc) : Fdc :=
  endTransfer { f.xfer with reading := false } status f

def endWrite (status : Byte) (f : Fdc) : Fdc :=
  endTransfer { f.xfer with writing := false } status f

def endWriteTrack (f : Fdc) : Fdc := endTransfer { f.xfer with writeTrack := false } 0x00 f

/-- The offset of the addressed sector, if the bounds check lets it through. -/
def Fdc.loadOffset (f : Fdc) : Option Nat :=
  match f.offset f.regs.sector with
  | some off => if inCache f.selected off then some off else none
  | none => none

/-- Hand out the byte in the data register and fetch the next one.  After the last byte
INTRQ waits for one more read, or for five ticks. -/
def nextByte (f : Fdc) : Fdc :=
  let pos := f.xfer.bufPos + 1
  let f := { f with xfer := { f.xfer with bufPos := pos } }
  if pos < f.xfer.bufLen then
    { f with
      regs := { f.regs with data := f.xfer.sectorBuf pos }, flow := { f.flow with drq := true } }
  else
    let f := endRead 0x00 f
    { f with flow := { f.flow with intrqDefer := 5 } }

/-- The rest of `fdc_read_data`, once the sector is loaded. -/
def readByte (c : Controller) : Controller :=
  if c.fdc.xfer.reading && c.fdc.xfer.bufPos < c.fdc.xfer.bufLen then c.onFdc nextByte
  else if 0 < c.fdc.flow.intrqDefer && !c.fdc.flow.intrq then
    setIntrq true (c.onFlow fun s => { s with intrqDefer := 0 })
  else c

/-- The deferred load of READ SECTOR. -/
def loadSector (off : Nat) (c : Controller) : Controller :=
  (copyFromCache off (c.onXfer fun x => { x with readPending := false })).onFdc fun f =>
    { f with regs := { f.regs with data := f.xfer.sectorBuf 0 } }

/-- RECORD NOT FOUND ends the read. -/
def recordNotFound (c : Controller) : Controller :=
  setIntrq true ((c.onXfer fun x => { x with readPending := false }).onFdc (endRead 0x10))

/-- `fdc_read_data`. -/
def fdcReadData (c : Controller) : Byte × Controller :=
  if c.fdc.xfer.readPending then
    match c.fdc.loadOffset with
    | none => (0xFF, recordNotFound c)
    | some off => ((loadSector off c).fdc.regs.data, readByte (loadSector off c))
  else (c.fdc.regs.data, readByte c)

/-- The image with a sector stored and marked. -/
def storedImage (img : Image) (off : Nat) (buf : Nat → Byte) : Image :=
  svDiskMarkDirty { img with cache := copyIn img.cache off img.sectorSize buf } off img.sectorSize

/-- Where a store goes: the address is valid, and there is a cache it fits in. -/
def Fdc.storeOffset (f : Fdc) (sector : Byte) : Option Nat :=
  match f.offset sector with
  | some off => if f.selected.cache.isSome && inCache f.selected off then some off else none
  | none => none

/-- Copy the sector buffer to the cache of the selected drive, where it goes. -/
def storeSector (sector : Byte) (c : Controller) : Controller :=
  match c.fdc.storeOffset sector with
  | none => c
  | some off =>
      { c.onFdc fun f =>
          f.setDrive f.latch.driveSelect (storedImage f.selected off f.xfer.sectorBuf)
        with wild := c.wild ||
          !copyDefined c.fdc.selected.cache off c.fdc.selected.sectorSize }

/-- One byte into the sector buffer. -/
def Xfer.put (pos : Nat) (value : Byte) (x : Xfer) : Xfer :=
  { x with sectorBuf := Function.update x.sectorBuf pos value }

/-- One byte into the sector buffer of a WRITE SECTOR. -/
def Xfer.advance (value : Byte) (x : Xfer) : Xfer :=
  { x.put x.bufPos value with bufPos := x.bufPos + 1 }

def Wt.countByte (w : Wt) : Wt := { w with byteCount := w.byteCount + 1 }

def Wt.countF5 (w : Wt) : Wt := { w with f5Count := (w.f5Count + 1) % 256 }

def Wt.clearF5 (w : Wt) : Wt := { w with f5Count := 0 }

def Wt.countData (w : Wt) : Wt := { w with dataPos := w.dataPos + 1 }

/-- The end of a data field. -/
def endField (c : Controller) : Controller :=
  (storeSector c.fdc.wt.idSector c).onWt fun w => { w with state := .idle }

/-- A byte of a data field. -/
def wtData (value : Byte) (c : Controller) : Controller :=
  let c := (c.onXfer (.put c.fdc.wt.dataPos value)).onWt .countData
  if c.fdc.selected.sectorSize ≤ c.fdc.wt.dataPos then endField c else c

/-- Outside the data fields: address marks and the four bytes of an ID field.  `f5` is the
number of `$F5` before the byte. -/
def wtMark (f5 : Nat) (value : Byte) (w : Wt) : Wt :=
  match w.state with
  | .idField =>
      { w with
        idSector := if w.idPos = 2 then value else w.idSector
        idPos := w.idPos + 1
        state := if 4 ≤ w.idPos + 1 then .waitDam else .idField }
  | _ =>
      if 3 ≤ f5 ∧ value = 0xFE then { w with state := .idField, idPos := 0 }
      else if 3 ≤ f5 ∧ value = 0xFB then { w with state := .dataField, dataPos := 0 }
      else w

/-- The decoder of the format stream.  `$F5` only counts as a mark prefix. -/
def wtDecode (value : Byte) (c : Controller) : Controller :=
  let f5 := c.fdc.wt.f5Count
  if value = 0xF5 then c.onWt .countF5
  else
    let c := c.onWt .clearF5
    if c.fdc.wt.state = .dataField then wtData value c else c.onWt (wtMark f5 value)

/-- `fdc_write_track_byte`. -/
def fdcWriteTrackByte (value : Byte) (c : Controller) : Controller :=
  let c := wtDecode value (c.onWt .countByte)
  if wtTrackBytes ≤ c.fdc.wt.byteCount then setIntrq true (c.onFdc endWriteTrack)
  else setDrq true c

/-- The last byte of a WRITE SECTOR: the status depends on the address alone. -/
def commitSector (c : Controller) : Controller :=
  let off := c.fdc.offset c.fdc.regs.sector
  setIntrq true ((storeSector c.fdc.regs.sector c).onFdc
    (endWrite (if off = none then 0x10 else 0x00)))

/-- `fdc_write_data`. -/
def fdcWriteData (value : Byte) (c : Controller) : Controller :=
  if c.fdc.xfer.writeTrack then fdcWriteTrackByte value c
  else if c.fdc.xfer.writing && c.fdc.xfer.bufPos < c.fdc.xfer.bufLen then
    let c := c.onXfer (.advance value)
    if c.fdc.xfer.bufLen ≤ c.fdc.xfer.bufPos then commitSector c
    else c.onFlow fun s => { s with drq := true }
  else c

/-! ## Registers -/

/-- The drive a DSKREG value selects: bit 6 selects drive 3 where no lower line is set. -/
def dskregDrive (value : Byte) : Drive :=
  if value.getLsbD 0 then 0
  else if value.getLsbD 1 then 1
  else if value.getLsbD 2 then 2
  else if value.getLsbD 6 then 3
  else 0

/-- The side: bit 6, unless it selects drive 3. -/
def dskregSide (value : Byte) : Nat :=
  if dskregDrive value = 3 then 0 else if value.getLsbD 6 then 1 else 0

/-- The latch after a DSKREG write; HALT is not enabled while INTRQ is high. -/
def dskregLatch (value : Byte) (intrq : Bool) : Latch where
  driveSelect := dskregDrive value
  motorOn := value.getLsbD 3
  side := dskregSide value
  density := !value.getLsbD 5
  haltEnable := value.getLsbD 7 && !intrq

/-- `fdc_write_drive_select`: HALT is applied only while a command is in progress. -/
def fdcWriteDriveSelect (value : Byte) (c : Controller) : Controller :=
  let c := gateNmi (c.onFdc fun f => { f with latch := dskregLatch value f.flow.intrq })
  signalHalt (c.fdc.latch.haltEnable && !c.fdc.flow.drq && c.fdc.flow.busy) c

/-- The status byte a read returns: NOT READY is current, and DRQ during a transfer. -/
def statusByte (f : Fdc) : Byte :=
  let s := if f.selected.mounted then f.regs.status &&& ~~~0x80 else f.regs.status ||| 0x80
  if f.xfer.reading || f.xfer.writing || f.xfer.writeTrack then
    if f.flow.drq then s ||| 0x02 else s &&& ~~~0x02
  else s

/-- A write of one of the plain registers. -/
def FdcRegs.setTrack (value : Byte) (r : FdcRegs) : FdcRegs := { r with track := value }

def FdcRegs.setSector (value : Byte) (r : FdcRegs) : FdcRegs := { r with sector := value }

def FdcRegs.setData (value : Byte) (r : FdcRegs) : FdcRegs := { r with data := value }

/-- `sv_disk_read`. -/
def svDiskRead (address : Word) (c : Controller) : Byte × Controller :=
  if address < 0xFF48 then (0x00, c)
  else
    match (address &&& 0x03).toNat with
    | 0 => (statusByte c.fdc, setIntrq false c)
    | 1 => (c.fdc.regs.track, c)
    | 2 => (c.fdc.regs.sector, c)
    | _ => fdcReadData c

/-- `sv_disk_write`. -/
def svDiskWrite (address : Word) (value : Byte) (c : Controller) : Controller :=
  if address < 0xFF48 then fdcWriteDriveSelect value c
  else
    match (address &&& 0x03).toNat with
    | 0 => fdcExecuteCommand value (setIntrq false c)
    | 1 => c.onRegs (.setTrack value)
    | 2 => c.onRegs (.setSector value)
    | _ => fdcWriteData value (c.onRegs (.setData value))

/-- `sv_disk_tick`. -/
def svDiskTick (c : Controller) : Controller :=
  if 0 < c.fdc.flow.intrqDefer then
    let c := c.onFlow fun s => { s with intrqDefer := s.intrqDefer - 1 }
    if c.fdc.flow.intrqDefer = 0 then setIntrq true c else c
  else c

/-! ## Drives -/

/-- Run a function of one drive. -/
def withDrive (d : Drive) (g : Store → Store) (c : Controller) : Controller :=
  let s := g { img := c.fdc.drives d, card := c.card, wild := c.wild }
  { c with fdc := c.fdc.setDrive d s.img, card := s.card, wild := s.wild }

/-- Everything that happens to the controller. -/
inductive Event
  | read (address : Word)
  | write (address : Word) (value : Byte)
  | tick
  | mount (d : Drive) (path : List Char) (io : MountIo)
  | eject (d : Drive) (io : FlushIo)
  | flush (d : Drive) (io : FlushIo)

def Event.step : Event → Controller → Controller
  | .read address, c => (svDiskRead address c).2
  | .write address value, c => svDiskWrite address value c
  | .tick, c => svDiskTick c
  | .mount d path io, c => withDrive d (fun s => (mountLocked io path s).2) c
  | .eject d io, c => withDrive d (svDiskEject io) c
  | .flush d io, c => withDrive d (svDiskFlush io) c

end CocoEmulator.Disk
