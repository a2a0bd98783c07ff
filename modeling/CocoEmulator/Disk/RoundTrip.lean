/-
  Disk/RoundTrip.lean --- sector transfers from command to last byte.

  A transfer is a command followed by accesses of the data register, with any
  events aside in between: reads of other registers, DSKREG writes that keep drive
  and side, ticks, flushes.  `Writing` and `Reading` say what holds after some of
  the bytes; `Ended` says how a transfer ends.

      sector_round_trip     what WRITE SECTOR stores is what a later READ SECTOR of
                            the address returns, and nothing else changes
-/
import CocoEmulator.Base.Run
import CocoEmulator.Disk.Sectors

set_option autoImplicit false

namespace CocoEmulator.Disk

open CocoEmulator.Base CocoEmulator.Cpu

/-! ## Events of a transfer -/

/-- Is this the command register (`$FF48` and its mirrors)? -/
def isCommandReg (address : Word) : Bool :=
  !(address < 0xFF48) && (address &&& 0x03).toNat == 0

/-- Does the event give a command? -/
def Event.isCommand : Event → Bool
  | .write address _ => isCommandReg address
  | _ => false

def isWriteSector (cmd : Byte) : Bool := (cmd >>> 4).toNat == 0xA || (cmd >>> 4).toNat == 0xB

def isReadSector (cmd : Byte) : Bool := (cmd >>> 4).toNat == 0x8 || (cmd >>> 4).toNat == 0x9

/-- What may happen between the bytes of a transfer on this drive and side. -/
def Event.Aside (d : Drive) (side : Nat) : Event → Prop
  | .read address => isDataReg address = false
  | .write address value => address < 0xFF48 ∧ dskregDrive value = d ∧ dskregSide value = side
  | .tick => True
  | .mount _ _ _ => False
  | .eject _ _ => False
  | .flush _ _ => True

/-- The byte an event writes to the data register. -/
def Event.written : Event → Option Byte
  | .write address value => if isDataReg address then some value else none
  | _ => none

/-- The bytes written to the data register. -/
def bytesWritten (es : List Event) : List Byte := es.filterMap Event.written

/-- Does the event read the data register? -/
def Event.readsData : Event → Bool
  | .read address => isDataReg address
  | _ => false

/-- The byte a data read returns. -/
def Event.output (c : Controller) : Event → Option Byte
  | .read address => if isDataReg address then some (svDiskRead address c).1 else none
  | _ => none

/-- The bytes read from the data register along a run. -/
def bytesRead : List Event → Controller → List Byte
  | [], _ => []
  | e :: es, c => (e.output c).toList ++ bytesRead es (e.step c)

/-- Every event is aside, or accesses the data register as `P` says. -/
def Paced (d : Drive) (side : Nat) (P : Event → Prop) (es : List Event) : Prop :=
  ∀ e ∈ es, e.Aside d side ∨ P e

/-! ## Events aside -/

/-- The image is as before but for the dirty marks. -/
structure SameImage (img img' : Image) : Prop where
  mounted : img'.mounted = img.mounted
  readOnly : img'.readOnly = img.readOnly
  tracks : img'.tracks = img.tracks
  sides : img'.sides = img.sides
  perTrack : img'.sectorsPerTrack = img.sectorsPerTrack
  sectorSize : img'.sectorSize = img.sectorSize
  cache : img'.cache = img.cache
  cacheSize : img'.cacheSize = img.cacheSize

theorem SameImage.refl (img : Image) : SameImage img img := ⟨rfl, rfl, rfl, rfl, rfl, rfl, rfl, rfl⟩

theorem SameImage.trans {img img' img'' : Image} (h : SameImage img img')
    (h' : SameImage img' img'') : SameImage img img'' :=
  ⟨h'.mounted.trans h.mounted, h'.readOnly.trans h.readOnly, h'.tracks.trans h.tracks,
    h'.sides.trans h.sides, h'.perTrack.trans h.perTrack, h'.sectorSize.trans h.sectorSize,
    h'.cache.trans h.cache, h'.cacheSize.trans h.cacheSize⟩

theorem SameImage.inside {img img' : Image} (h : SameImage img img') (a : Address) :
    a.Inside img' ↔ a.Inside img := by
  constructor
  · rintro ⟨htrack, hside, hfirst, hlast⟩
    exact ⟨h.tracks ▸ htrack, h.sides ▸ hside, hfirst, h.perTrack ▸ hlast⟩
  · rintro ⟨htrack, hside, hfirst, hlast⟩
    exact ⟨h.tracks ▸ htrack, h.sides ▸ hside, hfirst, h.perTrack ▸ hlast⟩

theorem SameImage.sectorAt {img img' : Image} (h : SameImage img img') (a : Address) :
    sectorAt img' a = sectorAt img a := by
  have hoff : a.offset img' = a.offset img := by
    unfold Address.offset sectorOffset
    rw [h.perTrack, h.tracks, h.sides, h.sectorSize]
  unfold Disk.sectorAt
  rw [hoff, h.cache]

theorem svDiskFlush_image (io : FlushIo) (s : Store) : SameImage s.img (svDiskFlush io s).img := by
  unfold svDiskFlush
  split
  · exact .refl s.img
  · exact ⟨rfl, rfl, rfl, rfl, rfl, rfl, rfl, rfl⟩

/-- What events aside keep. -/
structure Kept (c c' : Controller) : Prop where
  regs : c'.fdc.regs = c.fdc.regs
  xfer : c'.fdc.xfer = c.fdc.xfer
  busy : c'.fdc.flow.busy = c.fdc.flow.busy
  drive : c'.fdc.latch.driveSelect = c.fdc.latch.driveSelect
  side : c'.fdc.latch.side = c.fdc.latch.side
  images : ∀ d, SameImage (c.fdc.drives d) (c'.fdc.drives d)

theorem Kept.refl (c : Controller) : Kept c c := ⟨rfl, rfl, rfl, rfl, rfl, fun _ => .refl _⟩

theorem setIntrq_kept (value : Bool) (c : Controller) : Kept c (setIntrq value c) := by
  cases value <;> exact ⟨rfl, rfl, rfl, rfl, rfl, fun _ => .refl _⟩

theorem svDiskTick_kept (c : Controller) : Kept c (svDiskTick c) := by
  unfold svDiskTick
  split
  · dsimp only
    split
    · exact ⟨rfl, rfl, rfl, rfl, rfl, fun _ => .refl _⟩
    · exact ⟨rfl, rfl, rfl, rfl, rfl, fun _ => .refl _⟩
  · exact .refl c

theorem svDiskRead_kept {address : Word} (h : isDataReg address = false) (c : Controller) :
    Kept c (svDiskRead address c).2 := by
  unfold svDiskRead
  rcases reg_of_not_data h with hlow | hreg | hreg | hreg
  · rw [if_pos hlow]
    exact .refl c
  all_goals
    rw [hreg]
    split
    · exact .refl c
    · first | exact setIntrq_kept false c | exact .refl c

theorem Event.Aside.step {e : Event} {c : Controller}
    (h : e.Aside c.fdc.latch.driveSelect c.fdc.latch.side) : Kept c (e.step c) := by
  cases e with
  | read address => exact svDiskRead_kept h c
  | write address value =>
    obtain ⟨hlow, hdrive, hside⟩ := h
    dsimp only [Event.step]
    unfold svDiskWrite
    rw [if_pos hlow]
    exact ⟨rfl, rfl, rfl, hdrive, hside, fun _ => .refl _⟩
  | tick => exact svDiskTick_kept c
  | mount d path io => exact h.elim
  | eject d io => exact h.elim
  | flush d io =>
    refine ⟨rfl, rfl, rfl, rfl, rfl, fun d' => ?_⟩
    dsimp only [Event.step, withDrive, Fdc.setDrive]
    by_cases hd : d' = d
    · rw [hd, Function.update_self]
      exact svDiskFlush_image io ⟨c.fdc.drives d, c.card, c.wild⟩
    · rw [Function.update_of_ne hd]
      exact .refl _

/-- An event aside accesses no data register. -/
theorem Event.Aside.quiet {e : Event} {d : Drive} {side : Nat} (h : e.Aside d side) :
    e.written = none ∧ e.readsData = false := by
  cases e with
  | read address => exact ⟨rfl, h⟩
  | write address value =>
    have hlow : address < 0xFF48 := h.1
    refine ⟨?_, rfl⟩
    dsimp only [Event.written]
    rw [isDataReg, decide_eq_true hlow]
    rfl
  | tick => exact ⟨rfl, rfl⟩
  | mount d path io => exact ⟨rfl, rfl⟩
  | eject d io => exact ⟨rfl, rfl⟩
  | flush d io => exact ⟨rfl, rfl⟩

/-! ## Commands -/

theorem svDiskWrite_command {address : Word} (h : isCommandReg address = true) (cmd : Byte)
    (c : Controller) : svDiskWrite address cmd c = fdcExecuteCommand cmd (setIntrq false c) := by
  unfold isCommandReg at h
  obtain ⟨hhigh, hlow⟩ := Bool.and_eq_true_iff.mp h
  unfold svDiskWrite
  rw [if_neg (by simpa using hhigh), eq_of_beq hlow]
  rfl

theorem commandBody_write {cmd : Byte} (h : isWriteSector cmd = true) (f : Fdc) :
    commandBody cmd f = writeSector f := by
  unfold isWriteSector at h
  unfold commandBody
  rcases Bool.or_eq_true_iff.mp h with hA | hB
  · rw [eq_of_beq hA]
    rfl
  · rw [eq_of_beq hB]
    rfl

theorem commandBody_read {cmd : Byte} (h : isReadSector cmd = true) (f : Fdc) :
    commandBody cmd f = readSector f := by
  unfold isReadSector at h
  unfold commandBody
  rcases Bool.or_eq_true_iff.mp h with h8 | h9
  · rw [eq_of_beq h8]
    rfl
  · rw [eq_of_beq h9]
    rfl

/-- The high digit of FORCE INTERRUPT is D. -/
theorem forceInterrupt_digit {cmd : Byte} (h : cmd &&& 0xF0 = 0xD0) : (cmd >>> 4).toNat = 0xD := by
  have hshift := congrArg (fun x : BitVec 8 => (x >>> 4).toNat) h
  simp only [BitVec.toNat_ushiftRight, BitVec.toNat_and, Nat.shiftRight_and_distrib] at hshift
  have hlt := cmd.isLt
  have hsmall : cmd.toNat >>> 4 < 16 := by omega
  have hmask : BitVec.toNat (0xF0 : Byte) >>> 4 = 2 ^ 4 - 1 := rfl
  rw [hmask, Nat.and_two_pow_sub_one_eq_mod] at hshift
  rw [BitVec.toNat_ushiftRight]
  have hright : BitVec.toNat (0xD0 : Byte) >>> 4 = 0xD := rfl
  rw [hright] at hshift
  omega

/-- A command that asks for a byte raises no INTRQ, unless it is FORCE INTERRUPT. -/
theorem raisesIntrq_busy {cmd : Byte} {f : Fdc} (h : (cmd >>> 4).toNat ≠ 0xD)
    (hb : f.flow.busy = true) : raisesIntrq cmd f = false := by
  unfold raisesIntrq
  rw [if_neg fun hforce => h (forceInterrupt_digit hforce), hb]
  rfl

/-- The registers address this sector of this drive, and the drives are as in `ds`. -/
structure Session (d : Drive) (a : Address) (ds : Drive → Image) (c : Controller) : Prop where
  drive : c.fdc.latch.driveSelect = d
  side : c.fdc.latch.side = a.side
  track : c.fdc.regs.track.toNat = a.track
  sector : c.fdc.regs.sector.toNat = a.sector
  images : ∀ d', SameImage (ds d') (c.fdc.drives d')

theorem Session.kept {d : Drive} {a : Address} {ds : Drive → Image} {c c' : Controller}
    (h : Session d a ds c) (hk : Kept c c') : Session d a ds c' :=
  ⟨hk.drive.trans h.drive, hk.side.trans h.side, by rw [hk.regs]; exact h.track,
    by rw [hk.regs]; exact h.sector, fun d' => (h.images d').trans (hk.images d')⟩

theorem Session.selected {d : Drive} {a : Address} {ds : Drive → Image} {c : Controller}
    (h : Session d a ds c) : c.fdc.selected = c.fdc.drives d := by
  unfold Fdc.selected
  rw [h.drive]

theorem Session.addressed {d : Drive} {a : Address} {ds : Drive → Image} {c : Controller}
    (h : Session d a ds c) : c.fdc.addressed c.fdc.regs.sector = a := by
  unfold Fdc.addressed
  rw [h.side, h.track, h.sector]

theorem Session.aside {d : Drive} {a : Address} {ds : Drive → Image} {c : Controller} {e : Event}
    (h : Session d a ds c) (he : e.Aside d a.side) : Kept c (e.step c) := by
  refine Event.Aside.step ?_
  rw [h.drive, h.side]
  exact he

/-- Sound drives stay sound when only marks change. -/
theorem SameImage.sound {img img' : Image} (h : SameImage img img') (hs : Sound img) :
    Sound img' := by
  refine ⟨h.sectorSize.trans hs.sectorSize, h.perTrack.trans hs.perTrack, ?_, ?_, ?_⟩
  · rw [h.sides]
    exact hs.sides
  · rw [h.mounted, h.cache]
    exact hs.mounted
  · intro b hb
    rw [h.cache] at hb
    rw [h.cacheSize, geometrySize, h.tracks, h.perTrack, h.sectorSize, h.sides]
    exact hs.live b hb

/-- The sectors of these images. -/
def diskOf (ds : Drive → Image) : Drive → Address → Option (List Byte) :=
  fun d a => sectorAt (ds d) a

theorem Session.disk {d : Drive} {a : Address} {ds : Drive → Image} {c : Controller}
    (h : Session d a ds c) : c.fdc.disk = diskOf ds := by
  funext d' a'
  exact (h.images d').sectorAt a'

/-! ## Writing -/

/-- WRITE SECTOR after the bytes `done`. -/
structure Writing (d : Drive) (a : Address) (ds : Drive → Image) (done : List Byte)
    (c : Controller) : Prop where
  session : Session d a ds c
  writing : c.fdc.xfer.writing = true
  writeTrack : c.fdc.xfer.writeTrack = false
  reading : c.fdc.xfer.reading = false
  pos : c.fdc.xfer.bufPos = done.length
  len : c.fdc.xfer.bufLen = diskSectorSize
  buf : ∀ i, i < done.length → c.fdc.xfer.sectorBuf i = done.getD i 0

theorem Writing.kept {d : Drive} {a : Address} {ds : Drive → Image} {done : List Byte}
    {c c' : Controller} (h : Writing d a ds done c) (hk : Kept c c') : Writing d a ds done c' := by
  refine ⟨h.session.kept hk, ?_, ?_, ?_, ?_, ?_, ?_⟩
  all_goals rw [hk.xfer]
  exacts [h.writing, h.writeTrack, h.reading, h.pos, h.len, h.buf]

/-- The selected drive is ready. -/
theorem Session.ready {d : Drive} {a : Address} {ds : Drive → Image} {c : Controller}
    (h : Session d a ds c) (hs : ∀ d, Sound (ds d)) (hm : (ds d).mounted = true) :
    ready c.fdc = true ∧ c.fdc.selected.sectorSize = diskSectorSize := by
  have himg := h.images d
  have hsound := himg.sound (hs d)
  refine ⟨?_, by rw [h.selected]; exact hsound.sectorSize⟩
  unfold Disk.ready
  rw [h.selected, ← hsound.mounted, himg.mounted, hm]
  rfl

/-- A command that leaves the controller busy. -/
theorem command_step {c : Controller} {address : Word} {cmd : Byte} {f : Fdc}
    (haddr : isCommandReg address = true) (hdigit : (cmd >>> 4).toNat ≠ 0xD)
    (hbody : commandBody cmd (beginCommand cmd (setIntrq false c).fdc) = f)
    (hbusy : f.flow.busy = true) : (Event.step (.write address cmd) c).fdc = f := by
  rw [Event.step, svDiskWrite_command haddr]
  unfold fdcExecuteCommand
  dsimp only
  rw [if_neg]
  · exact hbody
  · rw [raisesIntrq_busy hdigit]
    · exact Bool.false_ne_true
    · dsimp only [Controller.onFdc]
      rw [hbody]
      exact hbusy

/-- A command that asks for its first byte. -/
theorem request_step {c : Controller} {address : Word} {cmd : Byte} {x : Xfer}
    (haddr : isCommandReg address = true) (hdigit : (cmd >>> 4).toNat ≠ 0xD)
    (hbody : commandBody cmd (beginCommand cmd (setIntrq false c).fdc) =
      request x (beginCommand cmd (setIntrq false c).fdc)) :
    (Event.step (.write address cmd) c).fdc =
      request x (beginCommand cmd (setIntrq false c).fdc) :=
  command_step haddr hdigit hbody rfl

/-- The command starts the transfer. -/
theorem Writing.start {d : Drive} {a : Address} {ds : Drive → Image} {c : Controller}
    (h : Session d a ds c) (hs : ∀ d, Sound (ds d)) (hm : (ds d).mounted = true)
    (hw : (ds d).readOnly = false) {address : Word} {cmd : Byte}
    (haddr : isCommandReg address = true) (hcmd : isWriteSector cmd = true) :
    Writing d a ds [] (Event.step (.write address cmd) c) := by
  obtain ⟨hready, hsize⟩ := h.ready hs hm
  have hwritable : c.fdc.selected.readOnly = false := by
    rw [h.selected, (h.images d).readOnly]
    exact hw
  have hdigit : (cmd >>> 4).toNat ≠ 0xD := by
    intro hD
    rw [isWriteSector, hD] at hcmd
    cases hcmd
  have hbody : commandBody cmd (beginCommand cmd (setIntrq false c).fdc) =
      request { c.fdc.xfer.stop with
        bufPos := 0, bufLen := c.fdc.selected.sectorSize, writing := true }
        (beginCommand cmd (setIntrq false c).fdc) := by
    have hready' : Disk.ready (beginCommand cmd (setIntrq false c).fdc) = true := hready
    have hwritable' : (beginCommand cmd (setIntrq false c).fdc).selected.readOnly = false :=
      hwritable
    rw [commandBody_write hcmd]
    unfold writeSector
    rw [hready', hwritable']
    rfl
  refine ⟨⟨?_, ?_, ?_, ?_, ?_⟩, ?_, ?_, ?_, ?_, ?_, ?_⟩
  all_goals rw [request_step haddr hdigit hbody]
  · exact h.drive
  · exact h.side
  · exact h.track
  · exact h.sector
  · exact h.images
  · rfl
  · rfl
  · rfl
  · rfl
  · exact hsize
  · intro i hi
    exact absurd hi (Nat.not_lt_zero i)

/-- The sector buffer with one more byte. -/
theorem Writing.put {d : Drive} {a : Address} {ds : Drive → Image} {done : List Byte}
    {c : Controller} (h : Writing d a ds done c) (value : Byte) {i : Nat}
    (hi : i < done.length + 1) :
    (c.fdc.xfer.put c.fdc.xfer.bufPos value).sectorBuf i = (done ++ [value]).getD i 0 := by
  dsimp only [Xfer.put]
  rw [h.pos, List.getD_eq_getElem?_getD]
  by_cases hlast : i = done.length
  · rw [hlast, Function.update_self, List.getElem?_concat_length]
    rfl
  · rw [Function.update_of_ne hlast, h.buf i (by omega), List.getD_eq_getElem?_getD,
      List.getElem?_append_left (by omega)]

/-- A data byte of the transfer is taken; the last one commits. -/
theorem Writing.data {d : Drive} {a : Address} {ds : Drive → Image} {done : List Byte}
    {c : Controller} (h : Writing d a ds done c) {address : Word}
    (haddr : isDataReg address = true) (value : Byte) (hroom : done.length < diskSectorSize) :
    Event.step (.write address value) c =
      (if diskSectorSize ≤ done.length + 1 then
        commitSector ((c.onRegs (.setData value)).onXfer (.advance value))
      else ((c.onRegs (.setData value)).onXfer (.advance value)).onFlow
        fun s => { s with drq := true }) := by
  have hguard : (c.fdc.xfer.writing && decide (c.fdc.xfer.bufPos < c.fdc.xfer.bufLen)) = true := by
    rw [h.writing, h.pos, h.len]
    exact decide_eq_true hroom
  rw [Event.step, svDiskWrite_data haddr]
  unfold fdcWriteData
  rw [if_neg (by rw [Bool.not_eq_true]; exact h.writeTrack), if_pos (by exact hguard)]
  dsimp only
  rw [← h.len, ← h.pos]
  rfl

/-- A byte that is not the last one. -/
theorem Writing.byte {d : Drive} {a : Address} {ds : Drive → Image} {done : List Byte}
    {c : Controller} (h : Writing d a ds done c) {address : Word} (haddr : isDataReg address = true)
    (value : Byte) (hshort : done.length + 1 < diskSectorSize) :
    Writing d a ds (done ++ [value]) (Event.step (.write address value) c) := by
  have hstep := h.data haddr value (by omega)
  rw [if_neg (by omega)] at hstep
  rw [hstep]
  refine ⟨⟨h.session.drive, h.session.side, h.session.track, h.session.sector, h.session.images⟩,
    h.writing, h.writeTrack, h.reading, ?_, h.len, ?_⟩
  · rw [List.length_append, List.length_singleton, ← h.pos]
    rfl
  · intro i hi
    rw [List.length_append, List.length_singleton] at hi
    exact h.put value hi

/-! ## Endings -/

/-- The transfer is over: the drives are as in `ds`, and the status. -/
structure Ended (d : Drive) (a : Address) (ds : Drive → Image) (status : Byte)
    (c : Controller) : Prop where
  session : Session d a ds c
  mounted : (c.fdc.drives d).mounted = true
  status : c.fdc.regs.status = status
  busy : c.fdc.flow.busy = false
  reading : c.fdc.xfer.reading = false
  writing : c.fdc.xfer.writing = false
  writeTrack : c.fdc.xfer.writeTrack = false

theorem Ended.kept {d : Drive} {a : Address} {ds : Drive → Image} {status : Byte}
    {c c' : Controller} (h : Ended d a ds status c) (hk : Kept c c') : Ended d a ds status c' :=
  ⟨h.session.kept hk, (hk.images d).mounted.trans h.mounted, by rw [hk.regs]; exact h.status,
    hk.busy.trans h.busy, by rw [hk.xfer]; exact h.reading, by rw [hk.xfer]; exact h.writing,
    by rw [hk.xfer]; exact h.writeTrack⟩

/-- What the guest reads from the status register then. -/
theorem Ended.statusByte {d : Drive} {a : Address} {ds : Drive → Image}
    {status : Byte} {c : Controller} (h : Ended d a ds status c) :
    statusByte c.fdc = status &&& ~~~0x80 := by
  have hm : c.fdc.selected.mounted = true := by
    rw [h.session.selected]
    exact h.mounted
  unfold Disk.statusByte
  dsimp only
  rw [hm, h.reading, h.writing, h.writeTrack, h.status]
  rfl

theorem Ended.aside {d : Drive} {a : Address} {ds : Drive → Image}
    {status : Byte} {c : Controller} {e : Event} (h : Ended d a ds status c)
    (he : e.Aside d a.side) : Ended d a ds status (e.step c) :=
  h.kept (h.session.aside he)

/-- The last byte of a WRITE SECTOR, at the registers. -/
theorem commitSector_fdc (c : Controller) :
    (commitSector c).fdc.regs = { c.fdc.regs with
        status := if c.fdc.offset c.fdc.regs.sector = none then 0x10 else 0x00 } ∧
      (commitSector c).fdc.flow.busy = false ∧
      (commitSector c).fdc.xfer = { c.fdc.xfer with writing := false } ∧
      (commitSector c).fdc.latch.driveSelect = c.fdc.latch.driveSelect ∧
      (commitSector c).fdc.latch.side = c.fdc.latch.side := by
  unfold commitSector
  dsimp only
  rw [setIntrq_fdc]
  dsimp only [Controller.onFdc, endWrite, endTransfer]
  rw [storeSector_fdc]
  exact ⟨rfl, rfl, rfl, rfl, rfl⟩

theorem Stored.mounted {cm : Commit} {c c' : Controller} (h : Stored cm c c') (d : Drive) :
    (c'.fdc.drives d).mounted = (c.fdc.drives d).mounted := by
  rw [h.drives, Fdc.storedDrives]
  cases c.fdc.storeOffset cm.sector with
  | none => rfl
  | some off =>
    dsimp only
    by_cases hd : d = c.fdc.latch.driveSelect
    · rw [hd, Function.update_self]
      rfl
    · rw [Function.update_of_ne hd]

/-- The last byte. -/
theorem Writing.last {d : Drive} {a : Address} {ds : Drive → Image} {done : List Byte}
    {c : Controller} (h : Writing d a ds done c) (hs : ∀ d, Sound (ds d))
    (hm : (ds d).mounted = true) {address : Word} (haddr : isDataReg address = true)
    (value : Byte) (hfull : done.length + 1 = diskSectorSize) :
    (a.Inside (ds d) → ∃ ds', diskOf ds' = setSector (diskOf ds) d a (done ++ [value]) ∧
      Ended d a ds' 0x00 (Event.step (.write address value) c)) ∧
    (¬a.Inside (ds d) → Ended d a ds 0x10 (Event.step (.write address value) c)) := by
  have hcommit : Event.commit c.fdc (.write address value) =
      some ⟨c.fdc.regs.sector, (c.fdc.xfer.put c.fdc.xfer.bufPos value).sectorBuf⟩ := by
    dsimp only [Event.commit]
    rw [if_pos haddr]
    unfold Fdc.commit
    rw [if_neg (by rw [Bool.not_eq_true]; exact h.writeTrack), if_pos]
    rw [h.pos, h.len]
    exact ⟨h.writing, by omega, by omega⟩
  have hstored := Event.step_commit hcommit
  have hstep := h.data haddr value (by omega)
  rw [if_pos (by omega)] at hstep
  have hsound : SoundDrives c := fun d' => (h.session.images d').sound (hs d')
  have himg := h.session.images d
  have hmounted : (c.fdc.drives d).mounted = true := himg.mounted.trans hm
  have hsel := h.session.selected
  have haddressed := h.session.addressed
  have hinside : (c.fdc.addressed c.fdc.regs.sector).Inside c.fdc.selected ↔ a.Inside (ds d) := by
    rw [haddressed, hsel]
    exact himg.inside a
  obtain ⟨hregs, hbusy, hxfer, hdrive, hside⟩ :=
    commitSector_fdc ((c.onRegs (.setData value)).onXfer (.advance value))
  rw [← hstep] at hregs hbusy hxfer hdrive hside
  have hend : ∀ ds' status,
      (∀ d', SameImage (ds' d') ((Event.step (.write address value) c).fdc.drives d')) →
      (Event.step (.write address value) c).fdc.regs.status = status →
      Ended d a ds' status (Event.step (.write address value) c) := by
    intro ds' status himages hst
    refine ⟨⟨hdrive.trans h.session.drive, hside.trans h.session.side, ?_, ?_, himages⟩, ?_, hst,
      hbusy, ?_, ?_, ?_⟩
    · rw [hregs]
      exact h.session.track
    · rw [hregs]
      exact h.session.sector
    · rw [hstored.mounted]
      exact hmounted
    all_goals rw [hxfer]
    exacts [h.reading, h.writeTrack]
  constructor
  · intro hin
    refine ⟨(Event.step (.write address value) c).fdc.drives, ?_, hend _ _ (fun _ => .refl _) ?_⟩
    · have hdisk := hstored.disk hsound (by rw [hsel]; exact hmounted) (hinside.mpr hin)
      dsimp only at hdisk
      rw [h.session.disk, h.session.drive, haddressed] at hdisk
      rw [show diskOf _ = (Event.step (.write address value) c).fdc.disk from rfl, hdisk]
      have hlen : (done ++ [value]).length = diskSectorSize := by
        rw [List.length_append, List.length_singleton, hfull]
      congr 1
      rw [← sectorBytes_getD hlen]
      exact sectorBytes_congr fun i hi => h.put value (by omega)
    · rw [hregs]
      dsimp only
      rw [if_neg]
      have hoff : ((c.onRegs (.setData value)).onXfer (.advance value)).fdc.offset
          c.fdc.regs.sector = some _ := (hinside.mpr hin).offset
      intro hnone
      exact absurd (hoff.symm.trans hnone) (Option.some_ne_none _)
  · intro hout
    refine hend _ _ (fun d' => ?_) ?_
    · rw [hstored.outside hsound (.inr fun hin => hout (hinside.mp hin))]
      exact h.session.images d'
    · rw [hregs]
      dsimp only
      rw [if_pos]
      exact offset_outside fun hin => hout (hinside.mp hin)

/-! ## Runs of a WRITE SECTOR -/

theorem Event.written_some {e : Event} {value : Byte} (h : e.written = some value) :
    ∃ address, isDataReg address = true ∧ e = .write address value := by
  cases e with
  | write address v =>
    dsimp only [Event.written] at h
    split at h
    · rename_i haddr
      cases h
      exact ⟨address, haddr, rfl⟩
    · cases h
  | read address => cases h
  | tick => cases h
  | mount d path io => cases h
  | eject d io => cases h
  | flush d io => cases h

/-- A paced run of data writes. -/
abbrev PacedWrites (d : Drive) (side : Nat) (es : List Event) : Prop :=
  Paced d side (fun e => e.written.isSome = true) es

theorem Paced.tail {d : Drive} {side : Nat} {P : Event → Prop} {e : Event} {es : List Event}
    (h : Paced d side P (e :: es)) : Paced d side P es :=
  fun e' he' => h e' (List.mem_cons_of_mem e he')

theorem bytesWritten_aside {e : Event} {es : List Event} (h : e.written = none) :
    bytesWritten (e :: es) = bytesWritten es := List.filterMap_cons_none h

theorem bytesWritten_data {e : Event} {es : List Event} {value : Byte}
    (h : e.written = some value) : bytesWritten (e :: es) = value :: bytesWritten es :=
  List.filterMap_cons_some h

/-- Without data writes, all of a paced run is aside. -/
theorem PacedWrites.aside {d : Drive} {side : Nat} {es : List Event} (h : PacedWrites d side es)
    (hnone : bytesWritten es = []) : ∀ e ∈ es, e.Aside d side := by
  intro e he
  rcases h e he with haside | hdata
  · exact haside
  · have hskip := List.filterMap_eq_nil_iff.mp hnone e he
    rw [hskip] at hdata
    cases hdata

theorem Ended.run {d : Drive} {a : Address} {ds : Drive → Image}
    {status : Byte} {es : List Event} {c : Controller} (h : Ended d a ds status c)
    (hp : ∀ e ∈ es, e.Aside d a.side) : Ended d a ds status (runAll Event.step es c) := by
  induction es generalizing c with
  | nil => exact h
  | cons e es ih =>
    exact ih (h.aside (hp e List.mem_cons_self)) fun e' he' => hp e' (List.mem_cons_of_mem e he')

/-- A run that ends before the last byte. -/
theorem Writing.run {d : Drive} {a : Address} {ds : Drive → Image} {done : List Byte}
    {es : List Event} {c : Controller} (h : Writing d a ds done c) (hp : PacedWrites d a.side es)
    (hlen : done.length + (bytesWritten es).length < diskSectorSize) :
    Writing d a ds (done ++ bytesWritten es) (runAll Event.step es c) := by
  induction es generalizing done c with
  | nil =>
    rw [bytesWritten, List.filterMap_nil, List.append_nil]
    exact h
  | cons e es ih =>
    rcases hp e List.mem_cons_self with haside | hdata
    · rw [bytesWritten_aside haside.quiet.1] at hlen ⊢
      exact ih (h.kept (h.session.aside haside)) hp.tail hlen
    · obtain ⟨value, hvalue⟩ := Option.isSome_iff_exists.mp hdata
      obtain ⟨address, haddr, rfl⟩ := Event.written_some hvalue
      rw [bytesWritten_data hvalue] at hlen ⊢
      rw [List.length_cons] at hlen
      have hnext := h.byte haddr value (by omega)
      rw [← List.singleton_append, ← List.append_assoc]
      refine ih hnext hp.tail ?_
      rw [List.length_append, List.length_singleton]
      omega

/-- A run up to the last byte, and on. -/
theorem Writing.run_last {d : Drive} {a : Address} {ds : Drive → Image} {done : List Byte}
    {es : List Event} {c : Controller} (h : Writing d a ds done c) (hs : ∀ d, Sound (ds d))
    (hm : (ds d).mounted = true) (hp : PacedWrites d a.side es)
    (hroom : done.length < diskSectorSize)
    (hlen : done.length + (bytesWritten es).length = diskSectorSize) :
    (a.Inside (ds d) → ∃ ds', diskOf ds' = setSector (diskOf ds) d a (done ++ bytesWritten es) ∧
      Ended d a ds' 0x00 (runAll Event.step es c)) ∧
    (¬a.Inside (ds d) →
      Ended d a ds 0x10 (runAll Event.step es c)) := by
  induction es generalizing done c with
  | nil =>
    rw [bytesWritten, List.filterMap_nil, List.length_nil] at hlen
    omega
  | cons e es ih =>
    rcases hp e List.mem_cons_self with haside | hdata
    · rw [bytesWritten_aside haside.quiet.1] at hlen ⊢
      exact ih (h.kept (h.session.aside haside)) hp.tail hroom hlen
    · obtain ⟨value, hvalue⟩ := Option.isSome_iff_exists.mp hdata
      obtain ⟨address, haddr, rfl⟩ := Event.written_some hvalue
      rw [bytesWritten_data hvalue] at hlen ⊢
      rw [List.length_cons] at hlen
      rw [← List.singleton_append, ← List.append_assoc]
      by_cases hfull : done.length + 1 = diskSectorSize
      · -- this is the last byte: the rest is aside
        have hnone : bytesWritten es = [] := List.length_eq_zero_iff.mp (by omega)
        have haside := PacedWrites.aside hp.tail hnone
        obtain ⟨hin, hout⟩ := h.last hs hm haddr value hfull
        rw [hnone, List.append_nil]
        refine ⟨fun ha => ?_, fun ha => (hout ha).run haside⟩
        obtain ⟨ds', hdisk, hended⟩ := hin ha
        exact ⟨ds', hdisk, hended.run haside⟩
      · refine ih (h.byte haddr value (by omega)) hp.tail ?_ ?_
        · rw [List.length_append, List.length_singleton]
          omega
        · rw [List.length_append, List.length_singleton]
          omega

/-! ## Reading -/

/-- READ SECTOR after `k` bytes. -/
structure Reading (d : Drive) (a : Address) (ds : Drive → Image) (k : Nat) (c : Controller) :
    Prop where
  session : Session d a ds c
  reading : c.fdc.xfer.reading = true
  writing : c.fdc.xfer.writing = false
  writeTrack : c.fdc.xfer.writeTrack = false
  pos : c.fdc.xfer.bufPos = k
  len : c.fdc.xfer.bufLen = diskSectorSize

/-- The sector is in the buffer, and its byte `k` in the data register. -/
structure Loaded (d : Drive) (a : Address) (ds : Drive → Image) (data : List Byte) (k : Nat)
    (c : Controller) : Prop where
  reading : Reading d a ds k c
  pending : c.fdc.xfer.readPending = false
  buf : ∀ i, i < diskSectorSize → c.fdc.xfer.sectorBuf i = data.getD i 0
  data : c.fdc.regs.data = data.getD k 0

/-- The sector is still to be loaded. -/
structure Fresh (d : Drive) (a : Address) (ds : Drive → Image) (c : Controller) : Prop where
  reading : Reading d a ds 0 c
  pending : c.fdc.xfer.readPending = true

theorem Reading.kept {d : Drive} {a : Address} {ds : Drive → Image} {k : Nat}
    {c c' : Controller} (h : Reading d a ds k c) (hk : Kept c c') : Reading d a ds k c' := by
  refine ⟨h.session.kept hk, ?_, ?_, ?_, ?_, ?_⟩
  all_goals rw [hk.xfer]
  exacts [h.reading, h.writing, h.writeTrack, h.pos, h.len]

theorem Loaded.kept {d : Drive} {a : Address} {ds : Drive → Image} {data : List Byte} {k : Nat}
    {c c' : Controller} (h : Loaded d a ds data k c) (hk : Kept c c') :
    Loaded d a ds data k c' := by
  refine ⟨h.reading.kept hk, ?_, ?_, ?_⟩
  · rw [hk.xfer]
    exact h.pending
  · rw [hk.xfer]
    exact h.buf
  · rw [hk.regs]
    exact h.data

theorem Fresh.kept {d : Drive} {a : Address} {ds : Drive → Image} {c c' : Controller}
    (h : Fresh d a ds c) (hk : Kept c c') : Fresh d a ds c' :=
  ⟨h.reading.kept hk, by rw [hk.xfer]; exact h.pending⟩

theorem Fresh.start {d : Drive} {a : Address} {ds : Drive → Image} {c : Controller}
    (h : Session d a ds c) (hs : ∀ d, Sound (ds d)) (hm : (ds d).mounted = true)
    {address : Word} {cmd : Byte} (haddr : isCommandReg address = true)
    (hcmd : isReadSector cmd = true) : Fresh d a ds (Event.step (.write address cmd) c) := by
  obtain ⟨hready, hsize⟩ := h.ready hs hm
  have hdigit : (cmd >>> 4).toNat ≠ 0xD := by
    intro hD
    rw [isReadSector, hD] at hcmd
    cases hcmd
  have hbody : commandBody cmd (beginCommand cmd (setIntrq false c).fdc) =
      request { c.fdc.xfer.stop with
        bufPos := 0, bufLen := c.fdc.selected.sectorSize, reading := true, readPending := true }
        (beginCommand cmd (setIntrq false c).fdc) := by
    have hready' : Disk.ready (beginCommand cmd (setIntrq false c).fdc) = true := hready
    rw [commandBody_read hcmd]
    unfold readSector
    rw [hready']
    rfl
  refine ⟨⟨⟨?_, ?_, ?_, ?_, ?_⟩, ?_, ?_, ?_, ?_, ?_⟩, ?_⟩
  all_goals rw [request_step haddr hdigit hbody]
  · exact h.drive
  · exact h.side
  · exact h.track
  · exact h.sector
  · exact h.images
  · rfl
  · rfl
  · rfl
  · rfl
  · exact hsize
  · rfl

/-- The load, where the cache is there. -/
theorem loadSector_fdc {off : Nat} {c : Controller} {b : Block}
    (hb : c.fdc.selected.cache = some b) :
    (loadSector off c).fdc =
      { c.fdc with
        xfer := { c.fdc.xfer with
          readPending := false
          sectorBuf := splice c.fdc.xfer.sectorBuf 0 c.fdc.selected.sectorSize
            fun i => b.byte (off + i) }
        regs := { c.fdc.regs with
          data := splice c.fdc.xfer.sectorBuf 0 c.fdc.selected.sectorSize
            (fun i => b.byte (off + i)) 0 } } := by
  have hb' : (c.onXfer fun x => { x with readPending := false }).fdc.selected.cache = some b := hb
  unfold loadSector copyFromCache
  rw [hb']
  rfl

/-- The first data read loads the sector. -/
theorem Fresh.load {d : Drive} {a : Address} {ds : Drive → Image} {data : List Byte}
    {c : Controller} (h : Fresh d a ds c) (hs : ∀ d, Sound (ds d))
    (hdata : sectorAt (ds d) a = some data) :
    ∃ c', Loaded d a ds data 0 c' ∧ fdcReadData c = (c'.fdc.regs.data, readByte c') := by
  have himg := h.reading.session.images d
  have hsel := h.reading.session.selected
  have haddressed := h.reading.session.addressed
  have hsound : Sound c.fdc.selected := by
    rw [hsel]
    exact himg.sound (hs d)
  rw [← himg.sectorAt a] at hdata
  have hin : a.Inside (c.fdc.drives d) := by
    by_contra hout
    rw [sectorAt_outside hout] at hdata
    cases hdata
  cases hb : (c.fdc.drives d).cache with
  | none =>
    unfold sectorAt at hdata
    rw [hb, hin.offset] at hdata
    cases hdata
  | some b =>
    have hbytes := hdata
    rw [sectorAt_of hin hb] at hbytes
    have hcache : c.fdc.selected.cache = some b := by
      rw [hsel]
      exact hb
    have hoff : c.fdc.loadOffset =
        some (a.index c.fdc.selected * c.fdc.selected.sectorSize) := by
      have hload := loadOffset_inside hsound (hsound.mounted.trans (by rw [hcache]; rfl))
        (by rw [haddressed, hsel]; exact hin)
      rw [haddressed] at hload
      exact hload
    have hbuf : ∀ i, i < diskSectorSize →
        splice c.fdc.xfer.sectorBuf 0 c.fdc.selected.sectorSize
          (fun i => b.byte (a.index c.fdc.selected * c.fdc.selected.sectorSize + i)) i =
        data.getD i 0 := by
      intro i hi
      rw [splice_in (Nat.zero_le i) (by rw [hsound.sectorSize]; omega), Nat.sub_zero, hsel]
      have hlist := Option.some.inj hbytes
      rw [← hlist, sectorBytes, List.getD_eq_getElem?_getD, List.getElem?_map,
        List.getElem?_range hi]
      rfl
    refine ⟨loadSector (a.index c.fdc.selected * c.fdc.selected.sectorSize) c, ?_, ?_⟩
    · refine ⟨⟨⟨?_, ?_, ?_, ?_, ?_⟩, ?_, ?_, ?_, ?_, ?_⟩, ?_, ?_, ?_⟩
      all_goals rw [loadSector_fdc hcache]
      · exact h.reading.session.drive
      · exact h.reading.session.side
      · exact h.reading.session.track
      · exact h.reading.session.sector
      · exact h.reading.session.images
      · exact h.reading.reading
      · exact h.reading.writing
      · exact h.reading.writeTrack
      · exact h.reading.pos
      · exact h.reading.len
      · exact hbuf
      · exact hbuf 0 (by decide)
    · unfold fdcReadData
      rw [if_pos h.pending, hoff]

/-- A read that finds no such sector. -/
theorem Fresh.notFound {d : Drive} {a : Address} {ds : Drive → Image} {c : Controller}
    (h : Fresh d a ds c) (hm : (ds d).mounted = true) (hout : ¬a.Inside (ds d))
    {address : Word} (haddr : isDataReg address = true) :
    Ended d a ds 0x10 (Event.step (.read address) c) := by
  have himg := h.reading.session.images d
  have hnone : c.fdc.loadOffset = none := by
    refine loadOffset_outside ?_
    rw [h.reading.session.addressed, h.reading.session.selected, himg.inside]
    exact hout
  have hstep : Event.step (.read address) c = recordNotFound c := by
    rw [Event.step, svDiskRead_data haddr]
    unfold fdcReadData
    rw [if_pos h.pending, hnone]
  rw [hstep]
  have hsession := h.reading.session
  exact ⟨⟨hsession.drive, hsession.side, hsession.track, hsession.sector, hsession.images⟩,
    himg.mounted.trans hm, rfl, rfl, rfl, h.reading.writing, h.reading.writeTrack⟩

/-- The rest of a data read: the next byte, or the end. -/
theorem Loaded.next {d : Drive} {a : Address} {ds : Drive → Image} {data : List Byte} {k : Nat}
    {c : Controller} (h : Loaded d a ds data k c) (hm : (ds d).mounted = true)
    (hk : k < diskSectorSize) :
    (k + 1 < diskSectorSize → Loaded d a ds data (k + 1) (readByte c)) ∧
      (k + 1 = diskSectorSize → Ended d a ds 0x00 (readByte c)) := by
  have hr := h.reading
  have hstep : readByte c = c.onFdc nextByte := by
    unfold readByte
    rw [if_pos]
    rw [hr.reading, hr.pos, hr.len]
    exact decide_eq_true hk
  rw [hstep]
  constructor
  · intro hmore
    have hnext : nextByte c.fdc =
        { c.fdc with
          xfer := { c.fdc.xfer with bufPos := c.fdc.xfer.bufPos + 1 }
          regs := { c.fdc.regs with data := c.fdc.xfer.sectorBuf (c.fdc.xfer.bufPos + 1) }
          flow := { c.fdc.flow with drq := true } } := by
      unfold nextByte
      dsimp only
      rw [if_pos (by rw [hr.pos, hr.len]; exact hmore)]
    refine ⟨⟨⟨?_, ?_, ?_, ?_, ?_⟩, ?_, ?_, ?_, ?_, ?_⟩, ?_, ?_, ?_⟩
    all_goals dsimp only [Controller.onFdc]; rw [hnext]
    · exact hr.session.drive
    · exact hr.session.side
    · exact hr.session.track
    · exact hr.session.sector
    · exact hr.session.images
    · exact hr.reading
    · exact hr.writing
    · exact hr.writeTrack
    · dsimp only
      rw [hr.pos]
    · exact hr.len
    · exact h.pending
    · exact h.buf
    · dsimp only
      rw [hr.pos]
      exact h.buf (k + 1) hmore
  · intro hfull
    have hnext : nextByte c.fdc =
        { endRead 0x00 { c.fdc with xfer := { c.fdc.xfer with bufPos := c.fdc.xfer.bufPos + 1 } }
          with flow := { c.fdc.flow with drq := false, busy := false, intrqDefer := 5 } } := by
      unfold nextByte
      dsimp only
      rw [if_neg (by rw [hr.pos, hr.len]; omega)]
      rfl
    refine ⟨⟨?_, ?_, ?_, ?_, ?_⟩, ?_, ?_, ?_, ?_, ?_, ?_⟩
    all_goals dsimp only [Controller.onFdc]; rw [hnext]
    · exact hr.session.drive
    · exact hr.session.side
    · exact hr.session.track
    · exact hr.session.sector
    · exact hr.session.images
    · exact (hr.session.images d).mounted.trans hm
    · rfl
    · rfl
    · exact hr.writing
    · exact hr.writeTrack

/-! ## Runs of a READ SECTOR -/

/-- A paced run of data reads. -/
abbrev PacedReads (d : Drive) (side : Nat) (es : List Event) : Prop :=
  Paced d side (fun e => e.readsData = true) es

theorem Event.readsData_true {e : Event} (h : e.readsData = true) :
    ∃ address, isDataReg address = true ∧ e = .read address := by
  cases e with
  | read address => exact ⟨address, h, rfl⟩
  | write address value => cases h
  | tick => cases h
  | mount d path io => cases h
  | eject d io => cases h
  | flush d io => cases h

/-- An event that does not read the data register returns nothing from it. -/
theorem Event.output_none {e : Event} (h : e.readsData = false) (c : Controller) :
    e.output c = none := by
  cases e with
  | read address =>
    dsimp only [Event.output]
    rw [if_neg]
    intro haddr
    exact absurd (haddr.symm.trans h) Bool.noConfusion
  | write address value => rfl
  | tick => rfl
  | mount d path io => rfl
  | eject d io => rfl
  | flush d io => rfl

theorem Event.output_data {address : Word} (h : isDataReg address = true) (c : Controller) :
    Event.output c (.read address) = some (fdcReadData c).1 ∧
      Event.step (.read address) c = (fdcReadData c).2 := by
  dsimp only [Event.output, Event.step]
  rw [if_pos h, svDiskRead_data h]
  exact ⟨rfl, rfl⟩

/-- Without data reads, all of a paced run is aside and returns nothing. -/
theorem PacedReads.aside {d : Drive} {side : Nat} {es : List Event} (h : PacedReads d side es)
    (hnone : es.countP Event.readsData = 0) :
    (∀ e ∈ es, e.Aside d side) ∧ ∀ c, bytesRead es c = [] := by
  have hskip : ∀ e ∈ es, e.readsData = false := fun e he => by
    simpa using List.countP_eq_zero.mp hnone e he
  refine ⟨fun e he => ?_, fun c => ?_⟩
  · rcases h e he with haside | hdata
    · exact haside
    · rw [hskip e he] at hdata
      cases hdata
  · clear h hnone
    induction es generalizing c with
    | nil => rfl
    | cons e es ih =>
      rw [bytesRead, Event.output_none (hskip e List.mem_cons_self),
        ih (fun e' he' => hskip e' (List.mem_cons_of_mem e he'))]
      rfl

theorem drop_getD {data : List Byte} {k : Nat} (h : k < data.length) :
    data.drop k = data.getD k 0 :: data.drop (k + 1) := by
  rw [List.getD_eq_getElem?_getD, List.getElem?_eq_getElem h]
  exact List.drop_eq_getElem_cons h

/-- One data read of a loaded sector, and the rest of the run after it. -/
theorem Loaded.run {d : Drive} {a : Address} {ds : Drive → Image} {data : List Byte} {k : Nat}
    {es : List Event} {c : Controller} (h : Loaded d a ds data k c)
    (hm : (ds d).mounted = true) (hp : PacedReads d a.side es) (hk : k < diskSectorSize)
    (hdata : data.length = diskSectorSize)
    (hcount : k + es.countP Event.readsData = diskSectorSize) :
    bytesRead es c = data.drop k ∧
      Ended d a ds 0x00 (runAll Event.step es c) := by
  induction es generalizing k c with
  | nil =>
    rw [List.countP_nil] at hcount
    omega
  | cons e es ih =>
    rcases hp e List.mem_cons_self with haside | hread
    · have hquiet := haside.quiet.2
      rw [List.countP_cons_of_neg (by rw [hquiet]; exact Bool.false_ne_true)] at hcount
      rw [bytesRead, Event.output_none hquiet]
      exact ih (h.kept (h.reading.session.aside haside)) hp.tail hk hcount
    · rw [List.countP_cons_of_pos hread] at hcount
      obtain ⟨address, haddr, rfl⟩ := Event.readsData_true hread
      obtain ⟨hout, hstep⟩ := Event.output_data haddr c
      have hloaded : fdcReadData c = (c.fdc.regs.data, readByte c) := by
        unfold fdcReadData
        rw [if_neg (by rw [h.pending]; exact Bool.false_ne_true)]
      rw [hloaded] at hout hstep
      rw [bytesRead, runAll_cons, hout, hstep, h.data, drop_getD (by omega)]
      obtain ⟨hmore, hend⟩ := h.next hm hk
      by_cases hfull : k + 1 = diskSectorSize
      · -- this is the last byte: the rest is aside
        obtain ⟨haside, hnone⟩ := PacedReads.aside hp.tail (by omega)
        rw [hnone, hfull, List.drop_eq_nil_of_le (by omega)]
        exact ⟨rfl, (hend hfull).run haside⟩
      · obtain ⟨hbytes, hended⟩ := ih (hmore (by omega)) hp.tail (by omega) (by omega)
        rw [hbytes]
        exact ⟨rfl, hended⟩

theorem Fresh.run {d : Drive} {a : Address} {ds : Drive → Image} {data : List Byte}
    {es : List Event} {c : Controller} (h : Fresh d a ds c) (hs : ∀ d, Sound (ds d))
    (hm : (ds d).mounted = true) (hdata : sectorAt (ds d) a = some data)
    (hlen : data.length = diskSectorSize) (hp : PacedReads d a.side es)
    (hcount : es.countP Event.readsData = diskSectorSize) :
    bytesRead es c = data ∧
      Ended d a ds 0x00 (runAll Event.step es c) := by
  induction es generalizing c with
  | nil => cases hcount
  | cons e es ih =>
    rcases hp e List.mem_cons_self with haside | hread
    · have hquiet := haside.quiet.2
      rw [List.countP_cons_of_neg (by rw [hquiet]; exact Bool.false_ne_true)] at hcount
      rw [bytesRead, Event.output_none hquiet]
      exact ih (h.kept (h.reading.session.aside haside)) hp.tail hcount
    · rw [List.countP_cons_of_pos hread] at hcount
      obtain ⟨address, haddr, rfl⟩ := Event.readsData_true hread
      obtain ⟨hout, hstep⟩ := Event.output_data haddr c
      obtain ⟨c', hloaded, heq⟩ := h.load hs hdata
      rw [heq] at hout hstep
      obtain ⟨hmore, _⟩ := hloaded.next hm (by decide)
      obtain ⟨hbytes, hended⟩ := (hmore (by decide)).run hm hp.tail (by decide) hlen (by omega)
      rw [bytesRead, runAll_cons, hout, hstep, hloaded.data, hbytes]
      exact ⟨(drop_getD (k := 0) (by rw [hlen]; decide)).symm, hended⟩

/-- A read of an address that is not there, up to the first data read and on. -/
theorem Fresh.run_notFound {d : Drive} {a : Address} {ds : Drive → Image} {es : List Event}
    {c : Controller} (h : Fresh d a ds c) (hm : (ds d).mounted = true) (hout : ¬a.Inside (ds d))
    (hp : PacedReads d a.side es) (hcount : es.countP Event.readsData = 1) :
    Ended d a ds 0x10 (runAll Event.step es c) := by
  induction es generalizing c with
  | nil => cases hcount
  | cons e es ih =>
    rcases hp e List.mem_cons_self with haside | hread
    · rw [List.countP_cons_of_neg (by rw [haside.quiet.2]; exact Bool.false_ne_true)] at hcount
      exact ih (h.kept (h.reading.session.aside haside)) hp.tail hcount
    · rw [List.countP_cons_of_pos hread] at hcount
      obtain ⟨address, haddr, rfl⟩ := Event.readsData_true hread
      exact (h.notFound hm hout haddr).run (PacedReads.aside hp.tail (by omega)).1

/-! ## The round trip -/

/-- The registers address this sector of this drive, and an image is mounted there. -/
structure Selects (d : Drive) (a : Address) (c : Controller) : Prop where
  drive : c.fdc.latch.driveSelect = d
  side : c.fdc.latch.side = a.side
  track : c.fdc.regs.track.toNat = a.track
  sector : c.fdc.regs.sector.toNat = a.sector
  mounted : (c.fdc.drives d).mounted = true

theorem Selects.session {d : Drive} {a : Address} {c : Controller} (h : Selects d a c) :
    Session d a c.fdc.drives c := ⟨h.drive, h.side, h.track, h.sector, fun _ => .refl _⟩

theorem Ended.selects {d : Drive} {a : Address} {ds : Drive → Image} {status : Byte}
    {c : Controller} (h : Ended d a ds status c) : Selects d a c :=
  ⟨h.session.drive, h.session.side, h.session.track, h.session.sector, h.mounted⟩

/-- The event stores nothing to the sector and leaves the image in the drive. -/
structure Event.Spares (d : Drive) (a : Address) (e : Event) (c : Controller) : Prop where
  commit : ∀ cm, e.commit c.fdc = some cm →
    ¬(c.fdc.latch.driveSelect = d ∧ c.fdc.addressed cm.sector = a)
  mount : ∀ path io, e ≠ .mount d path io
  eject : ∀ io, e ≠ .eject d io

/-- A sector other than the stored one. -/
theorem Stored.spares {d : Drive} {a : Address} {cm : Commit} {c c' : Controller}
    (hs : SoundDrives c) (h : Stored cm c c')
    (hne : ¬(c.fdc.latch.driveSelect = d ∧ c.fdc.addressed cm.sector = a)) :
    c'.fdc.disk d a = c.fdc.disk d a := by
  by_cases hm : c.fdc.selected.mounted = true
  · by_cases ha : (c.fdc.addressed cm.sector).Inside c.fdc.selected
    · rw [h.disk hs hm ha, setSector, if_neg fun hcon => hne ⟨hcon.1.symm, hcon.2.symm⟩]
    · unfold Fdc.disk
      rw [h.outside hs (.inr ha)]
  · unfold Fdc.disk
    rw [h.outside hs (.inl (by simpa using hm))]

theorem withDrive_disk {d d' : Drive} (g : Store → Store) (c : Controller) (a : Address)
    (h : d' ≠ d) : (withDrive d g c).fdc.disk d' a = c.fdc.disk d' a := by
  dsimp only [Fdc.disk, withDrive, Fdc.setDrive]
  rw [Function.update_of_ne h]

theorem Event.Spares.step {d : Drive} {a : Address} {e : Event} {c : Controller}
    (h : e.Spares d a c) (hs : SoundDrives c) : (e.step c).fdc.disk d a = c.fdc.disk d a := by
  cases hl : e.load c.fdc with
  | some off =>
    unfold Fdc.disk
    rw [(e.step_load hl).drives, (copyFromCache_drives off c).1]
  | none =>
    cases hc : e.commit c.fdc with
    | some cm => exact (e.step_commit hc).spares hs (h.commit cm hc)
    | none =>
      cases hg : e.isGuest with
      | true =>
        unfold Fdc.disk
        rw [(e.step_same hg hl hc).drives]
      | false =>
        cases e with
        | read address => cases hg
        | write address value => cases hg
        | tick => cases hg
        | mount d' path io =>
          exact withDrive_disk _ c a fun heq => h.mount path io (by rw [heq])
        | eject d' io => exact withDrive_disk _ c a fun heq => h.eject io (by rw [heq])
        | flush d' io =>
          by_cases hd : d = d'
          · dsimp only [Event.step, withDrive, Fdc.setDrive, Fdc.disk]
            rw [hd, Function.update_self]
            exact (svDiskFlush_image io ⟨c.fdc.drives d', c.card, c.wild⟩).sectorAt a
          · exact withDrive_disk _ c a hd

/-- A run of events that spare a sector. -/
theorem runAll_spares {d : Drive} {a : Address} {es : List Event} {c : Controller}
    (hs : SoundDrives c) (h : EachStep Event.step (fun e c => e.Spares d a c) es c) :
    (runAll Event.step es c).fdc.disk d a = c.fdc.disk d a := by
  induction es generalizing c with
  | nil => rfl
  | cons e es ih => exact (ih (e.step_sound hs).1 h.2).trans (h.1.step hs)

/-- A sector that was written, and what is read from it. -/
theorem Selects.read {d : Drive} {a : Address} {c : Controller} {data : List Byte}
    (h : Selects d a c) (hs : SoundDrives c) (hdata : c.fdc.disk d a = some data)
    (hlen : data.length = diskSectorSize) {address : Word} {cmd : Byte}
    (haddr : isCommandReg address = true) (hcmd : isReadSector cmd = true) {rs : List Event}
    (hp : PacedReads d a.side rs) (hcount : rs.countP Event.readsData = diskSectorSize) :
    bytesRead rs (Event.step (.write address cmd) c) = data :=
  ((Fresh.start h.session hs h.mounted haddr hcmd).run hs h.mounted hdata hlen hp hcount).1

/-- From any state that a run from power-on reaches with a writable image mounted:

* WRITE SECTOR of an address inside the geometry ends with status 0 and replaces that
  sector by the bytes written; no other sector of any drive changes.  After any events that
  neither store to the sector nor mount or eject the drive, READ SECTOR of the address
  returns these bytes.
* A WRITE SECTOR that another command cuts short leaves every cache as it was.
* WRITE SECTOR and READ SECTOR of an address outside the geometry end with RECORD NOT FOUND
  and leave every cache as it was. -/
theorem sector_round_trip (card : Card) (past : List Event) (d : Drive) (a : Address)
    (c : Controller) (hc : c = runAll Event.step past (powerOn card)) (h : Selects d a c)
    (hw : (c.fdc.drives d).readOnly = false) {address : Word}
    (haddr : isCommandReg address = true) :
    (∀ cmd ws, isWriteSector cmd = true → PacedWrites d a.side ws →
      (bytesWritten ws).length = diskSectorSize → a.Inside (c.fdc.drives d) →
      ∃ c', c' = runAll Event.step (.write address cmd :: ws) c ∧
        c'.fdc.disk = setSector c.fdc.disk d a (bytesWritten ws) ∧
        c'.fdc.flow.busy = false ∧ statusByte c'.fdc = 0x00 ∧ Selects d a c' ∧
        ∀ later, EachStep Event.step (fun e c => e.Spares d a c) later c' →
          Selects d a (runAll Event.step later c') →
          ∀ address' cmd' rs, isCommandReg address' = true → isReadSector cmd' = true →
            PacedReads d a.side rs → rs.countP Event.readsData = diskSectorSize →
            bytesRead rs (Event.step (.write address' cmd') (runAll Event.step later c')) =
              bytesWritten ws) ∧
    (∀ cmd ws address' cmd', isWriteSector cmd = true → PacedWrites d a.side ws →
      (bytesWritten ws).length < diskSectorSize → isCommandReg address' = true →
      ∀ d', ((runAll Event.step (.write address cmd :: ws ++ [.write address' cmd']) c).fdc.drives
        d').cache = (c.fdc.drives d').cache) ∧
    (∀ cmd ws, isWriteSector cmd = true → PacedWrites d a.side ws →
      (bytesWritten ws).length = diskSectorSize → ¬a.Inside (c.fdc.drives d) →
      ∃ c', c' = runAll Event.step (.write address cmd :: ws) c ∧
        c'.fdc.flow.busy = false ∧ statusByte c'.fdc = 0x10 ∧
        ∀ d', (c'.fdc.drives d').cache = (c.fdc.drives d').cache) ∧
    (∀ cmd rs, isReadSector cmd = true → PacedReads d a.side rs →
      rs.countP Event.readsData = 1 → ¬a.Inside (c.fdc.drives d) →
      ∃ c', c' = runAll Event.step (.write address cmd :: rs) c ∧
        c'.fdc.flow.busy = false ∧ statusByte c'.fdc = 0x10 ∧
        ∀ d', (c'.fdc.drives d').cache = (c.fdc.drives d').cache) := by
  have hs : SoundDrives c := by
    rw [hc]
    exact runAll_sound (powerOn_sound card)
  have hroom : ([] : List Byte).length < diskSectorSize := by decide
  refine ⟨?_, ?_, ?_, ?_⟩
  · intro cmd ws hcmd hp hlen hin
    have hstart := Writing.start h.session hs h.mounted hw haddr hcmd
    obtain ⟨ds', hdisk, hended⟩ := (hstart.run_last hs h.mounted hp hroom
      (by rw [hlen, List.length_nil, Nat.zero_add])).1 hin
    have hdisk' := hended.session.disk.trans hdisk
    rw [List.nil_append] at hdisk'
    refine ⟨_, rfl, hdisk', hended.busy, hended.statusByte, hended.selects, ?_⟩
    intro later hspare hsel address' cmd' rs haddr' hcmd' hrs hcount
    have hs' : SoundDrives (runAll Event.step (.write address cmd :: ws) c) := runAll_sound hs
    have hstored := (runAll_spares hs' hspare).trans (congrFun (congrFun hdisk' d) a)
    rw [setSector, if_pos ⟨rfl, rfl⟩] at hstored
    exact hsel.read (runAll_sound hs') hstored hlen haddr' hcmd' hrs hcount
  · intro cmd ws address' cmd' hcmd hp hlen haddr' d'
    have hstart := Writing.start h.session hs h.mounted hw haddr hcmd
    have hpart := hstart.run hp (by rw [List.length_nil, Nat.zero_add]; exact hlen)
    have himage := (hpart.session.images d').cache
    rw [runAll_append, runAll_cons, runAll_cons, runAll_nil, Event.step,
      svDiskWrite_command haddr', (fdcExecuteCommand_same cmd' _).drives,
      (setIntrq_same false _).drives]
    exact himage
  · intro cmd ws hcmd hp hlen hout
    have hstart := Writing.start h.session hs h.mounted hw haddr hcmd
    have hended := (hstart.run_last hs h.mounted hp hroom
      (by rw [hlen, List.length_nil, Nat.zero_add])).2 hout
    exact ⟨_, rfl, hended.busy, hended.statusByte, fun d' => (hended.session.images d').cache⟩
  · intro cmd rs hcmd hp hcount hout
    have hstart := Fresh.start h.session hs h.mounted haddr hcmd
    have hended := hstart.run_notFound h.mounted hout hp hcount
    exact ⟨_, rfl, hended.busy, hended.statusByte, fun d' => (hended.session.images d').cache⟩

/-- The image is mounted in drive 0, and sector 1 addressed. -/
def mountOne : List Event := [.mount drive0 ['/', 'a', '.', 'd', 's', 'k'] {}, .write 0xFF4A 1]

theorem mountOne_state :
    Selects 0 ⟨0, 0, 1⟩ (runAll Event.step mountOne (powerOn oneTrackCard)) ∧
      ((runAll Event.step mountOne (powerOn oneTrackCard)).fdc.drives 0).readOnly = false ∧
      Address.Inside ⟨0, 0, 1⟩
        ((runAll Event.step mountOne (powerOn oneTrackCard)).fdc.drives 0) := by
  have hregs : (runAll Event.step mountOne (powerOn oneTrackCard)).fdc.latch.driveSelect = 0 ∧
      (runAll Event.step mountOne (powerOn oneTrackCard)).fdc.latch.side = 0 ∧
      (runAll Event.step mountOne (powerOn oneTrackCard)).fdc.regs.track.toNat = 0 ∧
      (runAll Event.step mountOne (powerOn oneTrackCard)).fdc.regs.sector.toNat = 1 := by
    decide +kernel
  have himage : ((runAll Event.step mountOne (powerOn oneTrackCard)).fdc.drives 0).mounted = true ∧
      ((runAll Event.step mountOne (powerOn oneTrackCard)).fdc.drives 0).readOnly = false ∧
      0 < ((runAll Event.step mountOne (powerOn oneTrackCard)).fdc.drives 0).tracks ∧
      0 < ((runAll Event.step mountOne (powerOn oneTrackCard)).fdc.drives 0).sides ∧
      1 ≤ ((runAll Event.step mountOne (powerOn oneTrackCard)).fdc.drives 0).sectorsPerTrack := by
    decide +kernel
  obtain ⟨hdrive, hside, htrack, hsector⟩ := hregs
  obtain ⟨hmounted, hwritable, htracks, hsides, hper⟩ := himage
  exact ⟨⟨hdrive, hside, htrack, hsector, hmounted⟩, hwritable, htracks, hsides,
    Nat.le_refl 1, hper⟩

/-- A run of data writes and nothing else. -/
theorem pacedWrites_map (d : Drive) (side : Nat) (bytes : List Byte) :
    PacedWrites d side (bytes.map (.write 0xFF4B)) ∧
      bytesWritten (bytes.map (.write 0xFF4B)) = bytes := by
  constructor
  · intro e he
    obtain ⟨value, _, rfl⟩ := List.mem_map.mp he
    exact .inr rfl
  · unfold bytesWritten
    rw [List.filterMap_map]
    exact List.filterMap_some

/-- A run of 256 writes of one byte. -/
theorem pacedWrites_fill (value : Byte) :
    PacedWrites 0 0 (List.replicate diskSectorSize (.write 0xFF4B value)) ∧
      bytesWritten (List.replicate diskSectorSize (.write 0xFF4B value)) =
        List.replicate diskSectorSize value := by
  have hmap := pacedWrites_map 0 0 (List.replicate diskSectorSize value)
  rw [List.map_replicate] at hmap
  exact hmap

theorem pacedReads_all :
    PacedReads 0 0 (List.replicate diskSectorSize (.read 0xFF4B)) ∧
      (List.replicate diskSectorSize (.read 0xFF4B)).countP Event.readsData = diskSectorSize := by
  refine ⟨fun e he => .inr ?_, ?_⟩
  · rw [List.eq_of_mem_replicate he]
    rfl
  · rw [List.countP_replicate]
    exact if_pos rfl

/-- Track 0, sector 1 of drive 0 is filled with `$41` and read back. -/
theorem sector_round_trip_one :
    bytesRead (List.replicate diskSectorSize (.read 0xFF4B))
      (Event.step (.write 0xFF48 0x80)
        (runAll Event.step
          (.write 0xFF48 0xA0 :: List.replicate diskSectorSize (.write 0xFF4B 0x41))
          (runAll Event.step mountOne (powerOn oneTrackCard)))) =
      List.replicate diskSectorSize 0x41 := by
  obtain ⟨hsel, hwritable, hin⟩ := mountOne_state
  obtain ⟨hwrites, hbytes⟩ := pacedWrites_fill 0x41
  obtain ⟨hreads, hcount⟩ := pacedReads_all
  obtain ⟨c', hc', _, _, _, hsel', hread⟩ :=
    (sector_round_trip oneTrackCard mountOne 0 ⟨0, 0, 1⟩ _ rfl hsel hwritable
      (show isCommandReg 0xFF48 = true from rfl)).1 0xA0 _ rfl hwrites
      (by rw [hbytes, List.length_replicate]) hin
  rw [← hc', ← hbytes]
  exact hread [] trivial hsel' 0xFF48 0x80 _ rfl rfl hreads hcount

end CocoEmulator.Disk
