/-
  Disk/WriteProtect.lean --- read-only images, and sectors that get lost.

  Whether there is an image and whether it may be written is asked when a command is given.
  The store goes to the drive that is selected when the last byte arrives, and the status
  then says whether the address is valid and nothing more.

      Supplied.step            the sector buffer holds the bytes given since the command
      write_protection_exact   read-only caches stay as they are and no sector is lost,
                               exactly along the runs whose stores find a drive for them
-/
import CocoEmulator.Disk.RoundTrip
import CocoEmulator.Disk.Transfer

set_option autoImplicit false

namespace CocoEmulator.Disk

open CocoEmulator.Base CocoEmulator.Cpu

/-! ## The law -/

/-- Does the event take out what is in the drive? -/
def Event.replaces (d : Drive) : Event → Bool
  | .mount d' _ _ => d' = d
  | .eject d' _ => d' = d
  | _ => false

/-- The bytes written to the data register since the last command. -/
def Event.supply (e : Event) (supplied : List Byte) : List Byte :=
  if e.isCommand then [] else supplied ++ e.written.toList

/-- The controller, and the bytes supplied beside it. -/
def supplyStep (e : Event) (x : Controller × List Byte) : Controller × List Byte :=
  (e.step x.1, e.supply x.2)

/-- The event ends a WRITE SECTOR.  A command given meanwhile has a status of its own. -/
structure Event.EndsWrite (e : Event) (c : Controller) : Prop where
  command : e.isCommand = false
  before : c.fdc.xfer.writing = true
  after : (e.step c).fdc.xfer.writing = false

/-- The sector that the registers and the latch address. -/
def Fdc.addressedSector (f : Fdc) (sector : Byte) : Option (List Byte) :=
  f.disk f.latch.driveSelect (f.addressed sector)

/-- What one event keeps: the cache of a drive mounted read-only is not modified, and a WRITE
SECTOR that ends with status 0 has stored the bytes supplied for it in a mounted drive. -/
structure WriteLaw (e : Event) (x : Controller × List Byte) : Prop where
  readOnly : ∀ d, (x.1.fdc.drives d).mounted = true → (x.1.fdc.drives d).readOnly = true →
    e.replaces d = false → ((e.step x.1).fdc.drives d).cache = (x.1.fdc.drives d).cache
  stored : e.EndsWrite x.1 → (e.step x.1).fdc.regs.status = 0x00 →
    (e.step x.1).fdc.selected.mounted = true ∧
      (e.step x.1).fdc.addressedSector (e.step x.1).fdc.regs.sector = some (e.supply x.2)

/-- What it takes, where a data byte completes a sector at a valid address: for a WRITE SECTOR
the drive selected now is mounted; and it is not mounted read-only, or the sector holds the
same bytes already. -/
structure Event.Writable (e : Event) (c : Controller) : Prop where
  mounted : ∀ cm, e.commit c.fdc = some cm →
    (c.fdc.addressed cm.sector).Inside c.fdc.selected → c.fdc.xfer.writing = true →
      c.fdc.selected.mounted = true
  readOnly : ∀ cm, e.commit c.fdc = some cm →
    (c.fdc.addressed cm.sector).Inside c.fdc.selected → c.fdc.selected.mounted = true →
      c.fdc.selected.readOnly = true → c.fdc.addressedSector cm.sector = some (sectorBytes cm.buf)

/-! ## The sector buffer -/

/-- The bytes in the sector buffer, up to the next one. -/
def Xfer.held (x : Xfer) : List Byte := (List.range x.bufPos).map x.sectorBuf

theorem Xfer.held_advance (value : Byte) (x : Xfer) :
    (x.advance value).held = x.held ++ [value] := by
  have hbefore : (List.range x.bufPos).map (x.advance value).sectorBuf = x.held := by
    refine List.map_congr_left fun i hi => ?_
    have hne : i ≠ x.bufPos := Nat.ne_of_lt (List.mem_range.mp hi)
    simp [Xfer.advance, Xfer.put, Function.update_of_ne hne]
  have hlast : (x.advance value).sectorBuf x.bufPos = value := by
    simp [Xfer.advance, Xfer.put]
  show (List.range (x.bufPos + 1)).map (x.advance value).sectorBuf = _
  rw [List.range_succ, List.map_append, hbefore]
  simp [hlast]

/-- What an event that is no command does to a WRITE SECTOR in progress. -/
inductive WriteStep (e : Event) (c : Controller) : Prop
  | other (written : e.written = none) (commit : e.commit c.fdc = none)
      (xfer : (e.step c).fdc.xfer = c.fdc.xfer)
  | byte (value : Byte) (written : e.written = some value) (commit : e.commit c.fdc = none)
      (xfer : (e.step c).fdc.xfer = c.fdc.xfer.advance value)
  | last (value : Byte) (written : e.written = some value)
      (commit : e.commit c.fdc = some ⟨c.fdc.regs.sector, (c.fdc.xfer.advance value).sectorBuf⟩)
      (full : c.fdc.xfer.bufPos + 1 = diskSectorSize)
      (xfer : (e.step c).fdc.xfer = { c.fdc.xfer.advance value with writing := false })
      (status : (e.step c).fdc.regs.status =
        if c.fdc.offset c.fdc.regs.sector = none then 0x10 else 0x00)
      (drive : (e.step c).fdc.latch.driveSelect = c.fdc.latch.driveSelect)
      (address : (e.step c).fdc.addressed (e.step c).fdc.regs.sector =
        c.fdc.addressed c.fdc.regs.sector)

theorem Transfer.writing {f : Fdc} (h : Transfer f) (hw : f.xfer.writing = true) :
    WritingSector f := by
  cases h with
  | idle h _ => exact absurd (h.writing.symm.trans hw) (by simp)
  | read h => exact absurd (h.writing.symm.trans hw) (by simp)
  | write h => exact h
  | track h => exact absurd (h.writing.symm.trans hw) (by simp)

/-- A data read during a write does nothing. -/
theorem WritingSector.read {c : Controller} (h : WritingSector c.fdc) :
    (fdcReadData c).2 = c := by
  unfold fdcReadData readByte
  rw [h.readPending, h.reading, h.defer]
  rfl

theorem WritingSector.data {c : Controller} (h : WritingSector c.fdc) {address : Word}
    (haddr : isDataReg address = true) (value : Byte) : WriteStep (.write address value) c := by
  have hwritten : Event.written (.write address value) = some value := if_pos haddr
  have hstep : Event.step (.write address value) c =
      fdcWriteData value (c.onRegs (.setData value)) := svDiskWrite_data haddr value c
  have hguard : (c.fdc.xfer.writing && decide (c.fdc.xfer.bufPos < c.fdc.xfer.bufLen)) = true := by
    rw [h.writing]
    exact decide_eq_true h.pos
  have hcommit : Event.commit c.fdc (.write address value) = c.fdc.commit value := if_pos haddr
  have hpos := h.pos
  have hlen := h.len
  unfold Fdc.commit at hcommit
  unfold fdcWriteData at hstep
  rw [if_neg (by rw [h.writeTrack]; exact Bool.false_ne_true)] at hcommit
  rw [if_neg (by exact ne_of_eq_of_ne h.writeTrack Bool.false_ne_true),
    if_pos (by exact hguard)] at hstep
  dsimp only at hstep
  by_cases hfull : c.fdc.xfer.bufLen ≤ c.fdc.xfer.bufPos + 1
  · rw [if_pos ⟨h.writing, h.pos, hfull⟩] at hcommit
    rw [if_pos (by exact hfull)] at hstep
    obtain ⟨hregs, _, hxfer, hdrive, hside⟩ :=
      commitSector_fdc ((c.onRegs (.setData value)).onXfer (.advance value))
    rw [← hstep] at hregs hxfer hdrive hside
    refine .last value hwritten hcommit (by omega) hxfer ?_ hdrive ?_
    · rw [hregs]
      rfl
    · unfold Fdc.addressed
      rw [hregs, hside]
      rfl
  · rw [if_neg fun hcon => hfull hcon.2.2] at hcommit
    rw [if_neg (by exact hfull)] at hstep
    exact .byte value hwritten hcommit (by rw [hstep]; rfl)

/-- The registers other than command and data. -/
theorem svDiskWrite_xfer {address : Word} (hc : isCommandReg address = false)
    (hd : isDataReg address = false) (value : Byte) (c : Controller) :
    (svDiskWrite address value c).fdc.xfer = c.fdc.xfer := by
  unfold svDiskWrite
  split
  · rfl
  · next hhigh =>
    have hne : (address &&& 0x03).toNat ≠ 0 := by
      intro heq
      rw [isCommandReg, heq, decide_eq_false hhigh] at hc
      cases hc
    rcases reg_of_not_data hd with hlow | hreg | hreg | hreg
    · exact absurd hlow hhigh
    · exact absurd hreg hne
    · rw [hreg]
      rfl
    · rw [hreg]
      rfl

theorem Event.writeStep {e : Event} {c : Controller} (h : WritingSector c.fdc)
    (he : e.isCommand = false) : WriteStep e c := by
  cases e with
  | read address =>
    refine .other rfl rfl ?_
    cases ha : isDataReg address with
    | false => exact (svDiskRead_kept ha c).xfer
    | true => rw [Event.step, svDiskRead_data ha, h.read]
  | write address value =>
    cases ha : isDataReg address with
    | false =>
      refine .other ?_ ?_ (svDiskWrite_xfer he ha value c)
      · simp [Event.written, ha]
      · simp [Event.commit, ha]
    | true => exact h.data ha value
  | tick => exact .other rfl rfl (svDiskTick_kept c).xfer
  | mount d path io => exact .other rfl rfl rfl
  | eject d io => exact .other rfl rfl rfl
  | flush d io => exact .other rfl rfl rfl

/-! ## Writes begin with a command -/

/-- A command that starts no WRITE SECTOR, or starts it at the beginning of the buffer. -/
def FromStart (f : Fdc) : Prop := f.xfer.writing = true → f.xfer.bufPos = 0

theorem FromStart.none {f : Fdc} (h : f.xfer.writing = false) : FromStart f := by
  intro hw
  exact absurd (h.symm.trans hw) Bool.false_ne_true

theorem writeSector_start {f : Fdc} (h : f.xfer.writing = false) : FromStart (writeSector f) := by
  unfold writeSector
  split
  · exact .none h
  · split
    · exact .none h
    · intro _
      rfl

theorem readSector_start {f : Fdc} (h : f.xfer.writing = false) : FromStart (readSector f) := by
  unfold readSector
  split
  · exact .none h
  · exact .none h

theorem writeTrackCommand_start {f : Fdc} (h : f.xfer.writing = false) :
    FromStart (writeTrackCommand f) := by
  unfold writeTrackCommand
  split
  · exact .none h
  · split
    · exact .none h
    · exact .none h

theorem commandBody_start (cmd : Byte) {f : Fdc} (h : f.xfer.writing = false) :
    FromStart (commandBody cmd f) := by
  unfold commandBody
  split
  · exact .none h
  · exact .none h
  · exact readSector_start h
  · exact readSector_start h
  · exact writeSector_start h
  · exact writeSector_start h
  · exact .none h
  · exact .none h
  · exact .none h
  · exact writeTrackCommand_start h
  · exact .none h

theorem fdcExecuteCommand_start (cmd : Byte) (c : Controller) :
    FromStart (fdcExecuteCommand cmd c).fdc := by
  have hbody : FromStart (commandBody cmd (beginCommand cmd c.fdc)) := commandBody_start cmd rfl
  unfold fdcExecuteCommand
  dsimp only
  split
  · unfold FromStart
    rw [setIntrq_fdc]
    exact hbody
  · exact hbody

theorem fdcReadData_writing (c : Controller) :
    (fdcReadData c).2.fdc.xfer.writing = c.fdc.xfer.writing := by
  have hnext (c : Controller) : (readByte c).fdc.xfer.writing = c.fdc.xfer.writing := by
    unfold readByte
    split
    · show (nextByte c.fdc).xfer.writing = _
      unfold nextByte
      dsimp only
      split
      · rfl
      · rfl
    · split
      · rw [setIntrq_fdc]
        rfl
      · rfl
  have hload (off : Nat) : (loadSector off c).fdc.xfer.writing = c.fdc.xfer.writing := by
    show (copyFromCache off (c.onXfer fun x => { x with readPending := false })).fdc.xfer.writing = _
    unfold copyFromCache
    split
    · rfl
    · rfl
  unfold fdcReadData
  split
  · split
    · dsimp only [recordNotFound]
      rw [setIntrq_fdc]
      rfl
    · exact (hnext _).trans (hload _)
  · exact hnext c

theorem fdcWriteTrackByte_writing {c : Controller} (hs : Sound c.fdc.selected)
    (h : WritingTrack c.fdc) (value : Byte) :
    (fdcWriteTrackByte value c).fdc.xfer.writing = c.fdc.xfer.writing := by
  have hd : Decoded (c.onWt .countByte) (wtDecode value (c.onWt .countByte)) :=
    wtDecode_decoded (c := c.onWt .countByte) hs h.field value
  unfold fdcWriteTrackByte
  dsimp only
  split
  · rw [setIntrq_fdc]
    exact hd.writing
  · exact hd.writing

theorem fdcWriteData_writing {c : Controller} (hs : Sound c.fdc.selected) (h : Transfer c.fdc)
    (hw : c.fdc.xfer.writing = false) (value : Byte) :
    (fdcWriteData value c).fdc.xfer.writing = false := by
  unfold fdcWriteData
  split
  · next htrack =>
    cases h with
    | track h => exact (fdcWriteTrackByte_writing hs h value).trans hw
    | idle h _ => exact absurd (h.writeTrack.symm.trans htrack) (by simp)
    | read h => exact absurd (h.writeTrack.symm.trans htrack) (by simp)
    | write h => exact absurd (h.writeTrack.symm.trans htrack) (by simp)
  · rw [hw, Bool.false_and, if_neg Bool.false_ne_true]
    exact hw

/-- Nothing but a command starts a WRITE SECTOR. -/
theorem Event.step_writing {e : Event} {c : Controller} (h : DiskInv c)
    (he : e.isCommand = false) (hw : c.fdc.xfer.writing = false) :
    (e.step c).fdc.xfer.writing = false := by
  cases e with
  | read address =>
    cases ha : isDataReg address with
    | false => rw [Event.step, (svDiskRead_kept ha c).xfer, hw]
    | true => rw [Event.step, svDiskRead_data ha, fdcReadData_writing, hw]
  | write address value =>
    cases ha : isDataReg address with
    | false => rw [Event.step, svDiskWrite_xfer he ha, hw]
    | true =>
      rw [Event.step, svDiskWrite_data ha]
      exact fdcWriteData_writing (c := c.onRegs (.setData value)) (h.sound _)
        (h.transfer.congr ⟨rfl, rfl, rfl⟩) hw value
  | tick => rw [Event.step, (svDiskTick_kept c).xfer, hw]
  | mount d path io => exact hw
  | eject d io => exact hw
  | flush d io => exact hw

/-! ## The bytes supplied -/

/-- While a WRITE SECTOR is in progress, the sector buffer holds the bytes supplied for it. -/
structure Supplied (x : Controller × List Byte) : Prop where
  inv : DiskInv x.1
  held : x.1.fdc.xfer.writing = true → x.1.fdc.xfer.held = x.2

theorem Supplied.step {e : Event} {x : Controller × List Byte} (h : Supplied x) :
    Supplied (supplyStep e x) := by
  obtain ⟨c, supplied⟩ := x
  refine ⟨DiskEvent.step_inv (e := .event e) h.inv, fun hw => ?_⟩
  show (e.step c).fdc.xfer.held = e.supply supplied
  unfold Event.supply
  cases he : e.isCommand with
  | true =>
    cases e with
    | write address value =>
      have hstep : Event.step (.write address value) c =
          fdcExecuteCommand value (setIntrq false c) := svDiskWrite_command he value c
      have hpos : (Event.step (.write address value) c).fdc.xfer.bufPos = 0 := by
        rw [hstep]
        refine fdcExecuteCommand_start value (setIntrq false c) ?_
        rw [← hstep]
        exact hw
      rw [Xfer.held, hpos]
      rfl
    | read address => cases he
    | tick => cases he
    | mount d path io => cases he
    | eject d io => cases he
    | flush d io => cases he
  | false =>
    have hbefore : c.fdc.xfer.writing = true := by
      cases hb : c.fdc.xfer.writing with
      | true => rfl
      | false => exact absurd ((Event.step_writing h.inv he hb).symm.trans hw) Bool.false_ne_true
    have hheld : c.fdc.xfer.held = supplied := h.held hbefore
    rw [if_neg Bool.false_ne_true]
    cases Event.writeStep (h.inv.transfer.writing hbefore) he with
    | other hwritten _ hxfer =>
      rw [hxfer, hwritten, hheld]
      simp
    | byte value hwritten _ hxfer =>
      rw [hxfer, hwritten, Xfer.held_advance, hheld]
      rfl
    | last value _ _ _ hxfer _ _ _ =>
      have hended : (e.step c).fdc.xfer.writing = false := by rw [hxfer]
      exact absurd (hended.symm.trans hw) Bool.false_ne_true

theorem powerOn_supplied (card : Card) : Supplied (powerOn card, []) := by
  refine ⟨powerOn_diskInv card, fun hw => ?_⟩
  exact absurd hw (by simp [powerOn])

/-! ## One event -/

theorem addressedSector_eq {f : Fdc} {sector : Byte} {b : Block} (hs : Sound f.selected)
    (hb : f.selected.cache = some b) (ha : (f.addressed sector).Inside f.selected) :
    f.addressedSector sector = some (sectorBytes fun i =>
      b.byte ((f.addressed sector).index f.selected * diskSectorSize + i)) := by
  have hsector : sectorAt f.selected (f.addressed sector) = _ := sectorAt_of ha hb
  rw [hs.sectorSize] at hsector
  exact hsector

theorem Fdc.offset_none_iff {f : Fdc} {sector : Byte} :
    f.offset sector = none ↔ ¬(f.addressed sector).Inside f.selected := by
  constructor
  · intro hnone hin
    exact absurd (hin.offset.symm.trans hnone) (Option.some_ne_none _)
  · exact offset_outside

/-- An event that completes no sector modifies no cache that it does not replace. -/
theorem Event.step_cache {e : Event} {c : Controller} {d : Drive} (hc : e.commit c.fdc = none)
    (hd : e.replaces d = false) : ((e.step c).fdc.drives d).cache = (c.fdc.drives d).cache := by
  cases hl : e.load c.fdc with
  | some off => rw [(e.step_load hl).drives, (copyFromCache_drives off c).1]
  | none =>
    cases e with
    | read address => rw [(Event.step_same rfl hl hc).drives]
    | write address value => rw [(Event.step_same rfl hl hc).drives]
    | tick => rw [(Event.step_same rfl hl hc).drives]
    | mount d' path io =>
      have hne : d ≠ d' := fun heq => of_decide_eq_false hd heq.symm
      dsimp only [Event.step, withDrive, Fdc.setDrive]
      rw [Function.update_of_ne hne]
    | eject d' io =>
      have hne : d ≠ d' := fun heq => of_decide_eq_false hd heq.symm
      dsimp only [Event.step, withDrive, Fdc.setDrive]
      rw [Function.update_of_ne hne]
    | flush d' io =>
      dsimp only [Event.step, withDrive, Fdc.setDrive]
      by_cases heq : d = d'
      · rw [heq, Function.update_self]
        exact (svDiskFlush_image io ⟨c.fdc.drives d', c.card, c.wild⟩).cache
      · rw [Function.update_of_ne heq]

theorem Event.commit_written {e : Event} {f : Fdc} {cm : Commit} (h : e.commit f = some cm) :
    ∃ value, e.written = some value := by
  cases e with
  | write address value =>
    dsimp only [Event.commit] at h
    split at h
    · next haddr => exact ⟨value, if_pos haddr⟩
    · cases h
  | read address => cases h
  | tick => cases h
  | mount d path io => cases h
  | eject d io => cases h
  | flush d io => cases h

/-- A data write is no command, and replaces no image. -/
theorem Event.written_aside {e : Event} {value : Byte} (h : e.written = some value) :
    e.isCommand = false ∧ ∀ d, e.replaces d = false := by
  obtain ⟨address, haddr, rfl⟩ := Event.written_some h
  refine ⟨?_, fun _ => rfl⟩
  obtain ⟨_, hlow⟩ := Bool.and_eq_true_iff.mp haddr
  dsimp only [Event.isCommand, isCommandReg]
  rw [eq_of_beq hlow]
  exact Bool.and_false _

/-- A store leaves the cache of the selected drive as it is exactly when the bytes are there
already. -/
theorem Stored.cache_iff {cm : Commit} {c c' : Controller} (hs : SoundDrives c)
    (h : Stored cm c c') (hm : c.fdc.selected.mounted = true)
    (ha : (c.fdc.addressed cm.sector).Inside c.fdc.selected) :
    (c'.fdc.drives c.fdc.latch.driveSelect).cache = c.fdc.selected.cache ↔
      c.fdc.addressedSector cm.sector = some (sectorBytes cm.buf) := by
  have hsel : Sound c.fdc.selected := hs _
  obtain ⟨b, hb⟩ := Option.isSome_iff_exists.mp (hsel.mounted.symm.trans hm)
  have hoff := storeOffset_inside hsel hm ha
  have haddressed := addressedSector_eq hsel hb ha
  rw [hsel.sectorSize] at hoff
  generalize (c.fdc.addressed cm.sector).index c.fdc.selected * diskSectorSize = off
    at hoff haddressed
  have hstore : (c'.fdc.drives c.fdc.latch.driveSelect).cache =
      some { b with byte := splice b.byte off diskSectorSize cm.buf } := by
    rw [h.drives, Fdc.storedDrives, hoff]
    dsimp only
    rw [Function.update_self]
    dsimp only [Disk.storedImage, svDiskMarkDirty]
    rw [hb, hsel.sectorSize]
    rfl
  rw [hstore, hb, haddressed]
  constructor
  · intro heq
    have hbyte := congrArg Block.byte (Option.some.inj heq)
    dsimp only at hbyte
    congr 1
    refine sectorBytes_congr fun i hi => ?_
    rw [← hbyte]
    exact splice_at hi
  · intro heq
    have hsame : splice b.byte off diskSectorSize cm.buf = b.byte := by
      refine splice_same fun i hi => ?_
      exact (List.map_inj_left.mp (Option.some.inj heq) i (List.mem_range.mpr hi)).symm
    rw [hsame]

/-- The cache part of the law. -/
theorem Event.readOnly_iff {e : Event} {c : Controller} (hs : SoundDrives c) :
    (∀ d, (c.fdc.drives d).mounted = true → (c.fdc.drives d).readOnly = true →
      e.replaces d = false → ((e.step c).fdc.drives d).cache = (c.fdc.drives d).cache) ↔
    ∀ cm, e.commit c.fdc = some cm → (c.fdc.addressed cm.sector).Inside c.fdc.selected →
      c.fdc.selected.mounted = true → c.fdc.selected.readOnly = true →
        c.fdc.addressedSector cm.sector = some (sectorBytes cm.buf) := by
  constructor
  · intro hall cm hc hin hm hro
    obtain ⟨value, hwritten⟩ := Event.commit_written hc
    have haside := (Event.written_aside hwritten).2 c.fdc.latch.driveSelect
    exact ((Event.step_commit hc).cache_iff hs hm hin).mp (hall _ hm hro haside)
  · intro hcond d hm hro haside
    cases hc : e.commit c.fdc with
    | none => exact Event.step_cache hc haside
    | some cm =>
      have hstored := Event.step_commit hc
      by_cases hd : d = c.fdc.latch.driveSelect
      · subst hd
        by_cases hin : (c.fdc.addressed cm.sector).Inside c.fdc.selected
        · exact (hstored.cache_iff hs hm hin).mpr (hcond cm hc hin hm hro)
        · rw [hstored.outside hs (.inr hin)]
      · rw [hstored.drives, Fdc.storedDrives]
        cases c.fdc.storeOffset cm.sector with
        | none => rfl
        | some off =>
          dsimp only
          rw [Function.update_of_ne hd]

theorem Event.writeLaw_iff {e : Event} {x : Controller × List Byte} (hx : Supplied x) :
    WriteLaw e x ↔ e.Writable x.1 := by
  obtain ⟨c, supplied⟩ := x
  have hs : SoundDrives c := hx.inv.sound
  have hcache := Event.readOnly_iff (e := e) hs
  constructor
  · rintro ⟨hro, hst⟩
    refine ⟨fun cm hc hin hw => ?_, hcache.mp hro⟩
    obtain ⟨value, hwritten⟩ := Event.commit_written hc
    have haside := (Event.written_aside hwritten).1
    cases Event.writeStep (hx.inv.transfer.writing hw) haside with
    | other hnone _ _ => exact absurd (hwritten.symm.trans hnone) (Option.some_ne_none value)
    | byte _ _ hnone _ => exact absurd (hc.symm.trans hnone) (Option.some_ne_none cm)
    | last value' _ hcommit _ hxfer hstatus hdrive _ =>
      have hsector : cm.sector = c.fdc.regs.sector :=
        congrArg Commit.sector (Option.some.inj (hc.symm.trans hcommit))
      rw [hsector] at hin
      have hends : e.EndsWrite c := ⟨haside, hw, by rw [hxfer]⟩
      have hzero : (e.step c).fdc.regs.status = 0x00 := by
        rw [hstatus, if_neg fun hnone => Fdc.offset_none_iff.mp hnone hin]
      have hmounted := (hst hends hzero).1
      rw [Fdc.selected, hdrive, (Event.step_commit hc).mounted] at hmounted
      exact hmounted
  · rintro ⟨hmount, hro⟩
    refine ⟨hcache.mpr hro, fun hends hzero => ?_⟩
    have hw := hends.before
    have hwriting := hx.inv.transfer.writing hw
    cases Event.writeStep hwriting hends.command with
    | other _ _ hxfer =>
      have hafter := hends.after
      rw [hxfer, hw] at hafter
      cases hafter
    | byte value _ _ hxfer =>
      have hafter := hends.after
      rw [hxfer] at hafter
      exact absurd (hafter.symm.trans hw) Bool.false_ne_true
    | last value hwritten hcommit hfull _ hstatus hdrive haddress =>
      have hin : (c.fdc.addressed c.fdc.regs.sector).Inside c.fdc.selected := by
        by_contra hout
        rw [hstatus, if_pos (Fdc.offset_none_iff.mpr hout)] at hzero
        exact absurd hzero (by decide)
      have hm := hmount _ hcommit hin hw
      have hstored := Event.step_commit hcommit
      have hdisk := hstored.disk hs hm hin
      have hsupply : e.supply supplied = sectorBytes (c.fdc.xfer.advance value).sectorBuf := by
        have hheld : c.fdc.xfer.held = supplied := hx.held hw
        have hnext := Xfer.held_advance value c.fdc.xfer
        rw [hheld] at hnext
        unfold Event.supply
        rw [hends.command, if_neg Bool.false_ne_true, hwritten, sectorBytes, ← hfull]
        exact hnext.symm
      constructor
      · rw [Fdc.selected, hdrive, hstored.mounted]
        exact hm
      · show (e.step c).fdc.disk _ _ = _
        rw [hdisk, haddress, hdrive, hsupply, setSector]
        exact if_pos ⟨rfl, rfl⟩

/-- From power-on, with any card and any events: in every step of the run read-only caches are
left alone and a WRITE SECTOR that ends with status 0 is stored, exactly when every store finds
a drive for it. -/
theorem write_protection_exact (card : Card) (es : List Event) :
    EachStep supplyStep WriteLaw es (powerOn card, []) ↔
      EachStep supplyStep (fun e x => e.Writable x.1) es (powerOn card, []) := by
  have hinit := powerOn_supplied card
  constructor
  · intro hlaw
    exact EachStep.of_inv hinit hlaw (fun e x hx _ => hx.step)
      fun e x hx he => (Event.writeLaw_iff hx).mp he
  · intro hcond
    exact EachStep.of_inv hinit hcond (fun e x hx _ => hx.step)
      fun e x hx he => (Event.writeLaw_iff hx).mpr he

/-- WRITE SECTOR is given for drive 0, and then drive 1 is selected. -/
def strayWrite (drive1 : List Event) : List Event :=
  mountOne ++ drive1 ++ [.write 0xFF48 0xA0, .write 0xFF40 0x22] ++
    List.replicate 255 (.write 0xFF4B 0x41)

/-- The same image in drive 1, which the card lets nobody write. -/
def mountReadOnly : List Event :=
  [.mount (dskregDrive 0x22) ['/', 'a', '.', 'd', 's', 'k'] { probe := false }]

/-- The last byte of it. -/
def lastByte : Event := .write 0xFF4B 0x41

def afterEvents (es : List Event) : Controller := runAll Event.step es (powerOn oneTrackCard)

/-- The first byte of the image in a drive. -/
def Controller.firstByte (d : Drive) (c : Controller) : Option Byte :=
  (c.fdc.drives d).cache.map fun b => b.byte 0

/-- With drive 1 empty the sector is stored nowhere, and back at drive 0 the guest reads status
0; with a read-only image in drive 1 the sector is stored there. -/
theorem strayWrite_lost :
    ((svDiskRead 0xFF48 (afterEvents (strayWrite [] ++ [lastByte, .write 0xFF40 0x21]))).1 = 0x00 ∧
      (afterEvents (strayWrite [] ++ [lastByte, .write 0xFF40 0x21])).firstByte 0 = some 0x00) ∧
    (((afterEvents (strayWrite mountReadOnly ++ [lastByte])).fdc.drives 1).readOnly = true ∧
      (afterEvents (strayWrite mountReadOnly)).firstByte 1 = some 0x00 ∧
      (afterEvents (strayWrite mountReadOnly ++ [lastByte])).firstByte 1 = some 0x41) ∧
    ¬∀ card es, EachStep supplyStep WriteLaw es (powerOn card, []) := by
  refine ⟨by decide +kernel, by decide +kernel, fun hall => ?_⟩
  have hlaw := (eachStep_append.mp (hall oneTrackCard (strayWrite [] ++ [lastByte]))).2.1
  generalize hx : runAll supplyStep (strayWrite []) (powerOn oneTrackCard, []) = x at hlaw
  have hends : x.1.fdc.xfer.writing = true ∧ (lastByte.step x.1).fdc.xfer.writing = false := by
    rw [← hx]
    decide +kernel
  have hstatus : (lastByte.step x.1).fdc.regs.status = 0x00 ∧
      (lastByte.step x.1).fdc.selected.mounted = false := by
    rw [← hx]
    decide +kernel
  have hstored := (hlaw.stored ⟨rfl, hends.1, hends.2⟩ hstatus.1).1
  exact absurd (hstatus.2.symm.trans hstored) Bool.false_ne_true

end CocoEmulator.Disk
