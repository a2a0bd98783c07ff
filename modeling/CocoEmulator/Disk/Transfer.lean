/-
  Disk/Transfer.lean --- the transfer state of the controller.

  Whatever the guest does, the controller is in one of four states (`Transfer`): idle, or
  in a read, a write or a track write, and in each of these three it asks for a byte.  INTRQ
  is down in the three, and the countdown to INTRQ runs in the idle state only.  DSKREG
  asserts HALT while a command waits for data, which is never.

      DiskEvent.step_inv       every event keeps the state and the HALT line
      fdc_transfer             the flags, the buffer bounds and HALT after any events
-/
import CocoEmulator.Disk.Safety

set_option autoImplicit false

namespace CocoEmulator.Disk

open CocoEmulator.Base CocoEmulator.Cpu

/-! ## The four states -/

/-- No transfer. -/
structure Idle (f : Fdc) : Prop where
  busy : f.flow.busy = false
  drq : f.flow.drq = false
  reading : f.xfer.reading = false
  readPending : f.xfer.readPending = false
  writing : f.xfer.writing = false
  writeTrack : f.xfer.writeTrack = false

/-- A command waits for the guest. -/
structure Asking (f : Fdc) : Prop where
  busy : f.flow.busy = true
  drq : f.flow.drq = true
  intrq : f.flow.intrq = false
  defer : f.flow.intrqDefer = 0

structure ReadingSector (f : Fdc) : Prop extends Asking f where
  reading : f.xfer.reading = true
  writing : f.xfer.writing = false
  writeTrack : f.xfer.writeTrack = false
  pos : f.xfer.bufPos < f.xfer.bufLen
  len : f.xfer.bufLen ≤ diskSectorSize

structure WritingSector (f : Fdc) : Prop extends Asking f where
  reading : f.xfer.reading = false
  readPending : f.xfer.readPending = false
  writing : f.xfer.writing = true
  writeTrack : f.xfer.writeTrack = false
  pos : f.xfer.bufPos < f.xfer.bufLen
  len : f.xfer.bufLen = diskSectorSize

structure WritingTrack (f : Fdc) : Prop extends Asking f where
  reading : f.xfer.reading = false
  readPending : f.xfer.readPending = false
  writing : f.xfer.writing = false
  writeTrack : f.xfer.writeTrack = true
  field : f.wt.state = .dataField → f.wt.dataPos < diskSectorSize

inductive Transfer (f : Fdc) : Prop
  | idle (h : Idle f) (hdefer : 0 < f.flow.intrqDefer → f.flow.intrq = false)
  | read (h : ReadingSector f)
  | write (h : WritingSector f)
  | track (h : WritingTrack f)

theorem Transfer.init : Transfer {} := .idle ⟨rfl, rfl, rfl, rfl, rfl, rfl⟩ fun _ => rfl

/-- The outputs, the transfer and the decoder are as before. -/
structure SameTransfer (f f' : Fdc) : Prop where
  flow : f'.flow = f.flow
  xfer : f'.xfer = f.xfer
  wt : f'.wt = f.wt

/-- The state does not depend on registers, latch and drives. -/
theorem Transfer.congr {f f' : Fdc} (h : Transfer f) (hs : SameTransfer f f') : Transfer f' := by
  obtain ⟨regs, latch, flow, xfer, wt, drives⟩ := f
  obtain ⟨regs', latch', flow', xfer', wt', drives'⟩ := f'
  obtain ⟨hflow, hxfer, hwt⟩ := hs
  dsimp only at hflow hxfer hwt
  subst hflow hxfer hwt
  cases h with
  | idle h hdefer => exact .idle { h with } hdefer
  | read h => exact .read { h with }
  | write h => exact .write { h with }
  | track h => exact .track { h with }

/-! ## INTRQ -/

/-- INTRQ falls in any state. -/
theorem Transfer.intrq_down {c : Controller} (h : Transfer c.fdc) :
    Transfer (setIntrq false c).fdc := by
  rw [setIntrq_fdc]
  cases h with
  | idle h hdefer => exact .idle { h with } fun _ => rfl
  | read h => exact .read { h with intrq := rfl }
  | write h => exact .write { h with intrq := rfl }
  | track h => exact .track { h with intrq := rfl }

/-- INTRQ rises when the controller is idle. -/
theorem Idle.intrq_up {c : Controller} (h : Idle c.fdc) (hd : c.fdc.flow.intrqDefer = 0) :
    Transfer (setIntrq true c).fdc := by
  rw [setIntrq_fdc]
  refine .idle { h with } ?_
  intro hpos
  dsimp only at hpos
  omega

/-! ## Commands -/

/-- A command that has begun: nothing is transferred yet, and INTRQ is down. -/
structure Begun (f : Fdc) : Prop where
  busy : f.flow.busy = true
  drq : f.flow.drq = false
  intrq : f.flow.intrq = false
  defer : f.flow.intrqDefer = 0
  reading : f.xfer.reading = false
  readPending : f.xfer.readPending = false
  writing : f.xfer.writing = false
  writeTrack : f.xfer.writeTrack = false

theorem beginCommand_begun {f : Fdc} (cmd : Byte) (h : f.flow.intrq = false) :
    Begun (beginCommand cmd f) := ⟨rfl, rfl, h, rfl, rfl, rfl, rfl, rfl⟩

/-- A command that has been carried out: it is over, or it asks for its first byte. -/
structure Carried (f : Fdc) : Prop where
  transfer : Transfer f
  intrq : f.flow.intrq = false
  defer : f.flow.intrqDefer = 0

theorem Begun.finish {f : Fdc} (h : Begun f) (status : Byte) : Carried (finish status f) := by
  have hidle : Idle (Disk.finish status f) :=
    ⟨rfl, h.drq, h.reading, h.readPending, h.writing, h.writeTrack⟩
  exact ⟨.idle hidle fun _ => h.intrq, h.intrq, h.defer⟩

theorem Begun.finishTypeI {f : Fdc} (h : Begun f) (r : FdcRegs) :
    Carried (finishTypeI { f with regs := r }) := by
  have hregs : Begun { f with regs := r } := { h with }
  exact hregs.finish _

theorem Begun.readSector {f : Fdc} (h : Begun f) (hs : Sound f.selected) :
    Carried (readSector f) := by
  unfold Disk.readSector
  split
  · have hlen : f.selected.sectorSize = diskSectorSize := hs.sectorSize
    refine ⟨.read ⟨⟨h.busy, rfl, h.intrq, h.defer⟩, rfl, h.writing, h.writeTrack, ?_, ?_⟩,
      h.intrq, h.defer⟩
    · show 0 < f.selected.sectorSize
      rw [hlen]
      decide
    · exact Nat.le_of_eq hlen
  · exact h.finish _

theorem Begun.writeSector {f : Fdc} (h : Begun f) (hs : Sound f.selected) :
    Carried (writeSector f) := by
  unfold Disk.writeSector
  split
  · exact h.finish _
  · split
    · exact h.finish _
    · have hlen : f.selected.sectorSize = diskSectorSize := hs.sectorSize
      refine ⟨.write ⟨⟨h.busy, rfl, h.intrq, h.defer⟩, h.reading, h.readPending, rfl,
        h.writeTrack, ?_, hlen⟩, h.intrq, h.defer⟩
      show 0 < f.selected.sectorSize
      rw [hlen]
      decide

theorem Begun.readAddress {f : Fdc} (h : Begun f) : Carried (readAddress f) := by
  have hpos : 0 < 6 := by decide
  have hlen : 6 ≤ diskSectorSize := by decide
  exact ⟨.read ⟨⟨h.busy, rfl, h.intrq, h.defer⟩, rfl, h.writing, h.writeTrack, hpos, hlen⟩,
    h.intrq, h.defer⟩

theorem Begun.writeTrackCommand {f : Fdc} (h : Begun f) : Carried (writeTrackCommand f) := by
  unfold Disk.writeTrackCommand
  split
  · exact h.finish _
  · split
    · exact h.finish _
    · refine ⟨.track ⟨⟨h.busy, rfl, h.intrq, h.defer⟩, h.reading, h.readPending, h.writing, rfl,
        ?_⟩, h.intrq, h.defer⟩
      intro hfield
      exact absurd hfield (by simp [request])

theorem Begun.commandBody {f : Fdc} (h : Begun f) (hs : Sound f.selected) (cmd : Byte) :
    Carried (commandBody cmd f) := by
  unfold Disk.commandBody
  split
  · exact h.finishTypeI _
  · exact h.finishTypeI _
  · exact h.readSector hs
  · exact h.readSector hs
  · exact h.writeSector hs
  · exact h.writeSector hs
  · exact h.readAddress
  · exact h.finishTypeI _
  · exact h.finish _
  · exact h.writeTrackCommand
  · exact h.finishTypeI _

/-- FORCE INTERRUPT leaves nothing in progress. -/
theorem forceInterrupt_idle {f : Fdc} {cmd : Byte} (h : Begun f) (hcmd : cmd &&& 0xF0 = 0xD0) :
    Idle (commandBody cmd f) := by
  have htype : (cmd >>> 4).toNat = 0xD := by
    have hall : ∀ cmd : Byte, cmd &&& 0xF0 = 0xD0 → (cmd >>> 4).toNat = 0xD := by decide +kernel
    exact hall cmd hcmd
  unfold commandBody
  rw [htype]
  exact ⟨rfl, h.drq, h.reading, h.readPending, h.writing, h.writeTrack⟩

/-- INTRQ rises with a command only when nothing is left to be transferred. -/
theorem Carried.idle {f : Fdc} {cmd : Byte} (hb : Begun f) (hs : Sound f.selected)
    (hr : raisesIntrq cmd (commandBody cmd f) = true) : Idle (commandBody cmd f) := by
  unfold raisesIntrq at hr
  split at hr
  · next hcmd => exact forceInterrupt_idle hb hcmd
  · have hbusy : (commandBody cmd f).flow.busy = false := by simpa using hr
    cases (hb.commandBody hs cmd).transfer with
    | idle h _ => exact h
    | read h => exact absurd (hbusy.symm.trans h.busy) (by simp)
    | write h => exact absurd (hbusy.symm.trans h.busy) (by simp)
    | track h => exact absurd (hbusy.symm.trans h.busy) (by simp)

theorem fdcExecuteCommand_transfer {c : Controller} (hs : SoundDrives c)
    (hi : c.fdc.flow.intrq = false) (cmd : Byte) : Transfer (fdcExecuteCommand cmd c).fdc := by
  have hbegun := beginCommand_begun (f := c.fdc) cmd hi
  have hsound : Sound (beginCommand cmd c.fdc).selected := hs _
  have hcarried := hbegun.commandBody hsound cmd
  unfold fdcExecuteCommand
  dsimp only
  split
  · next hraises => exact Idle.intrq_up (Carried.idle hbegun hsound hraises) hcarried.defer
  · exact hcarried.transfer

/-! ## Data reads -/

/-- A pending load belongs to a read. -/
theorem Transfer.reading_of_pending {f : Fdc} (h : Transfer f)
    (hp : f.xfer.readPending = true) : ReadingSector f := by
  cases h with
  | idle h _ => exact absurd (h.readPending.symm.trans hp) (by simp)
  | read h => exact h
  | write h => exact absurd (h.readPending.symm.trans hp) (by simp)
  | track h => exact absurd (h.readPending.symm.trans hp) (by simp)

/-- The next byte of a read, or its end. -/
theorem ReadingSector.nextByte {f : Fdc} (h : ReadingSector f)
    (hp : f.xfer.readPending = false) : Transfer (nextByte f) := by
  unfold Disk.nextByte
  dsimp only
  split
  · next hmore => exact .read { h with pos := hmore, drq := rfl }
  · refine .idle ⟨rfl, rfl, rfl, hp, h.writing, h.writeTrack⟩ ?_
    intro _
    exact h.intrq

theorem readByte_transfer {c : Controller} (h : Transfer c.fdc)
    (hp : c.fdc.xfer.readPending = false) : Transfer (readByte c).fdc := by
  unfold readByte
  cases h with
  | read h =>
    have hread : (c.fdc.xfer.reading && c.fdc.xfer.bufPos < c.fdc.xfer.bufLen) = true := by
      rw [h.reading, Bool.true_and]
      exact decide_eq_true h.pos
    rw [if_pos hread]
    exact h.nextByte hp
  | idle h hdefer =>
    rw [h.reading, Bool.false_and, if_neg (by simp)]
    split
    · exact Idle.intrq_up { h with } rfl
    · exact .idle h hdefer
  | write h =>
    rw [h.reading, h.defer, Bool.false_and, if_neg (by simp), if_neg (by simp)]
    exact .write h
  | track h =>
    rw [h.reading, h.defer, Bool.false_and, if_neg (by simp), if_neg (by simp)]
    exact .track h

/-- A load leaves the state of the read. -/
theorem loadSector_transfer {c : Controller} (h : ReadingSector c.fdc) (off : Nat) :
    ReadingSector (loadSector off c).fdc ∧ (loadSector off c).fdc.xfer.readPending = false := by
  have hcopy (c : Controller) (h : ReadingSector c.fdc) :
      ReadingSector (copyFromCache off c).fdc ∧
        (copyFromCache off c).fdc.xfer.readPending = c.fdc.xfer.readPending := by
    unfold copyFromCache
    split
    · exact ⟨h, rfl⟩
    · exact ⟨{ h with }, rfl⟩
  obtain ⟨hread, hpending⟩ := hcopy (c.onXfer fun x => { x with readPending := false }) { h with }
  exact ⟨{ hread with }, hpending⟩

theorem recordNotFound_transfer {c : Controller} (h : ReadingSector c.fdc) :
    Transfer (recordNotFound c).fdc := by
  refine Idle.intrq_up ⟨rfl, rfl, rfl, rfl, h.writing, h.writeTrack⟩ ?_
  exact h.defer

theorem fdcReadData_transfer {c : Controller} (h : Transfer c.fdc) :
    Transfer (fdcReadData c).2.fdc := by
  unfold fdcReadData
  split
  · next hpending =>
    have hread := h.reading_of_pending hpending
    split
    · exact recordNotFound_transfer hread
    · next off _ =>
      obtain ⟨hloaded, hnone⟩ := loadSector_transfer hread off
      exact readByte_transfer (.read hloaded) hnone
  · next hnone => exact readByte_transfer h (by simpa using hnone)

/-! ## Data writes -/

theorem storeSector_sameTransfer (sector : Byte) (c : Controller) :
    SameTransfer c.fdc (storeSector sector c).fdc := by
  rw [storeSector_fdc]
  exact ⟨rfl, rfl, rfl⟩

/-- The last byte of a WRITE SECTOR. -/
theorem commitSector_transfer {c : Controller} (hr : c.fdc.xfer.reading = false)
    (hp : c.fdc.xfer.readPending = false) (ht : c.fdc.xfer.writeTrack = false)
    (hd : c.fdc.flow.intrqDefer = 0) : Transfer (commitSector c).fdc := by
  obtain ⟨hflow, hxfer, _⟩ := storeSector_sameTransfer c.fdc.regs.sector c
  unfold commitSector
  refine Idle.intrq_up ⟨rfl, rfl, ?_, ?_, rfl, ?_⟩ ?_
  · exact (congrArg Xfer.reading hxfer).trans hr
  · exact (congrArg Xfer.readPending hxfer).trans hp
  · exact (congrArg Xfer.writeTrack hxfer).trans ht
  · exact (congrArg Flow.intrqDefer hflow).trans hd

/-- What the decoder of a track write leaves alone, and what it keeps. -/
structure Decoded (c c' : Controller) : Prop where
  flow : c'.fdc.flow = c.fdc.flow
  reading : c'.fdc.xfer.reading = c.fdc.xfer.reading
  readPending : c'.fdc.xfer.readPending = c.fdc.xfer.readPending
  writing : c'.fdc.xfer.writing = c.fdc.xfer.writing
  writeTrack : c'.fdc.xfer.writeTrack = c.fdc.xfer.writeTrack
  field : c'.fdc.wt.state = .dataField → c'.fdc.wt.dataPos < diskSectorSize

theorem wtMark_field (f5 : Nat) (value : Byte) {w : Wt} (h : w.state ≠ .dataField) :
    (wtMark f5 value w).state = .dataField → (wtMark f5 value w).dataPos < diskSectorSize := by
  intro hfield
  unfold wtMark at hfield ⊢
  split at hfield
  · dsimp only at hfield
    split at hfield <;> exact absurd hfield (by simp)
  · split at hfield
    · exact absurd hfield (by simp)
    · split at hfield
      · next hdam =>
        rename_i hidam
        rw [if_neg hidam, if_pos hdam]
        exact Nat.zero_lt_of_lt (show 0 < diskSectorSize by decide)
      · exact absurd hfield h

theorem endField_decoded (c : Controller) : Decoded c (endField c) := by
  obtain ⟨hflow, hxfer, _⟩ := storeSector_sameTransfer c.fdc.wt.idSector c
  refine ⟨hflow, congrArg Xfer.reading hxfer, congrArg Xfer.readPending hxfer,
    congrArg Xfer.writing hxfer, congrArg Xfer.writeTrack hxfer, ?_⟩
  intro hidle
  exact absurd hidle (by simp [endField, Controller.onWt, Controller.onFdc])

theorem wtDecode_decoded {c : Controller} (hs : Sound c.fdc.selected)
    (hfield : c.fdc.wt.state = .dataField → c.fdc.wt.dataPos < diskSectorSize) (value : Byte) :
    Decoded c (wtDecode value c) := by
  unfold wtDecode
  dsimp only
  split
  · exact ⟨rfl, rfl, rfl, rfl, rfl, hfield⟩
  · split
    · unfold wtData
      dsimp only
      split
      · have hend := endField_decoded
          (((c.onWt .clearF5).onXfer (.put c.fdc.wt.dataPos value)).onWt .countData)
        exact ⟨hend.flow, hend.reading, hend.readPending, hend.writing, hend.writeTrack, hend.field⟩
      · next hroom =>
        refine ⟨rfl, rfl, rfl, rfl, rfl, ?_⟩
        intro _
        have hsize : c.fdc.selected.sectorSize = diskSectorSize := hs.sectorSize
        rw [← hsize]
        exact Nat.lt_of_not_le hroom
    · next hmark => exact ⟨rfl, rfl, rfl, rfl, rfl, wtMark_field _ value hmark⟩

theorem fdcWriteTrackByte_transfer {c : Controller} (hs : Sound c.fdc.selected)
    (h : WritingTrack c.fdc) (value : Byte) : Transfer (fdcWriteTrackByte value c).fdc := by
  have hd : Decoded (c.onWt .countByte) (wtDecode value (c.onWt .countByte)) :=
    wtDecode_decoded (c := c.onWt .countByte) hs h.field value
  have hflow : (wtDecode value (c.onWt .countByte)).fdc.flow = c.fdc.flow := hd.flow
  unfold fdcWriteTrackByte
  dsimp only
  split
  · refine Idle.intrq_up ⟨rfl, rfl, ?_, ?_, ?_, rfl⟩ ?_
    · exact hd.reading.trans h.reading
    · exact hd.readPending.trans h.readPending
    · exact hd.writing.trans h.writing
    · exact (congrArg Flow.intrqDefer hflow).trans h.defer
  · refine .track ⟨⟨?_, rfl, ?_, ?_⟩, ?_, ?_, ?_, ?_, hd.field⟩
    · exact (congrArg Flow.busy hflow).trans h.busy
    · exact (congrArg Flow.intrq hflow).trans h.intrq
    · exact (congrArg Flow.intrqDefer hflow).trans h.defer
    · exact hd.reading.trans h.reading
    · exact hd.readPending.trans h.readPending
    · exact hd.writing.trans h.writing
    · exact hd.writeTrack.trans h.writeTrack

theorem fdcWriteData_transfer {c : Controller} (hs : Sound c.fdc.selected) (h : Transfer c.fdc)
    (value : Byte) : Transfer (fdcWriteData value c).fdc := by
  unfold fdcWriteData
  cases h with
  | idle h hdefer =>
    rw [h.writeTrack, h.writing, Bool.false_and, if_neg (by simp), if_neg (by simp)]
    exact .idle h hdefer
  | read h =>
    rw [h.writeTrack, h.writing, Bool.false_and, if_neg (by simp), if_neg (by simp)]
    exact .read h
  | write h =>
    have hmore : (c.fdc.xfer.writing && c.fdc.xfer.bufPos < c.fdc.xfer.bufLen) = true := by
      rw [h.writing, Bool.true_and]
      exact decide_eq_true h.pos
    rw [h.writeTrack, if_neg (by simp), if_pos hmore]
    dsimp only
    split
    · exact commitSector_transfer h.reading h.readPending h.writeTrack h.defer
    · next hroom => exact .write { h with drq := rfl, pos := Nat.lt_of_not_le hroom }
  | track h =>
    rw [if_pos h.writeTrack]
    exact fdcWriteTrackByte_transfer hs h value

/-! ## The HALT line and the end of the buffer -/

/-- HALT is not asserted, and nothing is put behind the sector buffer. -/
structure Confined (c c' : Controller) : Prop where
  halted : c.pins.halted = false → c'.pins.halted = false
  buf : ∀ i, diskSectorSize ≤ i → c'.fdc.xfer.sectorBuf i = c.fdc.xfer.sectorBuf i

theorem Confined.refl (c : Controller) : Confined c c := ⟨fun h => h, fun _ _ => rfl⟩

theorem Confined.trans {c c' c'' : Controller} (h : Confined c c') (h' : Confined c' c'') :
    Confined c c'' :=
  ⟨fun hc => h'.halted (h.halted hc), fun i hi => (h'.buf i hi).trans (h.buf i hi)⟩

/-- Nothing is put into the buffer, and the lines stay. -/
theorem Confined.same {c c' : Controller} (hpins : c'.pins = c.pins)
    (hbuf : c'.fdc.xfer.sectorBuf = c.fdc.xfer.sectorBuf) : Confined c c' :=
  ⟨fun hc => hpins ▸ hc, fun i _ => congrFun hbuf i⟩

theorem setIntrq_confined (value : Bool) (c : Controller) : Confined c (setIntrq value c) := by
  cases value with
  | true => exact ⟨fun _ => rfl, fun _ _ => rfl⟩
  | false => exact ⟨fun h => h, fun _ _ => rfl⟩

theorem Confined.intrq {c c' : Controller} (h : Confined c c') (value : Bool) :
    Confined c (setIntrq value c') := h.trans (setIntrq_confined value c')

/-- A put below the end. -/
theorem put_confined {c : Controller} {pos : Nat} (h : pos < diskSectorSize) (value : Byte) :
    Confined c (c.onXfer (.put pos value)) := by
  refine ⟨fun hc => hc, fun i hi => ?_⟩
  exact Function.update_of_ne (by omega) _ _

theorem commandBody_buf (cmd : Byte) (f : Fdc) :
    ∀ i, diskSectorSize ≤ i → (commandBody cmd f).xfer.sectorBuf i = f.xfer.sectorBuf i := by
  intro i hi
  have hread : (readSector f).xfer.sectorBuf = f.xfer.sectorBuf := by
    unfold readSector
    split <;> rfl
  have hwrite : (writeSector f).xfer.sectorBuf = f.xfer.sectorBuf := by
    unfold writeSector
    split
    · rfl
    · split <;> rfl
  have htrack : (writeTrackCommand f).xfer.sectorBuf = f.xfer.sectorBuf := by
    unfold writeTrackCommand
    split
    · rfl
    · split <;> rfl
  unfold commandBody
  split
  · rfl
  · rfl
  · exact congrFun hread i
  · exact congrFun hread i
  · exact congrFun hwrite i
  · exact congrFun hwrite i
  · -- READ ADDRESS fills six bytes
    refine splice_out ?_
    unfold diskSectorSize at hi
    omega
  · rfl
  · rfl
  · exact congrFun htrack i
  · rfl

theorem fdcExecuteCommand_confined (cmd : Byte) (c : Controller) :
    Confined c (fdcExecuteCommand cmd c) := by
  have hbody : Confined c (c.onFdc fun f => commandBody cmd (beginCommand cmd f)) :=
    ⟨fun hc => hc, fun i hi => commandBody_buf cmd (beginCommand cmd c.fdc) i hi⟩
  unfold fdcExecuteCommand
  dsimp only
  split
  · exact hbody.trans (setIntrq_confined true _)
  · exact hbody

theorem nextByte_buf (f : Fdc) : (nextByte f).xfer.sectorBuf = f.xfer.sectorBuf := by
  unfold nextByte
  dsimp only
  split <;> rfl

theorem readByte_confined (c : Controller) : Confined c (readByte c) := by
  unfold readByte
  split
  · exact .same rfl (nextByte_buf _)
  · split
    · refine Confined.intrq ?_ true
      exact .same rfl rfl
    · exact .refl c

theorem copyFromCache_confined {c : Controller} (hs : Sound c.fdc.selected) (off : Nat) :
    Confined c (copyFromCache off c) := by
  have hsize : c.fdc.selected.sectorSize = diskSectorSize := hs.sectorSize
  unfold copyFromCache
  split
  · exact .same rfl rfl
  · next b _ =>
    refine ⟨fun hc => hc, fun i hi => ?_⟩
    have hend : 0 + c.fdc.selected.sectorSize ≤ i := by omega
    show splice c.fdc.xfer.sectorBuf 0 c.fdc.selected.sectorSize (fun i => b.byte (off + i)) i = _
    exact splice_out (Or.inr hend)

theorem loadSector_confined {c : Controller} (hs : Sound c.fdc.selected) (off : Nat) :
    Confined c (loadSector off c) := by
  have hcopy := copyFromCache_confined (c := c.onXfer fun x => { x with readPending := false })
    hs off
  exact ⟨fun hc => hcopy.halted hc, fun i hi => hcopy.buf i hi⟩

theorem fdcReadData_confined {c : Controller} (hs : Sound c.fdc.selected) :
    Confined c (fdcReadData c).2 := by
  unfold fdcReadData
  split
  · split
    · refine Confined.trans ?_ (setIntrq_confined true _)
      exact .same rfl rfl
    · next off _ => exact (loadSector_confined hs off).trans (readByte_confined _)
  · exact readByte_confined c

theorem storeSector_confined (sector : Byte) (c : Controller) :
    Confined c (storeSector sector c) := by
  unfold storeSector
  split <;> exact ⟨fun hc => hc, fun _ _ => rfl⟩

theorem wtDecode_confined {c : Controller}
    (hfield : c.fdc.wt.state = .dataField → c.fdc.wt.dataPos < diskSectorSize) (value : Byte) :
    Confined c (wtDecode value c) := by
  unfold wtDecode
  dsimp only
  split
  · exact .same rfl rfl
  · split
    · next hdata =>
      have hput := put_confined (c := c) (hfield hdata) value
      have hdata : Confined c (((c.onWt .clearF5).onXfer (.put c.fdc.wt.dataPos value)).onWt
          .countData) := ⟨fun hc => hc, fun i hi => hput.buf i hi⟩
      unfold wtData
      dsimp only
      split
      · have hstore := hdata.trans (storeSector_confined c.fdc.wt.idSector _)
        exact ⟨fun hc => hstore.halted hc, fun i hi => hstore.buf i hi⟩
      · exact hdata
    · exact .same rfl rfl

theorem fdcWriteData_confined {c : Controller} (h : Transfer c.fdc) (value : Byte) :
    Confined c (fdcWriteData value c) := by
  unfold fdcWriteData
  split
  · next htrack =>
    have hfield : c.fdc.wt.state = .dataField → c.fdc.wt.dataPos < diskSectorSize := by
      cases h with
      | idle h _ => exact absurd (h.writeTrack.symm.trans htrack) (by simp)
      | read h => exact absurd (h.writeTrack.symm.trans htrack) (by simp)
      | write h => exact absurd (h.writeTrack.symm.trans htrack) (by simp)
      | track h => exact h.field
    have hdecode := wtDecode_confined (c := c.onWt .countByte) hfield value
    have hbyte : Confined c (wtDecode value (c.onWt .countByte)) :=
      ⟨fun hc => hdecode.halted hc, fun i hi => hdecode.buf i hi⟩
    unfold fdcWriteTrackByte
    dsimp only
    split
    · refine Confined.intrq (hbyte.trans ?_) true
      exact .same rfl rfl
    · exact hbyte.trans ⟨fun _ => rfl, fun _ _ => rfl⟩
  · split
    · next hwriting =>
      obtain ⟨hw, hpos⟩ := Bool.and_eq_true_iff.mp hwriting
      have hlen : c.fdc.xfer.bufLen = diskSectorSize := by
        cases h with
        | idle h _ => exact absurd (h.writing.symm.trans hw) (by simp)
        | read h => exact absurd (h.writing.symm.trans hw) (by simp)
        | write h => exact h.len
        | track h => exact absurd (h.writing.symm.trans hw) (by simp)
      have hput := put_confined (c := c) (hlen ▸ of_decide_eq_true hpos) value
      have hbyte : Confined c (c.onXfer (.advance value)) :=
        ⟨fun hc => hc, fun i hi => hput.buf i hi⟩
      dsimp only
      split
      · have hstore := hbyte.trans (storeSector_confined c.fdc.regs.sector _)
        refine Confined.trans (hstore.trans ?_) (setIntrq_confined true _)
        exact .same rfl rfl
      · exact hbyte.trans (.same rfl rfl)
    · exact .refl c

/-- DSKREG would assert HALT only for a command that waits without DRQ. -/
theorem fdcWriteDriveSelect_confined {c : Controller} (h : Transfer c.fdc) (value : Byte) :
    Confined c (fdcWriteDriveSelect value c) := by
  have hwait : (!c.fdc.flow.drq && c.fdc.flow.busy) = false := by
    cases h with
    | idle h _ => rw [h.busy, Bool.and_false]
    | read h => rw [h.drq, Bool.not_true, Bool.false_and]
    | write h => rw [h.drq, Bool.not_true, Bool.false_and]
    | track h => rw [h.drq, Bool.not_true, Bool.false_and]
  refine ⟨fun _ => ?_, fun _ _ => rfl⟩
  show ((dskregLatch value c.fdc.flow.intrq).haltEnable && !c.fdc.flow.drq && c.fdc.flow.busy) =
    false
  rw [Bool.and_assoc, hwait, Bool.and_false]

theorem svDiskTick_confined (c : Controller) : Confined c (svDiskTick c) := by
  unfold svDiskTick
  split
  · dsimp only
    split
    · refine Confined.intrq ?_ true
      exact .same rfl rfl
    · exact .same rfl rfl
  · exact .refl c

/-! ## Events -/

/-- `sv_disk_reset`: the buffer and the decoder are left, and the drives. -/
def svDiskReset (c : Controller) : Controller :=
  c.onFdc fun f => { f with
    regs := { sector := 1 }
    latch := {}
    flow := {}
    xfer := f.xfer.stop }

/-- What happens on the bus and to the drives, and a reset. -/
inductive DiskEvent
  | event (e : Event)
  | reset

def DiskEvent.step : DiskEvent → Controller → Controller
  | .event e, c => e.step c
  | .reset, c => svDiskReset c

/-- The invariant of the controller with its drives and lines. -/
structure DiskInv (c : Controller) : Prop where
  sound : SoundDrives c
  transfer : Transfer c.fdc
  halted : c.pins.halted = false
  buf : ∀ i, diskSectorSize ≤ i → c.fdc.xfer.sectorBuf i = 0

theorem svDiskRead_transfer {c : Controller} (h : Transfer c.fdc) (address : Word) :
    Transfer (svDiskRead address c).2.fdc := by
  unfold svDiskRead
  split
  · exact h
  · split
    · exact h.intrq_down
    · exact h
    · exact h
    · exact fdcReadData_transfer h

theorem svDiskWrite_transfer {c : Controller} (hs : SoundDrives c) (h : Transfer c.fdc)
    (address : Word) (value : Byte) : Transfer (svDiskWrite address value c).fdc := by
  unfold svDiskWrite
  split
  · exact h.congr ⟨rfl, rfl, rfl⟩
  · split
    · refine fdcExecuteCommand_transfer (hs.of_same (setIntrq_same false c)) ?_ value
      rw [setIntrq_fdc]
    · exact h.congr ⟨rfl, rfl, rfl⟩
    · exact h.congr ⟨rfl, rfl, rfl⟩
    · refine fdcWriteData_transfer (c := c.onRegs (.setData value)) (hs _) ?_ value
      exact h.congr ⟨rfl, rfl, rfl⟩

theorem svDiskTick_transfer {c : Controller} (h : Transfer c.fdc) :
    Transfer (svDiskTick c).fdc := by
  unfold svDiskTick
  split
  · next hpos =>
    cases h with
    | idle h hdefer =>
      dsimp only
      split
      · next hzero => exact Idle.intrq_up { h with } hzero
      · exact .idle { h with } fun _ => hdefer hpos
    | read h => exact absurd hpos (by rw [h.defer]; exact Nat.lt_irrefl 0)
    | write h => exact absurd hpos (by rw [h.defer]; exact Nat.lt_irrefl 0)
    | track h => exact absurd hpos (by rw [h.defer]; exact Nat.lt_irrefl 0)
  · exact h

theorem svDiskRead_confined {c : Controller} (hs : SoundDrives c) (address : Word) :
    Confined c (svDiskRead address c).2 := by
  unfold svDiskRead
  split
  · exact .refl c
  · split
    · exact setIntrq_confined false c
    · exact .refl c
    · exact .refl c
    · exact fdcReadData_confined (hs _)

theorem svDiskWrite_confined {c : Controller} (h : Transfer c.fdc) (address : Word)
    (value : Byte) : Confined c (svDiskWrite address value c) := by
  unfold svDiskWrite
  split
  · exact fdcWriteDriveSelect_confined h value
  · split
    · exact (setIntrq_confined false c).trans (fdcExecuteCommand_confined value _)
    · exact .same rfl rfl
    · exact .same rfl rfl
    · have hdata : Confined c (c.onRegs (.setData value)) := .same rfl rfl
      refine hdata.trans (fdcWriteData_confined ?_ value)
      exact h.congr ⟨rfl, rfl, rfl⟩

theorem Event.step_transfer {e : Event} {c : Controller} (h : DiskInv c) :
    Transfer (e.step c).fdc ∧ Confined c (e.step c) := by
  cases e with
  | read address =>
    exact ⟨svDiskRead_transfer h.transfer address, svDiskRead_confined h.sound address⟩
  | write address value =>
    exact ⟨svDiskWrite_transfer h.sound h.transfer address value,
      svDiskWrite_confined h.transfer address value⟩
  | tick => exact ⟨svDiskTick_transfer h.transfer, svDiskTick_confined c⟩
  | mount d path io => exact ⟨h.transfer.congr ⟨rfl, rfl, rfl⟩, .same rfl rfl⟩
  | eject d io => exact ⟨h.transfer.congr ⟨rfl, rfl, rfl⟩, .same rfl rfl⟩
  | flush d io => exact ⟨h.transfer.congr ⟨rfl, rfl, rfl⟩, .same rfl rfl⟩

theorem DiskEvent.step_inv {e : DiskEvent} {c : Controller} (h : DiskInv c) :
    DiskInv (e.step c) := by
  cases e with
  | event e =>
    obtain ⟨htransfer, hconfined⟩ := Event.step_transfer (e := e) h
    refine ⟨(Event.step_sound e h.sound).1, htransfer, hconfined.halted h.halted, ?_⟩
    intro i hi
    exact (hconfined.buf i hi).trans (h.buf i hi)
  | reset => exact ⟨h.sound, .idle ⟨rfl, rfl, rfl, rfl, rfl, rfl⟩ fun _ => rfl, h.halted, h.buf⟩

theorem runAll_diskInv {c : Controller} (h : DiskInv c) (es : List DiskEvent) :
    DiskInv (runAll DiskEvent.step es c) := by
  induction es generalizing c with
  | nil => exact h
  | cons e es ih => exact ih (DiskEvent.step_inv h)

/-! ## The flags -/

/-- Exactly one of the three transfers. -/
def Xfer.One (x : Xfer) : Prop :=
  (x.reading = true ∧ x.writing = false ∧ x.writeTrack = false) ∨
    (x.reading = false ∧ x.writing = true ∧ x.writeTrack = false) ∨
    (x.reading = false ∧ x.writing = false ∧ x.writeTrack = true)

/-- The flags of a transfer agree, the buffer is used up to its end and nothing was put behind
it, and HALT is not asserted. -/
structure TransferLaw (c : Controller) : Prop where
  busy : c.fdc.flow.busy = true ↔ c.fdc.xfer.One
  drq : c.fdc.flow.drq = true ↔ c.fdc.xfer.One
  pos : c.fdc.xfer.reading = true ∨ c.fdc.xfer.writing = true →
    c.fdc.xfer.bufPos < c.fdc.xfer.bufLen ∧ c.fdc.xfer.bufLen ≤ 256
  field : c.fdc.xfer.writeTrack = true → c.fdc.wt.state = .dataField → c.fdc.wt.dataPos < 256
  buf : ∀ i, 256 ≤ i → c.fdc.xfer.sectorBuf i = 0
  halt : c.pins.halted = false

theorem DiskInv.law {c : Controller} (h : DiskInv c) : TransferLaw c := by
  have hbuf := h.buf
  have hhalt := h.halted
  unfold diskSectorSize at hbuf
  cases h.transfer with
  | idle h _ =>
    have hnone : ¬c.fdc.xfer.One := by
      unfold Xfer.One
      rw [h.reading, h.writing, h.writeTrack]
      simp
    refine ⟨?_, ?_, ?_, ?_, hbuf, hhalt⟩
    · rw [h.busy]
      exact iff_of_false (by simp) hnone
    · rw [h.drq]
      exact iff_of_false (by simp) hnone
    · rw [h.reading, h.writing]
      simp
    · rw [h.writeTrack]
      simp
  | read h =>
    have hone : c.fdc.xfer.One := Or.inl ⟨h.reading, h.writing, h.writeTrack⟩
    refine ⟨iff_of_true h.busy hone, iff_of_true h.drq hone, fun _ => ⟨h.pos, h.len⟩, ?_, hbuf,
      hhalt⟩
    rw [h.writeTrack]
    simp
  | write h =>
    have hone : c.fdc.xfer.One := Or.inr (Or.inl ⟨h.reading, h.writing, h.writeTrack⟩)
    refine ⟨iff_of_true h.busy hone, iff_of_true h.drq hone,
      fun _ => ⟨h.pos, Nat.le_of_eq h.len⟩, ?_, hbuf, hhalt⟩
    rw [h.writeTrack]
    simp
  | track h =>
    have hone : c.fdc.xfer.One := Or.inr (Or.inr ⟨h.reading, h.writing, h.writeTrack⟩)
    refine ⟨iff_of_true h.busy hone, iff_of_true h.drq hone, ?_, fun _ => h.field, hbuf, hhalt⟩
    rw [h.reading, h.writing]
    simp

theorem powerOn_diskInv (card : Card) : DiskInv (powerOn card) :=
  ⟨powerOn_sound card, .init, rfl, fun _ _ => rfl⟩

/-- After any events from power-on, resets and mounts included, the flags of the transfer agree:
BUSY and DRQ are up exactly during one transfer, the position stays inside the buffer and the
CPU is not halted. -/
theorem fdc_transfer (card : Card) (es : List DiskEvent) :
    TransferLaw (runAll DiskEvent.step es (powerOn card)) :=
  (runAll_diskInv (powerOn_diskInv card) es).law

end CocoEmulator.Disk
