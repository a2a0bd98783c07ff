/-
  Disk/Step.lean --- what an event does to the drives.

  Of everything the guest can do, two things touch a cache: a data read that loads
  a sector (`Event.load`) and a data write that ends one (`Event.commit`).

      Event.step_same       any other guest event leaves drives and card as they are
      Event.step_load       a load copies from the selected cache and nothing else
      Event.step_commit     a commit stores the sector buffer, and nothing else

  Everything said later about caches, marks and files goes through these three.
-/
import CocoEmulator.Disk.Fdc

set_option autoImplicit false

namespace CocoEmulator.Disk

open CocoEmulator.Base CocoEmulator.Cpu

/-! ## Frames -/

/-- The drives, the card and the flag are as before. -/
structure SameDisks (c c' : Controller) : Prop where
  drives : c'.fdc.drives = c.fdc.drives
  card : c'.card = c.card
  wild : c'.wild = c.wild

theorem SameDisks.refl (c : Controller) : SameDisks c c := ⟨rfl, rfl, rfl⟩

theorem SameDisks.trans {c c' c'' : Controller} (h : SameDisks c c') (h' : SameDisks c' c'') :
    SameDisks c c'' :=
  ⟨h'.drives.trans h.drives, h'.card.trans h.card, h'.wild.trans h.wild⟩

/-- Changing registers of the controller other than the drives. -/
theorem SameDisks.onFdc {g : Fdc → Fdc} (c : Controller) (h : (g c.fdc).drives = c.fdc.drives) :
    SameDisks c (c.onFdc g) := ⟨h, rfl, rfl⟩

theorem SameDisks.onRegs (g : FdcRegs → FdcRegs) (c : Controller) : SameDisks c (c.onRegs g) :=
  .onFdc c rfl

theorem SameDisks.onFlow (g : Flow → Flow) (c : Controller) : SameDisks c (c.onFlow g) :=
  .onFdc c rfl

theorem SameDisks.onXfer (g : Xfer → Xfer) (c : Controller) : SameDisks c (c.onXfer g) :=
  .onFdc c rfl

theorem SameDisks.onWt (g : Wt → Wt) (c : Controller) : SameDisks c (c.onWt g) :=
  .onFdc c rfl

theorem setIntrq_same (value : Bool) (c : Controller) : SameDisks c (setIntrq value c) := by
  cases value <;> exact ⟨rfl, rfl, rfl⟩

/-- What `set_intrq` leaves: INTRQ itself, and HALT disabled when it rises. -/
theorem setIntrq_fdc (value : Bool) (c : Controller) :
    (setIntrq value c).fdc =
      { c.fdc with
        flow := { c.fdc.flow with intrq := value }
        latch := if value then { c.fdc.latch with haltEnable := false } else c.fdc.latch } := by
  cases value <;> rfl

theorem setDrq_same (value : Bool) (c : Controller) : SameDisks c (setDrq value c) := by
  unfold setDrq
  cases value with
  | true => exact ⟨rfl, rfl, rfl⟩
  | false =>
    simp only [Bool.false_eq_true, if_false]
    split <;> exact ⟨rfl, rfl, rfl⟩

/-! ## Commands touch no cache -/

theorem commandBody_drives (cmd : Byte) (f : Fdc) : (commandBody cmd f).drives = f.drives := by
  unfold commandBody
  split
  · rfl
  · rfl
  · unfold readSector; split <;> rfl
  · unfold readSector; split <;> rfl
  · unfold writeSector; split <;> (try split) <;> rfl
  · unfold writeSector; split <;> (try split) <;> rfl
  · rfl
  · rfl
  · rfl
  · unfold writeTrackCommand; split <;> (try split) <;> rfl
  · rfl

theorem fdcExecuteCommand_same (cmd : Byte) (c : Controller) :
    SameDisks c (fdcExecuteCommand cmd c) := by
  have hbody : SameDisks c (c.onFdc fun f => commandBody cmd (beginCommand cmd f)) :=
    .onFdc c (commandBody_drives cmd _)
  unfold fdcExecuteCommand
  dsimp only
  split
  · exact hbody.trans (setIntrq_same true _)
  · exact hbody

theorem fdcWriteDriveSelect_same (value : Byte) (c : Controller) :
    SameDisks c (fdcWriteDriveSelect value c) := ⟨rfl, rfl, rfl⟩

theorem svDiskTick_same (c : Controller) : SameDisks c (svDiskTick c) := by
  unfold svDiskTick
  split
  · dsimp only
    split
    · exact (SameDisks.onFlow _ c).trans (setIntrq_same true _)
    · exact .onFlow _ c
  · exact .refl c

/-! ## Data reads -/

theorem nextByte_drives (f : Fdc) : (nextByte f).drives = f.drives := by
  unfold nextByte
  dsimp only
  split <;> rfl

theorem readByte_same (c : Controller) : SameDisks c (readByte c) := by
  unfold readByte
  split
  · exact .onFdc c (nextByte_drives _)
  · split
    · exact (SameDisks.onFlow _ c).trans (setIntrq_same true _)
    · exact .refl c

theorem copyFromCache_congr {c c' : Controller} (off : Nat) (h : SameDisks c c')
    (hd : c'.fdc.latch.driveSelect = c.fdc.latch.driveSelect) :
    SameDisks (copyFromCache off c) (copyFromCache off c') := by
  have hsel : c'.fdc.selected = c.fdc.selected := by
    unfold Fdc.selected
    rw [h.drives, hd]
  unfold copyFromCache
  rw [hsel]
  cases c.fdc.selected.cache with
  | none => exact ⟨h.drives, h.card, rfl⟩
  | some b =>
    refine ⟨h.drives, h.card, ?_⟩
    dsimp only
    rw [h.wild]

theorem loadSector_same (off : Nat) (c : Controller) :
    SameDisks (copyFromCache off c) (loadSector off c) :=
  (copyFromCache_congr off (.onXfer _ c) rfl).trans (.onFdc _ rfl)

/-- A data read without a pending load, or whose load is refused. -/
theorem fdcReadData_same {c : Controller}
    (h : c.fdc.xfer.readPending = false ∨ c.fdc.loadOffset = none) :
    SameDisks c (fdcReadData c).2 := by
  unfold fdcReadData
  split
  · rename_i hpending
    have hnone := h.resolve_left (by rw [hpending]; exact Bool.noConfusion)
    rw [hnone]
    exact ((SameDisks.onXfer _ c).trans (.onFdc _ rfl)).trans (setIntrq_same true _)
  · exact readByte_same c

theorem fdcReadData_load {c : Controller} {off : Nat} (hp : c.fdc.xfer.readPending = true)
    (h : c.fdc.loadOffset = some off) : SameDisks (copyFromCache off c) (fdcReadData c).2 := by
  unfold fdcReadData
  rw [if_pos hp, h]
  exact (loadSector_same off c).trans (readByte_same _)

/-! ## Data writes -/

/-- A sector that a data byte completes: its number and its bytes. -/
structure Commit where
  sector : Byte
  buf : Nat → Byte

/-- Does this data byte complete a sector?  In a WRITE TRACK it does at the end of a data
field, in a WRITE SECTOR at the end of the buffer. -/
def Fdc.commit (f : Fdc) (value : Byte) : Option Commit :=
  if f.xfer.writeTrack then
    if value ≠ 0xF5 ∧ f.wt.state = .dataField ∧ f.selected.sectorSize ≤ f.wt.dataPos + 1 then
      some ⟨f.wt.idSector, (f.xfer.put f.wt.dataPos value).sectorBuf⟩
    else none
  else if f.xfer.writing ∧ f.xfer.bufPos < f.xfer.bufLen ∧ f.xfer.bufLen ≤ f.xfer.bufPos + 1 then
    some ⟨f.regs.sector, (f.xfer.put f.xfer.bufPos value).sectorBuf⟩
  else none

/-- The drives after the sector buffer `buf` was stored under a sector number. -/
def Fdc.storedDrives (f : Fdc) (cm : Commit) : Drive → Image :=
  match f.storeOffset cm.sector with
  | none => f.drives
  | some off => Function.update f.drives f.latch.driveSelect (storedImage f.selected off cm.buf)

/-- Did the store go astray? -/
def Fdc.storeAstray (f : Fdc) (cm : Commit) : Bool :=
  match f.storeOffset cm.sector with
  | none => false
  | some off => !copyDefined f.selected.cache off f.selected.sectorSize

/-- `c'` is `c` with the commit stored. -/
structure Stored (cm : Commit) (c c' : Controller) : Prop where
  drives : c'.fdc.drives = c.fdc.storedDrives cm
  card : c'.card = c.card
  wild : c'.wild = (c.wild || c.fdc.storeAstray cm)

theorem Stored.then {cm : Commit} {c c' c'' : Controller} (h : Stored cm c c')
    (h' : SameDisks c' c'') : Stored cm c c'' :=
  ⟨h'.drives.trans h.drives, h'.card.trans h.card, h'.wild.trans h.wild⟩

/-- A store changes nothing but the drives. -/
theorem storeSector_fdc (sector : Byte) (c : Controller) :
    (storeSector sector c).fdc =
      { c.fdc with drives := (storeSector sector c).fdc.drives } := by
  unfold storeSector
  split <;> rfl

/-- A store after changes of other registers. -/
theorem storeSector_stored {c c' : Controller} (cm : Commit) (h : SameDisks c c')
    (hl : c'.fdc.latch = c.fdc.latch) (ht : c'.fdc.regs.track = c.fdc.regs.track)
    (hb : c'.fdc.xfer.sectorBuf = cm.buf) : Stored cm c (storeSector cm.sector c') := by
  have hsel : c'.fdc.selected = c.fdc.selected := by
    unfold Fdc.selected
    rw [h.drives, hl]
  have hoff : c'.fdc.storeOffset cm.sector = c.fdc.storeOffset cm.sector := by
    unfold Fdc.storeOffset Fdc.offset
    rw [hsel, hl, ht]
  unfold storeSector
  rw [hoff]
  cases hs : c.fdc.storeOffset cm.sector with
  | none =>
    refine ⟨?_, h.card, ?_⟩
    · rw [h.drives, Fdc.storedDrives, hs]
    · rw [h.wild, Fdc.storeAstray, hs, Bool.or_false]
  | some off =>
    refine ⟨?_, h.card, ?_⟩
    · dsimp only [Controller.onFdc, Fdc.setDrive]
      rw [Fdc.storedDrives, hs, h.drives, hl, hsel, hb]
    · dsimp only
      rw [h.wild, hsel, Fdc.storeAstray, hs]

theorem wtData_same {value : Byte} {c : Controller}
    (h : ¬c.fdc.selected.sectorSize ≤ c.fdc.wt.dataPos + 1) : SameDisks c (wtData value c) := by
  unfold wtData
  dsimp only
  split
  · rename_i hfull
    exact absurd hfull h
  · exact (SameDisks.onXfer _ c).trans (.onWt _ _)

theorem wtData_stored {value : Byte} {c : Controller}
    (h : c.fdc.selected.sectorSize ≤ c.fdc.wt.dataPos + 1) :
    Stored ⟨c.fdc.wt.idSector, (c.fdc.xfer.put c.fdc.wt.dataPos value).sectorBuf⟩ c
      (wtData value c) := by
  unfold wtData
  dsimp only
  split
  · exact (storeSector_stored ⟨c.fdc.wt.idSector, _⟩ ((SameDisks.onXfer _ c).trans (.onWt _ _))
      rfl rfl rfl).then (.onWt _ _)
  · rename_i hshort
    exact absurd h hshort

/-- The rest of a WRITE TRACK byte, after the decoder. -/
theorem wtFinish_same {c c' : Controller} (h : SameDisks c c') :
    SameDisks c (if wtTrackBytes ≤ c'.fdc.wt.byteCount then setIntrq true (c'.onFdc endWriteTrack)
      else setDrq true c') := by
  split
  · exact (h.trans (.onFdc c' rfl)).trans (setIntrq_same true _)
  · exact h.trans (setDrq_same true _)

theorem fdcWriteTrackByte_same {value : Byte} {c : Controller}
    (h : ¬(value ≠ 0xF5 ∧ c.fdc.wt.state = .dataField ∧
      c.fdc.selected.sectorSize ≤ c.fdc.wt.dataPos + 1)) :
    SameDisks c (fdcWriteTrackByte value c) := by
  refine wtFinish_same ?_
  unfold wtDecode
  dsimp only
  split
  · exact (SameDisks.onWt _ c).trans (.onWt _ _)
  · rename_i hvalue
    have hzero := (SameDisks.onWt .countByte c).trans (.onWt .clearF5 _)
    split
    · rename_i hfield
      exact hzero.trans (wtData_same fun hfull => h ⟨hvalue, hfield, hfull⟩)
    · exact hzero.trans (.onWt _ _)

theorem Stored.of_same {cm : Commit} {c c' c'' : Controller} (h : SameDisks c c')
    (hl : c'.fdc.latch = c.fdc.latch) (ht : c'.fdc.regs.track = c.fdc.regs.track)
    (h' : Stored cm c' c'') : Stored cm c c'' := by
  have hsel : c'.fdc.selected = c.fdc.selected := by
    unfold Fdc.selected
    rw [h.drives, hl]
  have hoff : c'.fdc.storeOffset cm.sector = c.fdc.storeOffset cm.sector := by
    unfold Fdc.storeOffset Fdc.offset
    rw [hsel, hl, ht]
  refine ⟨?_, h'.card.trans h.card, ?_⟩
  · rw [h'.drives]
    unfold Fdc.storedDrives
    rw [hoff, hsel, h.drives, hl]
  · rw [h'.wild, h.wild]
    unfold Fdc.storeAstray
    rw [hoff, hsel]

theorem fdcWriteTrackByte_stored {value : Byte} {c : Controller} (hv : value ≠ 0xF5)
    (hs : c.fdc.wt.state = .dataField)
    (hfull : c.fdc.selected.sectorSize ≤ c.fdc.wt.dataPos + 1) :
    Stored ⟨c.fdc.wt.idSector, (c.fdc.xfer.put c.fdc.wt.dataPos value).sectorBuf⟩ c
      (fdcWriteTrackByte value c) := by
  have hdecode : Stored ⟨c.fdc.wt.idSector, (c.fdc.xfer.put c.fdc.wt.dataPos value).sectorBuf⟩ c
      (wtDecode value (c.onWt .countByte)) := by
    have hdata := @wtData_stored value ((c.onWt .countByte).onWt .clearF5) hfull
    unfold wtDecode
    dsimp only
    rw [if_neg hv, if_pos (by exact hs)]
    exact .of_same ((SameDisks.onWt _ c).trans (.onWt _ _)) rfl rfl hdata
  exact hdecode.then (wtFinish_same (.refl _))

theorem fdcWriteData_same {value : Byte} {c : Controller} (h : c.fdc.commit value = none) :
    SameDisks c (fdcWriteData value c) := by
  unfold Fdc.commit at h
  unfold fdcWriteData
  split
  · rename_i hwt
    rw [if_pos hwt] at h
    exact fdcWriteTrackByte_same fun hc => by rw [if_pos hc] at h; cases h
  · rename_i hwt
    rw [if_neg hwt] at h
    split
    · rename_i hw
      have hpos : c.fdc.xfer.writing = true ∧ c.fdc.xfer.bufPos < c.fdc.xfer.bufLen := by
        simpa using hw
      dsimp only
      split
      · rename_i hfull
        rw [if_pos ⟨hpos.1, hpos.2, hfull⟩] at h
        cases h
      · exact (SameDisks.onXfer _ c).trans (.onFlow _ _)
    · exact .refl c

theorem commitSector_stored {c c' : Controller} {buf : Nat → Byte} (h : SameDisks c c')
    (hl : c'.fdc.latch = c.fdc.latch) (hr : c'.fdc.regs = c.fdc.regs)
    (hb : c'.fdc.xfer.sectorBuf = buf) :
    Stored ⟨c.fdc.regs.sector, buf⟩ c (commitSector c') := by
  have hstore := storeSector_stored ⟨c.fdc.regs.sector, buf⟩ h hl (by rw [hr]) hb
  unfold commitSector
  dsimp only
  rw [hr]
  exact hstore.then (SameDisks.trans (.onFdc _ rfl) (setIntrq_same true _))

theorem fdcWriteData_stored {value : Byte} {c : Controller} {cm : Commit}
    (h : c.fdc.commit value = some cm) : Stored cm c (fdcWriteData value c) := by
  unfold Fdc.commit at h
  unfold fdcWriteData
  split
  · rename_i hwt
    rw [if_pos hwt] at h
    split at h
    · rename_i hc
      obtain ⟨hv, hs, hfull⟩ := hc
      cases h
      exact fdcWriteTrackByte_stored hv hs hfull
    · cases h
  · rename_i hwt
    rw [if_neg hwt] at h
    split at h
    · rename_i hc
      obtain ⟨hw, hpos, hfull⟩ := hc
      cases h
      rw [if_pos (by simp [hw, hpos])]
      dsimp only
      split
      · exact commitSector_stored (.onXfer _ c) rfl rfl rfl
      · rename_i hshort
        exact absurd hfull hshort
    · cases h

/-! ## Events -/

/-- Is this the data register (`$FF4B` and its mirrors)? -/
def isDataReg (address : Word) : Bool :=
  !(address < 0xFF48) && (address &&& 0x03).toNat == 3

/-- The sector a guest event loads. -/
def Event.load (f : Fdc) : Event → Option Nat
  | .read address => if isDataReg address && f.xfer.readPending then f.loadOffset else none
  | _ => none

/-- The sector a guest event completes. -/
def Event.commit (f : Fdc) : Event → Option Commit
  | .write address value => if isDataReg address then f.commit value else none
  | _ => none

/-- Guest accesses and ticks, as opposed to what the user does to the drives. -/
def Event.isGuest : Event → Bool
  | .read _ => true
  | .write _ _ => true
  | .tick => true
  | _ => false

theorem svDiskRead_data {address : Word} (h : isDataReg address = true) (c : Controller) :
    svDiskRead address c = fdcReadData c := by
  unfold isDataReg at h
  obtain ⟨hhigh, hlow⟩ := Bool.and_eq_true_iff.mp h
  unfold svDiskRead
  rw [if_neg (by simpa using hhigh), eq_of_beq hlow]
  rfl

theorem svDiskWrite_data {address : Word} (h : isDataReg address = true) (value : Byte)
    (c : Controller) :
    svDiskWrite address value c =
      fdcWriteData value (c.onRegs (.setData value)) := by
  unfold isDataReg at h
  obtain ⟨hhigh, hlow⟩ := Bool.and_eq_true_iff.mp h
  unfold svDiskWrite
  rw [if_neg (by simpa using hhigh), eq_of_beq hlow]
  rfl

/-- The registers other than the data register. -/
theorem reg_of_not_data {address : Word} (h : isDataReg address = false) :
    address < 0xFF48 ∨ (address &&& 0x03).toNat = 0 ∨ (address &&& 0x03).toNat = 1 ∨
      (address &&& 0x03).toNat = 2 := by
  have hlt : (address &&& 0x03).toNat < 4 := by
    have hand := @Nat.and_le_right address.toNat 3
    rw [BitVec.toNat_and]
    exact Nat.lt_succ_of_le hand
  by_cases hhigh : address < 0xFF48
  · exact .inl hhigh
  · have hne : (address &&& 0x03).toNat ≠ 3 := by
      intro heq
      rw [isDataReg, heq, decide_eq_false hhigh] at h
      cases h
    omega

theorem svDiskRead_same {address : Word} (h : isDataReg address = false) (c : Controller) :
    SameDisks c (svDiskRead address c).2 := by
  unfold svDiskRead
  rcases reg_of_not_data h with hlow | hreg | hreg | hreg
  · rw [if_pos hlow]
    exact .refl c
  all_goals
    rw [hreg]
    split
    · exact .refl c
    · first | exact setIntrq_same false c | exact .refl c

theorem svDiskWrite_same {address : Word} (h : isDataReg address = false) (value : Byte)
    (c : Controller) : SameDisks c (svDiskWrite address value c) := by
  unfold svDiskWrite
  rcases reg_of_not_data h with hlow | hreg | hreg | hreg
  · rw [if_pos hlow]
    exact fdcWriteDriveSelect_same value c
  all_goals
    rw [hreg]
    split
    · exact fdcWriteDriveSelect_same value c
    · first
        | exact (setIntrq_same false c).trans (fdcExecuteCommand_same value _)
        | exact .onFdc c rfl

theorem Event.step_same {e : Event} {c : Controller} (hg : e.isGuest = true)
    (hl : e.load c.fdc = none) (hc : e.commit c.fdc = none) : SameDisks c (e.step c) := by
  cases e with
  | read address =>
    cases ha : isDataReg address with
    | false => exact svDiskRead_same ha c
    | true =>
      rw [Event.step, svDiskRead_data ha]
      refine fdcReadData_same ?_
      cases hp : c.fdc.xfer.readPending with
      | false => exact .inl rfl
      | true => exact .inr (by simpa [Event.load, ha, hp] using hl)
  | write address value =>
    cases ha : isDataReg address with
    | false => exact svDiskWrite_same ha value c
    | true =>
      rw [Event.step, svDiskWrite_data ha]
      have hnone : c.fdc.commit value = none := by simpa [Event.commit, ha] using hc
      exact (SameDisks.onRegs (.setData value) c).trans (fdcWriteData_same hnone)
  | tick => exact svDiskTick_same c
  | mount d path io => cases hg
  | eject d io => cases hg
  | flush d io => cases hg

theorem Event.step_load {e : Event} {c : Controller} {off : Nat} (h : e.load c.fdc = some off) :
    SameDisks (copyFromCache off c) (e.step c) := by
  cases e with
  | read address =>
    unfold Event.load at h
    dsimp only at h
    split at h
    · rename_i hcond
      obtain ⟨ha, hp⟩ := Bool.and_eq_true_iff.mp hcond
      rw [Event.step, svDiskRead_data ha]
      exact fdcReadData_load hp h
    · cases h
  | write address value => cases h
  | tick => cases h
  | mount d path io => cases h
  | eject d io => cases h
  | flush d io => cases h

theorem Event.step_commit {e : Event} {c : Controller} {cm : Commit}
    (h : e.commit c.fdc = some cm) : Stored cm c (e.step c) := by
  cases e with
  | write address value =>
    unfold Event.commit at h
    dsimp only at h
    split at h
    · rename_i ha
      rw [Event.step, svDiskWrite_data ha]
      exact .of_same (.onRegs (.setData value) c) rfl rfl (fdcWriteData_stored h)
    · cases h
  | read address => cases h
  | tick => cases h
  | mount d path io => cases h
  | eject d io => cases h
  | flush d io => cases h

end CocoEmulator.Disk
