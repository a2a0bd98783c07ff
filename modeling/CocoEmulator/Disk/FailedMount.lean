/-
  Disk/FailedMount.lean --- a failed mount against an ejected drive.

  A mount that fails at the allocation differs from an eject in one field: the
  cache size it has already set.  `Alike` controllers differ in nothing but the
  cache size of drives without a cache.  They stay alike and answer alike along
  any run whose loads find a cache, which is also what keeps every copy inside a
  live one.
-/
import CocoEmulator.Disk.Safety

set_option autoImplicit false

namespace CocoEmulator.Disk

open CocoEmulator.Base CocoEmulator.Cpu

/-! ## Alike controllers -/

def Image.resize (n : Nat) (img : Image) : Image := { img with cacheSize := n }

/-- The same image, or a vacant drive with and without a cache size left in it. -/
def AlikeImage (img img' : Image) : Prop := img' = img ∨ Vacant img ∧ img' = img.resize 0

theorem AlikeImage.refl (img : Image) : AlikeImage img img := .inl rfl

/-- What anything but a bounds check sees of an image. -/
structure SameFace (img img' : Image) : Prop where
  mounted : img'.mounted = img.mounted
  cache : img'.cache = img.cache
  readOnly : img'.readOnly = img.readOnly
  sectorSize : img'.sectorSize = img.sectorSize
  offset : ∀ track side sector,
    sectorOffset img' track side sector = sectorOffset img track side sector

theorem AlikeImage.face {img img' : Image} (h : AlikeImage img img') : SameFace img img' := by
  rcases h with rfl | ⟨_, rfl⟩
  · exact ⟨rfl, rfl, rfl, rfl, fun _ _ _ => rfl⟩
  · exact ⟨rfl, rfl, rfl, rfl, fun _ _ _ => rfl⟩

/-- Where there is a cache, alike images are the same. -/
theorem AlikeImage.eq_of_cache {img img' : Image} (h : AlikeImage img img')
    (hc : img.cache.isSome = true) : img' = img := by
  rcases h with rfl | ⟨hv, rfl⟩
  · rfl
  · rw [hv.cache] at hc
    cases hc

def Fdc.withDrives (D : Drive → Image) (f : Fdc) : Fdc := { f with drives := D }

def Controller.withDrives (D : Drive → Image) (c : Controller) : Controller :=
  c.onFdc (.withDrives D)

/-- The drives of the second controller, seen from the first. -/
def AlikeDrives (c : Controller) (D : Drive → Image) : Prop :=
  ∀ d, AlikeImage (c.fdc.drives d) (D d)

/-- Two controllers that differ in the cache size of drives without a cache. -/
def Alike (c c' : Controller) : Prop := ∃ D, AlikeDrives c D ∧ c' = c.withDrives D

/-! ## Nothing but a load or a store sees the difference -/

section
variable {c : Controller} {D : Drive → Image}

theorem onFlow_withDrives (g : Flow → Flow) :
    (c.withDrives D).onFlow g = (c.onFlow g).withDrives D := rfl

theorem onXfer_withDrives (g : Xfer → Xfer) :
    (c.withDrives D).onXfer g = (c.onXfer g).withDrives D := rfl

/-- Functions of the controller that commute with a change of drives. -/
theorem onFdc_withDrives {g : Fdc → Fdc}
    (hg : g (c.fdc.withDrives D) = (g c.fdc).withDrives D) :
    (c.withDrives D).onFdc g = (c.onFdc g).withDrives D := by
  unfold Controller.withDrives Controller.onFdc
  dsimp only
  rw [hg]

theorem setIntrq_withDrives (value : Bool) :
    setIntrq value (c.withDrives D) = (setIntrq value c).withDrives D := by
  cases value <;> rfl

/-- Branches on conditions that do not look at the drives. -/
theorem ite_withDrives {p p' : Prop} [Decidable p] [Decidable p'] (hp : p' ↔ p)
    {a b a' b' : Controller} (ha : a' = a.withDrives D) (hb : b' = b.withDrives D) :
    (if p' then a' else b') = (if p then a else b).withDrives D := by
  by_cases h : p
  · rw [if_pos h, if_pos (hp.mpr h), ha]
  · rw [if_neg h, if_neg fun h' => h (hp.mp h'), hb]

theorem setDrq_withDrives (value : Bool) :
    setDrq value (c.withDrives D) = (setDrq value c).withDrives D := by
  unfold setDrq
  dsimp only
  exact ite_withDrives .rfl rfl (ite_withDrives .rfl rfl rfl)

theorem svDiskTick_withDrives : svDiskTick (c.withDrives D) = (svDiskTick c).withDrives D := by
  unfold svDiskTick
  refine ite_withDrives .rfl ?_ rfl
  dsimp only
  refine ite_withDrives .rfl ?_ rfl
  rw [onFlow_withDrives, setIntrq_withDrives]

theorem nextByte_withDrives (f : Fdc) :
    nextByte (f.withDrives D) = (nextByte f).withDrives D := by
  unfold nextByte
  dsimp only
  by_cases h : f.xfer.bufPos + 1 < f.xfer.bufLen
  · rw [if_pos h, if_pos (by exact h)]
    rfl
  · rw [if_neg h, if_neg (by exact h)]
    rfl

theorem readByte_withDrives : readByte (c.withDrives D) = (readByte c).withDrives D := by
  unfold readByte
  refine ite_withDrives .rfl (onFdc_withDrives (nextByte_withDrives _)) ?_
  refine ite_withDrives .rfl ?_ rfl
  rw [onFlow_withDrives, setIntrq_withDrives]

theorem recordNotFound_withDrives :
    recordNotFound (c.withDrives D) = (recordNotFound c).withDrives D := by
  unfold recordNotFound
  rw [onXfer_withDrives, @onFdc_withDrives _ D (endRead 0x10) rfl, setIntrq_withDrives]

/-! ## Commands -/

variable (hD : AlikeDrives c D)
include hD

theorem AlikeDrives.selected : SameFace c.fdc.selected (c.withDrives D).fdc.selected :=
  (hD c.fdc.latch.driveSelect).face

theorem AlikeDrives.offset (sector : Byte) :
    (c.withDrives D).fdc.offset sector = c.fdc.offset sector :=
  hD.selected.offset _ _ _

theorem commandBody_withDrives (cmd cmd' : Byte) :
    commandBody cmd (beginCommand cmd' (c.fdc.withDrives D)) =
      (commandBody cmd (beginCommand cmd' c.fdc)).withDrives D := by
  have hface := (hD c.fdc.latch.driveSelect).face
  generalize hf : beginCommand cmd' c.fdc = f
  have hf' : beginCommand cmd' (c.fdc.withDrives D) = f.withDrives D := by
    rw [← hf]
    rfl
  have hsel : SameFace f.selected (f.withDrives D).selected := by
    rw [← hf]
    exact hface
  rw [hf']
  have hready : ready (f.withDrives D) = ready f := by
    unfold ready
    rw [hsel.mounted, hsel.cache]
  have htypeI : ∀ r : FdcRegs, finishTypeI { f.withDrives D with regs := r } =
      (finishTypeI { f with regs := r }).withDrives D := by
    intro r
    have hm : (Fdc.selected { f.withDrives D with regs := r }).mounted =
      (Fdc.selected { f with regs := r }).mounted := hsel.mounted
    unfold finishTypeI notReady
    rw [hm]
    rfl
  unfold commandBody
  split
  · exact htypeI _
  · exact htypeI _
  · unfold readSector
    rw [hready, hsel.sectorSize]
    split <;> rfl
  · unfold readSector
    rw [hready, hsel.sectorSize]
    split <;> rfl
  · unfold writeSector
    rw [hready, hsel.sectorSize, hsel.readOnly]
    split <;> (try split) <;> rfl
  · unfold writeSector
    rw [hready, hsel.sectorSize, hsel.readOnly]
    split <;> (try split) <;> rfl
  · rfl
  · exact htypeI _
  · rfl
  · unfold writeTrackCommand
    rw [hready, hsel.readOnly]
    split <;> (try split) <;> rfl
  · exact htypeI _

theorem fdcExecuteCommand_withDrives (cmd : Byte) :
    fdcExecuteCommand cmd (c.withDrives D) = (fdcExecuteCommand cmd c).withDrives D := by
  have hbody : (c.withDrives D).onFdc (fun f => commandBody cmd (beginCommand cmd f)) =
      (c.onFdc fun f => commandBody cmd (beginCommand cmd f)).withDrives D :=
    onFdc_withDrives (commandBody_withDrives hD cmd cmd)
  unfold fdcExecuteCommand
  dsimp only
  rw [hbody]
  exact ite_withDrives .rfl (setIntrq_withDrives true) rfl

theorem statusByte_withDrives : statusByte (c.withDrives D).fdc = statusByte c.fdc := by
  have hm : (c.withDrives D).fdc.selected.mounted = c.fdc.selected.mounted := hD.selected.mounted
  unfold statusByte
  rw [hm]
  rfl

/-! ## Loads -/

/-- Where the first controller loads from a cache only, so does the second the same. -/
theorem AlikeDrives.loadOffset {off : Nat}
    (hc : c.fdc.selected.cache.isSome = true) (h : c.fdc.loadOffset = some off) :
    (c.withDrives D).fdc.loadOffset = some off := by
  have heq : (c.withDrives D).fdc.selected = c.fdc.selected := (hD _).eq_of_cache hc
  unfold Fdc.loadOffset at h ⊢
  rw [hD.offset, heq]
  exact h

theorem AlikeDrives.loadSector (off : Nat) :
    loadSector off (c.withDrives D) = (loadSector off c).withDrives D := by
  have hface := hD.selected
  unfold Disk.loadSector
  rw [onXfer_withDrives]
  generalize hc₁ : c.onXfer (fun x => { x with readPending := false }) = c₁
  have hface₁ : SameFace c₁.fdc.selected (c₁.withDrives D).fdc.selected := by
    rw [← hc₁]
    exact hface
  have hcopy : copyFromCache off (c₁.withDrives D) = (copyFromCache off c₁).withDrives D := by
    unfold copyFromCache
    rw [hface₁.cache, hface₁.sectorSize]
    split <;> rfl
  rw [hcopy]
  rfl

end

/-! ## Alike states -/

/-- Programs that leave the drives alone and do not see the difference. -/
theorem Alike.map {g : Controller → Controller} {c c' : Controller} (h : Alike c c')
    (hg : ∀ D, AlikeDrives c D → g (c.withDrives D) = (g c).withDrives D)
    (hs : SameDisks c (g c)) : Alike (g c) (g c') := by
  obtain ⟨D, hD, rfl⟩ := h
  exact ⟨D, fun d => by rw [hs.drives]; exact hD d, hg D hD⟩

theorem Alike.ite {p p' : Prop} [Decidable p] [Decidable p'] (hp : p' ↔ p)
    {a b a' b' : Controller} (ha : Alike a a') (hb : Alike b b') :
    Alike (if p then a else b) (if p' then a' else b') := by
  by_cases h : p
  · rw [if_pos h, if_pos (hp.mpr h)]
    exact ha
  · rw [if_neg h, if_neg fun h' => h (hp.mp h')]
    exact hb

section
variable {c c' : Controller} (h : Alike c c')
include h

theorem Alike.onWt (g : Wt → Wt) : Alike (c.onWt g) (c'.onWt g) :=
  h.map (fun _ _ => rfl) (.onWt g c)

theorem Alike.onXfer (g : Xfer → Xfer) : Alike (c.onXfer g) (c'.onXfer g) :=
  h.map (fun _ _ => rfl) (.onXfer g c)

theorem Alike.onFlow (g : Flow → Flow) : Alike (c.onFlow g) (c'.onFlow g) :=
  h.map (fun _ _ => rfl) (.onFlow g c)

theorem Alike.onRegs (g : FdcRegs → FdcRegs) : Alike (c.onRegs g) (c'.onRegs g) :=
  h.map (fun _ _ => rfl) (.onRegs g c)

theorem Alike.setIntrq (value : Bool) : Alike (setIntrq value c) (setIntrq value c') :=
  h.map (fun _ _ => setIntrq_withDrives value) (setIntrq_same value c)

theorem Alike.setDrq (value : Bool) : Alike (setDrq value c) (setDrq value c') :=
  h.map (fun _ _ => setDrq_withDrives value) (setDrq_same value c)

/-- Everything but the drives is the same. -/
theorem Alike.regs : c'.fdc.regs = c.fdc.regs ∧ c'.fdc.latch = c.fdc.latch ∧
    c'.fdc.xfer = c.fdc.xfer ∧ c'.fdc.wt = c.fdc.wt := by
  obtain ⟨D, _, rfl⟩ := h
  exact ⟨rfl, rfl, rfl, rfl⟩

theorem Alike.selected : AlikeImage c.fdc.selected c'.fdc.selected := by
  obtain ⟨D, hD, rfl⟩ := h
  exact hD _

/-- A store needs a cache, so it stores the same in both. -/
theorem Alike.storeSector (sector : Byte) :
    Alike (storeSector sector c) (storeSector sector c') := by
  obtain ⟨D, hD, rfl⟩ := h
  have hface := hD.selected
  cases hc : c.fdc.selected.cache.isSome with
  | false =>
    have hnone : c.fdc.storeOffset sector = none := by
      unfold Fdc.storeOffset
      rw [hc]
      split <;> rfl
    have hnone' : (c.withDrives D).fdc.storeOffset sector = none := by
      unfold Fdc.storeOffset
      rw [hface.cache, hc]
      split <;> rfl
    unfold Disk.storeSector
    rw [hnone, hnone']
    exact ⟨D, hD, rfl⟩
  | true =>
    have heq : (c.withDrives D).fdc.selected = c.fdc.selected := (hD _).eq_of_cache hc
    have hoff : (c.withDrives D).fdc.storeOffset sector = c.fdc.storeOffset sector := by
      unfold Fdc.storeOffset
      rw [hD.offset, heq]
    unfold Disk.storeSector
    rw [hoff, heq]
    cases c.fdc.storeOffset sector with
    | none => exact ⟨D, hD, rfl⟩
    | some off =>
      refine ⟨Function.update D c.fdc.latch.driveSelect
        (storedImage c.fdc.selected off c.fdc.xfer.sectorBuf), fun d => ?_, ?_⟩
      · dsimp only [Controller.onFdc, Fdc.setDrive]
        by_cases hd : d = c.fdc.latch.driveSelect
        · rw [hd, Function.update_self, Function.update_self]
          exact .refl _
        · rw [Function.update_of_ne hd, Function.update_of_ne hd]
          exact hD d
      · dsimp only [Controller.onFdc, Fdc.setDrive]
        rw [heq]
        rfl

theorem Alike.wtData (value : Byte) : Alike (wtData value c) (wtData value c') := by
  obtain ⟨hregs, hlatch, hxfer, hwt⟩ := h.regs
  have hput := (h.onXfer (.put c.fdc.wt.dataPos value)).onWt .countData
  unfold Disk.wtData
  dsimp only
  rw [hwt]
  refine Alike.ite ?_ ?_ hput
  · rw [hput.selected.face.sectorSize, hput.regs.2.2.2]
  · unfold endField
    rw [hput.regs.2.2.2]
    exact (hput.storeSector _).onWt _

theorem Alike.wtDecode (value : Byte) : Alike (wtDecode value c) (wtDecode value c') := by
  have hclear := h.onWt .clearF5
  unfold Disk.wtDecode
  dsimp only
  rw [h.regs.2.2.2, hclear.regs.2.2.2]
  exact .ite .rfl (h.onWt _) (.ite .rfl (hclear.wtData value) (hclear.onWt _))

theorem Alike.fdcWriteData (value : Byte) :
    Alike (fdcWriteData value c) (fdcWriteData value c') := by
  obtain ⟨hregs, hlatch, hxfer, hwt⟩ := h.regs
  unfold Disk.fdcWriteData
  rw [hxfer]
  refine .ite .rfl ?_ (.ite .rfl ?_ h)
  · have hdecode := (h.onWt .countByte).wtDecode value
    unfold fdcWriteTrackByte
    dsimp only
    rw [hdecode.regs.2.2.2]
    refine .ite .rfl ?_ (hdecode.setDrq true)
    exact (hdecode.map (fun _ _ => rfl) (.onFdc _ rfl)).setIntrq true
  · have hput := h.onXfer (.advance value)
    dsimp only
    rw [hput.regs.2.2.1]
    refine .ite .rfl ?_ (hput.onFlow _)
    have hoff : ∀ sector, (c'.onXfer (.advance value)).fdc.offset sector =
        (c.onXfer (.advance value)).fdc.offset sector := by
      obtain ⟨D, hD, heq⟩ := hput
      intro sector
      rw [heq]
      exact hD.offset sector
    unfold commitSector
    dsimp only
    rw [hput.regs.1, hoff]
    exact ((hput.storeSector _).map (fun _ _ => rfl) (.onFdc _ rfl)).setIntrq true

end

/-! ## Data reads -/

theorem loadSector_drives (off : Nat) (c : Controller) :
    (loadSector off c).fdc.drives = c.fdc.drives :=
  (loadSector_same off c).drives.trans (copyFromCache_drives off c).1

/-- A data read answers alike where neither controller loads without a cache. -/
theorem Alike.fdcReadData {c c' : Controller} (h : Alike c c')
    (hl : c.fdc.xfer.readPending = true → ∀ off, c.fdc.loadOffset = some off →
      c.fdc.selected.cache.isSome = true)
    (hl' : c'.fdc.xfer.readPending = true → ∀ off, c'.fdc.loadOffset = some off →
      c'.fdc.selected.cache.isSome = true) :
    (fdcReadData c').1 = (fdcReadData c).1 ∧ Alike (fdcReadData c).2 (fdcReadData c').2 := by
  obtain ⟨D, hD, rfl⟩ := h
  have hface := hD.selected
  have hp : (c.withDrives D).fdc.xfer.readPending = c.fdc.xfer.readPending := rfl
  unfold Disk.fdcReadData
  rw [hp]
  by_cases hpending : c.fdc.xfer.readPending = true
  · rw [if_pos hpending, if_pos hpending]
    cases hoff : c.fdc.loadOffset with
    | some off =>
      rw [hD.loadOffset (hl hpending off hoff) hoff]
      dsimp only
      rw [hD.loadSector]
      refine ⟨rfl, D, fun d => ?_, readByte_withDrives⟩
      rw [(readByte_same _).drives, loadSector_drives]
      exact hD d
    | none =>
      have hnone : (c.withDrives D).fdc.loadOffset = none := by
        cases hoff' : (c.withDrives D).fdc.loadOffset with
        | none => rfl
        | some off =>
          have hc' := hl' hpending off hoff'
          have heq : (c.withDrives D).fdc.selected = c.fdc.selected := by
            rw [hface.cache] at hc'
            exact (hD _).eq_of_cache hc'
          have hsame : (c.withDrives D).fdc.loadOffset = c.fdc.loadOffset := by
            unfold Fdc.loadOffset
            rw [hD.offset, heq]
            rfl
          rw [← hoff', hsame, hoff]
      rw [hnone]
      refine ⟨rfl, D, fun d => ?_, recordNotFound_withDrives⟩
      have hsame : SameDisks c (recordNotFound c) :=
        ((SameDisks.onXfer _ c).trans (.onFdc _ rfl)).trans (setIntrq_same true _)
      rw [hsame.drives]
      exact hD d
  · rw [if_neg hpending, if_neg hpending]
    refine ⟨rfl, D, fun d => ?_, readByte_withDrives⟩
    rw [(readByte_same c).drives]
    exact hD d

/-! ## Drives -/

/-- Stores whose images are alike. -/
structure AlikeStore (s s' : Store) : Prop where
  img : AlikeImage s.img s'.img
  card : s'.card = s.card
  wild : s'.wild = s.wild

theorem Vacant.flush {s : Store} (h : Vacant s.img) (io : FlushIo) : svDiskFlush io s = s := by
  have htarget : flushTarget io s = none := by
    unfold flushTarget
    rw [h.mounted]
    rfl
  unfold svDiskFlush
  rw [htarget]

theorem Vacant.eject {s : Store} (h : Vacant s.img) (io : FlushIo) : svDiskEject io s = s := by
  unfold svDiskEject
  rw [if_neg (by rw [h.mounted]; exact Bool.false_ne_true)]

theorem setTracks_resize (linear n : Nat) (img : Image) :
    setTracks linear (img.resize n) =
      ((setTracks linear img).1, (setTracks linear img).2.resize n) := by
  unfold setTracks
  split
  · rfl
  · split
    · rfl
    · split <;> rfl

theorem detectGeometry_resize (n : Nat) (img : Image) :
    svDiskDetectGeometry (img.resize n) =
      ((svDiskDetectGeometry img).1, (svDiskDetectGeometry img).2.resize n) := by
  have hdata : imageData (img.resize n) = imageData img := rfl
  have hheader : imageHeader (img.resize n) = imageHeader img := rfl
  unfold svDiskDetectGeometry
  rw [hdata, hheader, ← setTracks_resize]
  rfl

theorem openedImage_resize (path : List Char) (file : SdFile) (n : Nat) (img : Image) :
    openedImage path file (img.resize n) = (openedImage path file img).resize n := by
  unfold openedImage Image.resize
  rfl

/-- A mount of a vacant drive does not look at the cache size left there. -/
theorem mountFile_resize (io : MountIo) (path : List Char) (file : SdFile) {img : Image}
    (hs : Sound img) (hv : Vacant img) :
    AlikeImage (mountFile io path file img).2 (mountFile io path file (img.resize 0)).2 := by
  have hfail := (mountFile_sound io path file hs hv).2
  unfold mountFile at hfail ⊢
  rw [openedImage_resize, detectGeometry_resize]
  generalize svDiskDetectGeometry (openedImage path file img) = r at hfail ⊢
  dsimp only at hfail ⊢
  cases hok : r.1 with
  | true =>
    refine .inl ?_
    unfold mountSized
    cases io.alloc <;> rfl
  | false =>
    rw [hok] at hfail
    exact .inr ⟨hfail rfl, rfl⟩

theorem AlikeStore.mount {s s' : Store} (h : AlikeStore s s') (hs : Sound s.img) (io : MountIo)
    (path : List Char) : AlikeStore (mountLocked io path s).2 (mountLocked io path s').2 := by
  obtain ⟨himg, hcard, hwild⟩ := h
  rcases himg with heq | ⟨hv, heq⟩
  · have hstore : s' = s := by
      cases s
      cases s'
      cases heq
      cases hcard
      cases hwild
      rfl
    rw [hstore]
    exact ⟨.refl _, rfl, rfl⟩
  · have hfirst : ejectFirst io s = s := if_neg (by rw [hv.mounted]; exact Bool.false_ne_true)
    have hfirst' : ejectFirst io s' = s' :=
      if_neg (by rw [heq]; exact fun h => Bool.false_ne_true (hv.mounted ▸ h))
    unfold mountLocked
    rw [hfirst, hfirst']
    dsimp only
    rw [hcard, heq]
    split
    · exact ⟨.inr ⟨hv, heq⟩, hcard, hwild⟩
    · rename_i file _
      exact ⟨mountFile_resize io path file hs hv, rfl, hwild⟩

/-- A function of a drive that leaves a vacant one as it is. -/
theorem AlikeStore.of_vacant {g : Store → Store} {s s' : Store} (h : AlikeStore s s')
    (hg : ∀ s, Vacant s.img → g s = s) : AlikeStore (g s) (g s') := by
  obtain ⟨himg, hcard, hwild⟩ := h
  rcases himg with heq | ⟨hv, heq⟩
  · have hstore : s' = s := by
      cases s
      cases s'
      cases heq
      cases hcard
      cases hwild
      rfl
    rw [hstore]
    exact ⟨.refl _, rfl, rfl⟩
  · have hv' : Vacant s'.img := by
      rw [heq]
      exact ⟨hv.mounted, hv.cache⟩
    rw [hg s hv, hg s' hv']
    exact ⟨.inr ⟨hv, heq⟩, hcard, hwild⟩

theorem Alike.withDrive {c c' : Controller} (h : Alike c c') (d : Drive) {g : Store → Store}
    (hg : ∀ s s', s.img = c.fdc.drives d → AlikeStore s s' → AlikeStore (g s) (g s')) :
    Alike (withDrive d g c) (withDrive d g c') := by
  obtain ⟨D, hD, rfl⟩ := h
  obtain ⟨himg, hcard, hwild⟩ := hg ⟨c.fdc.drives d, c.card, c.wild⟩ ⟨D d, c.card, c.wild⟩ rfl
    ⟨hD d, rfl, rfl⟩
  refine ⟨Function.update D d (g ⟨D d, c.card, c.wild⟩).img, fun d' => ?_, ?_⟩
  · by_cases hd : d' = d
    · rw [hd, Function.update_self]
      simpa [Disk.withDrive, Fdc.setDrive] using himg
    · rw [Function.update_of_ne hd]
      simpa [Disk.withDrive, Fdc.setDrive, Function.update_of_ne hd] using hD d'
  · unfold Disk.withDrive Controller.withDrives Controller.onFdc Fdc.setDrive
    dsimp only [Fdc.withDrives]
    rw [hcard, hwild]

/-! ## Events -/

/-- The byte an event returns to the guest. -/
def Event.value : Event → Controller → Byte
  | .read address, c => (svDiskRead address c).1
  | _, _ => 0

/-- The second of two alike controllers refuses every load without a cache. -/
theorem Alike.loadsLive {c c' : Controller} (h : Alike c c') (hs : SoundDrives c) {e : Event}
    (hl : LoadsLive e c) : LoadsLive e c' := by
  intro off hoff
  rcases h.selected with heq | ⟨_, heq⟩
  · obtain ⟨hregs, hlatch, hxfer, _⟩ := h.regs
    have hload : e.load c'.fdc = e.load c.fdc := by
      cases e with
      | read address =>
        unfold Event.load Fdc.loadOffset Fdc.offset
        rw [heq, hregs, hlatch, hxfer]
      | write address value => rfl
      | tick => rfl
      | mount d path io => rfl
      | eject d io => rfl
      | flush d io => rfl
    rw [heq]
    exact hl off (by rw [← hload]; exact hoff)
  · have hin := (loadOffset_spec (Event.load_offset hoff)).2
    rw [heq] at hin
    have hsize : (c.fdc.selected.resize 0).sectorSize = 256 := (hs _).sectorSize
    have hzero : (c.fdc.selected.resize 0).cacheSize = 0 := rfl
    omega

theorem Alike.step {c c' : Controller} (h : Alike c c') (hs : SoundDrives c) (e : Event)
    (hl : LoadsLive e c) : e.value c' = e.value c ∧ Alike (e.step c) (e.step c') := by
  have hl' := h.loadsLive hs hl
  cases e with
  | read address =>
    cases ha : isDataReg address with
    | true =>
      simp only [Event.value, Event.step, svDiskRead_data ha]
      exact h.fdcReadData (fun hp off hoff => hl off (by simp [Event.load, ha, hp, hoff]))
        fun hp off hoff => hl' off (by simp [Event.load, ha, hp, hoff])
    | false =>
      obtain ⟨hregs, _, _, _⟩ := h.regs
      have hstatus : statusByte c'.fdc = statusByte c.fdc := by
        obtain ⟨D, hD, rfl⟩ := h
        exact statusByte_withDrives hD
      simp only [Event.value, Event.step]
      unfold svDiskRead
      rcases reg_of_not_data ha with hlow | hreg | hreg | hreg
      · rw [if_pos hlow, if_pos hlow]
        exact ⟨rfl, h⟩
      all_goals
        rw [hreg]
        split
        · exact ⟨rfl, h⟩
        · first
            | exact ⟨hstatus, h.setIntrq false⟩
            | exact ⟨by rw [hregs]; rfl, h⟩
  | write address value =>
    refine ⟨rfl, ?_⟩
    cases ha : isDataReg address with
    | true =>
      simp only [Event.step, svDiskWrite_data ha]
      exact (h.onRegs _).fdcWriteData value
    | false =>
      simp only [Event.step]
      unfold svDiskWrite
      rcases reg_of_not_data ha with hlow | hreg | hreg | hreg
      · rw [if_pos hlow, if_pos hlow]
        exact h.map (fun _ _ => rfl) (fdcWriteDriveSelect_same value c)
      all_goals
        rw [hreg]
        split
        · exact h.map (fun _ _ => rfl) (fdcWriteDriveSelect_same value c)
        · first
            | exact (h.setIntrq false).map (fun _ hD => fdcExecuteCommand_withDrives hD value)
                (fdcExecuteCommand_same value _)
            | exact h.onRegs _
  | tick => exact ⟨rfl, h.map (fun _ _ => svDiskTick_withDrives) (svDiskTick_same c)⟩
  | mount d path io =>
    exact ⟨rfl, h.withDrive d fun s s' himg hss => hss.mount (by rw [himg]; exact hs d) io path⟩
  | eject d io =>
    exact ⟨rfl, h.withDrive d fun s s' _ hss => hss.of_vacant fun _ hv => hv.eject io⟩
  | flush d io =>
    exact ⟨rfl, h.withDrive d fun s s' _ hss => hss.of_vacant fun _ hv => hv.flush io⟩

/-! ## Runs -/

/-- From two controllers on, a run answers alike and passes through alike states. -/
def Indistinct : List Event → Controller → Controller → Prop
  | [], c, c' => Alike c c'
  | e :: es, c, c' => Alike c c' ∧ e.value c' = e.value c ∧ Indistinct es (e.step c) (e.step c')

theorem Alike.indistinct {c c' : Controller} (h : Alike c c') (hs : SoundDrives c)
    {es : List Event} (hl : EachStep Event.step LoadsLive es c) : Indistinct es c c' := by
  induction es generalizing c c' with
  | nil => exact h
  | cons e es ih =>
    obtain ⟨hvalue, hnext⟩ := h.step hs e hl.1
    exact ⟨h, hvalue, ih hnext (e.step_sound hs).1 hl.2⟩

/-- The controller with drive `d` as an eject leaves it. -/
def vacate (d : Drive) (c : Controller) : Controller :=
  c.withDrives (Function.update c.fdc.drives d ((c.fdc.drives d).resize 0))

theorem alike_vacate {c : Controller} {d : Drive} (h : Vacant (c.fdc.drives d)) :
    Alike c (vacate d c) := by
  refine ⟨_, fun d' => ?_, rfl⟩
  by_cases hd : d' = d
  · rw [hd, Function.update_self]
    exact .inr ⟨h, rfl⟩
  · rw [Function.update_of_ne hd]
    exact .refl _

/-- Does the mount fail? -/
def mountFails (d : Drive) (path : List Char) (io : MountIo) (c : Controller) : Bool :=
  !(mountLocked io path { img := c.fdc.drives d, card := c.card, wild := c.wild }).1

/-- After every failed mount of the run the drive is vacant, and the rest of the run
cannot tell it from an ejected one. -/
def FailedMountsVacant : List Event → Controller → Prop
  | [], _ => True
  | e :: es, c =>
      (∀ d path io, e = .mount d path io → mountFails d path io c = true →
        Vacant ((e.step c).fdc.drives d) ∧ Indistinct es (e.step c) (vacate d (e.step c))) ∧
      FailedMountsVacant es (e.step c)

theorem failedMount_vacant {d : Drive} {path : List Char} {io : MountIo} {c : Controller}
    (hs : SoundDrives c) (h : mountFails d path io c = true) :
    Vacant (((Event.mount d path io).step c).fdc.drives d) := by
  have hfail := (mountLocked_sound io path (s := ⟨c.fdc.drives d, c.card, c.wild⟩) (hs d)).2.2
  have hdrive : ((Event.mount d path io).step c).fdc.drives d =
      (mountLocked io path ⟨c.fdc.drives d, c.card, c.wild⟩).2.img := Function.update_self ..
  rw [hdrive]
  exact hfail (by simpa [mountFails] using h)

theorem failedMountsVacant_of_live {es : List Event} {c : Controller} (hs : SoundDrives c)
    (hl : EachStep Event.step LoadsLive es c) : FailedMountsVacant es c := by
  induction es generalizing c with
  | nil => exact trivial
  | cons e es ih =>
    have hnext := (e.step_sound hs).1
    refine ⟨fun d path io he hfail => ?_, ih hnext hl.2⟩
    subst he
    have hv := failedMount_vacant hs hfail
    exact ⟨hv, (alike_vacate hv).indistinct hnext hl.2⟩

/-- No copy goes astray while every load finds a cache, and only then. -/
theorem wild_iff_loads {es : List Event} {c : Controller} (hs : SoundDrives c)
    (hw : c.wild = false) :
    Always Event.step (fun c => c.wild = false) es c ↔ EachStep Event.step LoadsLive es c :=
  always_iff_eachStep_of_inv hs hw (fun e _ h => (e.step_sound h).1)
    fun e _ h hwild => (e.step_sound h).2 hwild

/-! ## Loads without a cache -/

/-- Does the mount get as far as the allocation of the cache, and fail there? -/
def allocationFails (d : Drive) (path : List Char) (io : MountIo) (c : Controller) : Bool :=
  let s := ejectFirst io ⟨c.fdc.drives d, c.card, c.wild⟩
  match (if io.opens then s.card path else none) with
  | none => false
  | some file => (svDiskDetectGeometry (openedImage path file s.img)).1 && !io.alloc

/-- The drives where a mount failed at the allocation and none has succeeded since. -/
def Event.refused (e : Event) (c : Controller) (refused : Drive → Bool) : Drive → Bool :=
  match e with
  | .mount d path io => Function.update refused d
      (mountFails d path io c && (refused d || allocationFails d path io c))
  | _ => refused

def refusedStep (e : Event) (x : Controller × (Drive → Bool)) : Controller × (Drive → Bool) :=
  (e.step x.1, e.refused x.1 x.2)

/-- The drives so left by a run. -/
def refusedBy (es : List Event) (c : Controller) : Drive → Bool :=
  (runAll refusedStep es (c, fun _ => false)).2

/-- Such a drive has no cache; another one without a cache has no cache size either. -/
structure CacheLaw (refused : Bool) (img : Image) : Prop where
  noCache : refused = true → img.cache = none
  noSize : refused = false → img.cache = none → img.cacheSize = 0

section

variable {refused : Bool} {img img' : Image} {s : Store}

theorem CacheLaw.of_cache (h : img.cache.isSome = true) : CacheLaw false img := by
  refine ⟨nofun, fun _ hnone => ?_⟩
  rw [hnone] at h
  cases h

theorem CacheLaw.congr (h : CacheLaw refused img) (hcache : img'.cache.isNone = img.cache.isNone)
    (hsize : img'.cacheSize = img.cacheSize) : CacheLaw refused img' := by
  have hsame : img'.cache = none ↔ img.cache = none := by
    rw [← Option.isNone_iff_eq_none, ← Option.isNone_iff_eq_none, hcache]
  exact ⟨fun hr => hsame.mpr (h.noCache hr),
    fun hr hnone => hsize.trans (h.noSize hr (hsame.mp hnone))⟩

theorem CacheLaw.store (h : CacheLaw refused img) (off : Nat) (buf : Nat → Byte) :
    CacheLaw refused (storedImage img off buf) :=
  h.congr (by simp [storedImage, svDiskMarkDirty, copyIn]) rfl

theorem CacheLaw.flush (h : CacheLaw refused s.img) (io : FlushIo) :
    CacheLaw refused (svDiskFlush io s).img := by
  unfold svDiskFlush
  split
  · exact h
  · exact h.congr rfl rfl

/-- An eject of a mounted drive clears the cache size with the cache. -/
theorem CacheLaw.eject (h : CacheLaw refused s.img) (hs : Sound s.img) (io : FlushIo) :
    CacheLaw refused (svDiskEject io s).img := by
  unfold svDiskEject
  split
  · next hmounted =>
    have hcache : s.img.cache.isSome = true := hs.mounted.symm.trans hmounted
    cases refused with
    | true =>
      rw [h.noCache rfl] at hcache
      cases hcache
    | false =>
      refine ⟨nofun, fun _ _ => if_pos ?_⟩
      split
      · unfold svDiskFlush
        split <;> exact hcache
      · exact hcache
  · exact h

theorem CacheLaw.ejectFirst (h : CacheLaw refused s.img) (hs : Sound s.img) (io : MountIo) :
    CacheLaw refused (ejectFirst io s).img := by
  unfold Disk.ejectFirst
  split
  · exact h.eject hs io.eject
  · exact h

/-- The geometry leaves the cache and its size alone. -/
theorem CacheLaw.geometry (h : CacheLaw refused img) (path : List Char) (file : SdFile) :
    CacheLaw refused (svDiskDetectGeometry (openedImage path file img)).2 := by
  have hkeeps (linear : Nat) (img : Image) : (setTracks linear img).2.cache = img.cache ∧
      (setTracks linear img).2.cacheSize = img.cacheSize := by
    unfold setTracks
    split
    · exact ⟨rfl, rfl⟩
    · split
      · exact ⟨rfl, rfl⟩
      · split <;> exact ⟨rfl, rfl⟩
  unfold svDiskDetectGeometry
  generalize imageData (openedImage path file img) / (diskSectors * diskSectorSize) = linear
  exact h.congr (congrArg Option.isNone (hkeeps linear _).1) (hkeeps linear _).2

end

/-- A mount succeeds, fails at the allocation, or leaves the cache and its size alone. -/
theorem CacheLaw.mount {refused : Bool} {d : Drive} {c : Controller}
    (h : CacheLaw refused (c.fdc.drives d)) (hs : Sound (c.fdc.drives d)) (path : List Char)
    (io : MountIo) :
    CacheLaw (mountFails d path io c && (refused || allocationFails d path io c))
      (mountLocked io path ⟨c.fdc.drives d, c.card, c.wild⟩).2.img := by
  have hfirst : CacheLaw refused (Disk.ejectFirst io ⟨c.fdc.drives d, c.card, c.wild⟩).img :=
    @CacheLaw.ejectFirst refused ⟨c.fdc.drives d, c.card, c.wild⟩ h hs io
  unfold mountFails allocationFails mountLocked
  generalize Disk.ejectFirst io ⟨c.fdc.drives d, c.card, c.wild⟩ = s at hfirst ⊢
  dsimp only
  cases (if io.opens then s.card path else none) with
  | none => simpa using hfirst
  | some file =>
    have hgeometry := hfirst.geometry path file
    dsimp only
    unfold mountFile
    generalize svDiskDetectGeometry (openedImage path file s.img) = r at hgeometry ⊢
    obtain ⟨fits, img⟩ := r
    cases fits with
    | false => simpa using hgeometry
    | true =>
      unfold mountSized
      cases halloc : io.alloc with
      | true => simpa using CacheLaw.of_cache rfl
      | false => simpa using ⟨fun _ => rfl, nofun⟩

theorem Event.step_cacheLaw (e : Event) {c : Controller} {refused : Drive → Bool}
    (hs : SoundDrives c) (h : ∀ d, CacheLaw (refused d) (c.fdc.drives d)) (d : Drive) :
    CacheLaw (e.refused c refused d) ((e.step c).fdc.drives d) := by
  have hupdate (d' : Drive) {flag : Bool} {img : Image} (himg : CacheLaw flag img) :
      CacheLaw (Function.update refused d' flag d) (Function.update c.fdc.drives d' img d) := by
    by_cases hd : d = d'
    · rw [hd, Function.update_self, Function.update_self]
      exact himg
    · rw [Function.update_of_ne hd, Function.update_of_ne hd]
      exact h d
  have hkept (d' : Drive) {img : Image} (himg : CacheLaw (refused d') img) :
      CacheLaw (refused d) (Function.update c.fdc.drives d' img d) := by
    have hboth := hupdate d' himg
    rwa [Function.update_eq_self] at hboth
  have hguest (hg : e.isGuest = true) : CacheLaw (refused d) ((e.step c).fdc.drives d) := by
    cases hl : e.load c.fdc with
    | some off =>
      rw [(e.step_load hl).drives, (copyFromCache_drives off c).1]
      exact h d
    | none =>
      cases hc : e.commit c.fdc with
      | none =>
        rw [(e.step_same hg hl hc).drives]
        exact h d
      | some cm =>
        rw [(e.step_commit hc).drives, Fdc.storedDrives]
        cases c.fdc.storeOffset cm.sector with
        | none => exact h d
        | some off => exact hkept _ ((h _).store off cm.buf)
  cases e with
  | read address => exact hguest rfl
  | write address value => exact hguest rfl
  | tick => exact hguest rfl
  | mount d' path io => exact hupdate d' ((h d').mount (hs d') path io)
  | eject d' io =>
    have hstore := @CacheLaw.eject (refused d') ⟨c.fdc.drives d', c.card, c.wild⟩ (h d') (hs d') io
    exact hkept d' hstore
  | flush d' io =>
    have hstore := @CacheLaw.flush (refused d') ⟨c.fdc.drives d', c.card, c.wild⟩ (h d') io
    exact hkept d' hstore

theorem runAll_cacheLaw {es : List Event} {c : Controller} {refused : Drive → Bool}
    (hs : SoundDrives c) (h : ∀ d, CacheLaw (refused d) (c.fdc.drives d)) :
    ∀ d, CacheLaw ((runAll refusedStep es (c, refused)).2 d) ((runAll Event.step es c).fdc.drives d) := by
  induction es generalizing c refused with
  | nil => exact h
  | cons e es ih => exact ih (e.step_sound hs).1 fun d => e.step_cacheLaw hs h d

/-- A load finds no cache exactly on a drive that was refused one. -/
theorem loadsLive_iff_refused (card : Card) (es : List Event) (e : Event) :
    LoadsLive e (runAll Event.step es (powerOn card)) ↔
      ∀ off, e.load (runAll Event.step es (powerOn card)).fdc = some off →
        refusedBy es (powerOn card)
          (runAll Event.step es (powerOn card)).fdc.latch.driveSelect = false := by
  have hs : SoundDrives (runAll Event.step es (powerOn card)) := runAll_sound (powerOn_sound card)
  have hlaw : ∀ d, CacheLaw (refusedBy es (powerOn card) d)
      ((runAll Event.step es (powerOn card)).fdc.drives d) :=
    runAll_cacheLaw (powerOn_sound card) fun _ => ⟨nofun, fun _ _ => rfl⟩
  generalize runAll Event.step es (powerOn card) = c at hs hlaw ⊢
  unfold LoadsLive Fdc.selected
  have hselected := hlaw c.fdc.latch.driveSelect
  refine forall_congr' fun off => forall_congr' fun hoff => ?_
  constructor
  · intro hlive
    by_contra hrefused
    rw [hselected.noCache (by simpa using hrefused)] at hlive
    cases hlive
  · intro hrefused
    by_contra hnone
    have hzero := hselected.noSize hrefused (by simpa using hnone)
    obtain ⟨-, hin⟩ := loadOffset_spec (Event.load_offset hoff)
    have hsector : c.fdc.selected.sectorSize = 256 := (hs _).sectorSize
    unfold Fdc.selected at hin hsector
    omega

/-- From power-on, with any card: every copy to or from a cache is inside a live block and
every failed mount leaves a drive like an ejected one, exactly when every load of a READ
SECTOR finds the cache of the selected drive allocated.  A load does not find it exactly when
the selected drive is one where a mount failed at the allocation and none has succeeded since. -/
theorem cache_access_exact (card : Card) (es : List Event) :
    ((Always Event.step (fun c => c.wild = false) es (powerOn card) ∧
        FailedMountsVacant es (powerOn card)) ↔
      EachStep Event.step LoadsLive es (powerOn card)) ∧
    ∀ e, LoadsLive e (runAll Event.step es (powerOn card)) ↔
      ∀ off, e.load (runAll Event.step es (powerOn card)).fdc = some off →
        refusedBy es (powerOn card)
          (runAll Event.step es (powerOn card)).fdc.latch.driveSelect = false := by
  refine ⟨?_, loadsLive_iff_refused card es⟩
  constructor
  · rintro ⟨halways, _⟩
    exact (wild_iff_loads (powerOn_sound card) rfl).mp halways
  · intro hl
    exact ⟨(wild_iff_loads (powerOn_sound card) rfl).mpr hl,
      failedMountsVacant_of_live (powerOn_sound card) hl⟩

/-- The image is mounted in drive 0, READ SECTOR is issued for sector 1, the image is
mounted again while the heap is full, and the guest reads the data register. -/
def staleRead : List Event :=
  [.mount drive0 ['/', 'a', '.', 'd', 's', 'k'] {}, .write 0xFF4A 1, .write 0xFF48 0x80,
    .mount drive0 ['/', 'a', '.', 'd', 's', 'k'] { alloc := false }, .read 0xFF4B]

/-- The deferred load passes the bounds check with the new cache size and copies through
a null pointer. -/
theorem staleRead_astray :
    (runAll Event.step staleRead (powerOn oneTrackCard)).wild = true ∧
    ¬∀ card es, Always Event.step (fun c => c.wild = false) es (powerOn card) ∧
      FailedMountsVacant es (powerOn card) := by
  have hwild : (runAll Event.step staleRead (powerOn oneTrackCard)).wild = true := by
    decide +kernel
  refine ⟨hwild, fun hall => ?_⟩
  have hfalse := (hall oneTrackCard staleRead).1.last
  rw [hwild] at hfalse
  exact Bool.noConfusion hfalse

end CocoEmulator.Disk
