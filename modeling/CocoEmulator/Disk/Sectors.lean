/-
  Disk/Sectors.lean --- the drives as maps from addresses to sectors.

  A client of the controller knows neither offsets nor caches: a mounted drive
  holds one sector of bytes for each address inside its geometry (`Fdc.disk`).
  Offsets of different addresses are disjoint ranges of the cache, so a store is an
  update of this map at one address and changes nothing else.

      Stored.disk           a store is an update of the map
      Stored.outside        a store outside the geometry changes no drive
-/
import CocoEmulator.Disk.Safety

set_option autoImplicit false

namespace CocoEmulator.Disk

open CocoEmulator.Base CocoEmulator.Cpu

/-! ## Addresses -/

/-- The address of a sector on a drive; sectors are counted from 1. -/
structure Address where
  track : Nat
  side : Nat
  sector : Nat
  deriving DecidableEq

/-- The address lies inside the geometry of the image. -/
structure Address.Inside (a : Address) (img : Image) : Prop where
  track : a.track < img.tracks
  side : a.side < img.sides
  first : 1 ≤ a.sector
  last : a.sector ≤ img.sectorsPerTrack

instance Address.decidableInside (a : Address) (img : Image) : Decidable (a.Inside img) :=
  decidable_of_iff (a.track < img.tracks ∧ a.side < img.sides ∧ 1 ≤ a.sector ∧
      a.sector ≤ img.sectorsPerTrack)
    ⟨fun h => ⟨h.1, h.2.1, h.2.2.1, h.2.2.2⟩, fun h => ⟨h.track, h.side, h.first, h.last⟩⟩

/-- `sector_offset` of an address. -/
def Address.offset (a : Address) (img : Image) : Option Nat :=
  sectorOffset img a.track a.side a.sector

/-- The number of the sector in the image. -/
def Address.index (a : Address) (img : Image) : Nat :=
  (a.track * img.sides + a.side) * img.sectorsPerTrack + (a.sector - 1)

theorem Address.Inside.offset {a : Address} {img : Image} (h : a.Inside img) :
    a.offset img = some (a.index img * img.sectorSize) := by
  obtain ⟨htrack, hside, hfirst, hlast⟩ := h
  unfold Address.offset sectorOffset
  rw [if_neg (by omega), if_neg (by omega), if_neg (by omega)]
  congr 1
  unfold Address.index
  ring

theorem Address.inside_of_offset {a : Address} {img : Image} {off : Nat}
    (h : a.offset img = some off) : a.Inside img := by
  unfold Address.offset sectorOffset at h
  split at h
  · cases h
  · split at h
    · cases h
    · split at h
      · cases h
      · rename_i hsector htrack hside
        exact ⟨by omega, by omega, by omega, by omega⟩

theorem Address.offset_none {a : Address} {img : Image} (h : ¬a.Inside img) :
    a.offset img = none := by
  cases hoff : a.offset img with
  | none => rfl
  | some off => exact absurd (Address.inside_of_offset hoff) h

theorem Address.index_lt {a : Address} {img : Image} (h : a.Inside img) :
    a.index img < img.tracks * img.sides * img.sectorsPerTrack := by
  obtain ⟨htrack, hside, hfirst, hlast⟩ := h
  exact mixed_radix_lt (mixed_radix_lt htrack hside) (by omega)

/-- Different addresses are different sectors. -/
theorem Address.index_inj {a a' : Address} {img : Image} (h : a.Inside img)
    (h' : a'.Inside img) (heq : a.index img = a'.index img) : a = a' := by
  have hf := h.first
  have hf' := h'.first
  have hl := h.last
  have hl' := h'.last
  obtain ⟨hhigh, hlow⟩ := mixed_radix (by omega) (by omega) heq
  obtain ⟨htrack, hside⟩ := mixed_radix h.side h'.side hhigh
  have hsector : a.sector = a'.sector := by omega
  cases a
  cases a'
  dsimp only at htrack hside hsector
  rw [htrack, hside, hsector]

/-- A sector inside the geometry lies inside the cache. -/
theorem Address.Inside.fits {a : Address} {img : Image} (h : a.Inside img) (hs : Sound img)
    {b : Block} (hb : img.cache = some b) :
    a.index img * diskSectorSize + diskSectorSize ≤ img.cacheSize := by
  have hlt := a.index_lt h
  rw [hs.perTrack] at hlt
  rw [hs.size hb]
  calc a.index img * diskSectorSize + diskSectorSize
      = (a.index img + 1) * diskSectorSize := by ring
    _ ≤ img.tracks * img.sides * diskSectors * diskSectorSize := Nat.mul_le_mul_right _ hlt

/-! ## Sectors -/

/-- The bytes of a sector buffer. -/
def sectorBytes (buf : Nat → Byte) : List Byte := (List.range diskSectorSize).map buf

theorem sectorBytes_congr {buf buf' : Nat → Byte} (h : ∀ i, i < diskSectorSize → buf i = buf' i) :
    sectorBytes buf = sectorBytes buf' :=
  List.map_congr_left fun i hi => h i (List.mem_range.mp hi)

/-- A sector given as a list. -/
theorem sectorBytes_getD {data : List Byte} (h : data.length = diskSectorSize) :
    sectorBytes (fun i => data.getD i 0) = data := by
  apply List.ext_getElem
  · rw [sectorBytes, List.length_map, List.length_range, h]
  · intro i hi hi'
    simp only [sectorBytes, List.getElem_map, List.getElem_range]
    rw [List.getD_eq_getElem?_getD, List.getElem?_eq_getElem hi']
    rfl

/-- The sector of an image at an address: none outside the geometry, and none where no
image is mounted. -/
def sectorAt (img : Image) (a : Address) : Option (List Byte) :=
  match a.offset img, img.cache with
  | some off, some b => some (sectorBytes fun i => b.byte (off + i))
  | _, _ => none

/-- The sectors of all drives. -/
def Fdc.disk (f : Fdc) : Drive → Address → Option (List Byte) := fun d a => sectorAt (f.drives d) a

/-- The map with one sector replaced. -/
def setSector (disk : Drive → Address → Option (List Byte)) (d : Drive) (a : Address)
    (bytes : List Byte) : Drive → Address → Option (List Byte) :=
  fun d' a' => if d' = d ∧ a' = a then some bytes else disk d' a'

/-- The address in the registers, with the given sector number. -/
def Fdc.addressed (f : Fdc) (sector : Byte) : Address :=
  ⟨f.regs.track.toNat, f.latch.side, sector.toNat⟩

theorem sectorAt_of {img : Image} {a : Address} {b : Block} (ha : a.Inside img)
    (hb : img.cache = some b) :
    sectorAt img a = some (sectorBytes fun i => b.byte (a.index img * img.sectorSize + i)) := by
  unfold sectorAt
  rw [ha.offset, hb]

theorem sectorAt_outside {img : Image} {a : Address} (ha : ¬a.Inside img) :
    sectorAt img a = none := by
  unfold sectorAt
  rw [Address.offset_none ha]

/-- A store changes the sector at its address and no other. -/
theorem sectorAt_stored {img : Image} {a : Address} {b : Block} (hs : Sound img)
    (hb : img.cache = some b) (ha : a.Inside img) (buf : Nat → Byte) (a' : Address) :
    sectorAt (storedImage img (a.index img * img.sectorSize) buf) a' =
      if a' = a then some (sectorBytes buf) else sectorAt img a' := by
  by_cases ha' : a'.Inside img
  · have hstored : (storedImage img (a.index img * img.sectorSize) buf).cache =
        some { b with
          byte := splice b.byte (a.index img * img.sectorSize) img.sectorSize buf } := by
      dsimp only [storedImage, svDiskMarkDirty]
      rw [hb]
      rfl
    have hkeep : a'.Inside (storedImage img (a.index img * img.sectorSize) buf) :=
      ⟨ha'.track, ha'.side, ha'.first, ha'.last⟩
    rw [sectorAt_of hkeep hstored]
    split
    · rename_i heq
      rw [heq]
      congr 1
      refine sectorBytes_congr fun i hi => ?_
      exact splice_at (by rw [hs.sectorSize]; exact hi)
    · rename_i hne
      rw [sectorAt_of ha' hb]
      congr 1
      refine sectorBytes_congr fun i hi => ?_
      refine splice_out ?_
      -- two different sectors are two disjoint ranges
      have hindex : a'.index img ≠ a.index img := fun heq => hne (Address.index_inj ha' ha heq)
      have hsize := hs.sectorSize
      have hindex' : a'.index (storedImage img (a.index img * img.sectorSize) buf) =
        a'.index img := rfl
      dsimp only [storedImage, svDiskMarkDirty] at hindex' ⊢
      rw [hsize]
      rw [hsize] at hindex'
      rw [hindex']
      rcases Nat.lt_or_gt_of_ne hindex with hlt | hgt
      · have hmul := Nat.mul_le_mul_right diskSectorSize (Nat.succ_le_of_lt hlt)
        rw [Nat.succ_mul] at hmul
        omega
      · have hmul := Nat.mul_le_mul_right diskSectorSize (Nat.succ_le_of_lt hgt)
        rw [Nat.succ_mul] at hmul
        omega
  · have hne : a' ≠ a := fun heq => ha' (heq ▸ ha)
    have hkeep : ¬a'.Inside (storedImage img (a.index img * img.sectorSize) buf) :=
      fun hin => ha' ⟨hin.track, hin.side, hin.first, hin.last⟩
    rw [if_neg hne, sectorAt_outside hkeep, sectorAt_outside ha']

/-! ## Loads and stores -/

/-- Inside the geometry of a mounted drive the bounds checks let everything through. -/
theorem storeOffset_inside {f : Fdc} {sector : Byte} (hs : Sound f.selected)
    (hm : f.selected.mounted = true) (ha : (f.addressed sector).Inside f.selected) :
    f.storeOffset sector =
      some ((f.addressed sector).index f.selected * f.selected.sectorSize) := by
  have hcache := hs.mounted.symm.trans hm
  obtain ⟨b, hb⟩ := Option.isSome_iff_exists.mp hcache
  have hfits := ha.fits hs hb
  have hoff : f.offset sector =
      some ((f.addressed sector).index f.selected * f.selected.sectorSize) := ha.offset
  unfold Fdc.storeOffset
  rw [hoff]
  dsimp only
  rw [if_pos]
  rw [hcache, inCache, hs.sectorSize]
  exact decide_eq_true hfits

theorem loadOffset_inside {f : Fdc} (hs : Sound f.selected) (hm : f.selected.mounted = true)
    (ha : (f.addressed f.regs.sector).Inside f.selected) :
    f.loadOffset =
      some ((f.addressed f.regs.sector).index f.selected * f.selected.sectorSize) := by
  obtain ⟨b, hb⟩ := Option.isSome_iff_exists.mp (hs.mounted.symm.trans hm)
  have hfits := ha.fits hs hb
  have hoff : f.offset f.regs.sector =
      some ((f.addressed f.regs.sector).index f.selected * f.selected.sectorSize) := ha.offset
  unfold Fdc.loadOffset
  rw [hoff]
  dsimp only
  rw [if_pos]
  rw [inCache, hs.sectorSize]
  exact decide_eq_true hfits

theorem offset_outside {f : Fdc} {sector : Byte} (ha : ¬(f.addressed sector).Inside f.selected) :
    f.offset sector = none := Address.offset_none ha

theorem storeOffset_outside {f : Fdc} {sector : Byte}
    (ha : ¬(f.addressed sector).Inside f.selected) : f.storeOffset sector = none := by
  unfold Fdc.storeOffset
  rw [offset_outside ha]

theorem loadOffset_outside {f : Fdc} (ha : ¬(f.addressed f.regs.sector).Inside f.selected) :
    f.loadOffset = none := by
  unfold Fdc.loadOffset
  rw [offset_outside ha]

/-- A store to a mounted drive, inside its geometry, is an update of the map. -/
theorem Stored.disk {cm : Commit} {c c' : Controller} (hs : SoundDrives c) (h : Stored cm c c')
    (hm : c.fdc.selected.mounted = true)
    (ha : (c.fdc.addressed cm.sector).Inside c.fdc.selected) :
    c'.fdc.disk = setSector c.fdc.disk c.fdc.latch.driveSelect (c.fdc.addressed cm.sector)
      (sectorBytes cm.buf) := by
  have hsel : Sound c.fdc.selected := hs _
  obtain ⟨b, hb⟩ := Option.isSome_iff_exists.mp (hsel.mounted.symm.trans hm)
  funext d a
  unfold Fdc.disk setSector
  rw [h.drives, Fdc.storedDrives, storeOffset_inside hsel hm ha]
  dsimp only
  by_cases hd : d = c.fdc.latch.driveSelect
  · rw [hd, Function.update_self, sectorAt_stored hsel hb ha]
    by_cases haa : a = c.fdc.addressed cm.sector
    · rw [if_pos haa, if_pos ⟨rfl, haa⟩]
    · rw [if_neg haa, if_neg fun hcon => haa hcon.2]
      rfl
  · rw [Function.update_of_ne hd, if_neg fun hcon => hd hcon.1]

/-- A store to a drive without an image, or outside the geometry, changes no drive. -/
theorem Stored.outside {cm : Commit} {c c' : Controller} (hs : SoundDrives c)
    (h : Stored cm c c') (ho : c.fdc.selected.mounted = false ∨
      ¬(c.fdc.addressed cm.sector).Inside c.fdc.selected) : c'.fdc.drives = c.fdc.drives := by
  have hnone : c.fdc.storeOffset cm.sector = none := by
    rcases ho with hm | ha
    · cases hoff : c.fdc.storeOffset cm.sector with
      | none => rfl
      | some off =>
        have hcache := (storeOffset_spec hoff).2.1
        have hsel : Sound c.fdc.selected := hs _
        rw [← hsel.mounted, hm] at hcache
        cases hcache
    · exact storeOffset_outside ha
  rw [h.drives, Fdc.storedDrives, hnone]

end CocoEmulator.Disk
