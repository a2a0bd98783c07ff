/-
  Disk/Geometry.lean --- what of an image file a mount makes addressable.

  An image is a header and then tracks of 18 sectors of 256 bytes.  A mount takes the
  header of a JVC image from the size of the file, and that of a VDK image as 12 bytes,
  which it then takes off the size a second time: of a VDK image the last track is lost.

      Covers                 header, tracks, sizes and contents agree with the file
      disk_geometry_covers   a mount covers exactly the images that are not VDK and
                             have a track; no mount makes more addressable than there is
-/
import CocoEmulator.Disk.Dirty

set_option autoImplicit false

namespace CocoEmulator.Disk

open CocoEmulator.Base

/-- The bytes of a track. -/
def trackSize : Nat := diskSectors * diskSectorSize

/-- Everything the card and the heap are asked for succeeds; reads may be short. -/
structure MountIo.Works (io : MountIo) : Prop where
  opens : io.opens = true
  alloc : io.alloc = true
  seeks : io.seeks = true
  got : ∀ p, 0 < io.got p

/-- The image describes a file of a header of `h` bytes and `k` tracks, and every sector
of it is addressable and loaded. -/
structure Covers (img : Image) (file : SdFile) (h k : Nat) : Prop where
  mounted : img.mounted = true
  header : img.headerSize = h
  tracks : img.tracks * img.sides = k
  size : img.cacheSize = k * trackSize
  loaded : ∃ b, img.cache = some b ∧ b.size = k * trackSize ∧
    ∀ i, i < k * trackSize → b.byte i = file.byte (h + i)
  addressable : ∀ t s, t < k → 1 ≤ s → s ≤ diskSectors →
    sectorOffset img (t / img.sides) (t % img.sides) s =
      some (t * trackSize + (s - 1) * diskSectorSize)

/-- No address of the image lies past the end of the file. -/
def AddressesInside (img : Image) (file : SdFile) : Prop :=
  ∀ track side sector off, sectorOffset img track side sector = some off →
    img.headerSize + off + diskSectorSize ≤ file.size

/-! ## Tracks and sides -/

theorem setTracks_none (img : Image) : (setTracks 0 img).1 = false := rfl

theorem setTracks_many {n : Nat} (h : 2 * 255 < n) (img : Image) :
    (setTracks n img).1 = false := by
  unfold setTracks
  rw [if_neg (by omega), if_pos h]

/-- At most 40 tracks, or an even number: none is lost. -/
theorem setTracks_exact {n : Nat} (hpos : 0 < n) (hn : n ≤ 40 ∨ n % 2 = 0 ∧ n ≤ 510)
    (img : Image) :
    (setTracks n img).1 = true ∧ (setTracks n img).2.tracks * (setTracks n img).2.sides = n := by
  unfold setTracks
  rw [if_neg (by omega), if_neg (by omega)]
  split
  · refine ⟨rfl, ?_⟩
    dsimp only
    omega
  · exact ⟨rfl, Nat.mul_one n⟩

/-- There are never more tracks than there are in the data. -/
theorem setTracks_le {n : Nat} {img : Image} (hok : (setTracks n img).1 = true) :
    (setTracks n img).2.tracks * (setTracks n img).2.sides ≤ n := by
  unfold setTracks at hok ⊢
  split at hok
  · cases hok
  · split at hok
    · cases hok
    · rename_i hzero hmany
      rw [if_neg hzero, if_neg hmany]
      split
      · dsimp only
        omega
      · exact Nat.le_of_eq (Nat.mul_one n)

/-- What an accepted geometry leaves in the image. -/
structure Accepted (img img' : Image) (n : Nat) : Prop where
  sides : img'.sides = 1 ∨ img'.sides = 2
  perTrack : img'.sectorsPerTrack = img.sectorsPerTrack
  sectorSize : img'.sectorSize = img.sectorSize
  header : img'.headerSize = img.headerSize
  tracks : img'.tracks * img'.sides ≤ n

theorem setTracks_accepted {n : Nat} {img : Image} (hok : (setTracks n img).1 = true) :
    Accepted img (setTracks n img).2 n := by
  refine ⟨?_, ?_, ?_, (setTracks_frame n img).2.2, setTracks_le hok⟩
  all_goals
    unfold setTracks at hok ⊢
    split at hok
    · cases hok
    · split at hok
      · cases hok
      · rename_i hzero hmany
        rw [if_neg hzero, if_neg hmany]
        split
        · first | exact Or.inr rfl | rfl
        · first | exact Or.inl rfl | rfl

/-! ## Images -/

section

variable {img : Image} {h k : Nat}

/-- A JVC image: the header is what is left over of whole sectors. -/
theorem jvc_spec (hjvc : isVdk img.path = false) (hh : h < 256) (hk : k ≤ 510)
    (hsize : img.imageSize = h + k * trackSize) :
    imageHeader img = h ∧ imageData img / (diskSectors * diskSectorSize) = k := by
  unfold trackSize diskSectors diskSectorSize at *
  have hheader : imageHeader img = h := by
    unfold imageHeader diskSectorSize
    rw [hjvc, hsize]
    simp only [Bool.false_eq_true, if_false]
    omega
  refine ⟨hheader, ?_⟩
  unfold imageData
  rw [hheader, hjvc]
  simp only [Bool.false_eq_true, if_false]
  rw [sub32_of_le (by omega) (by omega), hsize]
  omega

/-- A VDK image: the header is taken off twice, so the last track does not count. -/
theorem vdk_spec (hvdk : isVdk img.path = true) (hk : k ≤ 510)
    (hsize : img.imageSize = 12 + k * trackSize) :
    imageHeader img = 12 ∧ ((k = 0 ∧ 510 < imageData img / (diskSectors * diskSectorSize)) ∨
      imageData img / (diskSectors * diskSectorSize) + 1 = k) := by
  unfold trackSize diskSectors diskSectorSize at *
  have hheader : imageHeader img = 12 := if_pos hvdk
  have honce : sub32 img.imageSize 12 = k * (18 * 256) := by
    rw [sub32_of_le (by omega) (by omega), hsize]
    omega
  refine ⟨hheader, ?_⟩
  unfold imageData
  rw [hheader, if_pos hvdk, honce]
  by_cases hzero : k = 0
  · refine Or.inl ⟨hzero, ?_⟩
    rw [sub32_of_lt (by omega) (by omega)]
    omega
  · refine Or.inr ?_
    rw [sub32_of_le (by omega) (by omega)]
    omega

/-- The fields a mount starts the load with. -/
def Image.sized (img : Image) : Image := { img with cacheSize := geometrySize img }

/-- The end of a mount that is accepted. -/
theorem mountFile_accepted {io : MountIo} (hio : io.Works) {path : List Char} {file : SdFile}
    (hok : (svDiskDetectGeometry (openedImage path file img)).1 = true) :
    mountFile io path file img =
      (true, finishMount io file (svDiskDetectGeometry (openedImage path file img)).2.sized) := by
  unfold mountFile mountSized
  dsimp only
  rw [if_pos hok, if_pos hio.alloc]
  rfl

theorem mountFile_refused {io : MountIo} {path : List Char} {file : SdFile}
    (hok : (svDiskDetectGeometry (openedImage path file img)).1 = false) :
    (mountFile io path file img).1 = false := by
  unfold mountFile
  dsimp only
  rw [hok]
  rfl

theorem geometrySize_eq (hper : img.sectorsPerTrack = diskSectors)
    (hsize : img.sectorSize = diskSectorSize) (hsides : img.sides = 1 ∨ img.sides = 2) :
    geometrySize img = img.tracks * img.sides * trackSize := by
  unfold geometrySize trackSize
  rw [hper, hsize]
  rcases hsides with h | h <;> rw [h]
  · rw [if_neg (by decide), Nat.mul_one, Nat.mul_assoc]
  · rw [if_pos rfl]
    ring

/-- Linear track `t` is side `t % sides` of track `t / sides`. -/
theorem sectorOffset_linear (hper : img.sectorsPerTrack = diskSectors)
    (hsize : img.sectorSize = diskSectorSize) (hsides : img.sides = 1 ∨ img.sides = 2)
    {t sector : Nat} (ht : t < img.tracks * img.sides) (hfirst : 1 ≤ sector)
    (hlast : sector ≤ diskSectors) :
    sectorOffset img (t / img.sides) (t % img.sides) sector =
      some (t * trackSize + (sector - 1) * diskSectorSize) := by
  have hpos : 0 < img.sides := by omega
  have htrack : t / img.sides < img.tracks := Nat.div_lt_of_lt_mul (by rwa [Nat.mul_comm])
  have hside : t % img.sides < img.sides := Nat.mod_lt _ hpos
  have hlinear : t / img.sides * img.sides + t % img.sides = t := Nat.div_add_mod' t img.sides
  unfold sectorOffset
  rw [if_neg (by rw [hper]; omega), if_neg (by omega), if_neg (by omega), hlinear, hper, hsize,
    Nat.mul_assoc]
  rfl

/-- A mounted image whose geometry is that of the file covers it. -/
theorem covers_of_geometry {io : MountIo} (hio : io.Works) {file : SdFile}
    (hper : img.sectorsPerTrack = diskSectors) (hsize : img.sectorSize = diskSectorSize)
    (hsides : img.sides = 1 ∨ img.sides = 2) (hheader : img.headerSize = h)
    (htracks : img.tracks * img.sides = k) (hfile : h + k * trackSize ≤ file.size) :
    Covers (finishMount io file img.sized) file h k := by
  have hcache : geometrySize img = k * trackSize := by
    rw [geometrySize_eq hper hsize hsides, htracks]
  have hstart : (if img.headerSize > 0 && io.seeks then img.headerSize else 0) = h := by
    rw [hio.seeks, Bool.and_true, hheader]
    split
    · rfl
    · rename_i hzero
      have hnot : ¬h > 0 := fun hpos => hzero (decide_eq_true hpos)
      omega
  refine ⟨rfl, hheader, htracks, hcache, ?_, ?_⟩
  · refine ⟨_, rfl, hcache, fun i hi => ?_⟩
    show loadLoop io file (if img.headerSize > 0 && io.seeks then img.headerSize else 0)
      (geometrySize img) 0 (geometrySize img) io.junk i = _
    rw [hstart, hcache, loadLoop_full file h io.junk (Nat.le_refl _) hio.got hfile,
      splice_in (Nat.zero_le i) (by rw [Nat.zero_add]; exact hi)]
    rfl
  · intro t sector ht hfirst hlast
    rw [← htracks] at ht
    exact sectorOffset_linear hper hsize hsides ht hfirst hlast

end

/-! ## Mounts -/

section

variable {io : MountIo} {path : List Char} {file : SdFile} {s : Store}

theorem mountLocked_open (hio : io.opens = true) (hfile : (ejectFirst io s).card path = some file) :
    (mountLocked io path s).1 = (mountFile io path file (ejectFirst io s).img).1 ∧
      (mountLocked io path s).2.img = (mountFile io path file (ejectFirst io s).img).2 := by
  unfold mountLocked
  dsimp only
  rw [if_pos hio, hfile]
  exact ⟨rfl, rfl⟩

/-- The image a mount made of a file. -/
theorem detectGeometry_accepted {img : Image} (hok : (svDiskDetectGeometry img).1 = true) :
    (svDiskDetectGeometry img).2.sectorsPerTrack = diskSectors ∧
      (svDiskDetectGeometry img).2.sectorSize = diskSectorSize ∧
      ((svDiskDetectGeometry img).2.sides = 1 ∨ (svDiskDetectGeometry img).2.sides = 2) ∧
      (svDiskDetectGeometry img).2.headerSize = imageHeader img ∧
      (svDiskDetectGeometry img).2.tracks * (svDiskDetectGeometry img).2.sides ≤
        imageData img / (diskSectors * diskSectorSize) := by
  have h := setTracks_accepted hok
  exact ⟨h.perTrack, h.sectorSize, h.sides, h.header, h.tracks⟩

/-- No mount makes an address past the end of the file. -/
theorem mount_addresses_inside (hio : io.Works)
    (hfile : (ejectFirst io s).card path = some file) (hok : (mountLocked io path s).1 = true) :
    AddressesInside (mountLocked io path s).2.img file := by
  obtain ⟨hres, himg⟩ := mountLocked_open hio.opens hfile
  rw [hres] at hok
  rw [himg]
  have hsmall : (openedImage path file (ejectFirst io s).img).imageSize < 2 ^ 32 :=
    Nat.mod_lt _ (by decide)
  have hle : (openedImage path file (ejectFirst io s).img).imageSize ≤ file.size :=
    Nat.mod_le _ _
  cases hgeom : (svDiskDetectGeometry (openedImage path file (ejectFirst io s).img)).1 with
  | false => exact absurd (hok.symm.trans (mountFile_refused hgeom)) Bool.noConfusion
  | true =>
    have hfits := (detectGeometry_fits hsmall hgeom).1
    obtain ⟨hper, hsz, hsides, _, _⟩ := detectGeometry_accepted hgeom
    rw [mountFile_accepted hio hgeom]
    generalize (svDiskDetectGeometry (openedImage path file (ejectFirst io s).img)).2 = g at *
    intro track side sector off hoff
    have hinside : Address.Inside ⟨track, side, sector⟩ g := Address.inside_of_offset hoff
    have hindex := Address.index_lt hinside
    have hval : off = Address.index ⟨track, side, sector⟩ g * g.sectorSize :=
      Option.some.inj (hoff.symm.trans hinside.offset)
    rw [geometrySize_eq hper hsz hsides] at hfits
    rw [hper] at hindex
    have hlast : off + diskSectorSize ≤ g.tracks * g.sides * trackSize := by
      rw [hval, hsz, ← Nat.succ_mul, trackSize, ← Nat.mul_assoc]
      exact Nat.mul_le_mul_right _ hindex
    show g.headerSize + off + diskSectorSize ≤ file.size
    omega

theorem mount_covers_iff (hio : io.Works) (hfile : (ejectFirst io s).card path = some file)
    {h k : Nat} (hh : h < 256) (hk : k ≤ 40 ∨ k % 2 = 0 ∧ k ≤ 510)
    (hsize : file.size = h + k * trackSize) :
    ((mountLocked io path s).1 = true ∧ Covers (mountLocked io path s).2.img file h k) ↔
      isVdk (pathField path) = false ∧ 0 < k := by
  obtain ⟨hres, himg⟩ := mountLocked_open hio.opens hfile
  rw [hres, himg]
  have himage : (openedImage path file (ejectFirst io s).img).imageSize = h + k * trackSize := by
    show file.size % 2 ^ 32 = _
    rw [hsize]
    unfold trackSize diskSectors diskSectorSize
    omega
  have hpath : (openedImage path file (ejectFirst io s).img).path = pathField path := rfl
  rw [← hpath]
  cases hvdk : isVdk (openedImage path file (ejectFirst io s).img).path with
  | false =>
    obtain ⟨hheader, hlinear⟩ := jvc_spec hvdk hh (by omega) himage
    by_cases hpos : 0 < k
    · refine iff_of_true ?_ ⟨rfl, hpos⟩
      have hexact : (svDiskDetectGeometry (openedImage path file (ejectFirst io s).img)).1 = true ∧
          (svDiskDetectGeometry (openedImage path file (ejectFirst io s).img)).2.tracks *
            (svDiskDetectGeometry (openedImage path file (ejectFirst io s).img)).2.sides = k := by
        unfold svDiskDetectGeometry
        rw [hlinear]
        exact setTracks_exact hpos hk _
      obtain ⟨hper, hsz, hsides, hhead, _⟩ := detectGeometry_accepted hexact.1
      rw [mountFile_accepted hio hexact.1]
      exact ⟨rfl, covers_of_geometry hio hper hsz hsides (hhead.trans hheader) hexact.2
        (Nat.le_of_eq hsize.symm)⟩
    · refine iff_of_false ?_ fun hcon => hpos hcon.2
      rintro ⟨hok, _⟩
      have hrefused : (svDiskDetectGeometry (openedImage path file (ejectFirst io s).img)).1 =
          false := by
        unfold svDiskDetectGeometry
        rw [hlinear, Nat.eq_zero_of_not_pos hpos]
        exact setTracks_none _
      exact absurd (hok.symm.trans (mountFile_refused hrefused)) Bool.noConfusion
  | true =>
    refine iff_of_false ?_ fun hcon => absurd hcon.1 Bool.noConfusion
    rintro ⟨hok, hcovers⟩
    cases hgeom : (svDiskDetectGeometry (openedImage path file (ejectFirst io s).img)).1 with
    | false => exact absurd (hok.symm.trans (mountFile_refused hgeom)) Bool.noConfusion
    | true =>
      obtain ⟨_, _, _, hhead, hmost⟩ := detectGeometry_accepted hgeom
      rw [mountFile_accepted hio hgeom] at hcovers
      have htwelve : imageHeader (openedImage path file (ejectFirst io s).img) = 12 := if_pos hvdk
      have hh12 : 12 = h := htwelve.symm.trans (hhead.symm.trans hcovers.header)
      rw [← hh12] at himage
      obtain ⟨_, ⟨_, hmany⟩ | hlost⟩ := vdk_spec hvdk (by omega) himage
      · have hrefused := setTracks_many hmany
          { openedImage path file (ejectFirst io s).img with
            headerSize := imageHeader (openedImage path file (ejectFirst io s).img)
            sectorSize := diskSectorSize
            sectorsPerTrack := diskSectors }
        exact absurd (hgeom.symm.trans hrefused) Bool.noConfusion
      · have htracks : (svDiskDetectGeometry
            (openedImage path file (ejectFirst io s).img)).2.tracks *
              (svDiskDetectGeometry (openedImage path file (ejectFirst io s).img)).2.sides = k :=
          hcovers.tracks
        omega

end

/-! ## The result -/

/-- A mount of an image of `k` tracks behind `h` bytes covers it exactly if the stored
path is not that of a VDK image and there is a track; and whatever the file, no accepted
mount makes an address past its end. -/
theorem disk_geometry_covers (io : MountIo) (hio : io.Works) (path : List Char) (s : Store)
    (file : SdFile) (hfile : (ejectFirst io s).card path = some file) :
    (∀ h k, h < 256 → (k ≤ 40 ∨ k % 2 = 0 ∧ k ≤ 510) → file.size = h + k * trackSize →
      (((mountLocked io path s).1 = true ∧ Covers (mountLocked io path s).2.img file h k) ↔
        isVdk (pathField path) = false ∧ 0 < k)) ∧
    ((mountLocked io path s).1 = true → AddressesInside (mountLocked io path s).2.img file) :=
  ⟨fun _ _ hh hk hsize => mount_covers_iff hio hfile hh hk hsize,
    mount_addresses_inside hio hfile⟩

/-- A file of 35 tracks behind a header. -/
def thirtyFiveTracks (h : Nat) : SdFile := ⟨h + 35 * trackSize, fun _ => 0xE5⟩

def cardWith (path : List Char) (file : SdFile) : Card :=
  fun p => if p = path then some file else none

theorem works_default : ({} : MountIo).Works := ⟨rfl, rfl, rfl, fun _ => Nat.succ_pos 511⟩

theorem disk_geometry_covers_jvc :
    Covers (mountLocked {} ['a', '.', 'd', 's', 'k']
      ⟨{}, cardWith ['a', '.', 'd', 's', 'k'] (thirtyFiveTracks 4), false⟩).2.img
      (thirtyFiveTracks 4) 4 35 :=
  (((disk_geometry_covers {} works_default ['a', '.', 'd', 's', 'k']
    ⟨{}, cardWith ['a', '.', 'd', 's', 'k'] (thirtyFiveTracks 4), false⟩ (thirtyFiveTracks 4)
    rfl).1 4 35 (by decide) (by decide) rfl).mpr ⟨by decide, by decide⟩).2

/-- Of a VDK image of 35 tracks 34 are addressable. -/
theorem vdk_loses_a_track :
    (mountLocked {} ['a', '.', 'v', 'd', 'k']
      ⟨{}, cardWith ['a', '.', 'v', 'd', 'k'] (thirtyFiveTracks 12), false⟩).2.img.tracks = 34 ∧
      ¬Covers (mountLocked {} ['a', '.', 'v', 'd', 'k']
        ⟨{}, cardWith ['a', '.', 'v', 'd', 'k'] (thirtyFiveTracks 12), false⟩).2.img
        (thirtyFiveTracks 12) 12 35 := by
  have htracks : (mountLocked {} ['a', '.', 'v', 'd', 'k']
      ⟨{}, cardWith ['a', '.', 'v', 'd', 'k'] (thirtyFiveTracks 12), false⟩).2.img.tracks = 34 := by
    rfl
  have hsides : (mountLocked {} ['a', '.', 'v', 'd', 'k']
      ⟨{}, cardWith ['a', '.', 'v', 'd', 'k'] (thirtyFiveTracks 12), false⟩).2.img.sides = 1 := by
    rfl
  refine ⟨htracks, fun hcovers => ?_⟩
  have hcount := hcovers.tracks
  rw [htracks, hsides] at hcount
  exact absurd hcount (by decide)

end CocoEmulator.Disk
