/-
  Disk/Safety.lean --- every copy stays inside a live cache.

  A drive has a cache exactly when it is mounted, and the cache then has the size
  its geometry says (`Sound`).  A mount that fails at the allocation leaves a drive
  with no cache and a cache size; nothing but the load of a READ SECTOR looks at
  that size without looking at the cache.

      cache_access_exact    along a run from power-on no copy goes astray, and a
                            failed mount leaves a drive nothing can tell from an
                            ejected one, exactly when every load finds a cache
-/
import CocoEmulator.Base.Run
import CocoEmulator.Disk.Step

set_option autoImplicit false

namespace CocoEmulator.Disk

open CocoEmulator.Base CocoEmulator.Cpu

/-! ## Sound images -/

/-- The invariant of a drive. -/
structure Sound (img : Image) : Prop where
  sectorSize : img.sectorSize = diskSectorSize
  perTrack : img.sectorsPerTrack = diskSectors
  sides : img.sides = 1 ∨ img.sides = 2
  mounted : img.mounted = img.cache.isSome
  live : ∀ b, img.cache = some b → b.size = img.cacheSize ∧ img.cacheSize = geometrySize img

theorem Sound.init : Sound {} where
  sectorSize := rfl
  perTrack := rfl
  sides := .inl rfl
  mounted := rfl
  live := fun _ h => nomatch h

/-- The cache size of a mounted drive, as a product. -/
theorem Sound.size {img : Image} (h : Sound img) {b : Block} (hb : img.cache = some b) :
    img.cacheSize = img.tracks * img.sides * diskSectors * diskSectorSize := by
  rw [(h.live b hb).2, geometrySize, h.sectorSize, h.perTrack]
  rcases h.sides with hs | hs
  · rw [if_neg (by omega), hs, Nat.mul_one]
  · rw [if_pos hs, hs]
    ring

theorem Sound.markDirty {img : Image} (h : Sound img) (off len : Nat) :
    Sound (svDiskMarkDirty img off len) :=
  ⟨h.sectorSize, h.perTrack, h.sides, h.mounted, h.live⟩

theorem Sound.storedImage {img : Image} (h : Sound img) (off : Nat) (buf : Nat → Byte) :
    Sound (storedImage img off buf) := by
  have hcopy : Sound { img with cache := copyIn img.cache off img.sectorSize buf } := by
    refine ⟨h.sectorSize, h.perTrack, h.sides, ?_, fun b hb => ?_⟩
    · rw [copyIn, Option.isSome_map]
      exact h.mounted
    · obtain ⟨b', hb', rfl⟩ := Option.map_eq_some_iff.mp hb
      exact h.live b' hb'
  exact hcopy.markDirty off img.sectorSize

/-- A range inside the cache size is inside the block. -/
theorem Sound.copyDefined {img : Image} (h : Sound img) {off len : Nat}
    (hc : img.cache.isSome = true) (hin : off + len ≤ img.cacheSize) :
    copyDefined img.cache off len = true := by
  obtain ⟨b, hb⟩ := Option.isSome_iff_exists.mp hc
  rw [hb, Disk.copyDefined, (h.live b hb).1]
  exact decide_eq_true hin

/-! ## Flush and eject -/

theorem flushLoop_wild (io : FlushIo) (cache : Block) {fuel pos remaining : Nat} (h : Handle)
    (hin : pos + remaining ≤ cache.size) :
    (flushLoop io cache fuel pos remaining h).wild = h.wild := by
  induction fuel generalizing pos remaining h with
  | zero => rfl
  | succ fuel ih =>
    unfold flushLoop
    split
    · rfl
    · have hchunk : copyDefined (some cache) pos (min bounceSize remaining) = true :=
        decide_eq_true (by omega)
      dsimp only
      rw [hchunk]
      split
      · exact Bool.or_false _
      · rw [ih _ (by omega)]
        exact Bool.or_false _

theorem flushRun_wild (io : FlushIo) {img : Image} {cache : Block} (first count : Nat)
    (h : Handle) (hsize : cache.size = img.cacheSize) :
    (flushRun io img cache first count h).wild = h.wild := by
  unfold flushRun
  dsimp only
  by_cases hpos : first * diskSectorSize ≤ img.cacheSize
  · rw [flushLoop_wild io cache _ (by omega)]
    split <;> rfl
  · have hzero : min (count * diskSectorSize) (img.cacheSize - first * diskSectorSize) = 0 := by
      omega
    rw [hzero]
    dsimp only [flushLoop]
    split <;> rfl

theorem flushScan_wild (io : FlushIo) {img : Image} {cache : Block} (map : Nat → Bool)
    (nsec : Nat) {fuel s : Nat} (h : Handle) (hsize : cache.size = img.cacheSize) :
    (flushScan io img cache map nsec fuel s h).wild = h.wild := by
  induction fuel generalizing s h with
  | zero => rfl
  | succ fuel ih =>
    unfold flushScan
    split
    · rfl
    · split
      · dsimp only
        rw [ih, flushRun_wild io _ _ h hsize]
      · exact ih h

theorem flushFile_wild (io : FlushIo) {img : Image} {cache : Block} (h : Handle)
    (hsize : cache.size = img.cacheSize) : (flushFile io img cache h).wild = h.wild := by
  unfold flushFile
  dsimp only
  split
  · exact flushRun_wild io _ _ h hsize
  · exact flushScan_wild io _ _ h hsize

theorem flushTarget_cache {io : FlushIo} {s : Store} {cache : Block} {file : SdFile}
    (h : flushTarget io s = some (cache, file)) :
    s.img.cache = some cache ∧ s.card s.img.path = some file := by
  unfold flushTarget at h
  split at h
  · split at h
    · rename_i hc hf
      cases h
      exact ⟨hc, hf⟩
    · cases h
  · cases h

theorem svDiskFlush_sound (io : FlushIo) {s : Store} (h : Sound s.img) :
    Sound (svDiskFlush io s).img ∧ (svDiskFlush io s).wild = s.wild := by
  unfold svDiskFlush
  split
  · exact ⟨h, rfl⟩
  · rename_i cache file htarget
    refine ⟨⟨h.sectorSize, h.perTrack, h.sides, h.mounted, h.live⟩, ?_⟩
    dsimp only
    rw [flushFile_wild io _ (h.live cache (flushTarget_cache htarget).1).1]
    exact Bool.or_false _

/-- A drive without an image. -/
structure Vacant (img : Image) : Prop where
  mounted : img.mounted = false
  cache : img.cache = none

theorem Sound.vacant {img : Image} (h : Sound img) (hm : img.mounted = false) : Vacant img :=
  ⟨hm, Option.isNone_iff_eq_none.mp (by rw [← Option.not_isSome, ← h.mounted, hm]; rfl)⟩

theorem svDiskEject_sound (io : FlushIo) {s : Store} (h : Sound s.img) :
    Sound (svDiskEject io s).img ∧ (svDiskEject io s).wild = s.wild ∧
      Vacant (svDiskEject io s).img := by
  unfold svDiskEject
  split
  · dsimp only
    split
    · obtain ⟨hs, hw⟩ := svDiskFlush_sound io h
      exact ⟨⟨hs.sectorSize, hs.perTrack, hs.sides, rfl, fun _ hb => nomatch hb⟩, hw, rfl, rfl⟩
    · exact ⟨⟨h.sectorSize, h.perTrack, h.sides, rfl, fun _ hb => nomatch hb⟩, rfl, rfl, rfl⟩
  · rename_i hm
    exact ⟨h, rfl, h.vacant (by simpa using hm)⟩

/-! ## Mount -/

theorem setTracks_spec (linear : Nat) {img : Image} (hs : img.sides = 1 ∨ img.sides = 2) :
    (setTracks linear img).2.sectorSize = img.sectorSize ∧
      (setTracks linear img).2.sectorsPerTrack = img.sectorsPerTrack ∧
      ((setTracks linear img).2.sides = 1 ∨ (setTracks linear img).2.sides = 2) ∧
      (setTracks linear img).2.mounted = img.mounted ∧
      (setTracks linear img).2.cache = img.cache := by
  unfold setTracks
  split
  · exact ⟨rfl, rfl, hs, rfl, rfl⟩
  · split
    · exact ⟨rfl, rfl, hs, rfl, rfl⟩
    · split
      · exact ⟨rfl, rfl, .inr rfl, rfl, rfl⟩
      · exact ⟨rfl, rfl, .inl rfl, rfl, rfl⟩

theorem detectGeometry_sound (img : Image) (hs : img.sides = 1 ∨ img.sides = 2) :
    (svDiskDetectGeometry img).2.sectorSize = diskSectorSize ∧
      (svDiskDetectGeometry img).2.sectorsPerTrack = diskSectors ∧
      ((svDiskDetectGeometry img).2.sides = 1 ∨ (svDiskDetectGeometry img).2.sides = 2) ∧
      (svDiskDetectGeometry img).2.mounted = img.mounted ∧
      (svDiskDetectGeometry img).2.cache = img.cache := by
  unfold svDiskDetectGeometry
  generalize imageData img / (diskSectors * diskSectorSize) = linear
  exact setTracks_spec linear hs

/-- What a mount goes through before the drive is mounted: a vacant drive that is sound
but for its cache size. -/
structure Opening (img : Image) : Prop where
  sectorSize : img.sectorSize = diskSectorSize
  perTrack : img.sectorsPerTrack = diskSectors
  sides : img.sides = 1 ∨ img.sides = 2
  vacant : Vacant img

theorem Opening.sound {img : Image} (h : Opening img) : Sound img := by
  refine ⟨h.sectorSize, h.perTrack, h.sides, ?_, fun b hb => ?_⟩
  · rw [h.vacant.mounted, h.vacant.cache]
    rfl
  · rw [h.vacant.cache] at hb
    cases hb

theorem mountSized_sound (io : MountIo) (file : SdFile) {img : Image} (h : Opening img) :
    Sound (mountSized io file img).2 ∧
      ((mountSized io file img).1 = false → Vacant (mountSized io file img).2) := by
  unfold mountSized
  split
  · refine ⟨⟨h.sectorSize, h.perTrack, h.sides, rfl, fun b hb => ?_⟩, fun hfail => nomatch hfail⟩
    cases hb
    exact ⟨rfl, rfl⟩
  · exact ⟨⟨h.sectorSize, h.perTrack, h.sides, h.vacant.mounted, fun b hb => nomatch hb⟩,
      fun _ => ⟨h.vacant.mounted, rfl⟩⟩

/-- Opening the file touches neither the geometry nor the cache. -/
theorem openedImage_spec (path : List Char) (file : SdFile) (img : Image) :
    (openedImage path file img).sides = img.sides ∧
      (openedImage path file img).mounted = img.mounted ∧
      (openedImage path file img).cache = img.cache := by
  unfold openedImage
  exact ⟨rfl, rfl, rfl⟩

/-- A mount of a vacant drive ends in a sound image; where it fails, in a vacant one. -/
theorem mountFile_sound (io : MountIo) (path : List Char) (file : SdFile) {img : Image}
    (h : Sound img) (hv : Vacant img) :
    Sound (mountFile io path file img).2 ∧
      ((mountFile io path file img).1 = false → Vacant (mountFile io path file img).2) := by
  obtain ⟨hsides, hmounted, hcache⟩ := openedImage_spec path file img
  unfold mountFile
  generalize openedImage path file img = opened at hsides hmounted hcache ⊢
  obtain ⟨hsz, hper, hsd, hm, hc⟩ := detectGeometry_sound opened (by rw [hsides]; exact h.sides)
  have hopening : Opening (svDiskDetectGeometry opened).2 :=
    ⟨hsz, hper, hsd, by rw [hm, hmounted, hv.mounted], by rw [hc, hcache, hv.cache]⟩
  generalize svDiskDetectGeometry opened = r at hopening ⊢
  dsimp only
  split
  · exact mountSized_sound io file hopening
  · exact ⟨hopening.sound, fun _ => hopening.vacant⟩

theorem ejectFirst_sound (io : MountIo) {s : Store} (h : Sound s.img) :
    Sound (ejectFirst io s).img ∧ (ejectFirst io s).wild = s.wild ∧
      Vacant (ejectFirst io s).img := by
  unfold ejectFirst
  split
  · exact svDiskEject_sound io.eject h
  · rename_i hm
    exact ⟨h, rfl, h.vacant (by simpa using hm)⟩

theorem mountLocked_sound (io : MountIo) (path : List Char) {s : Store} (h : Sound s.img) :
    Sound (mountLocked io path s).2.img ∧ (mountLocked io path s).2.wild = s.wild ∧
      ((mountLocked io path s).1 = false → Vacant (mountLocked io path s).2.img) := by
  obtain ⟨hsound, hwild, hvac⟩ := ejectFirst_sound io h
  unfold mountLocked
  dsimp only
  split
  · exact ⟨hsound, hwild, fun _ => hvac⟩
  · rename_i file _
    obtain ⟨hmount, hfail⟩ := mountFile_sound io path file hsound hvac
    exact ⟨hmount, hwild, hfail⟩

/-! ## Runs -/

/-- Every drive is sound. -/
def SoundDrives (c : Controller) : Prop := ∀ d, Sound (c.fdc.drives d)

/-- The controller after `sv_disk_init`, with some card. -/
def powerOn (card : Card) : Controller := { card := card }

/-- A card with one image of one track. -/
def oneTrackCard : Card :=
  fun path => if path = ['/', 'a', '.', 'd', 's', 'k'] then some ⟨4608, fun _ => 0⟩ else none

theorem powerOn_sound (card : Card) : SoundDrives (powerOn card) := fun _ => .init

/-- A load finds the cache of the selected drive allocated. -/
def LoadsLive (e : Event) (c : Controller) : Prop :=
  ∀ off, e.load c.fdc = some off → c.fdc.selected.cache.isSome = true

theorem SoundDrives.of_same {c c' : Controller} (h : SoundDrives c) (hs : SameDisks c c') :
    SoundDrives c' := fun d => by rw [hs.drives]; exact h d

theorem SoundDrives.update {c : Controller} (h : SoundDrives c) {d : Drive} {img : Image}
    (hi : Sound img) (d' : Drive) : Sound (Function.update c.fdc.drives d img d') := by
  by_cases hd : d' = d
  · rw [hd, Function.update_self]
    exact hi
  · rw [Function.update_of_ne hd]
    exact h d'

theorem storeOffset_spec {f : Fdc} {sector : Byte} {off : Nat}
    (h : f.storeOffset sector = some off) :
    f.offset sector = some off ∧ f.selected.cache.isSome = true ∧
      off + f.selected.sectorSize ≤ f.selected.cacheSize := by
  unfold Fdc.storeOffset at h
  split at h
  · rename_i off' hoff
    split at h
    · rename_i hcond
      obtain ⟨hc, hin⟩ := Bool.and_eq_true_iff.mp hcond
      cases h
      exact ⟨hoff, hc, of_decide_eq_true hin⟩
    · cases h
  · cases h

/-- A store is guarded by the cache and its size, so it never goes astray. -/
theorem Stored.sound {cm : Commit} {c c' : Controller} (h : SoundDrives c)
    (hs : Stored cm c c') : SoundDrives c' ∧ c'.wild = c.wild := by
  cases hoff : c.fdc.storeOffset cm.sector with
  | none =>
    refine ⟨fun d => ?_, ?_⟩
    · rw [hs.drives, Fdc.storedDrives, hoff]
      exact h d
    · rw [hs.wild, Fdc.storeAstray, hoff, Bool.or_false]
  | some off =>
    obtain ⟨_, hc, hin⟩ := storeOffset_spec hoff
    have hsel : Sound c.fdc.selected := h _
    refine ⟨fun d => ?_, ?_⟩
    · rw [hs.drives, Fdc.storedDrives, hoff]
      exact h.update (hsel.storedImage off cm.buf) d
    · rw [hs.wild, Fdc.storeAstray, hoff]
      dsimp only
      rw [hsel.copyDefined hc hin]
      exact Bool.or_false _

theorem loadOffset_spec {f : Fdc} {off : Nat} (h : f.loadOffset = some off) :
    f.offset f.regs.sector = some off ∧ off + f.selected.sectorSize ≤ f.selected.cacheSize := by
  unfold Fdc.loadOffset at h
  split at h
  · rename_i off' hoff
    split at h
    · rename_i hin
      cases h
      exact ⟨hoff, of_decide_eq_true hin⟩
    · cases h
  · cases h

theorem Event.load_offset {e : Event} {f : Fdc} {off : Nat} (h : e.load f = some off) :
    f.loadOffset = some off := by
  cases e with
  | read address =>
    unfold Event.load at h
    dsimp only at h
    split at h
    · exact h
    · cases h
  | write address value => cases h
  | tick => cases h
  | mount d path io => cases h
  | eject d io => cases h
  | flush d io => cases h

/-- A load goes astray exactly when there is no cache. -/
theorem copyFromCache_wild {c : Controller} (h : SoundDrives c) {off : Nat}
    (hoff : c.fdc.loadOffset = some off) :
    (copyFromCache off c).wild = (c.wild || !c.fdc.selected.cache.isSome) := by
  have hsel : Sound c.fdc.selected := h _
  unfold copyFromCache
  cases hc : c.fdc.selected.cache with
  | none => exact (Bool.or_true _).symm
  | some b =>
    have hdef := hsel.copyDefined (by rw [hc]; rfl) (loadOffset_spec hoff).2
    rw [hc] at hdef
    dsimp only
    rw [hdef]
    rfl

theorem copyFromCache_drives (off : Nat) (c : Controller) :
    (copyFromCache off c).fdc.drives = c.fdc.drives ∧ (copyFromCache off c).card = c.card := by
  unfold copyFromCache
  split <;> exact ⟨rfl, rfl⟩

theorem withDrive_sound {d : Drive} {g : Store → Store} {c : Controller} (h : SoundDrives c)
    (hg : ∀ s : Store, Sound s.img → Sound (g s).img ∧ (g s).wild = s.wild) :
    SoundDrives (withDrive d g c) ∧ (withDrive d g c).wild = c.wild := by
  obtain ⟨hsound, hwild⟩ := hg ⟨c.fdc.drives d, c.card, c.wild⟩ (h d)
  exact ⟨fun d' => h.update hsound d', hwild⟩

/-- One event: the drives stay sound, and a copy goes astray exactly when a load finds
no cache. -/
theorem Event.step_sound (e : Event) {c : Controller} (h : SoundDrives c) :
    SoundDrives (e.step c) ∧ (c.wild = false → ((e.step c).wild = false ↔ LoadsLive e c)) := by
  cases hl : e.load c.fdc with
  | some off =>
    have hstep := e.step_load hl
    obtain ⟨hdrives, _⟩ := copyFromCache_drives off c
    refine ⟨fun d => ?_, fun hw => ?_⟩
    · rw [hstep.drives, hdrives]
      exact h d
    · rw [hstep.wild, copyFromCache_wild h (Event.load_offset hl), hw, Bool.false_or]
      constructor
      · intro hlive off' _
        simpa using hlive
      · intro hlive
        simpa using hlive off hl
  | none =>
    have hlive : LoadsLive e c := fun off hoff => by
      rw [hl] at hoff
      cases hoff
    have hkeep : SoundDrives (e.step c) ∧ (e.step c).wild = c.wild := by
      cases hc : e.commit c.fdc with
      | some cm => exact (e.step_commit hc).sound h
      | none =>
        cases hg : e.isGuest with
        | true =>
          have hsame := e.step_same hg hl hc
          exact ⟨h.of_same hsame, hsame.wild⟩
        | false =>
          cases e with
          | read address => cases hg
          | write address value => cases hg
          | tick => cases hg
          | mount d path io =>
            exact withDrive_sound h fun s hs =>
              ⟨(mountLocked_sound io path hs).1, (mountLocked_sound io path hs).2.1⟩
          | eject d io =>
            exact withDrive_sound h fun s hs =>
              ⟨(svDiskEject_sound io hs).1, (svDiskEject_sound io hs).2.1⟩
          | flush d io => exact withDrive_sound h fun s hs => svDiskFlush_sound io hs
    refine ⟨hkeep.1, fun hw => ?_⟩
    rw [hkeep.2, hw]
    exact iff_of_true rfl hlive

theorem runAll_sound {es : List Event} {c : Controller} (h : SoundDrives c) :
    SoundDrives (runAll Event.step es c) := by
  induction es generalizing c with
  | nil => exact h
  | cons e es ih => exact ih (e.step_sound h).1

end CocoEmulator.Disk
