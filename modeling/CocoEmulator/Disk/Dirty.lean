/-
  Disk/Dirty.lean --- what the dirty marks say about the file.

  The marks are sound (`Faithful`): a byte of a mounted cache whose sector is not
  marked is in the image file.  Stores keep this by marking what they change; a
  flush clears every mark once the file is open, so it keeps it only if everything
  marked was written.

      flushFile_writes      what a flush writes when no call fails
      dirty_tracking_exact  the marks stay sound along every run whose flushes write
                            all they were asked to
-/
import CocoEmulator.Disk.RoundTrip

set_option autoImplicit false

namespace CocoEmulator.Disk

open CocoEmulator.Base CocoEmulator.Cpu

/-! ## Marks -/

/-- Is this sector marked?  Without a bitmap the whole image is. -/
def Image.marked (img : Image) (s : Nat) : Bool :=
  match img.dirtyMap with
  | none => true
  | some map => map s

/-- The byte at this offset is not marked for writing. -/
def Image.Clean (img : Image) (i : Nat) : Prop :=
  ¬(img.dirty = true ∧ img.marked (i / diskSectorSize) = true)

/-- The byte of the cache is in the file the image remembers. -/
def InFile (card : Card) (img : Image) (b : Block) (i : Nat) : Prop :=
  ∃ file, card img.path = some file ∧ img.headerSize + i < file.size ∧
    file.byte (img.headerSize + i) = b.byte i

/-- The law of the marks. -/
def Faithful (card : Card) (img : Image) : Prop :=
  ∀ b i, img.mounted = true → img.cache = some b → i < img.cacheSize → img.Clean i →
    InFile card img b i

theorem Faithful.congr {card card' : Card} {img : Image} (h : Faithful card img)
    (hc : card' img.path = card img.path) : Faithful card' img := by
  intro b i hm hb hi hclean
  obtain ⟨file, hfile, hsize, hbyte⟩ := h b i hm hb hi hclean
  exact ⟨file, hc.trans hfile, hsize, hbyte⟩

theorem Faithful.of_unmounted {card : Card} {img : Image} (h : img.mounted = false) :
    Faithful card img := fun _ _ hm => absurd (h.symm.trans hm) Bool.false_ne_true

/-! ## What a flush writes -/

/-- The calls a flush makes for what is marked all succeed: seeks, and writes, which may
be short but move something. -/
structure FlushIo.Completes (io : FlushIo) (img : Image) : Prop where
  seeks : ∀ s, img.marked s = true → s * diskSectorSize < img.cacheSize → io.seeks s = true
  wrote : ∀ pos, img.marked (pos / diskSectorSize) = true → pos < img.cacheSize → 0 < io.wrote pos

/-- From `f` to `f'` the bytes in `P` were written from the cache, and no other byte of the
image changed. -/
structure Writes (img : Image) (cache : Block) (P : Nat → Prop) (f f' : SdFile) : Prop where
  wrote : ∀ i, P i → f'.byte (img.headerSize + i) = cache.byte i ∧ img.headerSize + i < f'.size
  kept : ∀ i, ¬P i → f'.byte (img.headerSize + i) = f.byte (img.headerSize + i)
  grows : f.size ≤ f'.size

theorem Writes.none {img : Image} {cache : Block} {P : Nat → Prop} {f : SdFile}
    (h : ∀ i, ¬P i) : Writes img cache P f f :=
  ⟨fun i hi => absurd hi (h i), fun _ _ => rfl, Nat.le_refl _⟩

theorem Writes.congr {img : Image} {cache : Block} {P R : Nat → Prop} {f f' : SdFile}
    (h : Writes img cache P f f') (hr : ∀ i, R i ↔ P i) : Writes img cache R f f' :=
  ⟨fun i hi => h.wrote i ((hr i).mp hi), fun i hi => h.kept i fun hp => hi ((hr i).mpr hp),
    h.grows⟩

theorem Writes.trans {img : Image} {cache : Block} {P Q R : Nat → Prop} {f f' f'' : SdFile}
    (h : Writes img cache P f f') (h' : Writes img cache Q f' f'') (hr : ∀ i, R i ↔ P i ∨ Q i) :
    Writes img cache R f f'' := by
  refine ⟨fun i hi => ?_, fun i hi => ?_, Nat.le_trans h.grows h'.grows⟩
  · by_cases hq : Q i
    · exact h'.wrote i hq
    · have hp : P i := ((hr i).mp hi).resolve_right hq
      obtain ⟨hbyte, hsize⟩ := h.wrote i hp
      exact ⟨(h'.kept i hq).trans hbyte, Nat.lt_of_lt_of_le hsize h'.grows⟩
  · have hp : ¬P i := fun hp => hi ((hr i).mpr (.inl hp))
    have hq : ¬Q i := fun hq => hi ((hr i).mpr (.inr hq))
    exact (h'.kept i hq).trans (h.kept i hp)

/-- The write loop, when no call returns nothing: a copy. -/
theorem flushLoop_file (io : FlushIo) (cache : Block) {fuel pos remaining : Nat} (h : Handle)
    (hfuel : remaining ≤ fuel) (hw : ∀ p, pos ≤ p → p < pos + remaining → 0 < io.wrote p) :
    (flushLoop io cache fuel pos remaining h).file.byte =
        splice h.file.byte h.pos remaining (fun k => cache.byte (pos + k)) ∧
      h.file.size ≤ (flushLoop io cache fuel pos remaining h).file.size ∧
      (0 < remaining →
        h.pos + remaining ≤ (flushLoop io cache fuel pos remaining h).file.size) := by
  induction fuel generalizing pos remaining h with
  | zero =>
    have hzero : remaining = 0 := by omega
    rw [hzero, splice_zero]
    exact ⟨rfl, Nat.le_refl _, fun hpos => absurd hpos (Nat.lt_irrefl 0)⟩
  | succ fuel ih =>
    unfold flushLoop
    by_cases hzero : remaining = 0
    · rw [if_pos hzero, hzero, splice_zero]
      exact ⟨rfl, Nat.le_refl _, fun hpos => absurd hpos (Nat.lt_irrefl 0)⟩
    · have hpos := hw pos (Nat.le_refl _) (by omega)
      have hsome : 0 < min (io.wrote pos) (min bounceSize remaining) := by
        unfold bounceSize
        omega
      have hle : min (io.wrote pos) (min bounceSize remaining) ≤ remaining := by omega
      rw [if_neg hzero]
      dsimp only
      generalize min (io.wrote pos) (min bounceSize remaining) = n at hsome hle ⊢
      rw [if_neg (by omega)]
      obtain ⟨hbyte, hgrow, hend⟩ := @ih (pos + n) (remaining - n)
        (Handle.write { h with
          wild := h.wild || !copyDefined (some cache) pos (min bounceSize remaining) } n
          fun k => cache.byte (pos + k)) (by omega)
        fun p hp hp' => hw p (by omega) (by omega)
      refine ⟨?_, ?_, fun _ => ?_⟩
      · rw [hbyte]
        dsimp only [Handle.write]
        have hassoc : (fun k => cache.byte (pos + n + k)) = fun k => cache.byte (pos + (n + k)) := by
          funext k
          rw [Nat.add_assoc]
        have hsum : n + (remaining - n) = remaining := by omega
        have hjoin := @splice_append _ h.file.byte (fun k => cache.byte (pos + k)) h.pos n
          (remaining - n)
        rw [hassoc]
        rw [hsum] at hjoin
        exact hjoin
      · exact Nat.le_trans (Nat.le_max_left _ _) hgrow
      · by_cases hlast : remaining - n = 0
        · have hmax : h.pos + n ≤ max h.file.size (h.pos + n) := Nat.le_max_right _ _
          have hgrow' := Nat.le_trans hmax hgrow
          omega
        · calc h.pos + remaining = h.pos + n + (remaining - n) := by omega
            _ ≤ _ := hend (by omega)

theorem flushRun_writes (io : FlushIo) (img : Image) (cache : Block) (first count : Nat)
    (h : Handle) (hs : io.seeks first = true)
    (hw : ∀ p, first * diskSectorSize ≤ p → p < (first + count) * diskSectorSize →
      p < img.cacheSize → 0 < io.wrote p) :
    Writes img cache (fun i => first * diskSectorSize ≤ i ∧
      i < (first + count) * diskSectorSize ∧ i < img.cacheSize) h.file
      (flushRun io img cache first count h).file := by
  unfold flushRun
  dsimp only
  rw [if_pos hs]
  have hsum : (first + count) * diskSectorSize =
      first * diskSectorSize + count * diskSectorSize := Nat.add_mul _ _ _
  rw [hsum] at hw ⊢
  generalize first * diskSectorSize = pos at hw ⊢
  generalize count * diskSectorSize = len at hw ⊢
  obtain ⟨hbyte, hgrow, hend⟩ := flushLoop_file io cache
    { h with pos := img.headerSize + pos } (Nat.le_refl (min len (img.cacheSize - pos)))
    fun p hp hp' => hw p hp (by omega) (by omega)
  refine ⟨fun i hi => ?_, fun i hi => ?_, hgrow⟩
  · obtain ⟨hlow, hhigh, hin⟩ := hi
    have hend' := hend (by omega)
    dsimp only at hend'
    refine ⟨?_, by omega⟩
    rw [hbyte, splice_in (by dsimp only; omega) (by dsimp only; omega)]
    congr 1
    dsimp only
    omega
  · rw [hbyte]
    exact splice_out (by dsimp only; omega)

theorem runEnd_spec (map : Nat → Bool) (fuel s : Nat) :
    s ≤ runEnd map fuel s ∧ runEnd map fuel s ≤ s + fuel ∧
      ∀ t, s ≤ t → t < runEnd map fuel s → map t = true := by
  induction fuel generalizing s with
  | zero => exact ⟨Nat.le_refl _, Nat.le_refl _, fun t ht ht' => absurd ht' (by
      dsimp only [runEnd]
      omega)⟩
  | succ fuel ih =>
    unfold runEnd
    split
    · rename_i hs
      obtain ⟨hlow, hhigh, hall⟩ := ih (s + 1)
      refine ⟨by omega, by omega, fun t ht ht' => ?_⟩
      by_cases heq : t = s
      · rw [heq]
        exact hs
      · exact hall t (by omega) ht'
    · exact ⟨Nat.le_refl _, by omega, fun t ht ht' => absurd ht' (by omega)⟩

/-- One run after the other. -/
theorem flushScan_writes (io : FlushIo) (img : Image) (cache : Block) (map : Nat → Bool)
    {nsec fuel s : Nat} (h : Handle) (hfuel : nsec ≤ s + fuel)
    (hs : ∀ t, map t = true → t < nsec → io.seeks t = true)
    (hw : ∀ p, map (p / diskSectorSize) = true → p < img.cacheSize → 0 < io.wrote p)
    (hsize : img.cacheSize = nsec * diskSectorSize) :
    Writes img cache (fun i => s ≤ i / diskSectorSize ∧ i < img.cacheSize ∧
      map (i / diskSectorSize) = true) h.file
      (flushScan io img cache map nsec fuel s h).file := by
  have hdiv : ∀ i, i < img.cacheSize → i / diskSectorSize < nsec := fun i hi =>
    Nat.div_lt_of_lt_mul (by rw [Nat.mul_comm, ← hsize]; exact hi)
  induction fuel generalizing s h with
  | zero =>
    refine .none fun i hi => ?_
    have hlt := hdiv i hi.2.1
    omega
  | succ fuel ih =>
    unfold flushScan
    split
    · rename_i hend
      refine .none fun i hi => ?_
      have hlt := hdiv i hi.2.1
      omega
    · rename_i hmore
      split
      · rename_i hmark
        -- the run of marked sectors from here to `e`, then the rest
        dsimp only
        obtain ⟨hlow, hhigh, hall⟩ := runEnd_spec map (nsec - s) s
        have hgt : s < runEnd map (nsec - s) s := by
          obtain ⟨fuel', hfuel'⟩ : ∃ fuel', nsec - s = fuel' + 1 := ⟨nsec - s - 1, by omega⟩
          rw [hfuel']
          unfold runEnd
          rw [if_pos hmark]
          have hnext := (runEnd_spec map fuel' (s + 1)).1
          omega
        generalize runEnd map (nsec - s) s = e at hlow hhigh hall hgt ⊢
        have hrange : ∀ p, s * diskSectorSize ≤ p → p < (s + (e - s)) * diskSectorSize →
            s ≤ p / diskSectorSize ∧ p / diskSectorSize < e := by
          intro p hp hp'
          rw [Nat.add_sub_cancel' hlow] at hp'
          exact ⟨(Nat.le_div_iff_mul_le (by decide)).mpr hp,
            Nat.div_lt_of_lt_mul (by rw [Nat.mul_comm]; exact hp')⟩
        have hrun := flushRun_writes io img cache s (e - s) h (hs s hmark (by omega)) fun p hp hp' hin => by
            obtain ⟨hge, hlt⟩ := hrange p hp hp'
            exact hw p (hall _ hge hlt) hin
        refine hrun.trans (@ih e _ (by omega)) fun i => ?_
        constructor
        · rintro ⟨hge, hin, hmap⟩
          by_cases hlt : i / diskSectorSize < e
          · refine .inl ⟨(Nat.le_div_iff_mul_le (by decide)).mp hge, ?_, hin⟩
            rw [Nat.add_sub_cancel' hlow]
            exact (Nat.div_lt_iff_lt_mul (by decide)).mp hlt
          · exact .inr ⟨by omega, hin, hmap⟩
        · rintro (⟨hp, hp', hin⟩ | ⟨hge, hin, hmap⟩)
          · obtain ⟨hge, hlt⟩ := hrange i hp hp'
            exact ⟨hge, hin, hall _ hge hlt⟩
          · exact ⟨by omega, hin, hmap⟩
      · rename_i hmark
        refine (@ih (s + 1) h (by omega)).congr fun i => ?_
        constructor
        · rintro ⟨hge, hin, hmap⟩
          refine ⟨?_, hin, hmap⟩
          by_contra hlt
          have heq : i / diskSectorSize = s := by omega
          rw [heq] at hmap
          exact hmark hmap
        · rintro ⟨hge, hin, hmap⟩
          exact ⟨by omega, hin, hmap⟩

/-- A flush in which no call fails writes what is marked. -/
theorem flushFile_writes {io : FlushIo} {img : Image} (cache : Block) (h : Handle)
    (hsize : ∃ n, img.cacheSize = n * diskSectorSize) (hio : io.Completes img) :
    Writes img cache (fun i => i < img.cacheSize ∧ img.marked (i / diskSectorSize) = true) h.file
      (flushFile io img cache h).file := by
  obtain ⟨n, hn⟩ := hsize
  have hnsec : img.cacheSize / diskSectorSize = n := by
    rw [hn]
    exact Nat.mul_div_cancel n (by decide)
  unfold flushFile
  rw [hnsec]
  dsimp only
  cases hmap : img.dirtyMap with
  | none =>
    have hall : ∀ s, img.marked s = true := fun s => by rw [Image.marked, hmap]
    dsimp only
    by_cases hzero : n = 0
    · have hempty : img.cacheSize = 0 := by rw [hn, hzero, Nat.zero_mul]
      have hkeep : (flushRun io img cache 0 n h).file = h.file := by
        unfold flushRun
        dsimp only
        rw [hzero, Nat.zero_mul, Nat.zero_min, flushLoop]
        split <;> rfl
      rw [hkeep]
      exact .none fun i hi => absurd hi.1 (by omega)
    · have hfirst : 0 * diskSectorSize < img.cacheSize := by
        rw [hn]
        exact Nat.mul_lt_mul_of_pos_right (by omega) (by decide)
      have hrun := flushRun_writes io img cache 0 n h (hio.seeks 0 (hall 0) hfirst)
        fun p _ _ hin => hio.wrote p (hall _) hin
      refine hrun.congr fun i => ?_
      constructor
      · rintro ⟨hin, _⟩
        exact ⟨by omega, by rw [Nat.zero_add, ← hn]; exact hin, hin⟩
      · rintro ⟨_, _, hin⟩
        exact ⟨hin, hall _⟩
  | some map =>
    have hmarked : ∀ s, img.marked s = map s := fun s => by rw [Image.marked, hmap]
    dsimp only
    have hscan := flushScan_writes io img cache map h (by omega : n ≤ 0 + n)
      (fun t ht hlt => hio.seeks t (by rw [hmarked]; exact ht) (by
        rw [hn]
        exact Nat.mul_lt_mul_of_pos_right hlt (by decide)))
      (fun p hp hin => hio.wrote p (by rw [hmarked]; exact hp) hin) hn
    refine hscan.congr fun i => ?_
    rw [hmarked]
    exact ⟨fun hi => ⟨Nat.zero_le _, hi⟩, fun hi => hi.2⟩

/-! ## Flush and eject -/

/-- A cache is a whole number of sectors. -/
theorem Sound.sectors {img : Image} (h : Sound img) {b : Block} (hb : img.cache = some b) :
    ∃ n, img.cacheSize = n * diskSectorSize := ⟨_, h.size hb⟩

/-- A flush touches the file of its own drive only. -/
theorem svDiskFlush_card (io : FlushIo) (s : Store) (p : List Char)
    (h : flushTarget io s = none ∨ p ≠ s.img.path) : (svDiskFlush io s).card p = s.card p := by
  unfold svDiskFlush
  split
  · rfl
  · rename_i htarget
    rcases h with hnone | hne
    · rw [htarget] at hnone
      cases hnone
    · exact if_neg hne

/-- A flush that writes all it is asked to keeps the marks sound. -/
theorem svDiskFlush_faithful {io : FlushIo} {s : Store} (hs : Sound s.img)
    (h : Faithful s.card s.img)
    (hio : (flushTarget io s).isSome = true → io.Completes s.img) :
    Faithful (svDiskFlush io s).card (svDiskFlush io s).img := by
  unfold svDiskFlush
  split
  · exact h
  · rename_i cache file htarget
    rw [htarget] at hio
    obtain ⟨hcache, hfile⟩ := flushTarget_cache htarget
    have hwrites := flushFile_writes cache { file := file } (hs.sectors hcache) (hio rfl)
    intro b i hm hb hi _
    have hblock : cache = b := Option.some.inj (hcache.symm.trans hb)
    rw [← hblock]
    refine ⟨(flushFile io s.img cache { file := file }).file, if_pos rfl, ?_⟩
    by_cases hmark : s.img.marked (i / diskSectorSize) = true
    · -- marked: the flush has written it
      obtain ⟨hbyte, hsize⟩ := hwrites.wrote i ⟨hi, hmark⟩
      exact ⟨hsize, hbyte⟩
    · -- not marked: it was in the file before
      obtain ⟨file', hfile', hsize, hbyte⟩ := h cache i hm hcache hi fun hcon => hmark hcon.2
      have hsame : file = file' := Option.some.inj (hfile.symm.trans hfile')
      rw [← hsame] at hsize hbyte
      exact ⟨Nat.lt_of_lt_of_le hsize hwrites.grows,
        (hwrites.kept i fun hcon => hmark hcon.2).trans hbyte⟩

theorem svDiskEject_card (io : FlushIo) (s : Store) (p : List Char)
    (h : flushTarget io s = none ∨ p ≠ s.img.path) : (svDiskEject io s).card p = s.card p := by
  unfold svDiskEject
  split
  · dsimp only
    split
    · exact svDiskFlush_card io s p h
    · rfl
  · rfl

/-! ## Stores -/

/-- A store marks what it changes. -/
theorem Faithful.storedImage {card : Card} {img : Image} (h : Faithful card img)
    (hs : Sound img) (off : Nat) (buf : Nat → Byte) : Faithful card (Disk.storedImage img off buf) := by
  intro b i hm hb hi hclean
  obtain ⟨b', hb', rfl⟩ := Option.map_eq_some_iff.mp hb
  -- a clean byte lies outside the stored sector, and was clean before
  have hmap : (Disk.storedImage img off buf).marked (i / diskSectorSize) = false := by
    cases hm' : (Disk.storedImage img off buf).marked (i / diskSectorSize) with
    | false => rfl
    | true => exact absurd ⟨rfl, hm'⟩ hclean
  have hsize := hs.sectorSize
  unfold Image.marked at hmap
  dsimp only [Disk.storedImage, svDiskMarkDirty] at hmap
  cases hdm : img.dirtyMap with
  | none =>
    rw [hdm] at hmap
    cases hmap
  | some map =>
    rw [hdm] at hmap
    dsimp only [Option.map] at hmap
    obtain ⟨hold, hnew⟩ := Bool.or_eq_false_iff.mp hmap
    have hout : i < off ∨ off + img.sectorSize ≤ i := by
      by_contra hin
      have hlow : off / diskSectorSize ≤ i / diskSectorSize := Nat.div_le_div_right (by omega)
      have hhigh : i / diskSectorSize ≤ (off + img.sectorSize - 1) / diskSectorSize :=
        Nat.div_le_div_right (by omega)
      rw [decide_eq_true hlow, decide_eq_true hhigh, hsize] at hnew
      cases hnew
    have hclean' : img.Clean i := by
      intro hcon
      have hmark := hcon.2
      rw [Image.marked, hdm] at hmark
      exact absurd (hold.symm.trans hmark) Bool.false_ne_true
    obtain ⟨file, hfile, hin, hbyte⟩ := h b' i hm hb' hi hclean'
    refine ⟨file, hfile, hin, hbyte.trans ?_⟩
    exact (splice_out hout).symm

/-! ## Mounts -/

/-- The load reads the whole image, past its header, and the path fits its field. -/
structure MountIo.Loads (io : MountIo) (path : List Char) : Prop where
  path : path.length ≤ 255
  seeks : io.seeks = true
  got : ∀ p, 0 < io.got p

theorem loadLoop_full {io : MountIo} (file : SdFile) (start : Nat) {fuel total remaining : Nat}
    (cache : Nat → Byte) (hfuel : remaining ≤ fuel) (hgot : ∀ p, 0 < io.got p)
    (hsize : start + total + remaining ≤ file.size) :
    loadLoop io file start fuel total remaining cache =
      splice cache total remaining fun k => file.byte (start + total + k) := by
  induction fuel generalizing total remaining cache with
  | zero =>
    have hzero : remaining = 0 := by omega
    rw [hzero, splice_zero]
    rfl
  | succ fuel ih =>
    unfold loadLoop
    split
    · rename_i hzero
      rw [hzero, splice_zero]
    · rename_i hmore
      have hpos := hgot total
      have hsome : 0 < io.read file start total (min bounceSize remaining) := by
        unfold MountIo.read bounceSize
        omega
      have hle : io.read file start total (min bounceSize remaining) ≤ remaining := by
        unfold MountIo.read
        omega
      dsimp only
      generalize io.read file start total (min bounceSize remaining) = n at hsome hle ⊢
      rw [if_neg (by omega), ih _ (by omega) (by omega)]
      have hassoc : (fun k => file.byte (start + (total + n) + k)) =
          fun k => file.byte (start + total + (n + k)) := by
        funext k
        congr 1
        omega
      have hsum : n + (remaining - n) = remaining := by omega
      rw [hassoc, splice_append n (remaining - n), hsum]

theorem sub32_of_le {a b : Nat} (h : b ≤ a) (ha : a < 2 ^ 32) : sub32 a b = a - b := by
  unfold sub32
  omega

theorem sub32_of_lt {a b : Nat} (h : a < b) (hb : b ≤ 2 ^ 32) : sub32 a b = 2 ^ 32 - b + a := by
  unfold sub32
  omega

/-- Data that is a plausible number of tracks lies inside the file, behind the header. -/
theorem imageData_fits {img : Image} (h : img.imageSize < 2 ^ 32)
    (hd : imageData img / (diskSectors * diskSectorSize) ≤ 2 * 255) :
    imageHeader img + imageData img ≤ img.imageSize := by
  unfold imageData imageHeader at hd ⊢
  unfold diskSectors diskSectorSize at hd
  unfold diskSectorSize
  by_cases hvdk : isVdk img.path = true
  · simp only [if_pos hvdk] at hd ⊢
    by_cases hsmall : img.imageSize < 12
    · rw [sub32_of_lt hsmall (by omega), sub32_of_le (by omega) (by omega)] at hd
      omega
    · rw [sub32_of_le (by omega) h] at hd ⊢
      by_cases hsmall' : img.imageSize - 12 < 12
      · rw [sub32_of_lt hsmall' (by omega)] at hd
        omega
      · rw [sub32_of_le (by omega) (by omega)]
        omega
  · simp only [if_neg hvdk]
    have hmod := Nat.mod_le img.imageSize 256
    rw [sub32_of_le hmod h]
    omega

theorem setTracks_fits {linear : Nat} {img : Image} (hper : img.sectorsPerTrack = diskSectors)
    (hsize : img.sectorSize = diskSectorSize) (hok : (setTracks linear img).1 = true) :
    geometrySize (setTracks linear img).2 ≤ linear * (diskSectors * diskSectorSize) ∧
      linear ≤ 2 * 255 := by
  unfold setTracks at hok ⊢
  unfold geometrySize diskSectors diskSectorSize at *
  split at hok
  · cases hok
  · split at hok
    · cases hok
    · rename_i hzero hmany
      rw [if_neg hzero, if_neg hmany]
      split
      · dsimp only
        rw [hper, hsize, if_pos rfl]
        omega
      · dsimp only
        rw [hper, hsize, if_neg (by decide)]
        omega

theorem setTracks_frame (linear : Nat) (img : Image) :
    (setTracks linear img).2.path = img.path ∧ (setTracks linear img).2.dirty = img.dirty ∧
      (setTracks linear img).2.headerSize = img.headerSize := by
  unfold setTracks
  split
  · exact ⟨rfl, rfl, rfl⟩
  · split
    · exact ⟨rfl, rfl, rfl⟩
    · split <;> exact ⟨rfl, rfl, rfl⟩

/-- The geometry the mount accepts lies inside the file, behind the header. -/
theorem detectGeometry_fits {img : Image} (h : img.imageSize < 2 ^ 32)
    (hok : (svDiskDetectGeometry img).1 = true) :
    (svDiskDetectGeometry img).2.headerSize + geometrySize (svDiskDetectGeometry img).2 ≤
        img.imageSize ∧
      (svDiskDetectGeometry img).2.path = img.path ∧
      (svDiskDetectGeometry img).2.dirty = img.dirty := by
  unfold svDiskDetectGeometry at hok ⊢
  have hdata := @imageData_fits img h
  generalize hlinear : imageData img / (diskSectors * diskSectorSize) = linear at hok hdata ⊢
  obtain ⟨hpath, hdirty, hheader⟩ := setTracks_frame linear
    { img with
      headerSize := imageHeader img
      sectorSize := diskSectorSize
      sectorsPerTrack := diskSectors }
  obtain ⟨hfits, hmany⟩ := setTracks_fits rfl rfl hok
  refine ⟨?_, hpath, hdirty⟩
  rw [hheader]
  have hmul : linear * (diskSectors * diskSectorSize) ≤ imageData img := by
    rw [← hlinear]
    exact Nat.div_mul_le_self _ _
  exact Nat.le_trans (Nat.add_le_add_left (Nat.le_trans hfits hmul) _) (hdata hmany)

/-- The loaded cache is the part of the file behind the header. -/
theorem finishMount_faithful {io : MountIo} {path : List Char} {file : SdFile} {card : Card}
    {img : Image} (hio : io.Loads path) (hfile : card img.path = some file)
    (hfits : img.headerSize + img.cacheSize ≤ file.size) :
    Faithful card (finishMount io file img) := by
  intro b i _ hb hi _
  have hstart : (if img.headerSize > 0 && io.seeks then img.headerSize else 0) = img.headerSize := by
    rw [hio.seeks, Bool.and_true]
    split
    · rfl
    · rename_i hzero
      have hnot : ¬img.headerSize > 0 := fun hpos => hzero (decide_eq_true hpos)
      omega
  have hblock : b = ⟨img.cacheSize,
      loadLoop io file img.headerSize img.cacheSize 0 img.cacheSize io.junk⟩ := by
    have hsome := Option.some.inj hb
    rw [← hsome, hstart]
  have hlt : i < img.cacheSize := hi
  refine ⟨file, hfile, ?_, ?_⟩
  · exact Nat.lt_of_lt_of_le (Nat.add_lt_add_left hlt _) hfits
  · rw [hblock]
    dsimp only
    rw [loadLoop_full file img.headerSize io.junk (Nat.le_refl _) hio.got hfits,
      splice_in (Nat.zero_le i) (by rw [Nat.zero_add]; exact hlt)]
    rfl

/-- A mount that loads everything starts with sound marks. -/
theorem mountFile_faithful {io : MountIo} {path : List Char} {file : SdFile} {card : Card}
    {img : Image} (hs : Sound img) (hv : img.mounted = false) (hio : io.Loads path)
    (hfile : card path = some file) : Faithful card (mountFile io path file img).2 := by
  have hpath : (openedImage path file img).path = path := List.take_of_length_le hio.path
  have himage : (openedImage path file img).imageSize < 2 ^ 32 ∧
      (openedImage path file img).imageSize ≤ file.size :=
    ⟨Nat.mod_lt _ (by decide), Nat.mod_le _ _⟩
  obtain ⟨hsides, hmounted, _⟩ := openedImage_spec path file img
  unfold mountFile
  generalize openedImage path file img = opened at hpath himage hsides hmounted ⊢
  have hfits := @detectGeometry_fits opened himage.1
  have hunmounted : (svDiskDetectGeometry opened).2.mounted = false := by
    rw [(detectGeometry_sound opened (by rw [hsides]; exact hs.sides)).2.2.2.1, hmounted, hv]
  generalize svDiskDetectGeometry opened = r at hfits hunmounted ⊢
  dsimp only
  split
  · rename_i hok
    obtain ⟨hsize, hpath', _⟩ := hfits hok
    unfold mountSized
    split
    · refine @finishMount_faithful io path file card { r.2 with cacheSize := geometrySize r.2 } hio
        ?_ ?_
      · exact (congrArg card (hpath'.trans hpath)).trans hfile
      · exact Nat.le_trans hsize himage.2
    · exact .of_unmounted hunmounted
  · exact .of_unmounted hunmounted

/-! ## Runs -/

/-- Drive `d` with the card. -/
def Controller.store (c : Controller) (d : Drive) : Store :=
  { img := c.fdc.drives d, card := c.card, wild := c.wild }

/-- The flush of this drive writes no file that another mounted drive holds. -/
def FlushesAlone (io : FlushIo) (d : Drive) (c : Controller) : Prop :=
  (flushTarget io (c.store d)).isSome = true →
    ∀ d', d' ≠ d → (c.fdc.drives d').mounted = true → (c.fdc.drives d').path ≠ (c.fdc.drives d).path

/-- What the card must do: a flush that opens its file writes all it is asked to, and a
mount loads the whole image. -/
def Event.Persists : Event → Controller → Prop
  | .read _, _ => True
  | .write _ _, _ => True
  | .tick, _ => True
  | .mount d path io, c => FlushesAlone io.eject d c ∧ io.Loads path
  | .eject d io, c => FlushesAlone io d c
  | .flush d io, c => FlushesAlone io d c ∧
      ((flushTarget io (c.store d)).isSome = true → io.Completes (c.fdc.drives d))

/-- The marks of every drive are sound. -/
def FaithfulDrives (c : Controller) : Prop := ∀ d, Faithful c.card (c.fdc.drives d)

theorem FaithfulDrives.of_same {c c' : Controller} (h : FaithfulDrives c)
    (hs : SameDisks c c') : FaithfulDrives c' := fun d => by
  rw [hs.drives, hs.card]
  exact h d

theorem Stored.faithful {cm : Commit} {c c' : Controller} (hs : SoundDrives c)
    (h : FaithfulDrives c) (hst : Stored cm c c') : FaithfulDrives c' := by
  intro d
  rw [hst.card, hst.drives, Fdc.storedDrives]
  cases c.fdc.storeOffset cm.sector with
  | none => exact h d
  | some off =>
    dsimp only
    by_cases hd : d = c.fdc.latch.driveSelect
    · rw [hd, Function.update_self]
      exact (h _).storedImage (hs _) off cm.buf
    · rw [Function.update_of_ne hd]
      exact h d

/-- A function of one drive that changes at most the file this drive remembers. -/
theorem withDrive_faithful {d : Drive} {g : Store → Store} {io : FlushIo} {c : Controller}
    (h : FaithfulDrives c) (halone : FlushesAlone io d c)
    (hg : Faithful (g (c.store d)).card (g (c.store d)).img)
    (hcard : ∀ p, flushTarget io (c.store d) = none ∨ p ≠ (c.store d).img.path →
      (g (c.store d)).card p = c.card p) : FaithfulDrives (withDrive d g c) := by
  intro d'
  dsimp only [withDrive, Fdc.setDrive]
  by_cases hd : d' = d
  · rw [hd, Function.update_self]
    exact hg
  · rw [Function.update_of_ne hd]
    cases hm : (c.fdc.drives d').mounted with
    | false => exact .of_unmounted hm
    | true =>
      refine (h d').congr (hcard _ ?_)
      cases ht : flushTarget io (c.store d) with
      | none => exact .inl rfl
      | some t => exact .inr (halone (by rw [ht]; rfl) d' hd hm)

theorem ejectFirst_card (io : MountIo) (s : Store) (p : List Char)
    (h : flushTarget io.eject s = none ∨ p ≠ s.img.path) : (ejectFirst io s).card p = s.card p := by
  unfold ejectFirst
  split
  · exact svDiskEject_card io.eject s p h
  · rfl

theorem mountLocked_card (io : MountIo) (path : List Char) (s : Store) :
    (mountLocked io path s).2.card = (ejectFirst io s).card := by
  unfold mountLocked
  dsimp only
  split <;> rfl

theorem mountLocked_faithful {io : MountIo} {path : List Char} {s : Store} (hs : Sound s.img)
    (hio : io.Loads path) :
    Faithful (mountLocked io path s).2.card (mountLocked io path s).2.img := by
  obtain ⟨hsound, _, hvacant⟩ := ejectFirst_sound io hs
  unfold mountLocked
  dsimp only
  split
  · exact .of_unmounted hvacant.mounted
  · rename_i file hopen
    split at hopen
    · exact mountFile_faithful hsound hvacant.mounted hio hopen
    · cases hopen

/-- One event keeps the marks sound, if the card does its part. -/
theorem Event.step_faithful {e : Event} {c : Controller} (hs : SoundDrives c)
    (h : FaithfulDrives c) (he : e.Persists c) : FaithfulDrives (e.step c) := by
  cases hl : e.load c.fdc with
  | some off =>
    obtain ⟨hdrives, hcard⟩ := copyFromCache_drives off c
    have hstep := e.step_load hl
    intro d
    rw [hstep.drives, hstep.card, hdrives, hcard]
    exact h d
  | none =>
    cases hc : e.commit c.fdc with
    | some cm => exact (e.step_commit hc).faithful hs h
    | none =>
      cases e with
      | read address => exact h.of_same (Event.step_same rfl hl hc)
      | write address value => exact h.of_same (Event.step_same rfl hl hc)
      | tick => exact h.of_same (Event.step_same rfl hl hc)
      | mount d path io =>
        refine withDrive_faithful h he.1 (mountLocked_faithful (hs d) he.2) fun p hp => ?_
        rw [mountLocked_card]
        exact ejectFirst_card io (c.store d) p hp
      | eject d io =>
        refine withDrive_faithful h he (.of_unmounted ?_) (svDiskEject_card io (c.store d))
        exact (svDiskEject_sound io (s := c.store d) (hs d)).2.2.mounted
      | flush d io =>
        exact withDrive_faithful h he.1 (svDiskFlush_faithful (s := c.store d) (hs d) (h d) he.2)
          (svDiskFlush_card io (c.store d))

theorem powerOn_faithful (card : Card) : FaithfulDrives (powerOn card) :=
  fun _ => .of_unmounted rfl

/-- From power-on, with any card and any events: in every state of the run each byte of a
mounted cache that is not marked for writing is in the image file, if every flush that
opens its file writes all that is marked and no other drive holds that file, and every
mount loads its image. -/
theorem dirty_tracking_exact (card : Card) (es : List Event)
    (h : EachStep Event.step Event.Persists es (powerOn card)) :
    Always Event.step FaithfulDrives es (powerOn card) := by
  have hboth : Always Event.step (fun c => SoundDrives c ∧ FaithfulDrives c) es (powerOn card) :=
    Always.of_step ⟨powerOn_sound card, powerOn_faithful card⟩
      (fun e c hi he => ⟨(e.step_sound hi.1).1, Event.step_faithful hi.1 hi.2 he⟩) h
  exact hboth.imp fun _ hi => hi.2

/-- Sector 1 of the image is filled with `$41`. -/
def fillOne : List Event :=
  mountOne ++ .write 0xFF48 0xA0 :: List.replicate diskSectorSize (.write 0xFF4B 0x41)

/-- The sector is filled and flushed to a card that takes everything. -/
theorem dirty_tracking_exact_flushed :
    Always Event.step FaithfulDrives (fillOne ++ [.flush drive0 {}]) (powerOn oneTrackCard) := by
  have halone : ∀ d', d' ≠ 0 →
      ((runAll Event.step fillOne (powerOn oneTrackCard)).fdc.drives d').mounted = false := by
    decide +kernel
  refine dirty_tracking_exact oneTrackCard _ (eachStep_append.mpr
    ⟨eachStep_append.mpr ⟨⟨⟨fun h => ?_, ?_⟩, trivial, trivial⟩, ?_⟩, ⟨?_, fun _ => ?_⟩, trivial⟩)
  · cases h
  · exact ⟨by decide, rfl, fun _ => Nat.succ_pos 511⟩
  · refine .of_forall fun e he c => ?_
    rcases List.mem_cons.mp he with rfl | he'
    · exact trivial
    · rw [List.eq_of_mem_replicate he']
      exact trivial
  · intro _ d' hd' hm
    exact absurd ((halone d' hd').symm.trans hm) Bool.false_ne_true
  · exact ⟨fun _ _ _ => rfl, fun _ _ _ => Nat.succ_pos 511⟩

/-- The card takes nothing of it at the flush. -/
def fullCardFlush : List Event := fillOne ++ [.flush drive0 { wrote := fun _ => 0 }]

/-- The drive is not marked dirty, the cache holds `$41` and the file zeros. -/
theorem fullCardFlush_loses_marks :
    (((runAll Event.step fullCardFlush (powerOn oneTrackCard)).fdc.drives 0).dirty = false ∧
      ((runAll Event.step fullCardFlush (powerOn oneTrackCard)).fdc.drives 0).cache.map
        (fun b => b.byte 0) = some 0x41 ∧
      ((runAll Event.step fullCardFlush (powerOn oneTrackCard)).card
        ['/', 'a', '.', 'd', 's', 'k']).map (fun f => f.byte 0) = some 0) ∧
    ¬∀ card es, Always Event.step FaithfulDrives es (powerOn card) := by
  have hstate : (((runAll Event.step fullCardFlush (powerOn oneTrackCard)).fdc.drives 0).dirty =
        false ∧
      ((runAll Event.step fullCardFlush (powerOn oneTrackCard)).fdc.drives 0).cache.map
        (fun b => b.byte 0) = some 0x41 ∧
      ((runAll Event.step fullCardFlush (powerOn oneTrackCard)).card
        ['/', 'a', '.', 'd', 's', 'k']).map (fun f => f.byte 0) = some 0) := by
    decide +kernel
  have hdrive : ((runAll Event.step fullCardFlush (powerOn oneTrackCard)).fdc.drives 0).mounted =
        true ∧
      ((runAll Event.step fullCardFlush (powerOn oneTrackCard)).fdc.drives 0).path =
        ['/', 'a', '.', 'd', 's', 'k'] ∧
      ((runAll Event.step fullCardFlush (powerOn oneTrackCard)).fdc.drives 0).headerSize = 0 ∧
      0 < ((runAll Event.step fullCardFlush (powerOn oneTrackCard)).fdc.drives 0).cacheSize := by
    decide +kernel
  refine ⟨hstate, fun hall => ?_⟩
  obtain ⟨hdirty, hcache, hcard⟩ := hstate
  obtain ⟨hmounted, hpath, hheader, hsize⟩ := hdrive
  obtain ⟨b, hb, hbyte⟩ := Option.map_eq_some_iff.mp hcache
  have hclean : ((runAll Event.step fullCardFlush (powerOn oneTrackCard)).fdc.drives 0).Clean 0 :=
    fun hcon => absurd (hdirty.symm.trans hcon.1) Bool.false_ne_true
  obtain ⟨file, hfile, _, hsame⟩ :=
    (hall oneTrackCard fullCardFlush).last 0 b 0 hmounted hb hsize hclean
  rw [hpath] at hfile
  rw [hfile] at hcard
  have hzero : file.byte 0 = 0 := Option.some.inj hcard
  rw [hheader, hzero, hbyte] at hsame
  exact absurd hsame (by decide)

end CocoEmulator.Disk
