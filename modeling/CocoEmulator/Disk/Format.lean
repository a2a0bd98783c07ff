/-
  Disk/Format.lean --- WRITE TRACK from command to last byte.

  The controller reads the format stream as `Decoder` does (`Formatting`), and
  stores each data field it completes on the selected drive, at the track of the
  track register and the side of the latch: the track and the side in the ID field
  are not looked at.

      write_track_decodes   what a formatter encodes is what the drive holds
-/
import CocoEmulator.Disk.RoundTrip
import CocoEmulator.Disk.TrackStream

set_option autoImplicit false

namespace CocoEmulator.Disk

open CocoEmulator.Base CocoEmulator.Cpu

/-! ## Fields on a drive -/

/-- The image with a data field stored, where its number is in range. -/
def Field.store (track side : Nat) (img : Image) (x : Field) : Image :=
  match sectorOffset img track side x.sector.toNat with
  | some off => storedImage img off fun i => x.data.getD i 0
  | none => img

def formatImage (track side : Nat) (fields : List Field) (img : Image) : Image :=
  fields.foldl (Field.store track side) img

/-- The drives with the fields stored on one of them. -/
def formatDrives (d : Drive) (track side : Nat) (fields : List Field) (ds : Drive → Image) :
    Drive → Image := Function.update ds d (formatImage track side fields (ds d))

/-- The data of the last field with a number. -/
def lastData (fields : List Field) (n : Nat) : Option (List Byte) :=
  ((fields.filter fun x => x.sector.toNat == n).getLast?).map Field.data

/-- The byte of the cache at an offset. -/
def cacheByte (img : Image) (i : Nat) : Option Byte :=
  match img.cache with
  | some b => if i < b.size then some (b.byte i) else none
  | none => none

/-- The offset lies in a sector that a field is stored to. -/
def Field.Covers (track side : Nat) (img : Image) (i : Nat) (x : Field) : Prop :=
  let a : Address := ⟨track, side, x.sector.toNat⟩
  a.Inside img ∧ a.index img * diskSectorSize ≤ i ∧
    i < a.index img * diskSectorSize + diskSectorSize

/-- The geometry is as before. -/
structure SameShape (img img' : Image) : Prop where
  mounted : img'.mounted = img.mounted
  tracks : img'.tracks = img.tracks
  sides : img'.sides = img.sides
  perTrack : img'.sectorsPerTrack = img.sectorsPerTrack

theorem formatImage_append (track side : Nat) (fields : List Field) (x : Field) (img : Image) :
    formatImage track side (fields ++ [x]) img =
      Field.store track side (formatImage track side fields img) x := by
  unfold formatImage
  rw [List.foldl_append, List.foldl_cons, List.foldl_nil]

theorem Field.store_inside {track side : Nat} {img : Image} {x : Field}
    (h : Address.Inside ⟨track, side, x.sector.toNat⟩ img) :
    Field.store track side img x =
      storedImage img (Address.index ⟨track, side, x.sector.toNat⟩ img * img.sectorSize)
        fun i => x.data.getD i 0 := by
  have hoff := h.offset
  unfold Address.offset at hoff
  unfold Field.store
  rw [hoff]

theorem Field.store_outside {track side : Nat} {img : Image} {x : Field}
    (h : ¬Address.Inside ⟨track, side, x.sector.toNat⟩ img) : Field.store track side img x = img := by
  have hoff := Address.offset_none h
  unfold Address.offset at hoff
  unfold Field.store
  rw [hoff]

theorem Field.store_shape (track side : Nat) (img : Image) (x : Field) :
    SameShape img (Field.store track side img x) := by
  unfold Field.store
  split <;> exact ⟨rfl, rfl, rfl, rfl⟩

theorem SameShape.inside {img img' : Image} (h : SameShape img img') (a : Address) :
    a.Inside img' ↔ a.Inside img := by
  constructor
  · rintro ⟨htrack, hside, hfirst, hlast⟩
    exact ⟨h.tracks ▸ htrack, h.sides ▸ hside, hfirst, h.perTrack ▸ hlast⟩
  · rintro ⟨htrack, hside, hfirst, hlast⟩
    exact ⟨h.tracks ▸ htrack, h.sides ▸ hside, hfirst, h.perTrack ▸ hlast⟩

theorem SameShape.index {img img' : Image} (h : SameShape img img') (a : Address) :
    a.index img' = a.index img := by
  unfold Address.index
  rw [h.sides, h.perTrack]

theorem formatImage_shape (track side : Nat) (fields : List Field) (img : Image) :
    SameShape img (formatImage track side fields img) := by
  induction fields generalizing img with
  | nil => exact ⟨rfl, rfl, rfl, rfl⟩
  | cons x fields ih =>
    have hone := Field.store_shape track side img x
    have hrest := ih (Field.store track side img x)
    exact ⟨hrest.mounted.trans hone.mounted, hrest.tracks.trans hone.tracks,
      hrest.sides.trans hone.sides, hrest.perTrack.trans hone.perTrack⟩

theorem Field.store_sound {track side : Nat} {img : Image} (h : Sound img) (x : Field) :
    Sound (Field.store track side img x) := by
  unfold Field.store
  split
  · exact h.storedImage _ _
  · exact h

theorem formatImage_sound {track side : Nat} {img : Image} (h : Sound img) (fields : List Field) :
    Sound (formatImage track side fields img) := by
  induction fields generalizing img with
  | nil => exact h
  | cons x fields ih => exact ih (Field.store_sound h x)

/-! ## What a formatted drive holds -/

theorem lastData_append (fields : List Field) (x : Field) (n : Nat) :
    lastData (fields ++ [x]) n =
      if x.sector.toNat = n then some x.data else lastData fields n := by
  unfold lastData
  rw [List.filter_append]
  by_cases hn : x.sector.toNat = n
  · rw [if_pos hn, List.filter_cons_of_pos (by simpa using hn), List.filter_nil,
      List.getLast?_append, List.getLast?_singleton]
    rfl
  · rw [if_neg hn, List.filter_cons_of_neg (by simpa using hn), List.filter_nil, List.append_nil]

/-- One field: its sector holds the data, and the other sectors are as before. -/
theorem Field.store_sectorAt {track side : Nat} {img : Image} (hs : Sound img)
    (hm : img.mounted = true) {x : Field} (hlen : x.data.length = diskSectorSize) (a : Address) :
    sectorAt (Field.store track side img x) a =
      if a = ⟨track, side, x.sector.toNat⟩ ∧ a.Inside img then some x.data
      else sectorAt img a := by
  obtain ⟨b, hb⟩ := Option.isSome_iff_exists.mp (hs.mounted.symm.trans hm)
  by_cases hin : Address.Inside ⟨track, side, x.sector.toNat⟩ img
  · rw [Field.store_inside hin, sectorAt_stored hs hb hin, sectorBytes_getD hlen]
    by_cases ha : a = ⟨track, side, x.sector.toNat⟩
    · rw [if_pos ha, if_pos ⟨ha, by rw [ha]; exact hin⟩]
    · rw [if_neg ha, if_neg fun hcon => ha hcon.1]
  · rw [Field.store_outside hin, if_neg]
    rintro ⟨rfl, ha⟩
    exact hin ha

/-- All fields: a sector of the track holds the last data with its number. -/
theorem formatImage_sectorAt {track side : Nat} {img : Image} (hs : Sound img)
    (hm : img.mounted = true) {fields : List Field}
    (hlen : ∀ x ∈ fields, x.data.length = diskSectorSize) (a : Address) :
    sectorAt (formatImage track side fields img) a =
      if a.track = track ∧ a.side = side ∧ a.Inside img then
        (lastData fields a.sector).or (sectorAt img a)
      else sectorAt img a := by
  induction fields using List.reverseRecOn with
  | nil =>
    split
    · rfl
    · rfl
  | append_singleton fields x ih =>
    have hshape := formatImage_shape track side fields img
    have hbefore := ih fun y hy => hlen y (List.mem_append_left _ hy)
    rw [formatImage_append, Field.store_sectorAt (formatImage_sound hs fields)
      (hshape.mounted.trans hm) (hlen x List.mem_concat_self), hbefore, lastData_append]
    by_cases hplace : a.track = track ∧ a.side = side ∧ a.Inside img
    · have haddr : (a = ⟨track, side, x.sector.toNat⟩ ∧
          a.Inside (formatImage track side fields img)) ↔ x.sector.toNat = a.sector := by
        constructor
        · rintro ⟨heq, _⟩
          rw [heq]
        · intro heq
          refine ⟨?_, (hshape.inside a).mpr hplace.2.2⟩
          rw [← hplace.1, ← hplace.2.1, heq]
      rw [if_pos hplace, if_pos hplace]
      by_cases hn : x.sector.toNat = a.sector
      · rw [if_pos (haddr.mpr hn), if_pos hn]
        rfl
      · rw [if_neg fun hcon => hn (haddr.mp hcon), if_neg hn]
    · rw [if_neg hplace, if_neg hplace, if_neg]
      rintro ⟨rfl, hin⟩
      exact hplace ⟨rfl, rfl, (hshape.inside _).mp hin⟩

theorem Field.store_cacheByte {track side : Nat} {img : Image} (hs : Sound img) {x : Field}
    {i : Nat} (hi : ¬Field.Covers track side img i x) :
    cacheByte (Field.store track side img x) i = cacheByte img i := by
  by_cases hin : Address.Inside ⟨track, side, x.sector.toNat⟩ img
  · rw [Field.store_inside hin, hs.sectorSize]
    unfold cacheByte
    dsimp only [storedImage, svDiskMarkDirty]
    cases img.cache with
    | none => rfl
    | some b =>
      dsimp only [copyIn, Option.map_some]
      rw [splice_out]
      rw [hs.sectorSize]
      by_contra hcon
      exact hi ⟨hin, by omega, by omega⟩
  · rw [Field.store_outside hin]

theorem formatImage_cacheByte {track side : Nat} {img : Image} (hs : Sound img)
    {fields : List Field} {i : Nat} (hi : ∀ x ∈ fields, ¬Field.Covers track side img i x) :
    cacheByte (formatImage track side fields img) i = cacheByte img i := by
  induction fields generalizing img with
  | nil => rfl
  | cons x fields ih =>
    have hshape := Field.store_shape track side img x
    have hone := Field.store_cacheByte hs (hi x List.mem_cons_self)
    refine (ih (Field.store_sound hs x) fun y hy hcover => ?_).trans hone
    refine hi y (List.mem_cons_of_mem x hy) ?_
    unfold Field.Covers at hcover ⊢
    dsimp only at hcover ⊢
    rw [hshape.index, hshape.inside] at hcover
    exact hcover

/-! ## The controller reads the stream -/

def isWriteTrack (cmd : Byte) : Bool := (cmd >>> 4).toNat == 0xF

theorem commandBody_writeTrack {cmd : Byte} (h : isWriteTrack cmd = true) (f : Fdc) :
    commandBody cmd f = writeTrackCommand f := by
  unfold isWriteTrack at h
  unfold commandBody
  rw [eq_of_beq h]
  rfl

/-- WRITE TRACK after `n` bytes, where the decoder stands at `s`. -/
structure Formatting (d : Drive) (a : Address) (ds : Drive → Image) (s : Decoder) (n : Nat)
    (c : Controller) : Prop where
  session : Session d a (formatDrives d a.track a.side s.fields ds) c
  writeTrack : c.fdc.xfer.writeTrack = true
  wt : c.fdc.wt = { s.wt with byteCount := n }
  pos : s.wt.state = .dataField → s.wt.dataPos = s.data.length
  buf : ∀ i, i < s.data.length → c.fdc.xfer.sectorBuf i = s.data.getD i 0
  intrq : c.fdc.flow.intrq = false
  defer : c.fdc.flow.intrqDefer = 0

/-- With no INTRQ due, events aside raise none. -/
theorem Event.Aside.noIntrq {e : Event} {d : Drive} {side : Nat} {c : Controller}
    (h : e.Aside d side) (hi : c.fdc.flow.intrq = false) (hd : c.fdc.flow.intrqDefer = 0) :
    (e.step c).fdc.wt = c.fdc.wt ∧ (e.step c).fdc.flow.intrq = false ∧
      (e.step c).fdc.flow.intrqDefer = 0 := by
  cases e with
  | read address =>
    have haddr : isDataReg address = false := h
    dsimp only [Event.step]
    unfold svDiskRead
    rcases reg_of_not_data haddr with hlow | hreg | hreg | hreg
    · rw [if_pos hlow]
      exact ⟨rfl, hi, hd⟩
    all_goals
      rw [hreg]
      split
      · exact ⟨rfl, hi, hd⟩
      · first | exact ⟨rfl, rfl, hd⟩ | exact ⟨rfl, hi, hd⟩
  | write address value =>
    dsimp only [Event.step]
    unfold svDiskWrite
    rw [if_pos h.1]
    exact ⟨rfl, hi, hd⟩
  | tick =>
    dsimp only [Event.step]
    unfold svDiskTick
    rw [if_neg (by omega)]
    exact ⟨rfl, hi, hd⟩
  | mount d path io => exact h.elim
  | eject d io => exact h.elim
  | flush d io => exact ⟨rfl, hi, hd⟩

theorem Formatting.aside {d : Drive} {a : Address} {ds : Drive → Image} {s : Decoder} {n : Nat}
    {c : Controller} {e : Event} (h : Formatting d a ds s n c) (he : e.Aside d a.side) :
    Formatting d a ds s n (e.step c) := by
  have hk := h.session.aside he
  obtain ⟨hwt, hi, hd⟩ := he.noIntrq h.intrq h.defer
  refine ⟨h.session.kept hk, ?_, hwt.trans h.wt, h.pos, ?_, hi, hd⟩
  · rw [hk.xfer]
    exact h.writeTrack
  · rw [hk.xfer]
    exact h.buf

/-- The same sector stored to two images that differ in their marks. -/
theorem SameImage.stored {img img' : Image} (h : SameImage img img') (off : Nat)
    {buf buf' : Nat → Byte} (hbuf : ∀ i, i < img.sectorSize → buf i = buf' i) :
    SameImage (storedImage img off buf) (storedImage img' off buf') := by
  refine ⟨h.mounted, h.readOnly, h.tracks, h.sides, h.perTrack, h.sectorSize, ?_, h.cacheSize⟩
  dsimp only [storedImage, svDiskMarkDirty, copyIn]
  rw [h.cache, h.sectorSize]
  congr 1
  funext b
  congr 1
  funext i
  unfold splice
  split
  · rename_i hin
    exact (hbuf _ (by omega)).symm
  · rfl

/-- A store of the controller is the store of a field. -/
theorem Stored.field {cm : Commit} {c c' : Controller} {d : Drive} {a : Address}
    {ds : Drive → Image} (h : Stored cm c c') (hsession : Session d a ds c)
    (hs : ∀ d, Sound (ds d)) (hm : (ds d).mounted = true) {data : List Byte}
    (hbuf : ∀ i, i < diskSectorSize → data.getD i 0 = cm.buf i) (d' : Drive) :
    SameImage (Function.update ds d (Field.store a.track a.side (ds d) ⟨cm.sector, data⟩) d')
      (c'.fdc.drives d') := by
  have himg := hsession.images d
  have hsel := hsession.selected
  have hsound : Sound c.fdc.selected := by
    rw [hsel]
    exact himg.sound (hs d)
  have haddr : c.fdc.addressed cm.sector = ⟨a.track, a.side, cm.sector.toNat⟩ := by
    unfold Fdc.addressed
    rw [hsession.track, hsession.side]
  have hinside := himg.inside ⟨a.track, a.side, cm.sector.toNat⟩
  rw [h.drives, Fdc.storedDrives]
  by_cases hin : Address.Inside ⟨a.track, a.side, cm.sector.toNat⟩ (ds d)
  · have hin' : (c.fdc.addressed cm.sector).Inside c.fdc.selected := by
      rw [haddr, hsel]
      exact hinside.mpr hin
    have hmounted : c.fdc.selected.mounted = true := by
      rw [hsel, himg.mounted]
      exact hm
    have hindex : Address.index ⟨a.track, a.side, cm.sector.toNat⟩ (c.fdc.drives d) =
        Address.index ⟨a.track, a.side, cm.sector.toNat⟩ (ds d) := by
      unfold Address.index
      rw [himg.sides, himg.perTrack]
    rw [storeOffset_inside hsound hmounted hin', Field.store_inside hin, haddr, hsel, hindex,
      himg.sectorSize, hsession.drive]
    dsimp only
    by_cases hd : d' = d
    · rw [hd, Function.update_self, Function.update_self]
      refine himg.stored _ fun i hi => hbuf i ?_
      rw [← (hs d).sectorSize]
      exact hi
    · rw [Function.update_of_ne hd, Function.update_of_ne hd]
      exact hsession.images d'
  · have hout : ¬(c.fdc.addressed cm.sector).Inside c.fdc.selected := by
      rw [haddr, hsel]
      exact fun hcon => hin (hinside.mp hcon)
    rw [storeOffset_outside hout, Field.store_outside hin, Function.update_eq_self]
    exact hsession.images d'

theorem wtMark_byteCount (f5 : Nat) (value : Byte) (w : Wt) (n : Nat) :
    wtMark f5 value { w with byteCount := n } = { wtMark f5 value w with byteCount := n } := by
  obtain ⟨state, count, idPos, idSector, dataPos, byteCount⟩ := w
  unfold wtMark
  cases state with
  | idField => rfl
  | idle =>
    dsimp only
    split
    · rfl
    · split <;> rfl
  | waitDam =>
    dsimp only
    split
    · rfl
    · split <;> rfl
  | dataField =>
    dsimp only
    split
    · rfl
    · split <;> rfl

/-- A mark byte leads into a data field only at its start. -/
theorem wtMark_dataPos {f5 : Nat} {value : Byte} {w : Wt}
    (h : (wtMark f5 value w).state = .dataField) (hw : w.state ≠ .dataField) :
    (wtMark f5 value w).dataPos = 0 := by
  unfold wtMark at h ⊢
  split at h
  · rename_i hstate
    dsimp only at h
    split at h
    · cases h
    · cases h
  · split at h
    · cases h
    · split at h
      · rename_i hfe hfb
        rw [if_neg hfe, if_pos hfb]
      · exact absurd h hw

/-- The sector buffer with one more byte. -/
theorem Formatting.put {d : Drive} {a : Address} {ds : Drive → Image} {s : Decoder} {n : Nat}
    {c : Controller} (h : Formatting d a ds s n c) (hstate : s.wt.state = .dataField)
    (value : Byte) {i : Nat} (hi : i < s.data.length + 1) :
    (c.fdc.xfer.put c.fdc.wt.dataPos value).sectorBuf i = (s.data ++ [value]).getD i 0 := by
  have hpos : c.fdc.wt.dataPos = s.data.length := by
    rw [h.wt]
    exact h.pos hstate
  dsimp only [Xfer.put]
  rw [hpos, List.getD_eq_getElem?_getD]
  by_cases hlast : i = s.data.length
  · rw [hlast, Function.update_self, List.getElem?_concat_length]
    rfl
  · rw [Function.update_of_ne hlast, h.buf i (by omega), List.getD_eq_getElem?_getD,
      List.getElem?_append_left (by omega)]

theorem formatDrives_append (d : Drive) (track side : Nat) (fields : List Field) (x : Field)
    (ds : Drive → Image) :
    formatDrives d track side (fields ++ [x]) ds =
      Function.update (formatDrives d track side fields ds) d
        (Field.store track side (formatDrives d track side fields ds d) x) := by
  unfold formatDrives
  rw [formatImage_append, Function.update_self, Function.update_idem]

theorem formatDrives_sound {d : Drive} {track side : Nat} {ds : Drive → Image}
    (hs : ∀ d, Sound (ds d)) (fields : List Field) (d' : Drive) :
    Sound (formatDrives d track side fields ds d') := by
  unfold formatDrives
  by_cases hd : d' = d
  · rw [hd, Function.update_self]
    exact formatImage_sound (hs d) fields
  · rw [Function.update_of_ne hd]
    exact hs d'

theorem formatDrives_mounted {d : Drive} {track side : Nat} {ds : Drive → Image}
    (hm : (ds d).mounted = true) (fields : List Field) :
    (formatDrives d track side fields ds d).mounted = true := by
  unfold formatDrives
  rw [Function.update_self, (formatImage_shape track side fields (ds d)).mounted]
  exact hm

/-- The last byte of a data field. -/
theorem Formatting.endField {d : Drive} {a : Address} {ds : Drive → Image} {s : Decoder} {n : Nat}
    {c c' : Controller} (h : Formatting d a ds s n c) (hs : ∀ d, Sound (ds d))
    (hm : (ds d).mounted = true) (hstate : s.wt.state = .dataField) {value : Byte}
    (hfull : diskSectorSize ≤ s.data.length + 1)
    (hc' : c' = (((c.onWt .countByte).onWt .clearF5).onXfer (.put c.fdc.wt.dataPos value)).onWt
      .countData) :
    Formatting d a ds
      { wt := { s.wt.clearF5.countData with state := .idle }
        data := []
        fields := s.fields ++ [⟨s.wt.idSector, s.data ++ [value]⟩] } (n + 1)
      (Disk.endField c') := by
  have hsame : SameDisks c c' := by
    rw [hc']
    exact ((SameDisks.onWt .countByte c).trans (.onWt .clearF5 _)).trans
      ((SameDisks.onXfer (.put c.fdc.wt.dataPos value) _).trans (.onWt .countData _))
  have hwt : c'.fdc.wt = { s.wt.clearF5.countData with byteCount := n + 1 } := by
    rw [hc']
    dsimp only [Controller.onWt, Controller.onFdc, Controller.onXfer]
    rw [h.wt]
    rfl
  have hsector : c'.fdc.wt.idSector = s.wt.idSector := by
    rw [hwt]
    rfl
  have hstored : Stored ⟨s.wt.idSector, (c.fdc.xfer.put c.fdc.wt.dataPos value).sectorBuf⟩ c
      (storeSector s.wt.idSector c') :=
    storeSector_stored ⟨s.wt.idSector, (c.fdc.xfer.put c.fdc.wt.dataPos value).sectorBuf⟩ hsame
      (by rw [hc']; rfl) (by rw [hc']; rfl) (by rw [hc']; rfl)
  have himages := hstored.field h.session (formatDrives_sound hs s.fields)
    (formatDrives_mounted hm s.fields)
    (fun i hi => (h.put hstate value (Nat.lt_of_lt_of_le hi hfull)).symm)
  rw [← formatDrives_append] at himages
  have hfdc := storeSector_fdc s.wt.idSector c'
  unfold Disk.endField
  rw [hsector]
  refine ⟨⟨?_, ?_, ?_, ?_, himages⟩, ?_, ?_, fun hcon => (nomatch hcon), fun i hi => ?_, ?_, ?_⟩
  all_goals dsimp only [Controller.onWt, Controller.onFdc]
  · rw [hfdc, hc']
    exact h.session.drive
  · rw [hfdc, hc']
    exact h.session.side
  · rw [hfdc, hc']
    exact h.session.track
  · rw [hfdc, hc']
    exact h.session.sector
  · rw [hfdc, hc']
    exact h.writeTrack
  · rw [hfdc]
    dsimp only
    rw [hwt]
  · exact absurd hi (Nat.not_lt_zero i)
  · rw [hfdc, hc']
    exact h.intrq
  · rw [hfdc, hc']
    exact h.defer

/-- A byte of a data field. -/
theorem Formatting.dataByte {d : Drive} {a : Address} {ds : Drive → Image} {s : Decoder} {n : Nat}
    {c : Controller} (h : Formatting d a ds s n c) (hs : ∀ d, Sound (ds d))
    (hm : (ds d).mounted = true) (hstate : s.wt.state = .dataField) (value : Byte) :
    Formatting d a ds (s.dataByte value) (n + 1)
      (wtData value ((c.onWt .countByte).onWt .clearF5)) := by
  have hpos : c.fdc.wt.dataPos = s.data.length := by
    rw [h.wt]
    exact h.pos hstate
  have hsize : c.fdc.selected.sectorSize = diskSectorSize := by
    rw [h.session.selected]
    exact ((h.session.images d).sound (formatDrives_sound hs s.fields d)).sectorSize
  unfold wtData
  dsimp only
  split
  · rename_i hcond
    have hfull : diskSectorSize ≤ s.data.length + 1 := by
      rw [← hsize, ← hpos]
      exact hcond
    unfold Decoder.dataByte
    rw [if_pos hfull]
    exact h.endField hs hm hstate hfull rfl
  · rename_i hcond
    have hshort : ¬diskSectorSize ≤ s.data.length + 1 := by
      rw [← hsize, ← hpos]
      exact hcond
    unfold Decoder.dataByte
    rw [if_neg hshort]
    refine ⟨⟨h.session.drive, h.session.side, h.session.track, h.session.sector, h.session.images⟩,
      h.writeTrack, ?_, ?_, ?_, h.intrq, h.defer⟩
    · dsimp only [Controller.onWt, Controller.onFdc, Controller.onXfer]
      rw [h.wt]
      rfl
    · intro _
      rw [List.length_append, List.length_singleton]
      dsimp only [Wt.countData, Wt.clearF5]
      rw [h.pos hstate]
    · intro i hi
      rw [List.length_append, List.length_singleton] at hi
      exact h.put hstate value hi

/-- The decoder of the controller takes a byte. -/
theorem Formatting.decode {d : Drive} {a : Address} {ds : Drive → Image} {s : Decoder} {n : Nat}
    {c : Controller} (h : Formatting d a ds s n c) (hs : ∀ d, Sound (ds d))
    (hm : (ds d).mounted = true) (value : Byte) :
    Formatting d a ds (s.step value) (n + 1) (wtDecode value (c.onWt .countByte)) := by
  unfold wtDecode Decoder.step
  dsimp only
  by_cases hv : value = 0xF5
  · rw [if_pos hv, if_pos hv]
    refine ⟨⟨h.session.drive, h.session.side, h.session.track, h.session.sector, h.session.images⟩,
      h.writeTrack, ?_, h.pos, h.buf, h.intrq, h.defer⟩
    dsimp only [Controller.onWt, Controller.onFdc]
    rw [h.wt]
    rfl
  · rw [if_neg hv, if_neg hv]
    have hcstate : ((c.onWt .countByte).onWt .clearF5).fdc.wt.state = s.wt.state := by
      dsimp only [Controller.onWt, Controller.onFdc]
      rw [h.wt]
      rfl
    rw [hcstate]
    by_cases hstate : s.wt.state = .dataField
    · rw [if_pos hstate, if_pos hstate]
      exact h.dataByte hs hm hstate value
    · rw [if_neg hstate, if_neg hstate]
      refine ⟨⟨h.session.drive, h.session.side, h.session.track, h.session.sector,
        h.session.images⟩, h.writeTrack, ?_, fun hdata => ?_, fun i hi => ?_, h.intrq, h.defer⟩
      · dsimp only [Controller.onWt, Controller.onFdc]
        rw [h.wt]
        exact wtMark_byteCount s.wt.f5Count value s.wt.clearF5 (n + 1)
      · exact wtMark_dataPos hdata hstate
      · exact absurd hi (Nat.not_lt_zero i)

/-! ## Runs of a WRITE TRACK -/

theorem Session.run {d : Drive} {a : Address} {ds : Drive → Image} {es : List Event}
    {c : Controller} (h : Session d a ds c) (hp : ∀ e ∈ es, e.Aside d a.side) :
    Session d a ds (runAll Event.step es c) := by
  induction es generalizing c with
  | nil => exact h
  | cons e es ih =>
    have hk := h.aside (hp e List.mem_cons_self)
    exact ih (h.kept hk) fun e' he' => hp e' (List.mem_cons_of_mem e he')

/-- The command starts the decoder. -/
theorem Formatting.start {d : Drive} {a : Address} {ds : Drive → Image} {c : Controller}
    (h : Session d a ds c) (hs : ∀ d, Sound (ds d)) (hm : (ds d).mounted = true)
    (hw : (ds d).readOnly = false) {address : Word} {cmd : Byte}
    (haddr : isCommandReg address = true) (hcmd : isWriteTrack cmd = true) :
    Formatting d a ds {} 0 (Event.step (.write address cmd) c) := by
  obtain ⟨hready, _⟩ := h.ready hs hm
  have hwritable : c.fdc.selected.readOnly = false := by
    rw [h.selected, (h.images d).readOnly]
    exact hw
  have hdigit : (cmd >>> 4).toNat ≠ 0xD := by
    intro hD
    rw [isWriteTrack, hD] at hcmd
    cases hcmd
  have hbody : commandBody cmd (beginCommand cmd (setIntrq false c).fdc) =
      request { c.fdc.xfer.stop with writeTrack := true }
        { beginCommand cmd (setIntrq false c).fdc with wt := { idSector := 1 } } := by
    have hready' : Disk.ready (beginCommand cmd (setIntrq false c).fdc) = true := hready
    have hwritable' : (beginCommand cmd (setIntrq false c).fdc).selected.readOnly = false :=
      hwritable
    rw [commandBody_writeTrack hcmd]
    unfold writeTrackCommand
    rw [hready', hwritable']
    rfl
  have himages : formatDrives d a.track a.side [] ds = ds := Function.update_eq_self d ds
  refine ⟨⟨?_, ?_, ?_, ?_, ?_⟩, ?_, ?_, fun hcon => (nomatch hcon), fun i hi => ?_, ?_, ?_⟩
  all_goals try rw [command_step haddr hdigit hbody rfl]
  · exact h.drive
  · exact h.side
  · exact h.track
  · exact h.sector
  · rw [himages]
    exact h.images
  · rfl
  · rfl
  · exact absurd hi (Nat.not_lt_zero i)
  · rfl
  · rfl

/-- A data byte reaches the decoder. -/
theorem Formatting.event {d : Drive} {a : Address} {ds : Drive → Image} {s : Decoder} {n : Nat}
    {c : Controller} (h : Formatting d a ds s n c) {address : Word}
    (haddr : isDataReg address = true) (value : Byte) :
    Event.step (.write address value) c = fdcWriteTrackByte value (c.onRegs (.setData value)) ∧
      Formatting d a ds s n (c.onRegs (.setData value)) := by
  constructor
  · rw [Event.step, svDiskWrite_data haddr]
    unfold fdcWriteData
    rw [if_pos (by exact h.writeTrack)]
  · exact ⟨⟨h.session.drive, h.session.side, h.session.track, h.session.sector, h.session.images⟩,
      h.writeTrack, h.wt, h.pos, h.buf, h.intrq, h.defer⟩

/-- A byte before the last asks for the next one. -/
theorem Formatting.byte {d : Drive} {a : Address} {ds : Drive → Image} {s : Decoder} {n : Nat}
    {c : Controller} (h : Formatting d a ds s n c) (hs : ∀ d, Sound (ds d))
    (hm : (ds d).mounted = true) {address : Word} (haddr : isDataReg address = true)
    (value : Byte) (hshort : n + 1 < wtTrackBytes) :
    Formatting d a ds (s.step value) (n + 1) (Event.step (.write address value) c) := by
  obtain ⟨hevent, hdata⟩ := h.event haddr value
  have hnext := hdata.decode hs hm value
  rw [hevent]
  unfold fdcWriteTrackByte
  dsimp only
  rw [if_neg]
  · exact ⟨⟨hnext.session.drive, hnext.session.side, hnext.session.track, hnext.session.sector,
      hnext.session.images⟩, hnext.writeTrack, hnext.wt, hnext.pos, hnext.buf, hnext.intrq,
      hnext.defer⟩
  · rw [hnext.wt]
    exact Nat.not_le_of_lt hshort

/-- The last byte raises INTRQ, and the drives hold the fields. -/
theorem Formatting.last {d : Drive} {a : Address} {ds : Drive → Image} {s : Decoder} {n : Nat}
    {c : Controller} (h : Formatting d a ds s n c) (hs : ∀ d, Sound (ds d))
    (hm : (ds d).mounted = true) {address : Word} (haddr : isDataReg address = true)
    (value : Byte) (hfull : n + 1 = wtTrackBytes) :
    Session d a (formatDrives d a.track a.side (s.step value).fields ds)
        (Event.step (.write address value) c) ∧
      (Event.step (.write address value) c).fdc.flow.intrq = true := by
  obtain ⟨hevent, hdata⟩ := h.event haddr value
  have hnext := hdata.decode hs hm value
  rw [hevent]
  unfold fdcWriteTrackByte
  dsimp only
  rw [if_pos]
  · exact ⟨⟨hnext.session.drive, hnext.session.side, hnext.session.track, hnext.session.sector,
      hnext.session.images⟩, rfl⟩
  · rw [hnext.wt]
    exact Nat.le_of_eq hfull.symm

/-- A run that ends before the last byte. -/
theorem Formatting.run {d : Drive} {a : Address} {ds : Drive → Image} {s : Decoder} {n : Nat}
    {es : List Event} {c : Controller} (h : Formatting d a ds s n c) (hs : ∀ d, Sound (ds d))
    (hm : (ds d).mounted = true) (hp : PacedWrites d a.side es)
    (hlen : n + (bytesWritten es).length < wtTrackBytes) :
    Formatting d a ds (runAll Decoder.step (bytesWritten es) s) (n + (bytesWritten es).length)
      (runAll Event.step es c) := by
  induction es generalizing s n c with
  | nil => exact h
  | cons e es ih =>
    rcases hp e List.mem_cons_self with haside | hdata
    · rw [bytesWritten_aside haside.quiet.1] at hlen ⊢
      exact ih (h.aside haside) hp.tail hlen
    · obtain ⟨value, hvalue⟩ := Option.isSome_iff_exists.mp hdata
      obtain ⟨address, haddr, rfl⟩ := Event.written_some hvalue
      rw [bytesWritten_data hvalue, List.length_cons] at hlen ⊢
      have hnext := ih (h.byte hs hm haddr value (by omega)) hp.tail (by omega)
      rw [Nat.add_assoc, Nat.add_comm 1] at hnext
      exact hnext

/-- A run up to the last byte, and on. -/
theorem Formatting.run_last {d : Drive} {a : Address} {ds : Drive → Image} {s : Decoder} {n : Nat}
    {es : List Event} {c : Controller} (h : Formatting d a ds s n c) (hs : ∀ d, Sound (ds d))
    (hm : (ds d).mounted = true) (hp : PacedWrites d a.side es) (hroom : n < wtTrackBytes)
    (hlen : n + (bytesWritten es).length = wtTrackBytes) :
    Session d a (formatDrives d a.track a.side (runAll Decoder.step (bytesWritten es) s).fields ds)
      (runAll Event.step es c) := by
  induction es generalizing s n c with
  | nil =>
    rw [bytesWritten, List.filterMap_nil, List.length_nil] at hlen
    omega
  | cons e es ih =>
    rcases hp e List.mem_cons_self with haside | hdata
    · rw [bytesWritten_aside haside.quiet.1] at hlen ⊢
      exact ih (h.aside haside) hp.tail hroom hlen
    · obtain ⟨value, hvalue⟩ := Option.isSome_iff_exists.mp hdata
      obtain ⟨address, haddr, rfl⟩ := Event.written_some hvalue
      rw [bytesWritten_data hvalue] at hlen ⊢
      rw [List.length_cons] at hlen
      by_cases hfull : n + 1 = wtTrackBytes
      · -- this is the last byte: the rest is aside
        have hnone : bytesWritten es = [] := List.length_eq_zero_iff.mp (by omega)
        rw [hnone]
        exact (h.last hs hm haddr value hfull).1.run (PacedWrites.aside hp.tail hnone)
      · exact ih (h.byte hs hm haddr value (by omega)) hp.tail (by omega) (by omega)

/-! ## What a format leaves -/

/-- The sectors of the stream are on the selected drive, at the track and the side in use,
each with the last data its number came with; nothing else changed. -/
structure Formats (rs : List Record) (c c' : Controller) : Prop where
  sectors : ∀ d a, c'.fdc.disk d a =
    if d = c.fdc.latch.driveSelect ∧ a.track = c.fdc.regs.track.toNat ∧
        a.side = c.fdc.latch.side ∧ a.Inside c.fdc.selected then
      (lastData (rs.map Record.field) a.sector).or (c.fdc.disk d a)
    else c.fdc.disk d a
  spared : ∀ d i,
    (d = c.fdc.latch.driveSelect → ∀ r ∈ rs,
      ¬Field.Covers c.fdc.regs.track.toNat c.fdc.latch.side c.fdc.selected i r.field) →
    cacheByte (c'.fdc.drives d) i = cacheByte (c.fdc.drives d) i

theorem SameImage.cacheByte {img img' : Image} (h : SameImage img img') (i : Nat) :
    cacheByte img' i = cacheByte img i := by
  unfold Disk.cacheByte
  rw [h.cache]

/-- The registers before the command. -/
theorem session_here (c : Controller) :
    Session c.fdc.latch.driveSelect (c.fdc.addressed c.fdc.regs.sector) c.fdc.drives c :=
  ⟨rfl, rfl, rfl, rfl, fun _ => .refl _⟩

theorem Session.formats {c c' : Controller} {rs : List Record} (hs : SoundDrives c)
    (hm : c.fdc.selected.mounted = true)
    (h : Session c.fdc.latch.driveSelect (c.fdc.addressed c.fdc.regs.sector)
      (formatDrives c.fdc.latch.driveSelect c.fdc.regs.track.toNat c.fdc.latch.side
        (rs.map Record.field) c.fdc.drives) c') : Formats rs c c' := by
  have hlen : ∀ x ∈ rs.map Record.field, x.data.length = diskSectorSize := by
    intro x hx
    obtain ⟨r, _, rfl⟩ := List.mem_map.mp hx
    exact r.data_length
  constructor
  · intro d a
    rw [h.disk]
    unfold diskOf formatDrives
    by_cases hd : d = c.fdc.latch.driveSelect
    · rw [hd, Function.update_self, formatImage_sectorAt (hs _) hm hlen]
      by_cases ha : a.track = c.fdc.regs.track.toNat ∧ a.side = c.fdc.latch.side ∧
          a.Inside c.fdc.selected
      · exact (if_pos ha).trans (if_pos ⟨rfl, ha⟩).symm
      · exact (if_neg ha).trans (if_neg fun hcon => ha hcon.2).symm
    · rw [Function.update_of_ne hd, if_neg fun hcon => hd hcon.1]
      rfl
  · intro d i hi
    rw [(h.images d).cacheByte]
    unfold formatDrives
    by_cases hd : d = c.fdc.latch.driveSelect
    · rw [hd, Function.update_self]
      refine formatImage_cacheByte (hs _) fun x hx => ?_
      obtain ⟨r, hr, rfl⟩ := List.mem_map.mp hx
      exact hi hd r hr
    · rw [Function.update_of_ne hd]

/-- A formatter's stream, written to a drive that is ready: the drive holds its sectors, and
INTRQ rises with the last of the 6250 bytes. -/
theorem write_track_decodes (card : Card) (past : List Event) (c : Controller)
    (hc : c = runAll Event.step past (powerOn card)) (hm : c.fdc.selected.mounted = true)
    (hw : c.fdc.selected.readOnly = false) {address : Word} (haddr : isCommandReg address = true)
    {cmd : Byte} (hcmd : isWriteTrack cmd = true) {head : List Byte} (hhead : MarkFree head)
    {rs : List Record} (hlen : (trackStream head rs).length = wtTrackBytes)
    (hplain : ∀ r ∈ rs, r.Plain) (hmarks : MarksSeen head rs) {es : List Event}
    (hp : PacedWrites c.fdc.latch.driveSelect c.fdc.latch.side es)
    (hes : bytesWritten es = trackStream head rs) :
    Formats rs c (runAll Event.step (.write address cmd :: es) c) ∧
    (∀ before after, es = before ++ after → (bytesWritten before).length < wtTrackBytes →
      (runAll Event.step (.write address cmd :: before) c).fdc.flow.intrq = false) ∧
    (∀ before reg value after, es = before ++ .write reg value :: after →
      isDataReg reg = true → (bytesWritten before).length + 1 = wtTrackBytes →
      (runAll Event.step (.write address cmd :: (before ++ [.write reg value])) c).fdc.flow.intrq =
        true) := by
  have hs : SoundDrives c := by
    rw [hc]
    exact runAll_sound (powerOn_sound card)
  have hstart := Formatting.start (session_here c) hs hm hw haddr hcmd
  have hfront : ∀ before after, es = before ++ after →
      PacedWrites c.fdc.latch.driveSelect c.fdc.latch.side before := by
    intro before after hsplit e he
    exact hp e (by rw [hsplit]; exact List.mem_append_left _ he)
  refine ⟨?_, ?_, ?_⟩
  · have hend := hstart.run_last hs hm hp (by decide)
      (by rw [hes, hlen, Nat.zero_add])
    rw [hes, Decoder.run_stream hhead hplain hmarks] at hend
    exact hend.formats hs hm
  · intro before after hsplit hshort
    exact (hstart.run hs hm (hfront before after hsplit)
      (by rw [Nat.zero_add]; exact hshort)).intrq
  · intro before reg value after hsplit hreg hfull
    have hbefore := hstart.run hs hm (hfront before _ hsplit) (by omega)
    rw [runAll_cons, runAll_append]
    exact (hbefore.last hs hm hreg value (by omega)).2

/-- Bytes without `$FE` and `$FB` hold no mark. -/
theorem MarkFree.replicate (n : Nat) {value : Byte} (hfe : value ≠ 0xFE) (hfb : value ≠ 0xFB) :
    MarkFree (List.replicate n value) := by
  intro mark hmark hpart
  have hin : mark ∈ List.replicate n value := hpart.subset (by simp)
  have heq := List.eq_of_mem_replicate hin
  rcases hmark with rfl | rfl
  · exact hfe heq.symm
  · exact hfb heq.symm

/-- A record with three `$F5` before each mark, for the given sector number and filling, and
with a gap of `after` bytes behind it. -/
def fillRecord (sector fill : Byte) (hfill : fill ≠ 0xF5) (after : Nat) : Record where
  idMarks := 3
  track := 0
  side := 0
  sector := sector
  size := 1
  gap := List.replicate 22 0x4E
  dataMarks := 3
  data := List.replicate diskSectorSize fill
  after := List.replicate after 0x4E
  idMarks_three := Nat.le_refl 3
  dataMarks_three := Nat.le_refl 3
  gap_free := .replicate 22 (by decide) (by decide)
  after_free := .replicate after (by decide) (by decide)
  data_length := List.length_replicate
  data_plain := fun hin => hfill (List.eq_of_mem_replicate hin).symm

theorem fillRecord_length (sector fill : Byte) (hfill : fill ≠ 0xF5) (after : Nat) :
    (fillRecord sector fill hfill after).bytes.length = 292 + after := by
  unfold fillRecord Record.bytes Record.idBytes Record.dataBytes
  simp only [List.length_append, List.length_replicate, List.length_cons, List.length_nil,
    diskSectorSize]
  omega

/-- Sector 1 of track 0, formatted with `$41`. -/
theorem write_track_decodes_one :
    (runAll Event.step (.write 0xFF48 0xF0 ::
        (trackStream [] [fillRecord 1 0x41 (by decide) 5958]).map (.write 0xFF4B))
      (runAll Event.step mountOne (powerOn oneTrackCard))).fdc.disk 0 ⟨0, 0, 1⟩ =
        some (List.replicate diskSectorSize 0x41) := by
  obtain ⟨hsel, hwritable, hin⟩ := mountOne_state
  obtain ⟨hwrites, hbytes⟩ := pacedWrites_map 0 0
    (trackStream [] [fillRecord 1 0x41 (by decide) 5958])
  have hselected : (runAll Event.step mountOne (powerOn oneTrackCard)).fdc.selected =
      (runAll Event.step mountOne (powerOn oneTrackCard)).fdc.drives 0 := hsel.session.selected
  have hhead : MarkFree [] := MarkFree.replicate 0 (show (0 : Byte) ≠ 0xFE by decide) (by decide)
  have hlen : (trackStream [] [fillRecord 1 0x41 (by decide) 5958]).length = wtTrackBytes := by
    rw [trackStream, List.nil_append, List.flatMap_singleton, fillRecord_length]
    rfl
  have hplain : ∀ r ∈ [fillRecord 1 0x41 (by decide) 5958], r.Plain := by
    intro r hr
    rw [List.mem_singleton.mp hr]
    exact ⟨by decide, by decide, by decide⟩
  have hall := write_track_decodes oneTrackCard mountOne _ rfl
    (by rw [hselected]; exact hsel.mounted) (by rw [hselected]; exact hwritable)
    (show isCommandReg 0xFF48 = true from rfl) (show isWriteTrack 0xF0 = true from rfl)
    hhead hlen hplain ⟨by decide, by decide, trivial⟩ (by rw [hsel.drive, hsel.side]; exact hwrites)
    hbytes
  rw [hall.1.sectors, if_pos]
  · rfl
  · exact ⟨hsel.drive.symm, hsel.track.symm, hsel.side.symm, by rw [hselected]; exact hin⟩

/-- Sector 1 with `$41`, then sector `$F5`, which no drive has, with `$42`: sector 1 holds
`$42`. -/
theorem id_field_with_f5 :
    let rs := [fillRecord 1 0x41 (by decide) 0, fillRecord 0xF5 0x42 (by decide) 5666]
    (trackStream [] rs).length = wtTrackBytes ∧
      ¬Formats rs (runAll Event.step mountOne (powerOn oneTrackCard))
        (runAll Event.step (.write 0xFF48 0xF0 :: (trackStream [] rs).map (.write 0xFF4B))
          (runAll Event.step mountOne (powerOn oneTrackCard))) := by
  intro rs
  have hlen : (trackStream [] rs).length = wtTrackBytes := by
    rw [trackStream, List.nil_append, List.flatMap_cons, List.flatMap_singleton,
      List.length_append, fillRecord_length, fillRecord_length]
    rfl
  refine ⟨hlen, fun hformats => ?_⟩
  obtain ⟨hsel, hwritable, hin⟩ := mountOne_state
  obtain ⟨hwrites, hbytes⟩ := pacedWrites_map 0 0 (trackStream [] rs)
  have hsound : SoundDrives (runAll Event.step mountOne (powerOn oneTrackCard)) :=
    runAll_sound (powerOn_sound oneTrackCard)
  -- what the decoder makes of the two records
  have hfields : (runAll Decoder.step (trackStream [] rs) {}).fields =
      [⟨1, List.replicate diskSectorSize 0x41⟩, ⟨1, List.replicate diskSectorSize 0x42⟩] := by
    have hinit : Decoder.At .idle 0 1 [] {} := ⟨rfl, rfl, rfl, rfl⟩
    have hfirst := hinit.record (r := fillRecord 1 0x41 (by decide) 0)
      ⟨by decide, by decide, by decide⟩ (by decide) (by decide)
    have hsecond := hfirst.recordShifted (r := fillRecord 0xF5 0x42 (by decide) 5666) (by decide)
      (by decide) rfl (by decide) (by decide) (by decide)
    rw [trackStream, List.nil_append, List.flatMap_cons, List.flatMap_singleton, runAll_append]
    exact hsecond.fields
  have hend := (Formatting.start hsel.session hsound hsel.mounted hwritable
    (show isCommandReg 0xFF48 = true from rfl)
    (show isWriteTrack 0xF0 = true from rfl)).run_last hsound hsel.mounted hwrites (by decide)
      (by rw [hbytes, Nat.zero_add]; exact hlen)
  rw [hbytes, hfields] at hend
  have hdisk := congrFun (congrFun hend.disk 0) ⟨0, 0, 1⟩
  unfold diskOf formatDrives at hdisk
  rw [Function.update_self, formatImage_sectorAt (hsound 0) hsel.mounted (fun x hx => by
      rcases List.mem_cons.mp hx with rfl | hx'
      · exact List.length_replicate
      · rw [List.mem_singleton.mp hx']
        exact List.length_replicate), if_pos ⟨rfl, rfl, hin⟩] at hdisk
  have hsectors := hformats.sectors 0 ⟨0, 0, 1⟩
  have hselected : (runAll Event.step mountOne (powerOn oneTrackCard)).fdc.selected =
      (runAll Event.step mountOne (powerOn oneTrackCard)).fdc.drives 0 := hsel.session.selected
  rw [if_pos ⟨hsel.drive.symm, hsel.track.symm, hsel.side.symm, by rw [hselected]; exact hin⟩,
    runAll_cons, hdisk] at hsectors
  have hbyte := congrArg (fun o => o.map fun l : List Byte => l.head?) hsectors
  exact absurd hbyte (by decide)

end CocoEmulator.Disk
