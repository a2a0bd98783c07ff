/-
  Disk/TrackStream.lean --- the stream of a WRITE TRACK, apart from any drive.

  A formatter encodes its sectors as records, each an ID field and a data field
  behind address marks, with gaps between (`trackStream`).  `Decoder` reads the
  stream one byte at a time with the registers of the chip, and gathers the data
  fields it completes.

      Decoder.run_stream    it completes the data field of every record, in order,
                            under the record's sector number

  `$F5` only ever counts as a mark prefix, so an ID field cannot hold it, and the
  count is one byte wide: what a mark needs is `MarksSeen`.
-/
import CocoEmulator.Base.Run
import CocoEmulator.Disk.Fdc

set_option autoImplicit false

namespace CocoEmulator.Disk

open CocoEmulator.Base

/-! ## What a formatter writes -/

/-- The bytes hold no address mark: no three `$F5` in a row before `$FE` or `$FB`. -/
def MarkFree (gap : List Byte) : Prop :=
  ∀ mark, (mark = 0xFE ∨ mark = 0xFB) → ¬[0xF5, 0xF5, 0xF5, mark] <:+: gap

/-- A sector as a formatter encodes it, with the gap after it. -/
structure Record where
  idMarks : Nat
  track : Byte
  side : Byte
  sector : Byte
  size : Byte
  gap : List Byte
  dataMarks : Nat
  data : List Byte
  after : List Byte
  idMarks_three : 3 ≤ idMarks
  dataMarks_three : 3 ≤ dataMarks
  gap_free : MarkFree gap
  after_free : MarkFree after
  data_length : data.length = diskSectorSize
  data_plain : 0xF5 ∉ data

/-- `$F5 ... $F5 $FE track side sector size $F7`. -/
def Record.idBytes (r : Record) : List Byte :=
  List.replicate r.idMarks 0xF5 ++ [0xFE, r.track, r.side, r.sector, r.size, 0xF7]

/-- `$F5 ... $F5 $FB data $F7`. -/
def Record.dataBytes (r : Record) : List Byte :=
  List.replicate r.dataMarks 0xF5 ++ (0xFB :: r.data ++ [0xF7])

def Record.bytes (r : Record) : List Byte := r.idBytes ++ (r.gap ++ (r.dataBytes ++ r.after))

/-- The stream: a gap and the records. -/
def trackStream (head : List Byte) (rs : List Record) : List Byte := head ++ rs.flatMap Record.bytes

/-- The number of `$F5` the bytes end with. -/
def trailingF5 (bytes : List Byte) : Nat := (bytes.reverse.takeWhile (· == 0xF5)).length

/-- The ID field holds no `$F5` where the decoder would miss it. -/
structure Record.Plain (r : Record) : Prop where
  track : r.track ≠ 0xF5
  side : r.side ≠ 0xF5
  sector : r.sector ≠ 0xF5

/-- The `$F5` before each mark are three or more, as a byte counts them. -/
def MarksSeen : List Byte → List Record → Prop
  | _, [] => True
  | before, r :: rs =>
      3 ≤ (trailingF5 before + r.idMarks) % 256 ∧ 3 ≤ (trailingF5 r.gap + r.dataMarks) % 256 ∧
        MarksSeen r.after rs

/-! ## The decoder -/

/-- A completed data field, with the sector number of the ID field before it. -/
structure Field where
  sector : Byte
  data : List Byte

def Record.field (r : Record) : Field := ⟨r.sector, r.data⟩

/-- The decoder: the registers of the chip, the data field so far, the data fields before. -/
structure Decoder where
  wt : Wt := { idSector := 1 }
  data : List Byte := []
  fields : List Field := []

/-- A byte of a data field. -/
def Decoder.dataByte (value : Byte) (s : Decoder) : Decoder :=
  if diskSectorSize ≤ s.data.length + 1 then
    { wt := { s.wt.clearF5.countData with state := .idle }
      data := []
      fields := s.fields ++ [⟨s.wt.idSector, s.data ++ [value]⟩] }
  else { s with wt := s.wt.clearF5.countData, data := s.data ++ [value] }

def Decoder.step (value : Byte) (s : Decoder) : Decoder :=
  if value = 0xF5 then { s with wt := s.wt.countF5 }
  else if s.wt.state = .dataField then s.dataByte value
  else { s with wt := wtMark s.wt.f5Count value s.wt.clearF5, data := [] }

/-- Between fields: the state, the count of `$F5`, the number of the last ID field, and
what is complete. -/
structure Decoder.At (state : WtState) (f5 : Nat) (sector : Byte) (fields : List Field)
    (s : Decoder) : Prop where
  state : s.wt.state = state
  f5 : s.wt.f5Count = f5 % 256
  sector : s.wt.idSector = sector
  fields : s.fields = fields

/-! ## Gaps -/

theorem trailingF5_append_f5 (bytes : List Byte) :
    trailingF5 (bytes ++ [0xF5]) = trailingF5 bytes + 1 := by
  unfold trailingF5
  rw [List.reverse_append, List.reverse_singleton, List.singleton_append,
    List.takeWhile_cons_of_pos (by rfl), List.length_cons]

theorem trailingF5_append {value : Byte} (h : value ≠ 0xF5) (bytes : List Byte) :
    trailingF5 (bytes ++ [value]) = 0 := by
  unfold trailingF5
  rw [List.reverse_append, List.reverse_singleton, List.singleton_append,
    List.takeWhile_cons_of_neg (by simpa using h), List.length_nil]

/-- The bytes a run of `$F5` stands at the end of. -/
theorem eq_append_trailing (bytes : List Byte) :
    ∃ front, bytes = front ++ List.replicate (trailingF5 bytes) 0xF5 := by
  refine ⟨(bytes.reverse.dropWhile (· == 0xF5)).reverse, ?_⟩
  have hrun : bytes.reverse.takeWhile (· == 0xF5) = List.replicate (trailingF5 bytes) 0xF5 := by
    apply List.eq_replicate_of_mem
    intro b hb
    exact eq_of_beq (List.all_eq_true.mp List.all_takeWhile b hb)
  have hsplit := List.takeWhile_append_dropWhile (p := fun b : Byte => b == 0xF5)
    (l := bytes.reverse)
  rw [hrun] at hsplit
  have hback := congrArg List.reverse hsplit
  rw [List.reverse_append, List.reverse_reverse, List.reverse_replicate] at hback
  exact hback.symm

/-- After three `$F5` a gap goes on with no mark. -/
theorem MarkFree.next {bytes : List Byte} {value : Byte} (h : MarkFree (bytes ++ [value]))
    (hrun : 3 ≤ trailingF5 bytes) : value ≠ 0xFE ∧ value ≠ 0xFB := by
  obtain ⟨front, hfront⟩ := eq_append_trailing bytes
  obtain ⟨k, hk⟩ := Nat.exists_eq_add_of_le' hrun
  have hpart : [0xF5, 0xF5, 0xF5, value] <:+: bytes ++ [value] := by
    refine ⟨front ++ List.replicate k 0xF5, [], ?_⟩
    rw [hk, List.replicate_add] at hfront
    rw [hfront]
    simp [List.replicate]
  constructor
  · intro heq
    rw [heq] at h hpart
    exact h 0xFE (.inl rfl) hpart
  · intro heq
    rw [heq] at h hpart
    exact h 0xFB (.inr rfl) hpart

theorem MarkFree.front {bytes : List Byte} {value : Byte} (h : MarkFree (bytes ++ [value])) :
    MarkFree bytes := by
  intro mark hmark hpart
  exact h mark hmark (hpart.trans (List.prefix_append bytes [value]).isInfix)

theorem Decoder.At.f5Step {state : WtState} {f5 : Nat} {sector : Byte} {fields : List Field}
    {s : Decoder} (h : s.At state f5 sector fields) :
    (s.step 0xF5).At state (f5 + 1) sector fields := by
  unfold Decoder.step
  rw [if_pos rfl]
  refine ⟨h.state, ?_, h.sector, h.fields⟩
  dsimp only [Wt.countF5]
  rw [h.f5]
  omega

/-- The prefix of a mark. -/
theorem Decoder.At.marks {state : WtState} {f5 : Nat} {sector : Byte} {fields : List Field}
    {s : Decoder} (h : s.At state f5 sector fields) (n : Nat) :
    (runAll Decoder.step (List.replicate n 0xF5) s).At state (f5 + n) sector fields := by
  induction n generalizing s f5 with
  | zero => exact h
  | succ n ih =>
    have hrest := ih h.f5Step
    rw [Nat.add_assoc, Nat.add_comm 1 n] at hrest
    exact hrest

/-- A byte outside the fields that completes no mark. -/
theorem Decoder.At.skip {state : WtState} {f5 : Nat} {sector : Byte} {fields : List Field}
    {s : Decoder} (h : s.At state f5 sector fields) (hs : state = .idle ∨ state = .waitDam)
    {value : Byte} (hv : value ≠ 0xF5) (hmark : 3 ≤ f5 % 256 → value ≠ 0xFE ∧ value ≠ 0xFB) :
    (s.step value).At state 0 sector fields := by
  have hplain : wtMark s.wt.f5Count value s.wt.clearF5 = s.wt.clearF5 := by
    have hne : ∀ mark, (mark = 0xFE ∨ mark = 0xFB) → ¬(3 ≤ s.wt.f5Count ∧ value = mark) := by
      rintro mark hor ⟨hthree, rfl⟩
      rw [h.f5] at hthree
      obtain ⟨hfe, hfb⟩ := hmark hthree
      rcases hor with heq | heq
      · exact hfe heq
      · exact hfb heq
    unfold wtMark
    have hstate : s.wt.clearF5.state = state := h.state
    rw [hstate]
    rcases hs with rfl | rfl
    · dsimp only
      rw [if_neg (hne 0xFE (.inl rfl)), if_neg (hne 0xFB (.inr rfl))]
    · dsimp only
      rw [if_neg (hne 0xFE (.inl rfl)), if_neg (hne 0xFB (.inr rfl))]
  unfold Decoder.step
  rw [if_neg hv, if_neg, hplain]
  · exact ⟨h.state, rfl, h.sector, h.fields⟩
  · rw [h.state]
    rcases hs with rfl | rfl
    · exact WtState.noConfusion
    · exact WtState.noConfusion

/-- A gap leaves nothing but the count of the `$F5` it ends with. -/
theorem Decoder.At.gap {state : WtState} {sector : Byte} {fields : List Field} {s : Decoder}
    (h : s.At state 0 sector fields) (hs : state = .idle ∨ state = .waitDam) {gap : List Byte}
    (hfree : MarkFree gap) :
    (runAll Decoder.step gap s).At state (trailingF5 gap) sector fields := by
  induction gap using List.reverseRecOn with
  | nil => exact h
  | append_singleton gap value ih =>
    have hbefore := ih hfree.front
    rw [runAll_append, runAll_cons, runAll_nil]
    by_cases hv : value = 0xF5
    · rw [hv, trailingF5_append_f5]
      exact hbefore.f5Step
    · rw [trailingF5_append hv]
      refine hbefore.skip hs hv fun hthree => ?_
      exact hfree.next (Nat.le_trans hthree (Nat.mod_le _ _))

/-! ## Fields -/

/-- Inside an ID field: how many of its bytes were read. -/
structure Decoder.InId (pos : Nat) (sector : Byte) (fields : List Field) (s : Decoder) : Prop where
  state : s.wt.state = .idField
  pos : s.wt.idPos = pos
  sector : s.wt.idSector = sector
  fields : s.fields = fields

/-- Inside a data field: the bytes so far. -/
structure Decoder.InData (data : List Byte) (sector : Byte) (fields : List Field) (s : Decoder) :
    Prop where
  state : s.wt.state = .dataField
  f5 : s.wt.f5Count = 0
  sector : s.wt.idSector = sector
  fields : s.fields = fields
  data : s.data = data

/-- An ID address mark. -/
theorem Decoder.At.idMark {f5 : Nat} {sector : Byte} {fields : List Field} {s : Decoder}
    (h : s.At .idle f5 sector fields) (hrun : 3 ≤ f5 % 256) :
    (s.step 0xFE).InId 0 sector fields := by
  have hmark : wtMark s.wt.f5Count 0xFE s.wt.clearF5 =
      { s.wt.clearF5 with state := .idField, idPos := 0 } := by
    unfold wtMark
    have hstate : s.wt.clearF5.state = .idle := h.state
    rw [hstate]
    dsimp only
    rw [if_pos ⟨by rw [h.f5]; exact hrun, rfl⟩]
  unfold Decoder.step
  rw [if_neg (by decide), if_neg (by rw [h.state]; decide), hmark]
  exact ⟨rfl, rfl, h.sector, h.fields⟩

/-- A data address mark. -/
theorem Decoder.At.dataMark {f5 : Nat} {sector : Byte} {fields : List Field} {s : Decoder}
    (h : s.At .waitDam f5 sector fields) (hrun : 3 ≤ f5 % 256) :
    (s.step 0xFB).InData [] sector fields := by
  have hmark : wtMark s.wt.f5Count 0xFB s.wt.clearF5 =
      { s.wt.clearF5 with state := .dataField, dataPos := 0 } := by
    unfold wtMark
    have hstate : s.wt.clearF5.state = .waitDam := h.state
    rw [hstate]
    dsimp only
    rw [if_neg (fun hcon => absurd hcon.2 (by decide)),
      if_pos ⟨by rw [h.f5]; exact hrun, rfl⟩]
  unfold Decoder.step
  rw [if_neg (by decide), if_neg (by rw [h.state]; decide), hmark]
  exact ⟨rfl, rfl, h.sector, h.fields, rfl⟩

/-- `$F5` in an ID field is passed over. -/
theorem Decoder.InId.f5Step {pos : Nat} {sector : Byte} {fields : List Field} {s : Decoder}
    (h : s.InId pos sector fields) : (s.step 0xF5).InId pos sector fields := by
  unfold Decoder.step
  rw [if_pos rfl]
  exact ⟨h.state, h.pos, h.sector, h.fields⟩

theorem Decoder.InId.step {pos : Nat} {sector : Byte} {fields : List Field} {s : Decoder}
    (h : s.InId pos sector fields) {value : Byte} (hv : value ≠ 0xF5) :
    s.step value =
      { s with
        wt := { s.wt.clearF5 with
          idSector := if pos = 2 then value else sector
          idPos := pos + 1
          state := if 4 ≤ pos + 1 then .waitDam else .idField }
        data := [] } := by
  unfold Decoder.step
  rw [if_neg hv, if_neg (by rw [h.state]; decide)]
  unfold wtMark
  have hstate : s.wt.clearF5.state = .idField := h.state
  rw [hstate, ← h.pos, ← h.sector]
  rfl

/-- The first three bytes of an ID field: the third is the sector number. -/
theorem Decoder.InId.byte {pos : Nat} {sector : Byte} {fields : List Field} {s : Decoder}
    (h : s.InId pos sector fields) {value : Byte} (hv : value ≠ 0xF5) (hpos : pos < 3) :
    (s.step value).InId (pos + 1) (if pos = 2 then value else sector) fields := by
  rw [h.step hv]
  exact ⟨if_neg (by omega), rfl, rfl, h.fields⟩

/-- The fourth byte. -/
theorem Decoder.InId.last {sector : Byte} {fields : List Field} {s : Decoder}
    (h : s.InId 3 sector fields) {value : Byte} (hv : value ≠ 0xF5) :
    (s.step value).At .waitDam 0 sector fields := by
  rw [h.step hv]
  exact ⟨rfl, rfl, rfl, h.fields⟩

/-- The four bytes of an ID field and what follows them; the size code may be `$F5`, since
`$F7` then takes its place. -/
theorem Decoder.InId.bytes {old : Byte} {fields : List Field} {s : Decoder}
    (h : s.InId 0 old fields) {track side sector : Byte} (ht : track ≠ 0xF5) (hs : side ≠ 0xF5)
    (hn : sector ≠ 0xF5) (size : Byte) :
    (runAll Decoder.step [track, side, sector, size, 0xF7] s).At .waitDam 0 sector fields := by
  have hthird := ((h.byte ht (by omega)).byte hs (by omega)).byte hn (by omega)
  simp only [runAll_cons, runAll_nil]
  by_cases hsize : size = 0xF5
  · rw [hsize]
    exact hthird.f5Step.last (by decide)
  · refine (hthird.last hsize).skip (.inr rfl) (by decide) fun hcon => ?_
    exact absurd hcon (by decide)

/-- A byte of a data field that is not the last. -/
theorem Decoder.InData.byte {data : List Byte} {sector : Byte} {fields : List Field} {s : Decoder}
    (h : s.InData data sector fields) {value : Byte} (hv : value ≠ 0xF5)
    (hshort : data.length + 1 < diskSectorSize) :
    (s.step value).InData (data ++ [value]) sector fields := by
  unfold Decoder.step
  rw [if_neg hv, if_pos h.state]
  unfold Decoder.dataByte
  rw [h.data, if_neg (by omega)]
  exact ⟨h.state, rfl, h.sector, h.fields, rfl⟩

/-- The last byte completes the field. -/
theorem Decoder.InData.last {data : List Byte} {sector : Byte} {fields : List Field} {s : Decoder}
    (h : s.InData data sector fields) {value : Byte} (hv : value ≠ 0xF5)
    (hfull : data.length + 1 = diskSectorSize) :
    (s.step value).At .idle 0 sector (fields ++ [⟨sector, data ++ [value]⟩]) := by
  unfold Decoder.step
  rw [if_neg hv, if_pos h.state]
  unfold Decoder.dataByte
  rw [h.data, if_pos (by omega), h.sector, h.fields]
  exact ⟨rfl, rfl, h.sector, rfl⟩

/-- The bytes of a data field, from any of them on. -/
theorem Decoder.InData.bytes {done rest : List Byte} {sector : Byte} {fields : List Field}
    {s : Decoder} (h : s.InData done sector fields) (hplain : 0xF5 ∉ rest)
    (hroom : done.length < diskSectorSize) (hlen : done.length + rest.length = diskSectorSize) :
    (runAll Decoder.step rest s).At .idle 0 sector (fields ++ [⟨sector, done ++ rest⟩]) := by
  induction rest generalizing done s with
  | nil =>
    rw [List.length_nil] at hlen
    omega
  | cons value rest ih =>
    have hv : value ≠ 0xF5 := fun heq => hplain (heq ▸ List.mem_cons_self)
    have hrest : 0xF5 ∉ rest := fun hin => hplain (List.mem_cons_of_mem value hin)
    rw [List.length_cons] at hlen
    rw [runAll_cons]
    by_cases hfull : done.length + 1 = diskSectorSize
    · have hnil : rest = [] := List.length_eq_zero_iff.mp (by omega)
      rw [hnil]
      exact h.last hv hfull
    · have hnext := ih (h.byte hv (by omega)) hrest
        (by rw [List.length_append, List.length_singleton]; omega)
        (by rw [List.length_append, List.length_singleton]; omega)
      rw [List.append_assoc, List.singleton_append] at hnext
      exact hnext

/-! ## Streams -/

theorem Decoder.At.idBytes {f5 : Nat} {old : Byte} {fields : List Field} {s : Decoder}
    (h : s.At .idle f5 old fields) {r : Record} (hr : r.Plain) (hrun : 3 ≤ (f5 + r.idMarks) % 256) :
    (runAll Decoder.step r.idBytes s).At .waitDam 0 r.sector fields := by
  unfold Record.idBytes
  rw [runAll_append, runAll_cons]
  exact ((h.marks r.idMarks).idMark hrun).bytes hr.track hr.side hr.sector r.size

theorem Decoder.At.dataBytes {f5 : Nat} {sector : Byte} {fields : List Field} {s : Decoder}
    (h : s.At .waitDam f5 sector fields) {r : Record} (hrun : 3 ≤ (f5 + r.dataMarks) % 256) :
    (runAll Decoder.step r.dataBytes s).At .idle 0 sector (fields ++ [⟨sector, r.data⟩]) := by
  have hlen : ([] : List Byte).length + r.data.length = diskSectorSize := by
    rw [List.length_nil, Nat.zero_add]
    exact r.data_length
  have hdata := ((h.marks r.dataMarks).dataMark hrun).bytes r.data_plain (by decide) hlen
  rw [List.nil_append] at hdata
  unfold Record.dataBytes
  rw [runAll_append, List.cons_append, runAll_cons, runAll_append, runAll_cons, runAll_nil]
  refine hdata.skip (.inl rfl) (by decide) fun hcon => ?_
  exact absurd hcon (by decide)

/-- One record: its data field is completed under its number. -/
theorem Decoder.At.record {f5 : Nat} {old : Byte} {fields : List Field} {s : Decoder}
    (h : s.At .idle f5 old fields) {r : Record} (hr : r.Plain)
    (hid : 3 ≤ (f5 + r.idMarks) % 256)
    (hdata : 3 ≤ (trailingF5 r.gap + r.dataMarks) % 256) :
    (runAll Decoder.step r.bytes s).At .idle (trailingF5 r.after) r.sector
      (fields ++ [r.field]) := by
  unfold Record.bytes
  rw [runAll_append, runAll_append, runAll_append]
  have hgap := (h.idBytes hr hid).gap (.inr rfl) r.gap_free
  exact (hgap.dataBytes hdata).gap (.inl rfl) r.after_free

/-- A record for sector `$F5`: the decoder passes over the number, and takes the size code
for it. -/
theorem Decoder.At.recordShifted {f5 : Nat} {old : Byte} {fields : List Field} {s : Decoder}
    (h : s.At .idle f5 old fields) {r : Record} (ht : r.track ≠ 0xF5) (hs : r.side ≠ 0xF5)
    (hn : r.sector = 0xF5) (hz : r.size ≠ 0xF5) (hid : 3 ≤ (f5 + r.idMarks) % 256)
    (hdata : 3 ≤ (trailingF5 r.gap + r.dataMarks) % 256) :
    (runAll Decoder.step r.bytes s).At .idle (trailingF5 r.after) r.size
      (fields ++ [⟨r.size, r.data⟩]) := by
  have hmark := (h.marks r.idMarks).idMark hid
  have hthird := ((hmark.byte ht (by omega)).byte hs (by omega)).f5Step.byte hz (by omega)
  have hfield : (runAll Decoder.step r.idBytes s).At .waitDam 0 r.size fields := by
    unfold Record.idBytes
    rw [runAll_append, hn]
    simp only [runAll_cons, runAll_nil]
    exact hthird.last (by decide)
  unfold Record.bytes
  rw [runAll_append, runAll_append, runAll_append]
  exact ((hfield.gap (.inr rfl) r.gap_free).dataBytes hdata).gap (.inl rfl) r.after_free

theorem Decoder.At.records {before : List Byte} {old : Byte} {fields : List Field} {s : Decoder}
    (h : s.At .idle (trailingF5 before) old fields) {rs : List Record}
    (hplain : ∀ r ∈ rs, r.Plain) (hmarks : MarksSeen before rs) :
    (runAll Decoder.step (rs.flatMap Record.bytes) s).fields = fields ++ rs.map Record.field := by
  induction rs generalizing before old fields s with
  | nil =>
    rw [List.map_nil, List.append_nil]
    exact h.fields
  | cons r rs ih =>
    obtain ⟨hid, hdata, hrest⟩ := hmarks
    have hone := h.record (hplain r List.mem_cons_self) hid hdata
    rw [List.flatMap_cons, runAll_append, ih hone
      (fun r' hr' => hplain r' (List.mem_cons_of_mem r hr')) hrest]
    rw [List.append_assoc, List.map_cons, List.singleton_append]

/-- Decoding is the inverse of encoding: the decoder completes the data field of every
record, in order. -/
theorem Decoder.run_stream {head : List Byte} (hhead : MarkFree head) {rs : List Record}
    (hplain : ∀ r ∈ rs, r.Plain) (hmarks : MarksSeen head rs) :
    (runAll Decoder.step (trackStream head rs) {}).fields = rs.map Record.field := by
  have hinit : Decoder.At .idle 0 1 [] {} := ⟨rfl, rfl, rfl, rfl⟩
  unfold trackStream
  rw [runAll_append]
  exact (hinit.gap (.inl rfl) hhead).records hplain hmarks

end CocoEmulator.Disk
