/-
  Storage/VhdStatus.lean --- when the status of a hard-disk command is truthful.

  A write that ends with status OK has stored the block it took from the guest.  A
  read fills what the image did not give with zeros and ends with status OK all the
  same, whether the image ended there or the card failed: its block is the image's
  exactly when what was not moved is zero there anyway (`Backed`).

      machineWrite_ok        every command keeps the cached positions right
      storeSector_truthful   a write against the guest's bytes
      blockWrites_truthful   a read against the image
      vhd_status_truthful    the status of every command
-/
import CocoEmulator.Storage.VhdCommand

set_option autoImplicit false

namespace CocoEmulator.Storage

open CocoEmulator.Base CocoEmulator.Disk

variable {R : Type}

/-! ## Reachable states -/

theorem VhdOk.of_drives {v v' : Vhd R} (h : VhdOk v) (hdrives : v'.drives = v.drives) : VhdOk v' := by
  intro d
  rw [hdrives]
  exact h d

theorem VhdOk.update {v : Vhd R} (h : VhdOk v) (d : HardDrive) {bf : BlockFile}
    (hcached : Cached bf) (hsize : bf.size ≤ unknown) :
    ∀ d', Cached (Function.update v.drives d bf d') ∧
      (Function.update v.drives d bf d').size ≤ unknown := by
  intro d'
  by_cases hd : d' = d
  · rw [hd, Function.update_self]
    exact ⟨hcached, hsize⟩
  · rw [Function.update_of_ne hd]
    exact h d'

theorem blockfileFlush_cached {bf : BlockFile} (h : Cached bf ∧ bf.size ≤ unknown) :
    Cached (blockfileFlush bf) ∧ (blockfileFlush bf).size ≤ unknown := by
  unfold blockfileFlush
  split
  · exact h
  · exact h

theorem blockfileTick_cached (nowMs : Nat) {bf : BlockFile} (h : Cached bf ∧ bf.size ≤ unknown) :
    Cached (blockfileTick nowMs bf) ∧ (blockfileTick nowMs bf).size ≤ unknown := by
  unfold blockfileTick
  split
  · exact h
  · split
    · exact h
    · exact ⟨fun hsome => absurd hsome Bool.false_ne_true, (blockfileFlush_cached h).2⟩

theorem loadSector_ok (io : BlkIo) {v : Vhd R} (h : VhdOk v) : VhdOk (loadSector io v) := by
  obtain ⟨hcached, hsize⟩ := h v.regs.driveSel
  obtain ⟨_, _, haccess, hcached'⟩ :=
    blockfileRead_spec io v.regs.offset v.sector blockSize (s := v.blk) hcached hsize
  exact h.update v.regs.driveSel hcached' (haccess.size.trans_le hsize)

theorem storeSector_ok (io : BlkIo) {v : Vhd R} (h : VhdOk v) (hoffset : v.regs.offset < vhdMaxBytes) :
    VhdOk (storeSector io v) := by
  obtain ⟨hne, hrange⟩ := offset_inRange hoffset
  obtain ⟨hcached, hsize⟩ := h v.regs.driveSel
  obtain ⟨_, hstored, hcached'⟩ :=
    blockfileWrite_spec io v.sector (s := v.blk) hcached hne hrange
  have hle := writeCount_le io v.regs.offset blockSize v.blk
  refine h.update v.regs.driveSel hcached' ?_
  rw [hstored.known]
  have hsize' : v.blk.bf.size ≤ unknown := hsize
  unfold unknown at hsize' ⊢
  split <;> omega

theorem getLoop_ok (bus : Bus R) (n i : Nat) {v : Vhd R} (h : VhdOk v) : VhdOk (getLoop bus n i v) := by
  induction n generalizing i v with
  | zero => exact h
  | succ n ih =>
    unfold getLoop
    refine ih (i + 1) ?_
    have hread : (machineRead bus (v.regs.bufAddr + BitVec.ofNat 16 i) v).2.drives = v.drives := by
      unfold machineRead
      split <;> rfl
    exact h.of_drives hread

theorem putLoop_ok {put : Addr → Byte → Vhd R → Option (Vhd R)}
    (hput : ∀ addr val v v', put addr val v = some v' → VhdOk v → VhdOk v') {n i : Nat}
    {v v' : Vhd R} (hrun : putLoop put n i v = some v') (h : VhdOk v) : VhdOk v' := by
  induction n generalizing i v with
  | zero =>
    rw [← Option.some.inj hrun]
    exact h
  | succ n ih =>
    unfold putLoop at hrun
    dsimp only at hrun
    obtain ⟨u, hu, hrest⟩ := Option.bind_eq_some_iff.mp hrun
    exact ih hrest (hput _ _ _ _ hu (h.of_drives rfl))

theorem machineWrite_ok (io : Nat → BlkIo) (bus : Bus R) {fuel : Nat} {addr : Addr} {val : Byte}
    {v v' : Vhd R} (hrun : machineWrite io bus fuel addr val v = some v') (h : VhdOk v) :
    VhdOk v' := by
  induction fuel generalizing addr val v v' with
  | zero => exact nomatch hrun
  | succ fuel ih =>
    unfold machineWrite at hrun
    split at hrun
    · unfold vhdWrite at hrun
      split at hrun
      · unfold command at hrun
        split at hrun
        · rw [← Option.some.inj hrun]
          exact h.of_drives rfl
        · split at hrun
          · unfold cmdRead at hrun
            split at hrun
            · rw [← Option.some.inj hrun]
              exact h.of_drives rfl
            · obtain ⟨u, hu, hset⟩ := Option.map_eq_some_iff.mp hrun
              have hloop := putLoop_ok (fun addr val w w' hw hok => @ih addr val w w' hw hok) hu
                (loadSector_ok _ h)
              rw [← hset]
              exact hloop.of_drives rfl
          · split at hrun
            · rw [← Option.some.inj hrun]
              unfold cmdWrite
              split
              · exact h.of_drives rfl
              · rename_i hrange
                split
                · exact h.of_drives rfl
                · obtain ⟨hregs, _⟩ := getLoop_frame bus blockSize 0 v
                  refine storeSector_ok _ (getLoop_ok bus blockSize 0 h) ?_
                  rw [hregs]
                  exact Nat.lt_of_not_le hrange
            · split at hrun
              · rw [← Option.some.inj hrun]
                obtain ⟨hcached, hsize⟩ := blockfileFlush_cached (h v.regs.driveSel)
                exact h.update v.regs.driveSel hcached hsize
              · rw [← Option.some.inj hrun]
                exact h.of_drives rfl
      · rw [← Option.some.inj hrun]
        exact h.of_drives rfl
    · rw [← Option.some.inj hrun]
      exact h.of_drives rfl

/-- The states of the controller after power-on. -/
inductive Reached (bus : Bus R) : Vhd R → Prop
  | init (card : Card) (rest : R) : Reached bus { card := card, rest := rest }
  | write {v v' : Vhd R} (io : Nat → BlkIo) (fuel : Nat) (addr : Addr) (val : Byte)
      (h : Reached bus v) (hrun : machineWrite io bus fuel addr val v = some v') : Reached bus v'
  | read {v : Vhd R} (addr : Addr) (h : Reached bus v) : Reached bus (machineRead bus addr v).2
  | machine {v : Vhd R} (rest : R) (h : Reached bus v) : Reached bus { v with rest := rest }
  | reset {v : Vhd R} (h : Reached bus v) : Reached bus (vhdReset v)
  | tick {v : Vhd R} (nowMs : Nat) (h : Reached bus v) : Reached bus (vhdTick nowMs v)
  | flushAll {v : Vhd R} (h : Reached bus v) : Reached bus (vhdFlushAll v)
  | mount {v : Vhd R} (io : OpenIo) (d : HardDrive) (path : List Char) (h : Reached bus v) :
      Reached bus (vhdMount io d path v)
  | unmount {v : Vhd R} (d : HardDrive) (h : Reached bus v) : Reached bus (vhdUnmount d v)

theorem Reached.ok {bus : Bus R} {v : Vhd R} (h : Reached bus v) : VhdOk v := by
  induction h with
  | init card rest =>
    exact fun _ => ⟨fun hsome => absurd hsome Bool.false_ne_true, Nat.zero_le _⟩
  | write io fuel addr val _ hrun ih => exact machineWrite_ok io bus hrun ih
  | @read v addr _ ih =>
    have hread : (machineRead bus addr v).2.drives = v.drives := by
      unfold machineRead
      split <;> rfl
    exact ih.of_drives hread
  | machine rest _ ih => exact ih.of_drives rfl
  | reset _ ih => exact fun d => blockfileFlush_cached (ih d)
  | tick nowMs _ ih => exact fun d => blockfileTick_cached nowMs (ih d)
  | flushAll _ ih => exact fun d => blockfileFlush_cached (ih d)
  | @mount v io d path _ ih =>
    have hrefines := blockfileOpen_refines io path v.card (v.drives d)
    exact ih.update d hrefines.cached hrefines.known
  | @unmount v d _ ih =>
    unfold vhdUnmount
    split
    · exact ih
    · exact ih.update d (fun hsome => absurd hsome Bool.false_ne_true) (Nat.zero_le _)

/-! ## The status -/

/-- What the image holds at an offset, and zero beyond its end. -/
def imageByte (f : SdFile) (offset : Nat) : Byte := if offset < f.size then f.byte offset else 0

/-- With status OK, the bytes a read put on the bus are those of the image, and after a write
the image holds the 256 bytes that `machine_read` gave at the buffer. -/
structure Truthful (bus : Bus R) (cmd : Byte) (v v' : Vhd R) : Prop where
  read : cmd = 0 → v'.status = vhdStOk → ∀ i, i < blockSize →
    (v'.writes.drop v.writes.length)[i]? =
      some (bufByte v i, imageByte v.blk.image (v.regs.offset + i))
  write : cmd = 1 → v'.status = vhdStOk → ∀ i, i < blockSize →
    v.regs.offset + i < (fileAt v'.card v.blk.bf.path).size ∧
      (fileAt v'.card v.blk.bf.path).byte (v.regs.offset + i) = guestByte bus v i

/-- What the card did not move of the block is zero in the image, or lies beyond its end. -/
def Backed (io : BlkIo) (cmd : Byte) (v : Vhd R) : Prop :=
  readsBlock cmd v = true → ∀ i, i < blockSize → readCount io v.regs.offset blockSize v.blk ≤ i →
    v.regs.offset + i < v.blk.image.size → v.blk.image.byte (v.regs.offset + i) = 0

section

variable {io : BlkIo} {cmd : Byte} {v : Vhd R}

theorem readCount_le (io : BlkIo) (offset len : Nat) (s : Blk) : readCount io offset len s ≤ len := by
  unfold readCount
  split
  · exact Nat.zero_le _
  · split
    · exact Nat.le_trans (readMoved_le _ _ _ _ _ _) (Nat.min_le_left _ _)
    · exact Nat.zero_le _

theorem readCount_inside {io : BlkIo} {offset len : Nat} {s : Blk} (h : readCount io offset len s ≠ 0) :
    offset + readCount io offset len s ≤ s.image.size := by
  unfold readCount at h ⊢
  split at h
  · exact absurd rfl h
  · rename_i hend
    split at h
    · rename_i hreach
      rw [if_neg hend, if_pos hreach]
      exact readMoved_inside io s.image.size offset h
    · exact absurd rfl h

/-- The block a read delivers, byte by byte. -/
theorem readBlock_byte (hok : VhdOk v) {i : Nat} (hi : i < blockSize) :
    readBlock io v i = if i < readCount io v.regs.offset blockSize v.blk
      then v.blk.image.byte (v.regs.offset + i) else 0 := by
  obtain ⟨hcached, hsize⟩ := hok v.regs.driveSel
  obtain ⟨hcount, hbuf, _, _⟩ :=
    blockfileRead_spec io v.regs.offset v.sector blockSize (s := v.blk) hcached hsize
  have hle := readCount_le io v.regs.offset blockSize v.blk
  unfold readBlock
  rw [hcount, hbuf]
  by_cases hmoved : i < readCount io v.regs.offset blockSize v.blk
  · rw [if_pos hmoved, splice_out (by omega), splice_in (by omega) (by omega), Nat.sub_zero]
  · rw [if_neg hmoved, splice_in (by omega) (by omega)]

theorem blockWrites_getElem? (v : Vhd R) (block : Nat → Byte) {i : Nat} (hi : i < blockSize) :
    (blockWrites v block blockSize 0)[i]? = some (bufByte v i, block i) := by
  unfold blockWrites
  rw [List.getElem?_map, List.getElem?_range' hi, Nat.zero_add, Nat.one_mul]
  rfl

/-- The bytes of a read against the image. -/
theorem blockWrites_truthful (hok : VhdOk v) (hread : readsBlock cmd v = true) :
    (∀ i, i < blockSize → (blockWrites v (readBlock io v) blockSize 0)[i]? =
      some (bufByte v i, imageByte v.blk.image (v.regs.offset + i))) ↔ Backed io cmd v := by
  constructor
  · intro h _ i hi hmoved hinside
    have hbyte := h i hi
    rw [blockWrites_getElem? v _ hi, readBlock_byte hok hi, if_neg (Nat.not_lt_of_le hmoved)] at hbyte
    have hsame := congrArg Prod.snd (Option.some.inj hbyte)
    unfold imageByte at hsame
    rw [if_pos hinside] at hsame
    exact hsame.symm
  · intro h i hi
    rw [blockWrites_getElem? v _ hi, readBlock_byte hok hi]
    unfold imageByte
    by_cases hmoved : i < readCount io v.regs.offset blockSize v.blk
    · have hinside := @readCount_inside io v.regs.offset blockSize v.blk (by omega)
      rw [if_pos hmoved, if_pos (by omega)]
    · rw [if_neg hmoved]
      by_cases hinside : v.regs.offset + i < v.blk.image.size
      · rw [if_pos hinside, h hread i hi (Nat.le_of_not_lt hmoved) hinside]
      · rw [if_neg hinside]

/-- With status OK the block taken from the guest is in the image. -/
theorem storeSector_truthful (bus : Bus R) (hok : VhdOk v) (hrange : v.regs.offset < vhdMaxBytes) :
    Truthful bus 1 v (storeSector io (getLoop bus blockSize 0 v)) := by
  refine ⟨fun hno => absurd hno (by decide), fun _ hstatus i hi => ?_⟩
  obtain ⟨hcached, _⟩ := hok v.regs.driveSel
  obtain ⟨hne, hin⟩ := offset_inRange hrange
  obtain ⟨hregs, _, _, hblk⟩ := getLoop_frame bus blockSize 0 v
  have hstored := storeSector_stored io bus hok hrange
  obtain ⟨hcount, _⟩ := blockfileWrite_spec io (getLoop bus blockSize 0 v).sector (s := v.blk)
    hcached hne hin
  unfold storeSector at hstatus ⊢
  dsimp only at hstatus ⊢
  rw [hregs, hblk] at hstatus ⊢
  generalize blockfileWrite io v.regs.offset (getLoop bus blockSize 0 v).sector blockSize v.blk = r
    at hstatus hstored hcount ⊢
  -- the status tells that the whole block was moved
  have hfull : writeCount io v.regs.offset blockSize v.blk = blockSize := by
    rw [← hcount]
    by_contra hshort
    rw [if_neg hshort] at hstatus
    exact absurd hstatus (by decide)
  rw [hfull] at hstored
  have himage : fileAt r.2.card v.blk.bf.path = r.2.image := by
    unfold Blk.image
    rw [hstored.path]
  have hcard : ((getLoop bus blockSize 0 v).setBlk r.2).card = r.2.card := rfl
  rw [hcard, himage, hstored.byte, hstored.size]
  refine ⟨?_, splice_at hi⟩
  unfold blockSize at hi ⊢
  rw [if_neg (by decide)]
  omega

/-- Another status promises nothing. -/
theorem setStatus_truthful (bus : Bus R) (cmd : Byte) (v : Vhd R) {st : Byte}
    (hst : st ≠ vhdStOk) : Truthful bus cmd v (v.setStatus st) :=
  ⟨fun _ hstatus => absurd hstatus hst, fun _ hstatus => absurd hstatus hst⟩

/-- With status OK a write has stored its block. -/
theorem cmdWrite_truthful (bus : Bus R) (hok : VhdOk v) :
    Truthful bus 1 v (cmdWrite io bus v) := by
  unfold cmdWrite
  split
  · exact setStatus_truthful bus 1 v (by decide)
  · rename_i hrange
    split
    · exact setStatus_truthful bus 1 v (by decide)
    · exact storeSector_truthful bus hok (Nat.lt_of_not_le hrange)

end

section

variable {io : Nat → BlkIo} {bus : Bus R} {cmd : Byte} {v : Vhd R}

/-- A command that reads no block is one transfer, and truthful. -/
theorem machineWrite_truthful (hok : VhdOk v) (hread : readsBlock cmd v = false) :
    ∃ v', machineWrite io bus 1 0xFF83 cmd v = some v' ∧
      OneTransfer (io v.moves.length) bus cmd v v' ∧ Truthful bus cmd v v' := by
  obtain ⟨v', hrun, hone⟩ := @machineWrite_other R io bus cmd v hread
  refine ⟨v', hrun, hone, ?_⟩
  have hport : vhdIsPort 0xFF83 = true := rfl
  rw [machineWrite, if_pos hport, vhdWrite, if_pos rfl, command] at hrun
  by_cases hopen : blockfileIsOpen v.blk.bf = true
  · rw [hopen, if_neg (by decide)] at hrun
    by_cases h0 : cmd = 0
    · rw [if_pos h0, cmdRead] at hrun
      have hrange : vhdMaxBytes ≤ v.regs.offset := by
        by_contra hlt
        rw [readsBlock_iff.mpr ⟨h0, hopen, Nat.lt_of_not_le hlt⟩] at hread
        exact absurd hread (by decide)
      rw [if_pos hrange] at hrun
      rw [← Option.some.inj hrun]
      exact setStatus_truthful bus cmd v (by decide)
    · rw [if_neg h0] at hrun
      by_cases h1 : cmd = 1
      · rw [if_pos h1] at hrun
        rw [← Option.some.inj hrun, h1]
        exact cmdWrite_truthful bus hok
      · exact ⟨fun hno => absurd hno h0, fun hno => absurd hno h1⟩
  · rw [Bool.eq_false_iff.mpr hopen, if_pos (by decide)] at hrun
    rw [← Option.some.inj hrun]
    exact setStatus_truthful bus cmd v (by decide)

/-- A harmless read with enough nesting allowed is one transfer, and truthful exactly when its
block is backed. -/
theorem Harmless.truthful (hok : VhdOk v) (hread : readsBlock cmd v = true)
    (h : Harmless (io v.moves.length) cmd v) (fuel : Nat) :
    ∃ v', machineWrite io bus (fuel + 2) 0xFF83 cmd v = some v' ∧
      OneTransfer (io v.moves.length) bus cmd v v' ∧
      (Truthful bus cmd v v' ↔ Backed (io v.moves.length) cmd v) := by
  obtain ⟨v', hrun, hone⟩ := @Harmless.oneTransfer R io bus cmd v hread h fuel
  obtain ⟨hcmd, _, _⟩ := readsBlock_iff.mp hread
  have hstatus : v'.status = vhdStOk := by
    rw [machineWrite_read hread] at hrun
    obtain ⟨w, _, hset⟩ := Option.map_eq_some_iff.mp hrun
    rw [← hset]
    rfl
  have hwrites : v'.writes.drop v.writes.length =
      blockWrites v (readBlock (io v.moves.length) v) blockSize 0 := by
    rw [hone.writes, (commandWrites_read hread (io v.moves.length)).2.2, List.drop_left]
  refine ⟨v', hrun, hone, ?_⟩
  rw [← blockWrites_truthful hok hread]
  constructor
  · intro htruth i hi
    rw [← hwrites]
    exact htruth.read hcmd hstatus i hi
  · intro hbytes
    refine ⟨fun _ _ i hi => ?_, fun hno => absurd (hcmd.symm.trans hno) (by decide)⟩
    rw [hwrites]
    exact hbytes i hi

/-- Without nesting a transfer does not complete. -/
theorem machineWrite_flat (hread : readsBlock cmd v = true) :
    machineWrite io bus 0 0xFF83 cmd v = none ∧ machineWrite io bus 1 0xFF83 cmd v = none := by
  refine ⟨rfl, ?_⟩
  rw [machineWrite_read hread]
  unfold blockSize putLoop machineWrite
  rfl

/-- A truthful read has a backed block. -/
theorem Truthful.backed {fuel : Nat} {v' : Vhd R} (hok : VhdOk v)
    (hrun : machineWrite io bus fuel 0xFF83 cmd v = some v')
    (h : Harmless (io v.moves.length) cmd v) (htruth : Truthful bus cmd v v') :
    Backed (io v.moves.length) cmd v := by
  by_cases hread : readsBlock cmd v = true
  · obtain ⟨hzero, hone⟩ := @machineWrite_flat R io bus cmd v hread
    rcases fuel with _ | _ | fuel
    · rw [hzero] at hrun
      exact nomatch hrun
    · rw [hone] at hrun
      exact nomatch hrun
    · obtain ⟨u, hu, _, hiff⟩ := @Harmless.truthful R io bus cmd v hok hread h fuel
      rw [hrun] at hu
      rw [← Option.some.inj hu] at hiff
      exact hiff.mp htruth
  · exact fun hyes => absurd hyes hread

/-- A harmless command with a backed block is one transfer with a truthful status. -/
theorem Backed.truthful (bus : Bus R) (hok : VhdOk v) (h : Harmless (io v.moves.length) cmd v)
    (hbacked : Backed (io v.moves.length) cmd v) :
    ∃ fuel v', machineWrite io bus fuel 0xFF83 cmd v = some v' ∧
      OneTransfer (io v.moves.length) bus cmd v v' ∧ Truthful bus cmd v v' := by
  by_cases hread : readsBlock cmd v = true
  · obtain ⟨u, hu, hone, hiff⟩ := @Harmless.truthful R io bus cmd v hok hread h 0
    exact ⟨2, u, hu, hone, hiff.mpr hbacked⟩
  · obtain ⟨v', hrun, hone, htruth⟩ := @machineWrite_truthful R io bus cmd v hok
      (Bool.eq_false_iff.mpr hread)
    exact ⟨1, v', hrun, hone, htruth⟩

end

/-- In every reachable state, for every answer of the card and every command: the command
completes as the one transfer it should be, with a truthful status, exactly when no byte of its
block lands on the controller with an effect and what the card does not move of the block is zero
in the image or lies beyond its end.  Where no byte has an effect on the controller, the second
condition alone decides whether the status is truthful. -/
theorem vhd_status_truthful {bus : Bus R} {v : Vhd R} (hv : Reached bus v) (io : Nat → BlkIo)
    (cmd : Byte) :
    ((∃ fuel v', machineWrite io bus fuel 0xFF83 cmd v = some v' ∧
        OneTransfer (io v.moves.length) bus cmd v v' ∧ Truthful bus cmd v v') ↔
      Harmless (io v.moves.length) cmd v ∧ Backed (io v.moves.length) cmd v) ∧
    (Harmless (io v.moves.length) cmd v →
      ((∃ fuel v', machineWrite io bus fuel 0xFF83 cmd v = some v' ∧ Truthful bus cmd v v') ↔
        Backed (io v.moves.length) cmd v)) := by
  have hok := hv.ok
  constructor
  · constructor
    · rintro ⟨fuel, v', hrun, hone, htruth⟩
      have hharmless := hone.harmless hrun
      exact ⟨hharmless, htruth.backed hok hrun hharmless⟩
    · rintro ⟨hharmless, hbacked⟩
      exact hbacked.truthful bus hok hharmless
  · intro hharmless
    constructor
    · rintro ⟨fuel, v', hrun, htruth⟩
      exact htruth.backed hok hrun hharmless
    · intro hbacked
      obtain ⟨fuel, v', hrun, _, htruth⟩ := hbacked.truthful bus hok hharmless
      exact ⟨fuel, v', hrun, htruth⟩

/-- A disk of ones is mounted in drive 0; the buffer is at address 0. -/
def onesMounted : Vhd Unit :=
  vhdMount {} hardDrive0 ['/', 'h'] { card := fun _ => some ⟨512, fun _ => 1⟩, rest := () }

theorem onesMounted_reached : Reached emptyBus onesMounted :=
  .mount {} hardDrive0 ['/', 'h'] (.init _ _)

theorem onesMounted_harmless (io : BlkIo) (cmd : Byte) : Harmless io cmd onesMounted := by
  have hnone : ∀ i, i < blockSize → vhdIsPort (bufByte onesMounted i) = false := by
    decide +kernel
  intro _ i hi hport
  rw [hnone i hi] at hport
  exact absurd hport Bool.false_ne_true

/-- The card gives the 256 ones of the block, and takes a block of zeros from the guest. -/
theorem vhd_status_truthful_ones :
    (∃ fuel v', machineWrite (fun _ => {}) emptyBus fuel 0xFF83 0 onesMounted = some v' ∧
      OneTransfer {} emptyBus 0 onesMounted v' ∧ Truthful emptyBus 0 onesMounted v') ∧
    ∃ fuel v', machineWrite (fun _ => {}) emptyBus fuel 0xFF83 1 onesMounted = some v' ∧
      OneTransfer {} emptyBus 1 onesMounted v' ∧ Truthful emptyBus 1 onesMounted v' := by
  have hall : readCount {} onesMounted.regs.offset blockSize onesMounted.blk = blockSize := by
    decide +kernel
  have hread : Backed {} 0 onesMounted := fun _ i hi hmoved =>
    absurd (hall.symm.trans_le hmoved) (Nat.not_le_of_lt hi)
  have hwrite : Backed {} 1 onesMounted := fun hno => absurd hno (by decide)
  exact ⟨(vhd_status_truthful onesMounted_reached (fun _ => {}) 0).1.mpr
      ⟨onesMounted_harmless _ 0, hread⟩,
    (vhd_status_truthful onesMounted_reached (fun _ => {}) 1).1.mpr
      ⟨onesMounted_harmless _ 1, hwrite⟩⟩

/-- The seek fails: the guest gets zeros, with status OK. -/
theorem failedSeek_reads_zeros :
    ¬∀ (v : Vhd Unit) (io : Nat → BlkIo) (cmd : Byte), Reached emptyBus v → ∃ fuel v',
      machineWrite io emptyBus fuel 0xFF83 cmd v = some v' ∧ Truthful emptyBus cmd v v' := by
  intro hall
  obtain ⟨fuel, v', hrun, htruth⟩ :=
    hall onesMounted (fun _ => { seeks := false }) 0 onesMounted_reached
  have hbacked := htruth.backed onesMounted_reached.ok hrun (onesMounted_harmless _ 0)
  have hbyte := hbacked (by decide) 0 (by decide) (by decide +kernel) (by decide +kernel)
  exact absurd hbyte (by decide +kernel)

end CocoEmulator.Storage
