/-
  Storage/VhdCommand.lean --- when a hard-disk command is one transfer.

  A write command and the others always are.  A read puts its block on the bus byte
  by byte, and a byte may land on the controller itself: on a register, which then
  changes under the transfer, or on $FF83, which starts another command.  The
  transfer goes as it should exactly when no such byte has an effect (`Harmless`).

  A write takes its block from the guest by successive reads of the bus (`guestByte`),
  and of that block the image gets what the card moved, at the offset that was set.

      getLoop_sector     the block a write takes from the guest
      putLoop_harmless   a harmless transfer completes, with the registers unchanged
      putLoop_keeps      a transfer that went as it should had no effect on the way
      vhd_one_transfer   the two together
-/
import CocoEmulator.Storage.ByteImage
import CocoEmulator.Storage.Vhd

set_option autoImplicit false

namespace CocoEmulator.Storage

open CocoEmulator.Base CocoEmulator.Disk

variable {R : Type}

/-! ## What a command should do -/

/-- Does the command read a block of the image? -/
def readsBlock (cmd : Byte) (v : Vhd R) : Bool :=
  cmd == 0 && blockfileIsOpen v.blk.bf && decide (v.regs.offset < vhdMaxBytes)

/-- Does the command write a block of the image? -/
def writesBlock (cmd : Byte) (v : Vhd R) : Bool :=
  cmd == 1 && blockfileIsOpen v.blk.bf && decide (v.regs.offset < vhdMaxBytes) &&
    !v.blk.bf.readOnly

/-- The registers after a command: only a flush changes them. -/
def commandRegs (cmd : Byte) (v : Vhd R) : Regs :=
  if cmd == 2 && blockfileIsOpen v.blk.bf then
    { v.regs with high := 0, mid := 0, low := 0, bufHigh := 0, bufLow := 0 }
  else v.regs

/-- The block a command moves: that of the offset which was set. -/
def commandMoves (cmd : Byte) (v : Vhd R) : List Move :=
  if readsBlock cmd v then [⟨false, v.regs.offset⟩]
  else if writesBlock cmd v then [⟨true, v.regs.offset⟩]
  else []

/-- Byte `i` of the buffer. -/
def bufByte (v : Vhd R) (i : Nat) : Addr := v.regs.bufAddr + BitVec.ofNat 16 i

/-- The machine once it has read the first `i` bytes of the buffer. -/
def guestRead (bus : Bus R) (v : Vhd R) : Nat → Vhd R
  | 0 => v
  | i + 1 => (machineRead bus (bufByte v i) (guestRead bus v i)).2

/-- Byte `i` of the buffer as `machine_read` gives it, the bytes before it having been read. -/
def guestByte (bus : Bus R) (v : Vhd R) (i : Nat) : Byte :=
  (machineRead bus (bufByte v i) (guestRead bus v i)).1

/-- The bytes of a block in the buffer, from byte `i` on. -/
def blockWrites (v : Vhd R) (block : Nat → Byte) (n i : Nat) : List (Addr × Byte) :=
  (List.range' i n).map fun k => (bufByte v k, block k)

/-- The bytes a command puts on the bus. -/
def commandWrites (io : BlkIo) (cmd : Byte) (v : Vhd R) : List (Addr × Byte) :=
  if readsBlock cmd v then blockWrites v (readBlock io v) blockSize 0 else []

/-- The bytes of the image after a command: a write puts what the card moves of the guest's
block at its offset, and nothing else changes. -/
def commandImage (io : BlkIo) (bus : Bus R) (cmd : Byte) (v : Vhd R) : Nat → Byte :=
  if writesBlock cmd v then
    splice v.blk.image.byte v.regs.offset (writeCount io v.regs.offset blockSize v.blk)
      (guestByte bus v)
  else v.blk.image.byte

/-- The cached positions of both drives are right. -/
def VhdOk (v : Vhd R) : Prop := ∀ d, Cached (v.drives d) ∧ (v.drives d).size ≤ unknown

/-- The command moved at most its own block, put that block on the bus and nothing else, left
the registers as it should, and changed the image only where it should. -/
structure OneTransfer (io : BlkIo) (bus : Bus R) (cmd : Byte) (v v' : Vhd R) : Prop where
  regs : v'.regs = commandRegs cmd v
  moves : v'.moves = v.moves ++ commandMoves cmd v
  writes : v'.writes = v.writes ++ commandWrites io cmd v
  image : VhdOk v → (fileAt v'.card v.blk.bf.path).byte = commandImage io bus cmd v

/-- A byte on this address of the controller has no effect: the register holds it already,
or it is a command that only sets the status. -/
def NoEffect (v : Vhd R) (addr : Addr) (val : Byte) : Prop :=
  if addr = 0xFF83 then 3 ≤ val.toNat ∨ val = 1 ∧ v.blk.bf.readOnly = true
  else v.regs.write addr val = v.regs

/-- No byte of the block lands on the controller with an effect. -/
def Harmless (io : BlkIo) (cmd : Byte) (v : Vhd R) : Prop :=
  readsBlock cmd v = true → ∀ i, i < blockSize → vhdIsPort (bufByte v i) = true →
    NoEffect v (bufByte v i) (readBlock io v i)

/-! ## The history only grows -/

/-- Histories of `v'` extend those of `v`. -/
structure Grown (v v' : Vhd R) : Prop where
  moves : v.moves <+: v'.moves
  writes : v.writes <+: v'.writes

theorem Grown.refl (v : Vhd R) : Grown v v := ⟨List.prefix_rfl, List.prefix_rfl⟩

theorem Grown.of_eq {v v' : Vhd R} (hmoves : v'.moves = v.moves) (hwrites : v'.writes = v.writes) :
    Grown v v' := by
  refine ⟨?_, ?_⟩
  · rw [hmoves]
  · rw [hwrites]

theorem Grown.trans {u v w : Vhd R} (h : Grown u v) (h' : Grown v w) : Grown u w :=
  ⟨h.moves.trans h'.moves, h.writes.trans h'.writes⟩

theorem machineRead_frame (bus : Bus R) (addr : Addr) (v : Vhd R) :
    (machineRead bus addr v).2.regs = v.regs ∧ (machineRead bus addr v).2.moves = v.moves ∧
      (machineRead bus addr v).2.writes = v.writes ∧
      (machineRead bus addr v).2.blk = v.blk := by
  unfold machineRead
  split
  · exact ⟨rfl, rfl, rfl, rfl⟩
  · exact ⟨rfl, rfl, rfl, rfl⟩

theorem getLoop_frame (bus : Bus R) (n i : Nat) (v : Vhd R) :
    (getLoop bus n i v).regs = v.regs ∧ (getLoop bus n i v).moves = v.moves ∧
      (getLoop bus n i v).writes = v.writes ∧ (getLoop bus n i v).blk = v.blk := by
  induction n generalizing i v with
  | zero => exact ⟨rfl, rfl, rfl, rfl⟩
  | succ n ih =>
    unfold getLoop
    dsimp only
    obtain ⟨hregs, hmoves, hwrites, hblk⟩ := machineRead_frame bus
      (v.regs.bufAddr + BitVec.ofNat 16 i) v
    generalize machineRead bus (v.regs.bufAddr + BitVec.ofNat 16 i) v = r
      at hregs hmoves hwrites hblk ⊢
    obtain ⟨hregs', hmoves', hwrites', hblk'⟩ := ih (i + 1)
      { r.2 with sector := Function.update r.2.sector i r.1 }
    exact ⟨hregs'.trans hregs, hmoves'.trans hmoves, hwrites'.trans hwrites, hblk'.trans hblk⟩

/-! ## What a write takes from the guest -/

theorem guestRead_regs (bus : Bus R) (v : Vhd R) (i : Nat) : (guestRead bus v i).regs = v.regs := by
  induction i with
  | zero => rfl
  | succ i ih => exact ((machineRead_frame bus (bufByte v i) (guestRead bus v i)).1).trans ih

/-- A read of the bus does not see the sector buffer. -/
theorem machineRead_sector (bus : Bus R) (addr : Addr) (sector : Nat → Byte) (v : Vhd R) :
    machineRead bus addr { v with sector } =
      ((machineRead bus addr v).1, { (machineRead bus addr v).2 with sector }) := by
  unfold machineRead
  split <;> rfl

/-- The loop leaves the guest's bytes in the sector buffer. -/
theorem getLoop_sector (bus : Bus R) (v : Vhd R) (n i : Nat) (sector : Nat → Byte) :
    (getLoop bus n i { guestRead bus v i with sector }).sector =
      splice sector i n fun k => guestByte bus v (i + k) := by
  induction n generalizing i sector with
  | zero => exact splice_zero.symm
  | succ n ih =>
    have haddr : (guestRead bus v i).regs.bufAddr + BitVec.ofNat 16 i = bufByte v i := by
      rw [guestRead_regs]
      rfl
    unfold getLoop
    dsimp only
    rw [haddr, machineRead_sector]
    refine (ih (i + 1) _).trans ?_
    funext k
    by_cases hk : k = i
    · rw [hk, splice_out (by omega), Function.update_self, splice_in (by omega) (by omega),
        Nat.sub_self, Nat.add_zero]
      rfl
    · by_cases hrest : i + 1 ≤ k ∧ k < i + 1 + n
      · rw [splice_in hrest.1 hrest.2, splice_in (by omega) (by omega)]
        congr 1
        omega
      · rw [splice_out (by omega), splice_out (by omega), Function.update_of_ne hk]

theorem getLoop_byte (bus : Bus R) (v : Vhd R) {i : Nat} (hi : i < blockSize) :
    (getLoop bus blockSize 0 v).sector i = guestByte bus v i := by
  have hloop := getLoop_sector bus v blockSize 0 v.sector
  have hstart : { guestRead bus v 0 with sector := v.sector } = v := rfl
  rw [hstart] at hloop
  rw [hloop, splice_in (Nat.zero_le i) (by omega), Nat.sub_zero, Nat.zero_add]

theorem commandImage_same {cmd : Byte} {v : Vhd R} (io : BlkIo) (bus : Bus R)
    (h : writesBlock cmd v = false) : commandImage io bus cmd v = v.blk.image.byte := by
  unfold commandImage
  rw [h]
  rfl

theorem offset_inRange {offset : Nat} (h : offset < vhdMaxBytes) :
    offset ≠ unknown ∧ offset + blockSize < 2 ^ 32 := by
  unfold vhdMaxBytes at h
  unfold unknown blockSize
  omega

/-- A write command stores the guest's block at its offset, as far as the card moves it. -/
theorem storeSector_stored (io : BlkIo) (bus : Bus R) {v : Vhd R} (hok : VhdOk v)
    (hrange : v.regs.offset < vhdMaxBytes) :
    Stored v.blk (blockfileWrite io v.regs.offset (getLoop bus blockSize 0 v).sector blockSize
      v.blk).2 v.regs.offset (writeCount io v.regs.offset blockSize v.blk) (guestByte bus v) := by
  obtain ⟨hcached, _⟩ := hok v.regs.driveSel
  obtain ⟨hne, hin⟩ := offset_inRange hrange
  obtain ⟨_, hstored, _⟩ :=
    blockfileWrite_spec io (getLoop bus blockSize 0 v).sector (s := v.blk) hcached hne hin
  have hle := writeCount_le io v.regs.offset blockSize v.blk
  refine { hstored with byte := hstored.byte.trans (splice_congr fun k hk => ?_) }
  exact getLoop_byte bus v (by omega)

theorem putLoop_grown {put : Addr → Byte → Vhd R → Option (Vhd R)}
    (hput : ∀ addr val v v', put addr val v = some v' → Grown v v') {n i : Nat} {v v' : Vhd R}
    (h : putLoop put n i v = some v') : Grown v v' := by
  induction n generalizing i v with
  | zero =>
    rw [← Option.some.inj h]
    exact .refl v
  | succ n ih =>
    unfold putLoop at h
    dsimp only at h
    obtain ⟨u, hu, hrest⟩ := Option.bind_eq_some_iff.mp h
    have hstep := hput _ _ _ _ hu
    have hlogged : Grown v { v with
        writes := v.writes ++ [(v.regs.bufAddr + BitVec.ofNat 16 i, v.sector i)] } :=
      ⟨List.prefix_rfl, List.prefix_append _ _⟩
    exact (hlogged.trans hstep).trans (ih hrest)

theorem cmdWrite_grown (io : BlkIo) (bus : Bus R) (v : Vhd R) : Grown v (cmdWrite io bus v) := by
  obtain ⟨_, hmoves, hwrites, _⟩ := getLoop_frame bus blockSize 0 v
  unfold cmdWrite
  split
  · exact .of_eq rfl rfl
  · split
    · exact .of_eq rfl rfl
    · refine ⟨?_, ?_⟩
      · unfold storeSector Vhd.setBlk
        dsimp only
        rw [hmoves]
        exact List.prefix_append _ _
      · unfold storeSector Vhd.setBlk
        dsimp only
        rw [hwrites]

theorem machineWrite_grown (io : Nat → BlkIo) (bus : Bus R) {fuel : Nat} {addr : Addr} {val : Byte}
    {v v' : Vhd R} (h : machineWrite io bus fuel addr val v = some v') : Grown v v' := by
  induction fuel generalizing addr val v v' with
  | zero => exact nomatch h
  | succ fuel ih =>
    unfold machineWrite at h
    split at h
    · unfold vhdWrite at h
      split at h
      · unfold command at h
        split at h
        · rw [← Option.some.inj h]
          exact .of_eq rfl rfl
        · split at h
          · -- a read: the block, then whatever its bytes do
            unfold cmdRead at h
            split at h
            · rw [← Option.some.inj h]
              exact .of_eq rfl rfl
            · obtain ⟨u, hu, hstatus⟩ := Option.map_eq_some_iff.mp h
              have hload : Grown v (loadSector (io v.moves.length) v) :=
                ⟨List.prefix_append _ _, List.prefix_rfl⟩
              have hput := putLoop_grown (fun addr val u u' hu => @ih addr val u u' hu) hu
              rw [← hstatus]
              exact (hload.trans hput).trans (.of_eq rfl rfl)
          · split at h
            · rw [← Option.some.inj h]
              exact cmdWrite_grown _ bus v
            · split at h
              · rw [← Option.some.inj h]
                exact .of_eq rfl rfl
              · rw [← Option.some.inj h]
                exact .of_eq rfl rfl
      · rw [← Option.some.inj h]
        exact .of_eq rfl rfl
    · rw [← Option.some.inj h]
      exact .of_eq rfl rfl

/-! ## A harmless transfer -/

/-- What a byte of a transfer leaves alone when it has no effect. -/
structure Undisturbed (v v' : Vhd R) : Prop where
  regs : v'.regs = v.regs
  blk : v'.blk = v.blk
  sector : v'.sector = v.sector
  moves : v'.moves = v.moves
  writes : v'.writes = v.writes

theorem machineWrite_noEffect (io : Nat → BlkIo) (bus : Bus R) (fuel : Nat) {addr : Addr}
    {val : Byte} {v : Vhd R} (hopen : blockfileIsOpen v.blk.bf = true)
    (hoffset : v.regs.offset < vhdMaxBytes) (h : vhdIsPort addr = true → NoEffect v addr val) :
    ∃ v', machineWrite io bus (fuel + 1) addr val v = some v' ∧ Undisturbed v v' := by
  unfold machineWrite
  by_cases hport : vhdIsPort addr = true
  · have hnone := h hport
    unfold NoEffect at hnone
    rw [if_pos hport]
    unfold vhdWrite
    by_cases hcmd : addr = 0xFF83
    · rw [if_pos hcmd] at hnone
      rw [if_pos hcmd]
      unfold command
      rw [hopen, if_neg (by decide)]
      rcases hnone with hlarge | ⟨hone, hreadOnly⟩
      · have hne : ∀ k : Byte, k.toNat < 3 → val ≠ k := fun k hk heq => by
          rw [heq] at hlarge
          omega
        rw [if_neg (hne 0 (by decide)), if_neg (hne 1 (by decide)), if_neg (hne 2 (by decide))]
        exact ⟨_, rfl, rfl, rfl, rfl, rfl, rfl⟩
      · rw [hone, if_neg (by decide), if_pos rfl]
        unfold cmdWrite
        rw [if_neg (Nat.not_le_of_lt hoffset), if_pos hreadOnly]
        exact ⟨_, rfl, rfl, rfl, rfl, rfl, rfl⟩
    · rw [if_neg hcmd] at hnone
      rw [if_neg hcmd, hnone]
      exact ⟨_, rfl, rfl, rfl, rfl, rfl, rfl⟩
  · rw [if_neg hport]
    exact ⟨_, rfl, rfl, rfl, rfl, rfl, rfl⟩

theorem blockWrites_succ (v : Vhd R) (block : Nat → Byte) (n i : Nat) :
    blockWrites v block (n + 1) i = (bufByte v i, block i) :: blockWrites v block n (i + 1) := by
  unfold blockWrites
  rw [List.range'_succ, List.map_cons]

theorem putLoop_harmless (io : Nat → BlkIo) (bus : Bus R) (fuel : Nat) {n i : Nat} {v : Vhd R}
    (hopen : blockfileIsOpen v.blk.bf = true) (hoffset : v.regs.offset < vhdMaxBytes)
    (h : ∀ k, i ≤ k → k < i + n → vhdIsPort (bufByte v k) = true →
      NoEffect v (bufByte v k) (v.sector k)) :
    ∃ v', putLoop (machineWrite io bus (fuel + 1)) n i v = some v' ∧ v'.regs = v.regs ∧
      v'.blk = v.blk ∧ v'.moves = v.moves ∧
      v'.writes = v.writes ++ blockWrites v v.sector n i := by
  induction n generalizing i v with
  | zero => exact ⟨v, rfl, rfl, rfl, rfl, (List.append_nil _).symm⟩
  | succ n ih =>
    unfold putLoop
    dsimp only
    obtain ⟨u, hu, hsame⟩ := @machineWrite_noEffect R io bus fuel (bufByte v i) (v.sector i)
      { v with writes := v.writes ++ [(bufByte v i, v.sector i)] } hopen hoffset
      fun hport => h i (Nat.le_refl i) (by omega) hport
    have hblk : u.blk = v.blk := hsame.blk
    have hregs : u.regs = v.regs := hsame.regs
    have hbyte : ∀ k, bufByte u k = bufByte v k := by
      intro k
      unfold bufByte
      rw [hregs]
    obtain ⟨w, hw, hregs', hblk', hmoves', hwrites'⟩ := @ih (i + 1) u (by rw [hblk]; exact hopen)
      (by rw [hregs]; exact hoffset) fun k hk hk' hport => by
        have hold := h k (by omega) (by omega)
        unfold NoEffect at hold ⊢
        rw [hsame.sector, hbyte, hregs, hblk]
        rw [hbyte] at hport
        exact hold hport
    have hbuf : bufByte v i = v.regs.bufAddr + BitVec.ofNat 16 i := rfl
    rw [← hbuf, hu, Option.bind_some]
    refine ⟨w, hw, hregs'.trans hregs, hblk'.trans hblk, hmoves'.trans hsame.moves, ?_⟩
    have hrest : blockWrites u u.sector n (i + 1) = blockWrites v v.sector n (i + 1) := by
      unfold blockWrites
      refine List.map_congr_left fun k _ => ?_
      rw [hbyte, hsame.sector]
    rw [hwrites', hsame.writes, hrest, blockWrites_succ, List.append_assoc]
    rfl

/-! ## A transfer that went as it should -/

/-- What a byte of a transfer can do that moves no further block. -/
structure Quiet (addr : Addr) (val : Byte) (v v' : Vhd R) : Prop where
  writes : v'.writes = v.writes
  readOnly : ∀ d, (v'.drives d).readOnly = (v.drives d).readOnly
  mounted : ∀ d, blockfileIsOpen (v'.drives d) = blockfileIsOpen (v.drives d)
  other : vhdIsPort addr = false → v'.regs = v.regs
  register : vhdIsPort addr = true → addr ≠ 0xFF83 → v'.regs = v.regs.write addr val
  command : addr = 0xFF83 → v'.regs.bufAddr = 0 ∨ v'.regs = v.regs ∧
    (blockfileIsOpen v.blk.bf = true → v.regs.offset < vhdMaxBytes →
      3 ≤ val.toNat ∨ val = 1 ∧ v.blk.bf.readOnly = true)

theorem cmdFlush_flags (v : Vhd R) (d : HardDrive) :
    ((cmdFlush v).drives d).readOnly = (v.drives d).readOnly ∧
      blockfileIsOpen ((cmdFlush v).drives d) = blockfileIsOpen (v.drives d) := by
  have hflush : ∀ bf : BlockFile, (blockfileFlush bf).readOnly = bf.readOnly ∧
      blockfileIsOpen (blockfileFlush bf) = blockfileIsOpen bf := by
    intro bf
    unfold blockfileFlush
    split <;> exact ⟨rfl, rfl⟩
  unfold cmdFlush Vhd.setBlk Vhd.blk
  dsimp only
  by_cases hd : d = v.regs.driveSel
  · rw [hd, Function.update_self]
    exact hflush _
  · rw [Function.update_of_ne hd]
    exact ⟨rfl, rfl⟩

theorem toNat_of_ge {val : Byte} (h0 : val ≠ 0) (h1 : val ≠ 1) (h2 : val ≠ 2) : 3 ≤ val.toNat := by
  by_contra hlt
  have hcases : val.toNat = 0 ∨ val.toNat = 1 ∨ val.toNat = 2 := by omega
  rcases hcases with heq | heq | heq
  · exact h0 (BitVec.eq_of_toNat_eq heq)
  · exact h1 (BitVec.eq_of_toNat_eq heq)
  · exact h2 (BitVec.eq_of_toNat_eq heq)

/-- A list is not a prefix of what it extends by an element. -/
theorem append_singleton_not_below {α : Type} {xs ys : List α} {x : α} (h : xs ++ [x] <+: ys)
    (heq : ys = xs) : False := by
  have hlen := h.length_le
  rw [heq, List.length_append, List.length_singleton] at hlen
  omega

theorem machineWrite_quiet (io : Nat → BlkIo) (bus : Bus R) {fuel : Nat} {addr : Addr} {val : Byte}
    {v v' : Vhd R} (h : machineWrite io bus fuel addr val v = some v')
    (hmoves : v'.moves = v.moves) : Quiet addr val v v' := by
  cases fuel with
  | zero => exact nomatch h
  | succ fuel =>
    unfold machineWrite at h
    by_cases hport : vhdIsPort addr = true
    · rw [if_pos hport] at h
      have hnot : ¬vhdIsPort addr = false := fun hno => absurd (hport.symm.trans hno) (by decide)
      unfold vhdWrite at h
      by_cases hcmd : addr = 0xFF83
      · rw [if_pos hcmd] at h
        -- only the status, or a flush
        have hstatus : ∀ st : Byte, (blockfileIsOpen v.blk.bf = true → v.regs.offset < vhdMaxBytes →
            3 ≤ val.toNat ∨ val = 1 ∧ v.blk.bf.readOnly = true) →
            some (v.setStatus st) = some v' → Quiet addr val v v' := by
          intro st hval heq
          rw [← Option.some.inj heq]
          exact ⟨rfl, fun _ => rfl, fun _ => rfl, fun hno => absurd hno hnot,
            fun _ hne => absurd hcmd hne, fun _ => .inr ⟨rfl, hval⟩⟩
        unfold command at h
        by_cases hopen : blockfileIsOpen v.blk.bf = true
        · rw [hopen, if_neg (by decide)] at h
          by_cases hread : val = 0
          · rw [if_pos hread] at h
            unfold cmdRead at h
            by_cases hrange : vhdMaxBytes ≤ v.regs.offset
            · rw [if_pos hrange] at h
              exact hstatus _ (fun _ hlt => absurd hrange (Nat.not_le_of_lt hlt)) h
            · rw [if_neg hrange] at h
              obtain ⟨u, hu, hset⟩ := Option.map_eq_some_iff.mp h
              have hgrown := (putLoop_grown (fun _ _ _ _ hput => machineWrite_grown io bus hput) hu).moves
              have hsame : u.moves = v.moves := by
                rw [← hmoves, ← hset]
                rfl
              exact (append_singleton_not_below hgrown hsame).elim
          · rw [if_neg hread] at h
            by_cases hwrite : val = 1
            · rw [if_pos hwrite] at h
              unfold cmdWrite at h
              by_cases hrange : vhdMaxBytes ≤ v.regs.offset
              · rw [if_pos hrange] at h
                exact hstatus _ (fun _ hlt => absurd hrange (Nat.not_le_of_lt hlt)) h
              · rw [if_neg hrange] at h
                by_cases hreadOnly : v.blk.bf.readOnly = true
                · rw [if_pos hreadOnly] at h
                  exact hstatus _ (fun _ _ => .inr ⟨hwrite, hreadOnly⟩) h
                · rw [if_neg hreadOnly] at h
                  obtain ⟨_, hget, _, _⟩ := getLoop_frame bus blockSize 0 v
                  rw [← Option.some.inj h] at hmoves
                  unfold storeSector at hmoves
                  dsimp only at hmoves
                  rw [hget] at hmoves
                  exact (append_singleton_not_below List.prefix_rfl hmoves).elim
            · rw [if_neg hwrite] at h
              by_cases hflush : val = 2
              · rw [if_pos hflush] at h
                have hbuf : (cmdFlush v).regs.bufAddr = 0 := by
                  change (0 : Byte) ++ (0 : Byte) = (0 : Addr)
                  decide
                rw [← Option.some.inj h]
                exact ⟨rfl, fun d => (cmdFlush_flags v d).1, fun d => (cmdFlush_flags v d).2,
                  fun hno => absurd hno hnot, fun _ hne => absurd hcmd hne, fun _ => .inl hbuf⟩
              · rw [if_neg hflush] at h
                exact hstatus _ (fun _ _ => .inl (toNat_of_ge hread hwrite hflush)) h
        · rw [Bool.eq_false_iff.mpr hopen, if_pos (by decide)] at h
          exact hstatus _ (fun hyes => absurd hyes hopen) h
      · rw [if_neg hcmd] at h
        rw [← Option.some.inj h]
        exact ⟨rfl, fun _ => rfl, fun _ => rfl, fun hno => absurd hno hnot, fun _ _ => rfl,
          fun heq => absurd heq hcmd⟩
    · rw [if_neg hport] at h
      rw [← Option.some.inj h]
      have hcmd : addr ≠ 0xFF83 := fun heq => hport (by rw [heq]; rfl)
      exact ⟨rfl, fun _ => rfl, fun _ => rfl, fun _ => rfl, fun hyes => absurd hyes hport,
        fun heq => absurd heq hcmd⟩

/-- The registers that none of the bytes from `i` on lands on are as in `r`. -/
structure AgreeOff (hit : Addr → Prop) (r r' : Regs) : Prop where
  high : ¬hit 0xFF80 → r'.high = r.high
  mid : ¬hit 0xFF81 → r'.mid = r.mid
  low : ¬hit 0xFF82 → r'.low = r.low
  bufHigh : ¬hit 0xFF84 → r'.bufHigh = r.bufHigh
  bufLow : ¬hit 0xFF85 → r'.bufLow = r.bufLow
  driveSel : ¬hit 0xFF86 → r'.driveSel = r.driveSel

/-- A byte on one register leaves the others. -/
theorem Regs.write_frame (addr : Addr) (val : Byte) (r : Regs) :
    AgreeOff (fun a => a = addr) r (r.write addr val) := by
  unfold Regs.write
  constructor <;> intro hne <;> grind

/-- If the registers agree after a byte on one of them, off those that later bytes land on,
then the byte left that register as it is in `r`. -/
theorem AgreeOff.write {hit : Addr → Prop} {addr : Addr} {val : Byte} {r x : Regs}
    (h : AgreeOff hit r (x.write addr val)) (hfresh : ¬hit addr) :
    AgreeOff (fun a => a = addr ∨ hit a) r x ∧ r.write addr val = r := by
  obtain ⟨f0, f1, f2, f4, f5, f6⟩ := Regs.write_frame addr val x
  obtain ⟨h0, h1, h2, h4, h5, h6⟩ := h
  have hoff : ∀ {a : Addr}, ¬(a = addr ∨ hit a) → ¬a = addr ∧ ¬hit a := fun hne => not_or.mp hne
  refine ⟨⟨fun hne => ?_, fun hne => ?_, fun hne => ?_, fun hne => ?_, fun hne => ?_,
    fun hne => ?_⟩, ?_⟩
  · exact (f0 (hoff hne).1).symm.trans (h0 (hoff hne).2)
  · exact (f1 (hoff hne).1).symm.trans (h1 (hoff hne).2)
  · exact (f2 (hoff hne).1).symm.trans (h2 (hoff hne).2)
  · exact (f4 (hoff hne).1).symm.trans (h4 (hoff hne).2)
  · exact (f5 (hoff hne).1).symm.trans (h5 (hoff hne).2)
  · exact (f6 (hoff hne).1).symm.trans (h6 (hoff hne).2)
  · unfold Regs.write at h0 h1 h2 h4 h5 h6 ⊢
    clear f0 f1 f2 f4 f5 f6
    cases r
    grind

/-- From byte `i` on a transfer ended as it should: no further block was moved, its bytes
are those of the block in the buffer, and the registers are those of `v`. -/
structure WentWell (io : Nat → BlkIo) (bus : Bus R) (fuel : Nat) (v : Vhd R) (block : Nat → Byte)
    (n i : Nat) (x w : Vhd R) : Prop where
  loop : putLoop (machineWrite io bus fuel) n i x = some w
  moves : w.moves = x.moves
  writes : w.writes = x.writes ++ blockWrites v block n i
  regs : w.regs = v.regs

section

variable {io : Nat → BlkIo} {bus : Bus R} {fuel n i : Nat} {v x w : Vhd R} {block : Nat → Byte}

/-- Its first byte is that of the block, and moved no further block. -/
theorem WentWell.step (h : WentWell io bus fuel v block (n + 1) i x w) :
    ∃ u, Quiet (bufByte v i) (block i)
        { x with writes := x.writes ++ [(bufByte v i, block i)] } u ∧
      WentWell io bus fuel v block n (i + 1) u w ∧ x.regs.bufAddr = v.regs.bufAddr := by
  obtain ⟨hloop, hmoves, hwrites, hregs⟩ := h
  unfold putLoop at hloop
  dsimp only at hloop
  obtain ⟨u, hu, hrest⟩ := Option.bind_eq_some_iff.mp hloop
  have hput := machineWrite_grown io bus hu
  have htail := putLoop_grown (fun _ _ _ _ hstep => machineWrite_grown io bus hstep) hrest
  have hsame : u.moves = x.moves := by
    refine (hput.moves.eq_of_length_le ?_).symm
    rw [← hmoves]
    exact htail.moves.length_le
  have hquiet := machineWrite_quiet io bus hu hsame
  obtain ⟨ws, hws⟩ := htail.writes
  have hlogged : u.writes = x.writes ++ [(x.regs.bufAddr + BitVec.ofNat 16 i, x.sector i)] :=
    hquiet.writes
  rw [hwrites, hlogged, blockWrites_succ, List.append_assoc] at hws
  obtain ⟨hbyte, htl⟩ := List.cons.inj (List.append_cancel_left hws)
  have haddr : x.regs.bufAddr + BitVec.ofNat 16 i = bufByte v i := congrArg Prod.fst hbyte
  have hval : x.sector i = block i := congrArg Prod.snd hbyte
  rw [haddr, hval] at hquiet hlogged
  refine ⟨u, hquiet, ⟨hrest, hmoves.trans hsame.symm, ?_, hregs⟩, (BitVec.add_left_inj _).mp haddr⟩
  rw [hwrites, hlogged, blockWrites_succ, List.append_assoc]
  rfl

theorem WentWell.bufAddr (h : WentWell io bus fuel v block n i x w) :
    x.regs.bufAddr = v.regs.bufAddr := by
  cases n with
  | zero =>
    have hend : x = w := Option.some.inj h.loop
    rw [hend, h.regs]
  | succ n =>
    obtain ⟨_, _, _, hbuf⟩ := h.step
    exact hbuf

theorem bufByte_inj {k : Nat} (hi : i < blockSize) (hk : k < blockSize)
    (h : bufByte v i = bufByte v k) : i = k := by
  unfold bufByte at h
  have hnat := congrArg BitVec.toNat ((BitVec.add_right_inj _).mp h)
  rw [BitVec.toNat_ofNat, BitVec.toNat_ofNat] at hnat
  unfold blockSize at hi hk
  omega

/-- No byte was a flush: it would have moved the buffer away from the controller. -/
theorem WentWell.no_flush {u : Vhd R} (h : WentWell io bus fuel v block n (i + 1) u w)
    (hi : i < blockSize) (hcmd : bufByte v i = 0xFF83) : u.regs.bufAddr ≠ 0 := by
  intro hzero
  have hbuf := h.bufAddr
  rw [hzero] at hbuf
  unfold bufByte at hcmd
  have hsum : (0 : Addr) + BitVec.ofNat 16 i = BitVec.ofNat 16 i := BitVec.zero_add _
  rw [← hbuf, hsum] at hcmd
  have hnat := congrArg BitVec.toNat hcmd
  rw [BitVec.toNat_ofNat] at hnat
  unfold blockSize at hi
  have hport : (0xFF83 : Addr).toNat = 0xFF83 := rfl
  omega

/-- Does a byte from `i` on land on this address? -/
def hits (v : Vhd R) (n i : Nat) (addr : Addr) : Prop :=
  ∃ k, i ≤ k ∧ k < i + n ∧ addr = bufByte v k

theorem AgreeOff.mono {hit hit' : Addr → Prop} {r r' : Regs} (h : AgreeOff hit r r')
    (himp : ∀ a, hit a → hit' a) : AgreeOff hit' r r' :=
  ⟨fun hne => h.high fun hh => hne (himp _ hh), fun hne => h.mid fun hh => hne (himp _ hh),
    fun hne => h.low fun hh => hne (himp _ hh), fun hne => h.bufHigh fun hh => hne (himp _ hh),
    fun hne => h.bufLow fun hh => hne (himp _ hh), fun hne => h.driveSel fun hh => hne (himp _ hh)⟩

/-- Going back from the end: what a byte wrote to a register was there to stay, so it was
there from the start. -/
theorem putLoop_keeps (h : WentWell io bus fuel v block n i x w) (hin : i + n ≤ blockSize) :
    AgreeOff (hits v n i) v.regs x.regs ∧
      ∀ k, i ≤ k → k < i + n → vhdIsPort (bufByte v k) = true → bufByte v k ≠ 0xFF83 →
        v.regs.write (bufByte v k) (block k) = v.regs := by
  induction n generalizing i x with
  | zero =>
    have hend : x = w := Option.some.inj h.loop
    rw [hend, h.regs]
    exact ⟨⟨fun _ => rfl, fun _ => rfl, fun _ => rfl, fun _ => rfl, fun _ => rfl, fun _ => rfl⟩,
      fun k hk hk' => absurd hk' (by omega)⟩
  | succ n ih =>
    obtain ⟨u, hquiet, hrest, _⟩ := h.step
    obtain ⟨hagree, hlater⟩ := ih hrest (by omega)
    have hmore : ∀ a, hits v n (i + 1) a → hits v (n + 1) i a := by
      rintro a ⟨k, hk, hk', heq⟩
      exact ⟨k, by omega, by omega, heq⟩
    have hfirst : hits v (n + 1) i (bufByte v i) := ⟨i, Nat.le_refl i, by omega, rfl⟩
    have hfresh : ¬hits v n (i + 1) (bufByte v i) := by
      rintro ⟨k, hk, hk', heq⟩
      have hsame := bufByte_inj (i := i) (k := k) (by omega) (by omega) heq
      omega
    have hstep : AgreeOff (hits v (n + 1) i) v.regs x.regs ∧
        (vhdIsPort (bufByte v i) = true → bufByte v i ≠ 0xFF83 →
          v.regs.write (bufByte v i) (block i) = v.regs) := by
      by_cases hport : vhdIsPort (bufByte v i) = true
      · by_cases hcmd : bufByte v i = 0xFF83
        · have hsame : u.regs = x.regs := by
            rcases hquiet.command hcmd with hzero | ⟨hsame, _⟩
            · exact absurd hzero (hrest.no_flush (by omega) hcmd)
            · exact hsame
          rw [hsame] at hagree
          exact ⟨hagree.mono hmore, fun _ hne => absurd hcmd hne⟩
        · rw [hquiet.register hport hcmd] at hagree
          obtain ⟨hback, hkept⟩ := hagree.write hfresh
          refine ⟨hback.mono fun a ha => ?_, fun _ _ => hkept⟩
          rcases ha with rfl | hlate
          · exact hfirst
          · exact hmore a hlate
      · have hsame : u.regs = x.regs := hquiet.other (Bool.eq_false_iff.mpr hport)
        rw [hsame] at hagree
        exact ⟨hagree.mono hmore, fun hyes => absurd hyes hport⟩
    refine ⟨hstep.1, fun k hk hk' => ?_⟩
    by_cases heq : k = i
    · rw [heq]
      exact hstep.2
    · exact hlater k (by omega) (by omega)

/-- Going forward: the registers stay, so a byte on $FF83 met the same image. -/
theorem putLoop_commands (h : WentWell io bus fuel v block n i x w) (hin : i + n ≤ blockSize)
    (hregs : x.regs = v.regs)
    (hreadOnly : ∀ d, (x.drives d).readOnly = (v.drives d).readOnly)
    (hmounted : ∀ d, blockfileIsOpen (x.drives d) = blockfileIsOpen (v.drives d))
    (hopen : blockfileIsOpen v.blk.bf = true) (hoffset : v.regs.offset < vhdMaxBytes)
    (hkept : ∀ k, i ≤ k → k < i + n → vhdIsPort (bufByte v k) = true → bufByte v k ≠ 0xFF83 →
      v.regs.write (bufByte v k) (block k) = v.regs) :
    ∀ k, i ≤ k → k < i + n → bufByte v k = 0xFF83 →
      3 ≤ (block k).toNat ∨ block k = 1 ∧ v.blk.bf.readOnly = true := by
  induction n generalizing i x with
  | zero => exact fun k hk hk' => absurd hk' (by omega)
  | succ n ih =>
    obtain ⟨u, hquiet, hrest, _⟩ := h.step
    have hsame : u.regs = x.regs := by
      by_cases hport : vhdIsPort (bufByte v i) = true
      · by_cases hcmd : bufByte v i = 0xFF83
        · rcases hquiet.command hcmd with hzero | ⟨hsame, _⟩
          · exact absurd hzero (hrest.no_flush (by omega) hcmd)
          · exact hsame
        · have hreg : u.regs = x.regs.write (bufByte v i) (block i) := hquiet.register hport hcmd
          rw [hreg, hregs]
          exact hkept i (Nat.le_refl i) (by omega) hport hcmd
      · exact hquiet.other (Bool.eq_false_iff.mpr hport)
    intro k hk hk' hcmd
    by_cases heq : k = i
    · rw [heq] at hcmd ⊢
      rcases hquiet.command hcmd with hzero | ⟨_, hval⟩
      · exact absurd hzero (hrest.no_flush (by omega) hcmd)
      · have hopen' : blockfileIsOpen (x.drives x.regs.driveSel) = true := by
          rw [hmounted, hregs]
          exact hopen
        have hro : (x.drives x.regs.driveSel).readOnly = v.blk.bf.readOnly := by
          rw [hreadOnly, hregs]
          rfl
        have hval' : 3 ≤ (block i).toNat ∨
            block i = 1 ∧ (x.drives x.regs.driveSel).readOnly = true :=
          hval hopen' (by rw [hregs]; exact hoffset)
        rw [hro] at hval'
        exact hval'
    · exact ih hrest (by omega) (hsame.trans hregs)
        (fun d => (hquiet.readOnly d).trans (hreadOnly d))
        (fun d => (hquiet.mounted d).trans (hmounted d))
        (fun k hk hk' => hkept k (by omega) (by omega)) k (by omega) (by omega) hcmd

end

/-! ## Commands -/

theorem readLoop_frame (io : BlkIo) (fuel done len : Nat) (buf : Nat → Byte) (s : Blk) :
    (readLoop io fuel done len buf s).2.2.bf.readOnly = s.bf.readOnly ∧
      (readLoop io fuel done len buf s).2.2.bf.path = s.bf.path := by
  induction fuel generalizing done buf s with
  | zero => exact ⟨rfl, rfl⟩
  | succ fuel ih =>
    unfold readLoop
    split
    · exact ⟨rfl, rfl⟩
    · dsimp only
      split
      · exact ⟨rfl, rfl⟩
      · exact ih _ _ _

theorem position_frame (io : BlkIo) (offset : Nat) (write : Bool) (s : Blk) :
    (position io offset write s).2.bf.readOnly = s.bf.readOnly ∧
      (position io offset write s).2.bf.path = s.bf.path := by
  unfold position
  split
  · exact ⟨rfl, rfl⟩
  · split
    · exact ⟨rfl, rfl⟩
    · exact ⟨rfl, rfl⟩

theorem ensureOpen_frame (io : BlkIo) (s : Blk) :
    (ensureOpen io s).2.bf.readOnly = s.bf.readOnly ∧ (ensureOpen io s).2.bf.path = s.bf.path := by
  unfold ensureOpen
  split
  · exact ⟨rfl, rfl⟩
  · dsimp only
    split
    · exact ⟨rfl, rfl⟩
    · split
      · exact ⟨rfl, rfl⟩
      · exact ⟨rfl, rfl⟩

theorem blockfileRead_frame (io : BlkIo) (offset : Nat) (buf : Nat → Byte) (len : Nat) (s : Blk) :
    (blockfileRead io offset buf len s).2.2.bf.readOnly = s.bf.readOnly ∧
      (blockfileRead io offset buf len s).2.2.bf.path = s.bf.path := by
  obtain ⟨hopenRo, hopenPath⟩ := ensureOpen_frame io s
  obtain ⟨hposRo, hposPath⟩ := position_frame io offset false (ensureOpen io s).2
  unfold blockfileRead
  dsimp only
  split
  · exact ⟨rfl, rfl⟩
  · split
    · exact ⟨hopenRo, hopenPath⟩
    · split
      · exact ⟨hposRo.trans hopenRo, hposPath.trans hopenPath⟩
      · obtain ⟨hloopRo, hloopPath⟩ := readLoop_frame io (min len (s.bf.size - offset)) 0
          (min len (s.bf.size - offset)) buf (position io offset false (ensureOpen io s).2).2
        exact ⟨hloopRo.trans (hposRo.trans hopenRo), hloopPath.trans (hposPath.trans hopenPath)⟩

section

variable {io : Nat → BlkIo} {bus : Bus R} {cmd : Byte} {v : Vhd R}

/-- Loading the block changes neither what is mounted nor what is read-only. -/
theorem loadSector_flags (i : BlkIo) (v : Vhd R) (d : HardDrive) :
    ((loadSector i v).drives d).readOnly = (v.drives d).readOnly ∧
      blockfileIsOpen ((loadSector i v).drives d) = blockfileIsOpen (v.drives d) := by
  obtain ⟨hreadOnly, hpath⟩ := blockfileRead_frame i v.regs.offset v.sector blockSize v.blk
  unfold loadSector Vhd.setBlk
  dsimp only
  by_cases hd : d = v.regs.driveSel
  · rw [hd, Function.update_self]
    refine ⟨hreadOnly, ?_⟩
    unfold blockfileIsOpen
    rw [hpath]
    rfl
  · rw [Function.update_of_ne hd]
    exact ⟨rfl, rfl⟩

theorem readsBlock_iff : readsBlock cmd v = true ↔
    cmd = 0 ∧ blockfileIsOpen v.blk.bf = true ∧ v.regs.offset < vhdMaxBytes := by
  unfold readsBlock
  rw [Bool.and_eq_true, Bool.and_eq_true, beq_iff_eq, decide_eq_true_iff, and_assoc]

/-- A read that moves a block is the transfer of that block. -/
theorem machineWrite_read (hread : readsBlock cmd v = true) (fuel : Nat) :
    machineWrite io bus (fuel + 1) 0xFF83 cmd v =
      (putLoop (machineWrite io bus fuel) blockSize 0 (loadSector (io v.moves.length) v)).map
        (Vhd.setStatus vhdStOk) := by
  obtain ⟨hcmd, hopen, hoffset⟩ := readsBlock_iff.mp hread
  have hport : vhdIsPort 0xFF83 = true := rfl
  rw [machineWrite, if_pos hport, vhdWrite, if_pos rfl, command, hopen, if_neg (by decide), hcmd,
    if_pos rfl, cmdRead, if_neg (Nat.not_le_of_lt hoffset)]

theorem writesBlock_iff : writesBlock cmd v = true ↔
    cmd = 1 ∧ blockfileIsOpen v.blk.bf = true ∧ v.regs.offset < vhdMaxBytes ∧
      v.blk.bf.readOnly = false := by
  unfold writesBlock
  rw [Bool.and_eq_true, Bool.and_eq_true, Bool.and_eq_true, beq_iff_eq, decide_eq_true_iff,
    Bool.not_eq_true', and_assoc, and_assoc]

/-- A command that moves no block leaves the histories and the card alone. -/
theorem OneTransfer.of_still {i : BlkIo} {v' : Vhd R} (hread : readsBlock cmd v = false)
    (hwrite : writesBlock cmd v = false) (hregs : v'.regs = commandRegs cmd v)
    (hmoves : v'.moves = v.moves) (hwrites : v'.writes = v.writes) (hcard : v'.card = v.card) :
    OneTransfer i bus cmd v v' := by
  refine ⟨hregs, ?_, ?_, fun _ => ?_⟩
  · unfold commandMoves
    rw [hread, hwrite, hmoves]
    exact (List.append_nil _).symm
  · unfold commandWrites
    rw [hread, hwrites]
    exact (List.append_nil _).symm
  · rw [commandImage_same _ bus hwrite, hcard]
    rfl

/-- A command that is no flush either only sets the status. -/
theorem oneTransfer_setStatus {i : BlkIo} (hread : readsBlock cmd v = false)
    (hwrite : writesBlock cmd v = false) (hflush : (cmd == 2 && blockfileIsOpen v.blk.bf) = false)
    (st : Byte) : OneTransfer i bus cmd v (v.setStatus st) := by
  refine .of_still hread hwrite ?_ rfl rfl rfl
  unfold commandRegs
  rw [hflush]
  rfl

/-- A write that moves a block: the block is the guest's buffer, and goes to the image. -/
theorem oneTransfer_storeSector {i : BlkIo} (hwrite : writesBlock cmd v = true) :
    OneTransfer i bus cmd v (storeSector i (getLoop bus blockSize 0 v)) := by
  obtain ⟨hcmd, -, hoffset, -⟩ := writesBlock_iff.mp hwrite
  have hread : readsBlock cmd v = false := by
    rw [hcmd]
    rfl
  obtain ⟨hregs, hmoves, hwrites, hblk⟩ := getLoop_frame bus blockSize 0 v
  have hstored := fun hok : VhdOk v => storeSector_stored i bus hok hoffset
  generalize getLoop bus blockSize 0 v = u at hregs hmoves hwrites hblk hstored
  refine ⟨?_, ?_, ?_, fun hok => ?_⟩
  · unfold commandRegs
    rw [hcmd]
    exact hregs
  · unfold commandMoves storeSector
    dsimp only
    rw [hread, hwrite, hmoves, hregs]
    rfl
  · unfold commandWrites
    rw [hread]
    exact hwrites.trans (List.append_nil _).symm
  · have himage := (hstored hok).byte
    unfold Blk.image at himage
    rw [(hstored hok).path] at himage
    unfold commandImage storeSector Vhd.setBlk
    rw [hwrite, if_pos rfl, hregs, hblk]
    exact himage

/-- A flush clears the registers of the offset and of the buffer. -/
theorem oneTransfer_cmdFlush {i : BlkIo} (hcmd : cmd = 2)
    (hopen : blockfileIsOpen v.blk.bf = true) : OneTransfer i bus cmd v (cmdFlush v) := by
  have hread : readsBlock cmd v = false := by
    rw [hcmd]
    rfl
  have hwrite : writesBlock cmd v = false := by
    rw [hcmd]
    rfl
  refine .of_still hread hwrite ?_ rfl rfl rfl
  unfold commandRegs
  rw [hcmd, hopen]
  rfl

/-- A write command either moves its block or only sets the status. -/
theorem oneTransfer_cmdWrite {i : BlkIo} (hcmd : cmd = 1)
    (hopen : blockfileIsOpen v.blk.bf = true) : OneTransfer i bus cmd v (cmdWrite i bus v) := by
  have hread : readsBlock cmd v = false := by
    rw [hcmd]
    rfl
  have hflush : (cmd == 2 && blockfileIsOpen v.blk.bf) = false := by
    rw [hcmd]
    rfl
  unfold cmdWrite
  split
  next hrange =>
    refine oneTransfer_setStatus hread (Bool.eq_false_iff.mpr fun hwrite => ?_) hflush _
    exact absurd (writesBlock_iff.mp hwrite).2.2.1 (Nat.not_lt_of_le hrange)
  next hrange =>
    split
    next hreadOnly =>
      refine oneTransfer_setStatus hread (Bool.eq_false_iff.mpr fun hwrite => ?_) hflush _
      exact absurd (writesBlock_iff.mp hwrite).2.2.2 (by simp [hreadOnly])
    next hreadOnly =>
      exact oneTransfer_storeSector (writesBlock_iff.mpr
        ⟨hcmd, hopen, Nat.lt_of_not_le hrange, Bool.eq_false_iff.mpr hreadOnly⟩)

/-- The other commands complete at once. -/
theorem machineWrite_other (hread : readsBlock cmd v = false) :
    ∃ v', machineWrite io bus 1 0xFF83 cmd v = some v' ∧
      OneTransfer (io v.moves.length) bus cmd v v' := by
  have hport : vhdIsPort 0xFF83 = true := rfl
  rw [machineWrite, if_pos hport, vhdWrite, if_pos rfl, command]
  by_cases hopen : blockfileIsOpen v.blk.bf = true
  · rw [hopen, if_neg (by decide)]
    by_cases h0 : cmd = 0
    · have hrange : vhdMaxBytes ≤ v.regs.offset := by
        by_contra hlt
        rw [readsBlock_iff.mpr ⟨h0, hopen, Nat.lt_of_not_le hlt⟩] at hread
        exact absurd hread (by decide)
      rw [if_pos h0, cmdRead, if_pos hrange]
      refine ⟨_, rfl, oneTransfer_setStatus hread ?_ ?_ _⟩
      · rw [h0]
        rfl
      · rw [h0]
        rfl
    rw [if_neg h0]
    by_cases h1 : cmd = 1
    · rw [if_pos h1]
      exact ⟨_, rfl, oneTransfer_cmdWrite h1 hopen⟩
    rw [if_neg h1]
    by_cases h2 : cmd = 2
    · rw [if_pos h2]
      exact ⟨_, rfl, oneTransfer_cmdFlush h2 hopen⟩
    rw [if_neg h2]
    refine ⟨_, rfl, oneTransfer_setStatus hread (Bool.eq_false_iff.mpr fun hwrite => ?_) ?_ _⟩
    · exact h1 (writesBlock_iff.mp hwrite).1
    · rw [beq_eq_false_iff_ne.mpr h2, Bool.false_and]
  · have hno := Bool.eq_false_iff.mpr hopen
    rw [hno, if_pos (by decide)]
    refine ⟨_, rfl, oneTransfer_setStatus hread (Bool.eq_false_iff.mpr fun hwrite => ?_) ?_ _⟩
    · exact hopen (writesBlock_iff.mp hwrite).2.1
    · rw [hno, Bool.and_false]

theorem commandWrites_read (hread : readsBlock cmd v = true) (i : BlkIo) :
    commandRegs cmd v = v.regs ∧ commandMoves cmd v = [⟨false, v.regs.offset⟩] ∧
      commandWrites i cmd v = blockWrites v (readBlock i v) blockSize 0 := by
  obtain ⟨hcmd, _, _⟩ := readsBlock_iff.mp hread
  refine ⟨?_, ?_, ?_⟩
  · unfold commandRegs
    rw [hcmd]
    rfl
  · unfold commandMoves
    rw [hread]
    rfl
  · unfold commandWrites
    rw [hread]
    rfl

/-- A transfer that went as it should was harmless. -/
theorem OneTransfer.harmless {fuel : Nat} {v' : Vhd R}
    (hrun : machineWrite io bus fuel 0xFF83 cmd v = some v')
    (h : OneTransfer (io v.moves.length) bus cmd v v') : Harmless (io v.moves.length) cmd v := by
  intro hread i hi hport
  obtain ⟨hregs, hmoves, hwrites, _⟩ := h
  obtain ⟨heregs, hemoves, hewrites⟩ := commandWrites_read hread (io v.moves.length)
  obtain ⟨hcmd, hopen, hoffset⟩ := readsBlock_iff.mp hread
  have hflags := loadSector_flags (io v.moves.length) v
  rw [heregs] at hregs
  rw [hemoves] at hmoves
  rw [hewrites] at hwrites
  cases fuel with
  | zero => exact nomatch hrun
  | succ fuel =>
    rw [machineWrite_read hread] at hrun
    obtain ⟨w, hw, hset⟩ := Option.map_eq_some_iff.mp hrun
    rw [← hset] at hregs hmoves hwrites
    have hwell : WentWell io bus fuel v (readBlock (io v.moves.length) v) blockSize 0
        (loadSector (io v.moves.length) v) w := ⟨hw, hmoves, hwrites, hregs⟩
    obtain ⟨_, hkept⟩ := putLoop_keeps hwell (Nat.le_of_eq (Nat.zero_add _))
    have hcommands := putLoop_commands hwell (Nat.le_of_eq (Nat.zero_add _)) rfl
      (fun d => (hflags d).1) (fun d => (hflags d).2) hopen hoffset hkept
    unfold NoEffect
    split
    · rename_i hstart
      exact hcommands i (Nat.zero_le i) (by omega) hstart
    · rename_i hstart
      exact hkept i (Nat.zero_le i) (by omega) hport hstart

/-- A harmless transfer goes as it should. -/
theorem Harmless.oneTransfer (hread : readsBlock cmd v = true)
    (h : Harmless (io v.moves.length) cmd v) (fuel : Nat) :
    ∃ v', machineWrite io bus (fuel + 2) 0xFF83 cmd v = some v' ∧
      OneTransfer (io v.moves.length) bus cmd v v' := by
  obtain ⟨heregs, hemoves, hewrites⟩ := commandWrites_read hread (io v.moves.length)
  obtain ⟨hcmd, hopen, hoffset⟩ := readsBlock_iff.mp hread
  have hflags := loadSector_flags (io v.moves.length) v
  have hsel : (loadSector (io v.moves.length) v).blk.bf =
      (loadSector (io v.moves.length) v).drives v.regs.driveSel := rfl
  obtain ⟨w, hw, hregs, hblk, hmoves, hwrites⟩ := @putLoop_harmless R io bus fuel blockSize 0
    (loadSector (io v.moves.length) v) (by rw [hsel, (hflags _).2]; exact hopen) hoffset
    fun k _ hk hport => by
      have hnone := h hread k (by omega) hport
      unfold NoEffect at hnone ⊢
      rw [hsel, (hflags _).1]
      exact hnone
  refine ⟨w.setStatus vhdStOk, ?_, hregs.trans heregs.symm, ?_, ?_, fun hok => ?_⟩
  · rw [machineWrite_read hread, hw]
    rfl
  · rw [hemoves]
    exact hmoves
  · rw [hewrites]
    exact hwrites
  · obtain ⟨hcached, hsize⟩ := hok v.regs.driveSel
    obtain ⟨_, _, haccess, _⟩ := blockfileRead_spec (io v.moves.length) v.regs.offset v.sector
      blockSize (s := v.blk) hcached hsize
    have hwrite : writesBlock cmd v = false := by
      unfold writesBlock
      rw [hcmd]
      rfl
    have hcard : w.card = v.card := (congrArg Blk.card hblk).trans haccess.card
    rw [commandImage_same _ bus hwrite]
    exact congrArg (fun card => (fileAt card v.blk.bf.path).byte) hcard

/-- For every setting of the registers, every image and card, and every machine behind the
bus: a command written to $FF83 completes after at most the one block of the offset that was
set, puts that block and nothing else on the bus, leaves the registers as it should, and changes
nothing in the image but what a write moves of the guest's block, exactly when no byte of the
block lands on the controller with an effect. -/
theorem vhd_one_transfer (io : Nat → BlkIo) (bus : Bus R) (cmd : Byte) (v : Vhd R) :
    (∃ fuel v', machineWrite io bus fuel 0xFF83 cmd v = some v' ∧
      OneTransfer (io v.moves.length) bus cmd v v') ↔ Harmless (io v.moves.length) cmd v := by
  constructor
  · rintro ⟨fuel, v', hrun, hone⟩
    exact hone.harmless hrun
  · intro h
    by_cases hread : readsBlock cmd v = true
    · obtain ⟨v', hrun, hone⟩ := @Harmless.oneTransfer R io bus cmd v hread h 0
      exact ⟨2, v', hrun, hone⟩
    · obtain ⟨v', hrun, hone⟩ := @machineWrite_other R io bus cmd v (Bool.eq_false_iff.mpr hread)
      exact ⟨1, v', hrun, hone⟩

end

/-- Memory that answers zero and forgets what is written. -/
def emptyBus : Bus Unit where
  read := fun _ _ => (0, ())
  write := fun _ _ _ => ()

/-- An image of zeros in drive 0, and the buffer over the controller. -/
def bufferOverController : Vhd Unit where
  regs := { bufHigh := 0xFF }
  drives := fun _ => { path := ['/', 'h'], size := 256 }
  card := fun _ => some ⟨256, fun _ => 0⟩
  rest := ()

/-- The byte for $FF83 is a read command again. -/
theorem bufferOverController_reenters :
    ¬∀ (io : Nat → BlkIo) (cmd : Byte) (v : Vhd Unit), ∃ fuel v',
      machineWrite io emptyBus fuel 0xFF83 cmd v = some v' ∧
        OneTransfer (io v.moves.length) emptyBus cmd v v' := by
  intro hall
  obtain ⟨fuel, v', hrun, hone⟩ := hall (fun _ => {}) 0 bufferOverController
  have hnone := hone.harmless hrun (by decide) 0x83 (by decide) (by decide)
  have hbyte : readBlock {} bufferOverController 0x83 = 0 := by decide +kernel
  unfold NoEffect at hnone
  rw [if_pos (by decide), hbyte] at hnone
  exact absurd hnone (by decide)

end CocoEmulator.Storage
