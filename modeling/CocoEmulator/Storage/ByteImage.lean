/-
  Storage/ByteImage.lean --- a block file is an array of bytes.

  The abstract image (`ByteImage`) is written at the requested offset and read there.
  The block file refines it: its cached position, while it is known and the
  direction is unchanged, is that of the stream (`Cached`), so that every transfer
  falls where it was asked for.

      blockfileRead_spec, blockfileWrite_spec    one access
      blockfile_refines                          every run of accesses that stay
                                                 inside 32-bit offsets
-/
import CocoEmulator.Storage.BlockFile

set_option autoImplicit false

namespace CocoEmulator.Storage

open CocoEmulator.Base CocoEmulator.Disk

/-! ## The stream -/

/-- The stream stands at `p`, ready to go on in this direction. -/
def Stands (write : Bool) (p : Nat) (bf : BlockFile) : Prop :=
  ∃ st : Stream, bf.file = some st ∧ st.pos = p ∧ st.wrote ≠ some (!write)

/-- The cached position is that of the stream. -/
def Cached (bf : BlockFile) : Prop :=
  bf.file.isSome = true → bf.pos ≠ unknown → Stands bf.lastWrite bf.pos bf

section

variable {s : Blk} {p : Nat}

theorem Stands.at {write : Bool} (h : Stands write p s.bf) : s.at = p := by
  obtain ⟨st, hfile, hpos, _⟩ := h
  unfold Blk.at
  rw [hfile]
  exact hpos

/-- A stream that goes on in its direction is not turned round. -/
theorem Stands.advance {write : Bool} (h : Stands write p s.bf) (n : Nat) :
    Stands write (p + n) (s.advance write n).bf ∧ (s.advance write n).turned = s.turned := by
  have hat := h.at
  obtain ⟨st, hfile, hpos, hwrote⟩ := h
  refine ⟨⟨⟨s.at + n, some write⟩, rfl, by rw [hat], ?_⟩, ?_⟩
  · intro heq
    have hflip : write = !write := Option.some.inj heq
    cases write
    · exact Bool.false_ne_true hflip
    · exact Bool.false_ne_true hflip.symm
  · have hsame : (s.bf.file.getD {}).wrote ≠ some (!write) := by
      rw [hfile]
      exact hwrote
    unfold Blk.advance
    dsimp only
    rw [beq_eq_false_iff_ne.mpr hsame, Bool.or_false]

/-- Everything but the stream is as before. -/
structure SameBlk (s s' : Blk) : Prop where
  card : s'.card = s.card
  turned : s'.turned = s.turned
  bf : s'.bf = { s.bf with file := s'.bf.file }

theorem SameBlk.refl (s : Blk) : SameBlk s s := ⟨rfl, rfl, rfl⟩

theorem SameBlk.trans {s' s'' : Blk} (h : SameBlk s s') (h' : SameBlk s' s'') : SameBlk s s'' := by
  refine ⟨h'.card.trans h.card, h'.turned.trans h.turned, ?_⟩
  rw [h'.bf, h.bf]

theorem SameBlk.path {s' : Blk} (h : SameBlk s s') : s'.bf.path = s.bf.path := by
  rw [h.bf]

theorem SameBlk.image {s' : Blk} (h : SameBlk s s') : s'.image = s.image := by
  unfold Blk.image
  rw [h.path, h.card]

/-! ## The loops -/

/-- How much the read loop moves: what the card moves, up to the end of the file. -/
def readMoved (io : BlkIo) (size offset : Nat) (fuel done remaining : Nat) : Nat :=
  moved bounceSize (fun d => min (io.moves d) (size - (offset + d))) fuel done remaining

theorem readLoop_spec (io : BlkIo) {fuel done len offset : Nat} (buf : Nat → Byte) {s : Blk}
    (hfuel : len - done ≤ fuel) (hdone : done ≤ len) (hat : Stands false (offset + done) s.bf) :
    (readLoop io fuel done len buf s).1 =
        done + readMoved io s.image.size offset fuel done (len - done) ∧
      (readLoop io fuel done len buf s).2.1 =
        splice buf done (readMoved io s.image.size offset fuel done (len - done))
          (fun k => s.image.byte (offset + done + k)) ∧
      SameBlk s (readLoop io fuel done len buf s).2.2 ∧
      Stands false (offset + (readLoop io fuel done len buf s).1)
        (readLoop io fuel done len buf s).2.2.bf := by
  induction fuel generalizing done buf s with
  | zero =>
    have hzero : readMoved io s.image.size offset 0 done (len - done) = 0 := rfl
    rw [hzero, splice_zero]
    exact ⟨rfl, rfl, .refl s, hat⟩
  | succ fuel ih =>
    unfold readLoop
    by_cases hend : len ≤ done
    · have hzero : readMoved io s.image.size offset (fuel + 1) done (len - done) = 0 := by
        have hle := moved_le bounceSize (fun d => min (io.moves d) (s.image.size - (offset + d)))
          (fuel + 1) done (len - done)
        unfold readMoved
        omega
      rw [if_pos hend, hzero, splice_zero]
      exact ⟨rfl, rfl, .refl s, hat⟩
    · have hpos := hat.at
      have hstep : min (min (io.moves done) (min bounceSize (len - done))) (s.image.size - s.at) =
          min (min (io.moves done) (s.image.size - (offset + done)))
            (min bounceSize (len - done)) := by
        rw [hpos]
        omega
      rw [if_neg hend]
      dsimp only
      rw [hstep]
      unfold readMoved moved
      have hle : min (min (io.moves done) (s.image.size - (offset + done)))
          (min bounceSize (len - done)) ≤ len - done := by omega
      generalize min (min (io.moves done) (s.image.size - (offset + done)))
        (min bounceSize (len - done)) = n at hle ⊢
      by_cases hnone : n = 0
      · rw [if_pos hnone, if_pos hnone, splice_zero]
        obtain ⟨hstands, hturned⟩ := hat.advance 0
        exact ⟨rfl, rfl, ⟨rfl, hturned, rfl⟩, hstands⟩
      · rw [if_neg hnone, if_neg hnone]
        obtain ⟨hstands, hturned⟩ := hat.advance n
        have hsame : SameBlk s (s.advance false n) := ⟨rfl, hturned, rfl⟩
        rw [Nat.add_assoc] at hstands
        obtain ⟨hcount, hbuf, hrest, hfinal⟩ := @ih (done + n)
          (splice buf done n fun k => s.image.byte (s.at + k)) (s.advance false n) (by omega)
          (by omega) hstands
        have hremain : len - (done + n) = len - done - n := by omega
        have himage := hsame.image
        unfold readMoved at hcount hbuf
        rw [himage, hremain] at hcount hbuf
        refine ⟨by rw [hcount, Nat.add_assoc], ?_, hsame.trans hrest, hfinal⟩
        rw [hbuf, hpos]
        have hjoin := @splice_append _ buf (fun k => s.image.byte (offset + done + k)) done n
          (moved bounceSize (fun d => min (io.moves d) (s.image.size - (offset + d))) fuel
            (done + n) (len - done - n))
        rw [← hjoin]
        congr 1
        funext k
        congr 1
        omega

/-- From `s` to `s'` the stream wrote `n` bytes at `p` into the image, and nothing else. -/
structure Wrote (s s' : Blk) (p n : Nat) (src : Nat → Byte) : Prop where
  byte : s'.image.byte = splice s.image.byte p n src
  size : s'.image.size = if n = 0 then s.image.size else max s.image.size (p + n)
  other : ∀ path, path ≠ s.bf.path → s'.card path = s.card path
  some : (s.card s.bf.path).isSome = true → (s'.card s.bf.path).isSome = true
  turned : s'.turned = s.turned
  bf : s'.bf = { s.bf with file := s'.bf.file }

theorem Wrote.path {s' : Blk} {n : Nat} {src : Nat → Byte} (h : Wrote s s' p n src) :
    s'.bf.path = s.bf.path := by
  rw [h.bf]

theorem Wrote.none {s' : Blk} {src : Nat → Byte} (h : SameBlk s s') : Wrote s s' p 0 src := by
  refine ⟨?_, ?_, fun path _ => by rw [h.card], fun hsome => by rw [h.card]; exact hsome, h.turned,
    h.bf⟩
  · rw [h.image, splice_zero]
  · rw [h.image, if_pos rfl]

theorem Wrote.trans {s' s'' : Blk} {n m : Nat} {src : Nat → Byte} (h : Wrote s s' p n src)
    (h' : Wrote s' s'' (p + n) m fun k => src (n + k)) : Wrote s s'' p (n + m) src := by
  have hpath := h.path
  refine ⟨?_, ?_, fun path hne => ?_, fun hsome => ?_, h'.turned.trans h.turned, ?_⟩
  · rw [h'.byte, h.byte, splice_append]
  · rw [h'.size, h.size]
    split <;> split <;> split <;> omega
  · rw [h'.other path (by rw [hpath]; exact hne), h.other path hne]
  · have hmid := h.some hsome
    rw [← hpath] at hmid ⊢
    exact h'.some hmid
  · rw [h'.bf, h.bf]

/-- One call of `file.write`. -/
theorem write_wrote (h : Stands true p s.bf) {n : Nat} (hn : n ≠ 0) (src : Nat → Byte) :
    Wrote s { s.advance true n with card := s.card.put s.bf.path (fileWrite s.image s.at n src) }
      p n src := by
  have hat := h.at
  have hturned := (h.advance n).2
  have hput : fileAt (s.card.put s.bf.path (fileWrite s.image s.at n src)) s.bf.path =
      fileWrite s.image s.at n src := by
    unfold fileAt Card.put
    rw [if_pos rfl]
    rfl
  have himage : Blk.image { s.advance true n with
      card := s.card.put s.bf.path (fileWrite s.image s.at n src) } =
      fileWrite s.image s.at n src := hput
  refine ⟨?_, ?_, fun path hne => ?_, fun _ => ?_, hturned, rfl⟩
  · rw [himage]
    unfold fileWrite
    rw [hat]
  · rw [himage, if_neg hn]
    unfold fileWrite
    rw [hat]
  · unfold Card.put
    exact if_neg hne
  · unfold Card.put
    dsimp only
    rw [if_pos rfl]
    rfl

/-- How much the write loop moves: what the card moves. -/
def writeMoved (io : BlkIo) (fuel done remaining : Nat) : Nat :=
  moved bounceSize io.moves fuel done remaining

theorem writeLoop_spec (io : BlkIo) {fuel done len offset : Nat} (buf : Nat → Byte) {s : Blk}
    (hfuel : len - done ≤ fuel) (hdone : done ≤ len) (hat : Stands true (offset + done) s.bf) :
    (writeLoop io fuel done len buf s).1 = done + writeMoved io fuel done (len - done) ∧
      Wrote s (writeLoop io fuel done len buf s).2 (offset + done)
        (writeMoved io fuel done (len - done)) (fun k => buf (done + k)) ∧
      Stands true (offset + (writeLoop io fuel done len buf s).1)
        (writeLoop io fuel done len buf s).2.bf := by
  induction fuel generalizing done s with
  | zero => exact ⟨rfl, .none (.refl s), hat⟩
  | succ fuel ih =>
    unfold writeLoop
    by_cases hend : len ≤ done
    · have hzero : writeMoved io (fuel + 1) done (len - done) = 0 := by
        have hle := moved_le bounceSize io.moves (fuel + 1) done (len - done)
        unfold writeMoved
        omega
      rw [if_pos hend, hzero]
      exact ⟨rfl, .none (.refl s), hat⟩
    · rw [if_neg hend]
      dsimp only
      unfold writeMoved moved
      have hle : min (io.moves done) (min bounceSize (len - done)) ≤ len - done := by omega
      generalize min (io.moves done) (min bounceSize (len - done)) = n at hle ⊢
      by_cases hnone : n = 0
      · rw [if_pos hnone, if_pos hnone]
        obtain ⟨hstands, hturned⟩ := hat.advance 0
        exact ⟨rfl, .none ⟨rfl, hturned, rfl⟩, hstands⟩
      · rw [if_neg hnone, if_neg hnone]
        obtain ⟨hstands, _⟩ := hat.advance n
        have hwrote := write_wrote hat hnone fun k => buf (done + k)
        rw [Nat.add_assoc] at hstands
        obtain ⟨hcount, hrest, hfinal⟩ := @ih (done + n) { s.advance true n with
            card := s.card.put s.bf.path (fileWrite s.image s.at n fun k => buf (done + k)) }
          (by omega) (by omega) hstands
        have hremain : len - (done + n) = len - done - n := by omega
        unfold writeMoved at hcount hrest
        rw [hremain] at hcount hrest
        refine ⟨by rw [hcount, Nat.add_assoc], hwrote.trans ?_, hfinal⟩
        have hsrc : (fun k => buf (done + n + k)) = fun k => buf (done + (n + k)) := by
          funext k
          rw [Nat.add_assoc]
        rw [Nat.add_assoc, ← hsrc]
        exact hrest

end

/-! ## Accesses -/

section

variable {s : Blk}

/-- What opening and positioning may change. -/
structure Access (s s' : Blk) : Prop where
  card : s'.card = s.card
  turned : s'.turned = s.turned
  bf : s'.bf = { s.bf with
    file := s'.bf.file, pos := s'.bf.pos, lastMs := s'.bf.lastMs, lastWrite := s'.bf.lastWrite }

theorem Access.refl (s : Blk) : Access s s := ⟨rfl, rfl, rfl⟩

theorem Access.trans {s' s'' : Blk} (h : Access s s') (h' : Access s' s'') : Access s s'' := by
  refine ⟨h'.card.trans h.card, h'.turned.trans h.turned, ?_⟩
  rw [h'.bf, h.bf]

theorem SameBlk.access {s' : Blk} (h : SameBlk s s') : Access s s' := by
  refine ⟨h.card, h.turned, ?_⟩
  rw [h.bf]

theorem Access.path {s' : Blk} (h : Access s s') : s'.bf.path = s.bf.path := by
  rw [h.bf]

theorem Access.size {s' : Blk} (h : Access s s') : s'.bf.size = s.bf.size := by
  rw [h.bf]

theorem Access.image {s' : Blk} (h : Access s s') : s'.image = s.image := by
  unfold Blk.image
  rw [h.path, h.card]

/-- The stream is there, or can be opened. -/
def opensNow (io : BlkIo) (s : Blk) : Bool :=
  blockfileIsOpen s.bf && (s.bf.file.isSome || (io.opens && (s.card s.bf.path).isSome))

/-- The stream can be opened and put at the offset. -/
def reaches (io : BlkIo) (offset : Nat) (write : Bool) (s : Blk) : Bool :=
  opensNow io s &&
    (io.seeks || (s.bf.file.isSome && s.bf.pos == offset && s.bf.lastWrite == write))

theorem ensureOpen_spec (io : BlkIo) (h : Cached s.bf) :
    Access s (ensureOpen io s).2 ∧ Cached (ensureOpen io s).2.bf ∧
      (ensureOpen io s).1 = opensNow io s ∧
      (opensNow io s = true → (ensureOpen io s).2.bf.file.isSome = true ∧
        (ensureOpen io s).2.bf.lastWrite = s.bf.lastWrite ∧
        (ensureOpen io s).2.bf.pos = if s.bf.file.isSome then s.bf.pos else unknown) := by
  unfold ensureOpen opensNow
  by_cases hmounted : blockfileIsOpen s.bf = true
  · rw [hmounted, if_neg (by decide), Bool.true_and]
    dsimp only
    by_cases hopen : s.bf.file.isSome = true
    · rw [if_pos hopen, if_pos hopen, hopen, Bool.true_or]
      exact ⟨⟨rfl, rfl, rfl⟩, h, rfl, fun _ => ⟨rfl, rfl, rfl⟩⟩
    · rw [if_neg hopen, if_neg hopen, Bool.eq_false_iff.mpr hopen, Bool.false_or]
      by_cases hio : (io.opens && (s.card s.bf.path).isSome) = true
      · rw [if_pos hio, hio]
        exact ⟨⟨rfl, rfl, rfl⟩, fun _ hne => absurd rfl hne, rfl, fun _ => ⟨rfl, rfl, rfl⟩⟩
      · rw [if_neg hio, Bool.eq_false_iff.mpr hio]
        exact ⟨⟨rfl, rfl, rfl⟩, h, rfl, fun hno => absurd hno Bool.false_ne_true⟩
  · rw [Bool.eq_false_iff.mpr hmounted, if_pos (by decide), Bool.false_and]
    exact ⟨.refl s, h, rfl, fun hno => absurd hno Bool.false_ne_true⟩

theorem position_spec (io : BlkIo) {offset : Nat} {write : Bool} (h : Cached s.bf)
    (hopen : s.bf.file.isSome = true) (hoffset : offset ≠ unknown) :
    Access s (position io offset write s).2 ∧ Cached (position io offset write s).2.bf ∧
      (position io offset write s).1 =
        (io.seeks || (s.bf.pos == offset && s.bf.lastWrite == write)) ∧
      ((position io offset write s).1 = true →
        Stands write offset (position io offset write s).2.bf ∧
        (position io offset write s).2.bf.lastWrite = write) := by
  unfold position
  by_cases hsame : s.bf.pos = offset ∧ s.bf.lastWrite = write
  · have hstands := h hopen (by rw [hsame.1]; exact hoffset)
    rw [if_pos hsame, hsame.1, hsame.2, beq_self_eq_true, beq_self_eq_true, Bool.true_and,
      Bool.or_true]
    rw [hsame.1, hsame.2] at hstands
    exact ⟨.refl s, h, rfl, fun _ => ⟨hstands, rfl⟩⟩
  · have hne : (s.bf.pos == offset && s.bf.lastWrite == write) = false := by
      rw [Bool.and_eq_false_iff]
      by_cases hpos : s.bf.pos = offset
      · exact .inr (beq_eq_false_iff_ne.mpr fun hwrite => hsame ⟨hpos, hwrite⟩)
      · exact .inl (beq_eq_false_iff_ne.mpr hpos)
    rw [if_neg hsame, hne, Bool.or_false]
    by_cases hseek : io.seeks = true
    · rw [if_pos hseek, hseek]
      have hstands : Stands write offset { s.bf with
          lastWrite := write, file := some { pos := offset }, pos := offset } :=
        ⟨{ pos := offset }, rfl, rfl, fun heq => (nomatch heq)⟩
      exact ⟨⟨rfl, rfl, rfl⟩, fun _ _ => hstands, rfl, fun _ => ⟨hstands, rfl⟩⟩
    · rw [if_neg hseek, Bool.eq_false_iff.mpr hseek]
      exact ⟨⟨rfl, rfl, rfl⟩, fun _ hne => absurd rfl hne, rfl,
        fun hno => absurd hno Bool.false_ne_true⟩

/-- Opening and positioning for an access. -/
theorem reach_spec (io : BlkIo) {offset : Nat} {write : Bool} (h : Cached s.bf)
    (hoffset : offset ≠ unknown) (hopens : opensNow io s = true) :
    Access s (position io offset write (ensureOpen io s).2).2 ∧
      Cached (position io offset write (ensureOpen io s).2).2.bf ∧
      (position io offset write (ensureOpen io s).2).1 = reaches io offset write s ∧
      (reaches io offset write s = true →
        Stands write offset (position io offset write (ensureOpen io s).2).2.bf ∧
        (position io offset write (ensureOpen io s).2).2.bf.lastWrite = write) := by
  obtain ⟨haccess, hcached, _, hopen⟩ := ensureOpen_spec io h
  obtain ⟨hfile, hlast, hpos⟩ := hopen hopens
  obtain ⟨haccess', hcached', hok, hstands⟩ := @position_spec _ io offset write hcached hfile hoffset
  have hreaches : (position io offset write (ensureOpen io s).2).1 = reaches io offset write s := by
    rw [hok, hlast, hpos]
    unfold reaches
    rw [hopens, Bool.true_and]
    by_cases hsome : s.bf.file.isSome = true
    · rw [if_pos hsome, hsome, Bool.true_and]
    · have hne : (unknown == offset) = false := beq_eq_false_iff_ne.mpr hoffset.symm
      rw [if_neg hsome, Bool.eq_false_iff.mpr hsome, hne, Bool.false_and, Bool.false_and,
        Bool.false_and]
  refine ⟨haccess.trans haccess', hcached', hreaches, fun hreach => ?_⟩
  rw [← hreaches] at hreach
  exact hstands hreach

/-- How many bytes a read moves. -/
def readCount (io : BlkIo) (offset len : Nat) (s : Blk) : Nat :=
  if s.bf.size ≤ offset then 0
  else if reaches io offset false s then
    readMoved io s.image.size offset (min len (s.bf.size - offset)) 0
      (min len (s.bf.size - offset))
  else 0

theorem readMoved_le (io : BlkIo) (size offset fuel done remaining : Nat) :
    readMoved io size offset fuel done remaining ≤ remaining :=
  moved_le _ _ _ _ _

/-- A moved byte lies inside the file. -/
theorem readMoved_inside (io : BlkIo) (size offset : Nat) {fuel done remaining : Nat}
    (h : readMoved io size offset fuel done remaining ≠ 0) :
    offset + done + readMoved io size offset fuel done remaining ≤ size := by
  induction fuel generalizing done remaining with
  | zero => exact absurd rfl h
  | succ fuel ih =>
    unfold readMoved moved at h ⊢
    have hle : min (min (io.moves done) (size - (offset + done))) (min bounceSize remaining) ≤
        size - (offset + done) := by omega
    generalize min (min (io.moves done) (size - (offset + done))) (min bounceSize remaining) = n
      at hle h ⊢
    by_cases hnone : n = 0
    · rw [if_pos hnone] at h
      exact absurd rfl h
    · rw [if_neg hnone]
      have hrest := @ih (done + n) (remaining - n)
      unfold readMoved at hrest
      by_cases hlast : moved bounceSize
          (fun d => min (io.moves d) (size - (offset + d))) fuel (done + n) (remaining - n) = 0
      · rw [hlast]
        omega
      · have hinside := hrest hlast
        omega

/-- The cached position after an access is that of the stream. -/
theorem cached_after {bf : BlockFile} {offset done len : Nat} {write : Bool}
    (hlast : bf.lastWrite = write) (hstands : Stands write (offset + done) bf)
    (hrange : done = len → offset + done < 2 ^ 32) :
    Cached { bf with pos := posAfter offset done len } := by
  intro _ hne
  unfold posAfter at hne ⊢
  dsimp only at hne ⊢
  by_cases hall : done = len
  · rw [if_pos hall, hlast, Nat.mod_eq_of_lt (hrange hall)]
    exact hstands
  · rw [if_neg hall] at hne
    exact absurd rfl hne

/-- A read moves the bytes at the requested offset, and keeps the cached position right. -/
theorem blockfileRead_spec (io : BlkIo) (offset : Nat) (buf : Nat → Byte) (len : Nat)
    (h : Cached s.bf) (hsize : s.bf.size ≤ unknown) :
    (blockfileRead io offset buf len s).1 = readCount io offset len s ∧
      (blockfileRead io offset buf len s).2.1 =
        splice buf 0 (readCount io offset len s) (fun k => s.image.byte (offset + k)) ∧
      Access s (blockfileRead io offset buf len s).2.2 ∧
      Cached (blockfileRead io offset buf len s).2.2.bf := by
  unfold blockfileRead readCount
  by_cases hend : s.bf.size ≤ offset
  · rw [if_pos hend, if_pos hend, splice_zero]
    exact ⟨rfl, rfl, .refl s, h⟩
  · rw [if_neg hend, if_neg hend]
    dsimp only
    obtain ⟨haccess, hcached, hok, _⟩ := ensureOpen_spec io h
    by_cases hopens : opensNow io s = true
    · obtain ⟨haccess', hcached', hreach, hstands⟩ :=
        reach_spec io h (Nat.ne_of_lt (Nat.lt_of_lt_of_le (Nat.lt_of_not_le hend) hsize)) hopens
      rw [hok, hopens, if_neg (by decide), hreach]
      by_cases hyes : reaches io offset false s = true
      · rw [hyes, if_neg (by decide), if_pos rfl]
        obtain ⟨hat, hlast⟩ := hstands hyes
        obtain ⟨hcount, hbuf, hsame, hfinal⟩ := readLoop_spec io buf
          (Nat.le_refl (min len (s.bf.size - offset) - 0)) (Nat.zero_le _) hat
        rw [Nat.zero_add, Nat.sub_zero, haccess'.image] at hcount
        rw [Nat.sub_zero, haccess'.image] at hbuf
        rw [Nat.sub_zero] at hsame hfinal
        refine ⟨hcount, hbuf, haccess'.trans (hsame.access.trans ⟨rfl, rfl, rfl⟩), ?_⟩
        refine cached_after ?_ hfinal fun hall => ?_
        · rw [hsame.bf]
          exact hlast
        · unfold unknown at hsize
          omega
      · have hno := Bool.eq_false_iff.mpr hyes
        rw [hno, if_pos (by decide), if_neg (by decide), splice_zero]
        exact ⟨rfl, rfl, haccess', hcached'⟩
    · have hno := Bool.eq_false_iff.mpr hopens
      have hreach : reaches io offset false s = false := by
        unfold reaches
        rw [hno, Bool.false_and]
      rw [hok, hno, if_pos (by decide), hreach, if_neg (by decide), splice_zero]
      exact ⟨rfl, rfl, haccess, hcached⟩

/-- How many bytes a write moves. -/
def writeCount (io : BlkIo) (offset len : Nat) (s : Blk) : Nat :=
  if !s.bf.readOnly && reaches io offset true s then writeMoved io len 0 len else 0

theorem writeCount_le (io : BlkIo) (offset len : Nat) (s : Blk) : writeCount io offset len s ≤ len := by
  unfold writeCount
  split
  · exact moved_le _ _ _ _ _
  · exact Nat.zero_le _

/-- What a write leaves. -/
structure Stored (s s' : Blk) (offset n : Nat) (buf : Nat → Byte) : Prop where
  byte : s'.image.byte = splice s.image.byte offset n buf
  size : s'.image.size = if n = 0 then s.image.size else max s.image.size (offset + n)
  other : ∀ path, path ≠ s.bf.path → s'.card path = s.card path
  some : (s.card s.bf.path).isSome = true → (s'.card s.bf.path).isSome = true
  turned : s'.turned = s.turned
  path : s'.bf.path = s.bf.path
  readOnly : s'.bf.readOnly = s.bf.readOnly
  known : s'.bf.size = if n = 0 then s.bf.size else max s.bf.size (offset + n)

theorem Stored.none {s' : Blk} {offset : Nat} {buf : Nat → Byte} (h : Access s s') :
    Stored s s' offset 0 buf := by
  refine ⟨?_, ?_, fun path _ => by rw [h.card], fun hsome => by rw [h.card]; exact hsome, h.turned,
    h.path, ?_, ?_⟩
  · rw [h.image, splice_zero]
  · rw [h.image, if_pos rfl]
  · rw [h.bf]
  · rw [h.size, if_pos rfl]

/-- What is noted of a write, after the loop. -/
theorem Wrote.stored {t u : Blk} {offset n len : Nat} {buf : Nat → Byte} (h : Access s t)
    (hw : Wrote t u offset n buf) (hrange : offset + n < 2 ^ 32) :
    Stored s { u with bf := noteWrite offset n { u.bf with pos := posAfter offset n len } }
      offset n buf := by
  have hpath := hw.path.trans h.path
  have hnote : ∀ bf : BlockFile, (noteWrite offset n bf).path = bf.path ∧
      (noteWrite offset n bf).readOnly = bf.readOnly ∧
      (noteWrite offset n bf).size = if n = 0 then bf.size else max bf.size (offset + n) := by
    intro bf
    unfold noteWrite
    by_cases hnone : n = 0
    · rw [if_pos hnone, if_pos hnone]
      exact ⟨rfl, rfl, rfl⟩
    · rw [if_neg hnone, if_neg hnone, Nat.mod_eq_of_lt hrange]
      exact ⟨rfl, rfl, rfl⟩
  obtain ⟨hpath', hreadOnly', hsize'⟩ := hnote { u.bf with pos := posAfter offset n len }
  have himage : Blk.image { u with
      bf := noteWrite offset n { u.bf with pos := posAfter offset n len } } = u.image := by
    unfold Blk.image
    dsimp only
    rw [hpath']
  refine ⟨?_, ?_, fun path hne => ?_, fun hsome => ?_, hw.turned.trans h.turned,
    hpath'.trans hpath, ?_, ?_⟩
  · rw [himage, hw.byte, h.image]
  · rw [himage, hw.size, h.image]
  · have hother := hw.other path (by rw [h.path]; exact hne)
    rw [h.card] at hother
    exact hother
  · have hsome' := hw.some
    rw [h.path, h.card] at hsome'
    exact hsome' hsome
  · refine hreadOnly'.trans ?_
    dsimp only
    rw [hw.bf, h.bf]
  · refine hsize'.trans ?_
    have hkeep : u.bf.size = s.bf.size := by
      rw [hw.bf]
      exact h.size
    dsimp only
    rw [hkeep]

/-- A write moves its bytes to the requested offset, and keeps the cached position right. -/
theorem blockfileWrite_spec (io : BlkIo) {offset : Nat} (buf : Nat → Byte) {len : Nat}
    (h : Cached s.bf) (hoffset : offset ≠ unknown) (hrange : offset + len < 2 ^ 32) :
    (blockfileWrite io offset buf len s).1 = writeCount io offset len s ∧
      Stored s (blockfileWrite io offset buf len s).2 offset (writeCount io offset len s) buf ∧
      Cached (blockfileWrite io offset buf len s).2.bf := by
  unfold blockfileWrite writeCount
  by_cases hreadOnly : s.bf.readOnly = true
  · rw [if_pos hreadOnly, hreadOnly, Bool.not_true, Bool.false_and, if_neg (by decide)]
    exact ⟨rfl, .none (.refl s), h⟩
  · rw [if_neg hreadOnly, Bool.eq_false_iff.mpr hreadOnly, Bool.not_false, Bool.true_and]
    dsimp only
    obtain ⟨haccess, hcached, hok, _⟩ := ensureOpen_spec io h
    by_cases hopens : opensNow io s = true
    · obtain ⟨haccess', hcached', hreach, hstands⟩ :=
        reach_spec io h hoffset hopens
      rw [hok, hopens, if_neg (by decide), hreach]
      by_cases hyes : reaches io offset true s = true
      · rw [hyes, if_neg (by decide), if_pos rfl]
        obtain ⟨hat, hlast⟩ := hstands hyes
        obtain ⟨hcount, hwrote, hfinal⟩ := writeLoop_spec io buf
          (Nat.le_refl (len - 0)) (Nat.zero_le _) hat
        rw [Nat.zero_add, Nat.sub_zero] at hcount
        rw [Nat.sub_zero, Nat.add_zero] at hwrote
        rw [Nat.sub_zero] at hfinal
        have hle : writeMoved io len 0 len ≤ len := moved_le _ _ _ _ _
        have hsrc : (fun k => buf (0 + k)) = buf := by
          funext k
          rw [Nat.zero_add]
        rw [hsrc, ← hcount] at hwrote
        rw [← hcount] at hle ⊢
        refine ⟨rfl, hwrote.stored haccess' (by omega), ?_⟩
        have hcached'' := @cached_after _ offset _ len true (by rw [hwrote.bf]; exact hlast) hfinal
          fun _ => by omega
        unfold noteWrite
        split
        · exact hcached''
        · exact hcached''
      · have hno := Bool.eq_false_iff.mpr hyes
        rw [hno, if_pos (by decide), if_neg (by decide)]
        exact ⟨rfl, .none haccess', hcached'⟩
    · have hno := Bool.eq_false_iff.mpr hopens
      have hreach : reaches io offset true s = false := by
        unfold reaches
        rw [hno, Bool.false_and]
      rw [hok, hno, if_pos (by decide), hreach, if_neg (by decide)]
      exact ⟨rfl, .none haccess, hcached⟩

end

/-! ## The abstract image -/

/-- An array of bytes of which the first `size` are known. -/
structure ByteImage where
  size : Nat
  byte : Nat → Byte

/-- `n` bytes are stored at the offset. -/
def ByteImage.write (offset n : Nat) (src : Nat → Byte) (image : ByteImage) : ByteImage :=
  ⟨if n = 0 then image.size else max image.size (offset + n), splice image.byte offset n src⟩

def ByteImage.read (offset n : Nat) (image : ByteImage) : List Byte :=
  (List.range n).map fun k => image.byte (offset + k)

/-- What the users of a mounted image do. -/
inductive Op
  | read (io : BlkIo) (offset : Nat) (buf : Nat → Byte) (len : Nat)
  | write (io : BlkIo) (offset : Nat) (buf : Nat → Byte) (len : Nat)
  | flush
  | tick (nowMs : Nat)

/-- The block file, the abstract image that sees the same accesses, and for each read what
came back and what the abstract image held. -/
structure World where
  blk : Blk
  image : ByteImage
  reads : List (List Byte × List Byte) := []

def Op.step : Op → World → World
  | .read io offset buf len, w =>
      let (done, buf, blk) := blockfileRead io offset buf len w.blk
      { w with
        blk := blk
        reads := ((List.range done).map buf, w.image.read offset done) :: w.reads }
  | .write io offset buf len, w =>
      let (done, blk) := blockfileWrite io offset buf len w.blk
      { w with blk := blk, image := w.image.write offset done buf }
  | .flush, w => { w with blk := { w.blk with bf := blockfileFlush w.blk.bf } }
  | .tick nowMs, w => { w with blk := { w.blk with bf := blockfileTick nowMs w.blk.bf } }

/-- A write ends below the largest offset, which the cached position uses for unknown. -/
def Op.InRange : Op → Prop
  | .write _ offset _ len => offset + len < 2 ^ 32
  | _ => True

instance (op : Op) : Decidable op.InRange :=
  match op with
  | .write .. => inferInstanceAs (Decidable (_ < _))
  | .read .. | .flush | .tick _ => isTrue trivial

/-- The block file is the abstract image. -/
structure Refines (w : World) : Prop where
  byte : w.blk.image.byte = w.image.byte
  size : w.blk.bf.size = w.image.size
  known : w.blk.bf.size ≤ unknown
  cached : Cached w.blk.bf
  reads : ∀ r ∈ w.reads, r.1 = r.2
  straight : w.blk.turned = false

section

variable {w : World}

theorem Refines.read (h : Refines w) (io : BlkIo) (offset : Nat) (buf : Nat → Byte) (len : Nat) :
    Refines (Op.step (.read io offset buf len) w) := by
  obtain ⟨hcount, hbuf, haccess, hcached⟩ := blockfileRead_spec io offset buf len h.cached h.known
  have hbytes : (List.range (blockfileRead io offset buf len w.blk).1).map
      (blockfileRead io offset buf len w.blk).2.1 =
      w.image.read offset (blockfileRead io offset buf len w.blk).1 := by
    unfold ByteImage.read
    rw [hcount, hbuf]
    refine List.map_congr_left fun k hk => ?_
    have hlt := List.mem_range.mp hk
    rw [splice_in (Nat.zero_le _) (by omega), Nat.sub_zero, h.byte]
  refine ⟨?_, ?_, ?_, hcached, fun r hr => ?_, haccess.turned.trans h.straight⟩
  · exact (congrArg SdFile.byte haccess.image).trans h.byte
  · exact haccess.size.trans h.size
  · exact haccess.size.trans_le h.known
  · rcases List.mem_cons.mp hr with rfl | hold
    · exact hbytes
    · exact h.reads r hold

/-- A write of nothing at the largest offset changes nothing. -/
theorem blockfileWrite_nothing (io : BlkIo) (buf : Nat → Byte) {s : Blk} (h : Cached s.bf) :
    (blockfileWrite io unknown buf 0 s).1 = 0 ∧ Access s (blockfileWrite io unknown buf 0 s).2 ∧
      Cached (blockfileWrite io unknown buf 0 s).2.bf := by
  obtain ⟨haccess, hcached, _, _⟩ := ensureOpen_spec io h
  have hposition : ∀ t : Blk, Access t (position io unknown true t).2 ∧
      ((position io unknown true t).1 = false → Cached (position io unknown true t).2.bf) := by
    intro t
    unfold position
    split
    · exact ⟨.refl t, fun hno => (nomatch hno)⟩
    · split
      · exact ⟨⟨rfl, rfl, rfl⟩, fun hno => (nomatch hno)⟩
      · exact ⟨⟨rfl, rfl, rfl⟩, fun _ _ hne => absurd rfl hne⟩
  obtain ⟨haccess', hcached'⟩ := hposition (ensureOpen io s).2
  unfold blockfileWrite
  dsimp only
  split
  · exact ⟨rfl, .refl s, h⟩
  · split
    · exact ⟨rfl, haccess, hcached⟩
    · split
      · rename_i hno
        exact ⟨rfl, haccess.trans haccess', hcached' (by simpa using hno)⟩
      · exact ⟨rfl, (haccess.trans haccess').trans ⟨rfl, rfl, rfl⟩, fun _ hne => absurd rfl hne⟩

theorem Refines.write (h : Refines w) (io : BlkIo) {offset : Nat} (buf : Nat → Byte) {len : Nat}
    (hrange : offset + len < 2 ^ 32) : Refines (Op.step (.write io offset buf len) w) := by
  by_cases hoffset : offset = unknown
  · have hlen : len = 0 := by
      unfold unknown at hoffset
      omega
    obtain ⟨hcount, haccess, hcached⟩ := blockfileWrite_nothing io buf h.cached
    rw [hoffset, hlen]
    refine ⟨?_, ?_, haccess.size.trans_le h.known, hcached, h.reads,
      haccess.turned.trans h.straight⟩
    · refine (congrArg SdFile.byte haccess.image).trans (h.byte.trans ?_)
      dsimp only [Op.step, ByteImage.write]
      rw [hcount, splice_zero]
    · refine haccess.size.trans (h.size.trans ?_)
      dsimp only [Op.step, ByteImage.write]
      rw [hcount, if_pos rfl]
  · obtain ⟨hcount, hstored, hcached⟩ := blockfileWrite_spec io buf h.cached hoffset hrange
    have hle := writeCount_le io offset len w.blk
    rw [← hcount] at hstored hle
    refine ⟨?_, ?_, ?_, hcached, h.reads, hstored.turned.trans h.straight⟩
    · refine hstored.byte.trans ?_
      rw [h.byte]
      rfl
    · refine hstored.known.trans ?_
      rw [h.size]
      rfl
    · have hknown := h.known
      refine hstored.known.trans_le ?_
      unfold unknown at hknown ⊢
      split <;> omega

theorem Refines.flush (h : Refines w) : Refines (Op.step .flush w) := by
  have hflush : ∀ bf : BlockFile, (blockfileFlush bf).path = bf.path ∧
      (blockfileFlush bf).size = bf.size ∧ (Cached bf → Cached (blockfileFlush bf)) := by
    intro bf
    unfold blockfileFlush
    split
    · exact ⟨rfl, rfl, id⟩
    · exact ⟨rfl, rfl, id⟩
  obtain ⟨hpath, hsize, hcached⟩ := hflush w.blk.bf
  refine ⟨?_, hsize.trans h.size, hsize.trans_le h.known, hcached h.cached, h.reads, h.straight⟩
  have hbyte := h.byte
  unfold Blk.image at hbyte ⊢
  rw [← hpath] at hbyte
  exact hbyte

/-- An idle file is closed: its position is no longer of use. -/
theorem Refines.tick (h : Refines w) (nowMs : Nat) : Refines (Op.step (.tick nowMs) w) := by
  have hflush := h.flush
  unfold Op.step blockfileTick
  dsimp only
  split
  · exact h
  · split
    · exact h
    · exact ⟨hflush.byte, hflush.size, hflush.known, fun hno => absurd hno Bool.false_ne_true,
        hflush.reads, hflush.straight⟩

end

theorem Op.step_refines {op : Op} {w : World} (h : Refines w) (hrange : op.InRange) :
    Refines (op.step w) := by
  cases op with
  | read io offset buf len => exact h.read io offset buf len
  | write io offset buf len => exact h.write io buf hrange
  | flush => exact h.flush
  | tick nowMs => exact h.tick nowMs

theorem Op.step_size (op : Op) (w : World) : w.image.size ≤ (op.step w).image.size := by
  cases op with
  | write io offset buf len =>
    dsimp only [Op.step, ByteImage.write]
    split
    · exact Nat.le_refl _
    · exact Nat.le_max_left _ _
  | read io offset buf len => exact Nat.le_refl _
  | flush => exact Nat.le_refl _
  | tick nowMs => exact Nat.le_refl _

/-- The world after a mount. -/
def mountedWorld (bf : BlockFile) (card : Card) : World where
  blk := { bf := bf, card := card }
  image := ⟨bf.size, (fileAt card bf.path).byte⟩

theorem blockfileOpen_refines (io : OpenIo) (path : List Char) (card : Card) (bf : BlockFile) :
    Refines (mountedWorld (blockfileOpen io path card bf).2 card) := by
  have hopen : (blockfileOpen io path card bf).2.file = none ∧
      (blockfileOpen io path card bf).2.size ≤ unknown := by
    unfold blockfileOpen
    dsimp only
    split
    · exact ⟨rfl, Nat.zero_le _⟩
    · split
      · exact ⟨rfl, Nat.zero_le _⟩
      · refine ⟨rfl, ?_⟩
        unfold unknown
        dsimp only
        omega
  obtain ⟨hfile, hsize⟩ := hopen
  refine ⟨rfl, rfl, hsize, fun hsome => ?_, fun r hr => absurd hr List.not_mem_nil, rfl⟩
  have hsome' : (blockfileOpen io path card bf).2.file.isSome = true := hsome
  rw [hfile] at hsome'
  exact absurd hsome' Bool.false_ne_true

/-- From any mount, in every run of reads, writes, flushes and ticks of the idle timer whose
writes end below the largest offset, and whatever the card answers: the block file is the
abstract image, and its size never decreases. -/
theorem blockfile_refines (io : OpenIo) (path : List Char) (card : Card) (bf : BlockFile)
    (ops : List Op) (h : ∀ op ∈ ops, op.InRange) :
    Always Op.step Refines ops (mountedWorld (blockfileOpen io path card bf).2 card) ∧
      ∀ pre post, ops = pre ++ post →
        (runAll Op.step pre (mountedWorld (blockfileOpen io path card bf).2 card)).blk.bf.size ≤
          (runAll Op.step ops (mountedWorld (blockfileOpen io path card bf).2 card)).blk.bf.size := by
  have hrun : ∀ is : List Op, (∀ op ∈ is, op.InRange) →
      Always Op.step Refines is (mountedWorld (blockfileOpen io path card bf).2 card) := fun is his =>
    Always.of_step (blockfileOpen_refines io path card bf)
      (fun _ _ hw hrange => Op.step_refines hw hrange) (EachStep.of_forall fun op hop _ => his op hop)
  refine ⟨hrun ops h, fun pre post hsplit => ?_⟩
  have hpre := (hrun pre fun op hop => h op (by rw [hsplit]; exact List.mem_append_left _ hop)).last
  have hall := (hrun ops h).last
  rw [hpre.size, hall.size, hsplit, runAll_append]
  exact le_runAll Op.step_size post _

/-- A card with one image of two sectors. -/
def twoSectorCard : Card :=
  fun path => if path = ['/', 'h'] then some ⟨512, fun _ => 0⟩ else none

/-- Two sectors are written, the file is closed when idle, and they are read back. -/
theorem blockfile_refines_session :
    Always Op.step Refines
      [.write {} 256 (fun _ => 0x41) 256, .write {} 512 (fun _ => 0x42) 256, .tick 5000,
        .read {} 256 (fun _ => 0) 512]
      (mountedWorld (blockfileOpen {} ['/', 'h'] twoSectorCard {}).2 twoSectorCard) :=
  (blockfile_refines {} ['/', 'h'] twoSectorCard {} _ (by decide)).1

/-- A write whose seek fails, and one at the largest offset: that is the mark of an unknown
position, and the byte goes to where the stream stands. -/
def unknownOffset : List Op :=
  [.write { seeks := false } 0 (fun _ => 0) 1, .write {} unknown (fun _ => 0x41) 1]

theorem unknownOffset_misplaces :
    (runAll Op.step unknownOffset
      (mountedWorld (blockfileOpen {} ['/', 'h'] twoSectorCard {}).2 twoSectorCard)).blk.image.byte 0 =
        0x41 ∧
      ¬∀ ops, Always Op.step Refines ops
        (mountedWorld (blockfileOpen {} ['/', 'h'] twoSectorCard {}).2 twoSectorCard) := by
  have hplaced : (runAll Op.step unknownOffset
      (mountedWorld (blockfileOpen {} ['/', 'h'] twoSectorCard {}).2 twoSectorCard)).blk.image.byte 0 =
        0x41 := by
    decide +kernel
  have habstract : (runAll Op.step unknownOffset
      (mountedWorld (blockfileOpen {} ['/', 'h'] twoSectorCard {}).2 twoSectorCard)).image.byte 0 =
        0 := by
    decide +kernel
  refine ⟨hplaced, fun hall => ?_⟩
  have hbyte := congrFun (hall unknownOffset).last.byte 0
  rw [hplaced, habstract] at hbyte
  exact absurd hbyte (by decide)

end CocoEmulator.Storage
