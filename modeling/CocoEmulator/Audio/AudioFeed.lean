/-
  Audio/AudioFeed.lean --- the ring between the emulation loop and the DMA buffers.

  The emulator pushes one sample a scanline; a task fills DMA buffers from the
  other end.  At the end of a frame the producer steers: it averages the frame
  interval and the fill of the ring, and sets the stride at which the consumer
  goes through the samples, 65536 being one sample in for one sample out.

  The signed quantities of the source are 32 bits wide.  They are integers here;
  `RateControl.Ok` bounds them, far inside the range (`RateControl.ProductsFit`).

      Bounded.push, Bounded.steer, Bounded.fillWords   every call keeps the bounds
      fillWords_congr   a refill looks only at the slots it is said to read
      loopReads_waiting and those hold samples that wait

  Source: hal/audio_feed.h.
-/
import CocoEmulator.Base.RingBuffer
import CocoEmulator.Base.Words

set_option autoImplicit false

namespace CocoEmulator.Audio

open CocoEmulator.Base

/-! ## Constants -/

/-- `AUDIO_RING_SIZE` -/
def audioRingSize : Nat := 2048
/-- `AUDIO_FILL_LIMIT` -/
def audioFillLimit : Nat := audioRingSize - 64
/-- `AUDIO_FRAME_US` -/
def audioFrameUs : Int := 16666
/-- `AUDIO_STRIDE_ONE` -/
def audioStrideOne : BitVec 32 := 65536
/-- `AUDIO_FILL_TARGET` -/
def audioFillTarget : Nat := 262 + 512
/-- `AUDIO_SLOW_DT_US` -/
def audioSlowDtUs : Int := audioFrameUs * 102 / 100
/-- `AUDIO_FULL_DT_US` -/
def audioFullDtUs : Int := audioFrameUs * 101 / 100
/-- `AUDIO_LONG_DT_US` -/
def audioLongDtUs : Int := audioFrameUs * 5 / 4
/-- `AUDIO_FILL_BAND` -/
def audioFillBand : Int := 128
/-- `AUDIO_FILL_SETTLED` -/
def audioFillSettled : Int := 32
/-- `AUDIO_TRIM_MAX` -/
def audioTrimMax : Int := 65536 * 3 / 100
/-- `AUDIO_STRIDE_MIN` -/
def audioStrideMin : Int := 65536 * 55 / 100
/-- `AUDIO_DT_MIN_US` -/
def audioDtMinUs : Int := 8000
/-- `AUDIO_DT_MAX_US` -/
def audioDtMaxUs : Int := 60000
/-- `AUDIO_DT_AVG_SHIFT` -/
def audioDtAvgShift : Nat := 5
/-- `AUDIO_ERR_AVG_SHIFT` -/
def audioErrAvgShift : Nat := 4

/-! ## State -/

/-- The rate control state, which is the producer's own. -/
structure RateControl where
  dt_avg_us : Int := audioFrameUs
  err_q4 : Int := 0
  correcting : Bool := false
  slow : Bool := false
  long_run : Nat := 0
  long_min_us : Int := 0
  short_run : Nat := 0
  short_max_us : Int := 0

/-- The slots with `wr` and `rd` are a ring with the indices `head` and `tail`. -/
structure AudioFeed where
  ring : RingBuffer Byte
  frac : BitVec 32 := 0
  stride : BitVec 32 := audioStrideOne
  playing : Bool := false
  last : Byte := 0
  underruns : BitVec 32 := 0
  hold_samples : BitVec 32 := 0
  overruns : BitVec 32 := 0
  rate : RateControl := {}

namespace AudioFeed

/-- `audio_feed_init`, which leaves the slots as they are. -/
def init (slot : Nat → Byte) : AudioFeed := { ring := { slot := slot } }

/-- `audio_feed_fill` -/
def fill (f : AudioFeed) : BitVec 32 := f.ring.head - f.ring.tail

/-! ## The producer -/

/-- `audio_feed_push` -/
def push (sample : Byte) (f : AudioFeed) : AudioFeed :=
  if audioFillLimit ≤ f.fill.toNat then { f with overruns := f.overruns + 1 }
  else { f with ring := f.ring.push audioRingSize [sample] }

end AudioFeed

namespace RateControl

/-- The run counters are bytes that stop at their last value. -/
def count (run : Nat) : Nat := if run < 255 then run + 1 else 255

/-- One more long frame in a row, and the shortest of them. -/
def noteLong (dt_us : Int) (r : RateControl) : RateControl :=
  { r with
    short_run := 0
    long_run := count r.long_run
    long_min_us :=
      if count r.long_run = 1 ∨ dt_us < r.long_min_us then dt_us else r.long_min_us }

/-- A frame longer than `AUDIO_LONG_DT_US`: the third in a row sets the average to the
shortest of them. -/
def longFrame (dt_us : Int) (r : RateControl) : RateControl :=
  let r := r.noteLong dt_us
  if 3 ≤ r.long_run ∧ r.dt_avg_us < r.long_min_us then { r with dt_avg_us := r.long_min_us } else r

/-- One more short frame in a row, and the longest of them. -/
def noteShort (dt_us : Int) (r : RateControl) : RateControl :=
  { r with
    short_run := count r.short_run
    short_max_us :=
      if count r.short_run = 1 ∨ r.short_max_us < dt_us then dt_us else r.short_max_us }

/-- Where a third short frame in a row sets the average. -/
def shortTarget (r : RateControl) : Int :=
  if r.short_max_us < audioFrameUs then audioFrameUs else r.short_max_us

/-- A frame well under the average: the third in a row sets the average to the longest of
them. -/
def shortFrame (dt_us : Int) (r : RateControl) : RateControl :=
  let r := r.noteShort dt_us
  if 3 ≤ r.short_run ∧ r.shortTarget < r.dt_avg_us then { r with dt_avg_us := r.shortTarget } else r

/-- The average moves slowly. -/
def drift (dt_us : Int) (r : RateControl) : RateControl :=
  { r with dt_avg_us := r.dt_avg_us + (dt_us - r.dt_avg_us) >>> audioDtAvgShift }

/-- The part of `audio_feed_steer` that averages the frame interval. -/
def average (dt_us : Int) (r : RateControl) : RateControl :=
  if audioLongDtUs < dt_us then r.longFrame dt_us
  else
    let r := { r with long_run := 0 }
    let r := if dt_us < (r.dt_avg_us * 3).tdiv 4 then r.shortFrame dt_us
      else { r with short_run := 0 }
    r.drift dt_us

/-- The averaged fill error, in samples. -/
def err (r : RateControl) : Int := r.err_q4 >>> (4 : Nat)

/-- Its size. -/
def errSize (r : RateControl) : Int := if r.err < 0 then -r.err else r.err

/-- Average the fill error. -/
def averageErr (fill : Int) (r : RateControl) : RateControl :=
  { r with err_q4 := r.err_q4 + ((fill - audioFillTarget) * 16 - r.err_q4) >>> audioErrAvgShift }

/-- Whether the emulator counts as slow. -/
def judgeSpeed (r : RateControl) : RateControl :=
  if audioSlowDtUs < r.dt_avg_us then { r with slow := true }
  else if r.dt_avg_us < audioFullDtUs then { r with slow := false }
  else r

/-- Whether a correction is under way. -/
def judgeCorrection (r : RateControl) : RateControl :=
  if r.slow ∨ audioFillBand < r.errSize then { r with correcting := true }
  else if r.errSize ≤ audioFillSettled then { r with correcting := false }
  else r

/-- One frame of samples per measured frame interval. -/
def frameRate (r : RateControl) : Int :=
  if r.slow then (65536 * audioFrameUs).tdiv r.dt_avg_us else 65536

/-- The same, down to the slowest rate followed. -/
def feedForward (r : RateControl) : Int :=
  if r.frameRate < audioStrideMin then audioStrideMin else r.frameRate

/-- The trim brings the fill back. -/
def trim (r : RateControl) : Int :=
  let trim := (r.err * 15).tdiv 2
  let trim := if audioTrimMax < trim then audioTrimMax else trim
  if trim < -audioTrimMax then -audioTrimMax else trim

/-- The stride of a correction. -/
def stride (r : RateControl) : BitVec 32 := BitVec.ofInt 32 (r.feedForward + r.trim)

end RateControl

namespace AudioFeed

/-- Start from exactly the level wanted. -/
def restart (f : AudioFeed) : AudioFeed :=
  { f with
    ring := { f.ring with tail := f.ring.head - BitVec.ofNat 32 audioFillTarget }
    rate := { f.rate with err_q4 := 0, correcting := false }
    stride := audioStrideOne
    playing := true }

/-- Set the stride from the fill. -/
def control (fill : Int) (f : AudioFeed) : AudioFeed :=
  let rate := ((f.rate.averageErr fill).judgeSpeed).judgeCorrection
  { f with rate := rate, stride := if rate.correcting then rate.stride else audioStrideOne }

/-- Frame intervals outside the range are left out of the average. -/
def measure (dt_us : BitVec 32) (f : AudioFeed) : AudioFeed :=
  if audioDtMinUs ≤ dt_us.toNat ∧ dt_us.toNat ≤ audioDtMaxUs then
    { f with rate := f.rate.average dt_us.toNat }
  else f

/-- `audio_feed_steer` -/
def steer (dt_us : BitVec 32) (f : AudioFeed) : AudioFeed :=
  let f := f.measure dt_us
  let fill := f.fill.toInt
  if !f.playing then
    if (audioFillTarget : Int) ≤ fill then f.restart else f
  else f.control fill

/-! ## The consumer -/

/-- The slot of an index. -/
def sampleAt (f : AudioFeed) (i : BitVec 32) : Byte := f.ring.slot (i.toNat % audioRingSize)

/-- Between two neighbours, rounded. -/
def interpolate (s0 s1 : Byte) (frac : BitVec 32) : Byte :=
  BitVec.ofInt 8 (s0.toNat + (((s1.toNat : Int) - s0.toNat) * frac.toNat + 0x8000) >>> (16 : Nat))

/-- Take one sample, if one waits. -/
def takeOne (f : AudioFeed) : AudioFeed :=
  if f.fill ≠ 0 then { f with last := f.sampleAt f.ring.tail, ring := f.ring.advance 1 } else f

/-- Step through the ring by less or more than one sample, if two wait. -/
def takeStride (stride : BitVec 32) (f : AudioFeed) : AudioFeed :=
  if 2 ≤ f.fill.toNat then
    let pos := f.frac + stride
    { f with
      last := interpolate (f.sampleAt f.ring.tail) (f.sampleAt (f.ring.tail + 1)) f.frac
      frac := pos &&& 0xFFFF
      ring := f.ring.advance (pos >>> 16).toNat }
  else f

/-- What a stride needs is not there. -/
def Dry (stride : BitVec 32) (f : AudioFeed) : Prop :=
  f.fill = 0 ∨ (stride ≠ audioStrideOne ∧ f.fill.toNat < 2)

instance (stride : BitVec 32) (f : AudioFeed) : Decidable (f.Dry stride) :=
  inferInstanceAs (Decidable (_ ∨ _))

/-- Take what the stride asks for. -/
def take (stride : BitVec 32) (f : AudioFeed) : AudioFeed :=
  if stride = audioStrideOne then f.takeOne else f.takeStride stride

/-- The body of the loop of `audio_feed_fill_words` while playing: what waited is judged by
the indices at the start of the turn. -/
def playWord (stride : BitVec 32) (f : AudioFeed) : AudioFeed :=
  if f.Dry stride then
    { f.take stride with playing := false, underruns := (f.take stride).underruns + 1 }
  else f.take stride

/-- Count the samples held. -/
def hold (f : AudioFeed) : AudioFeed :=
  if !f.playing then { f with hold_samples := f.hold_samples + 1 } else f

/-- One turn of the loop of `audio_feed_fill_words`, up to the store. -/
def fillWord (stride : BitVec 32) (f : AudioFeed) : AudioFeed :=
  (if f.playing then f.playWord stride else f).hold

/-- A DMA buffer, as a function of the index of the word. -/
abbrev Words := Nat → BitVec 16

/-- A word for the DAC, which plays its high byte. -/
def word (sample : Byte) : BitVec 16 := sample.setWidth 16 <<< 8

/-- The loop of `audio_feed_fill_words`, with `n` words to go. -/
def fillLoop (stride : BitVec 32) : (n i : Nat) → AudioFeed × Words → AudioFeed × Words
  | 0, _, s => s
  | n + 1, i, (f, words) =>
    let f := f.fillWord stride
    fillLoop stride n (i + 1) (f, Function.update words (i ^^^ 1) (word f.last))

/-- On the sample grid again. -/
def onGrid (f : AudioFeed) : AudioFeed :=
  if f.stride = audioStrideOne then { f with frac := 0 } else f

/-- `audio_feed_fill_words` -/
def fillWords (words : Words) (count : Nat) (f : AudioFeed) : AudioFeed × Words :=
  fillLoop f.stride count 0 (f.onGrid, words)

/-- The DAC plays the high byte of a word. -/
def dac (w : BitVec 16) : Byte := (w >>> 8).setWidth 8

/-- What the DAC plays of a buffer: the I2S FIFO takes the two halves of each 32-bit word in
the other order. -/
def played (words : Words) (count : Nat) : List Byte :=
  (List.range count).map fun i => dac (words (i ^^^ 1))

/-- The indices whose slots one turn of the loop reads. -/
def wordReads (stride : BitVec 32) (f : AudioFeed) : List (BitVec 32) :=
  if !f.playing then []
  else if stride = audioStrideOne then if f.fill ≠ 0 then [f.ring.tail] else []
  else if 2 ≤ f.fill.toNat then [f.ring.tail, f.ring.tail + 1] else []

/-- The indices whose slots the loop reads. -/
def loopReads (stride : BitVec 32) : Nat → AudioFeed → List (BitVec 32)
  | 0, _ => []
  | n + 1, f => f.wordReads stride ++ loopReads stride n (f.fillWord stride)

/-- The indices whose slots `audio_feed_fill_words` reads. -/
def fillReads (count : Nat) (f : AudioFeed) : List (BitVec 32) :=
  loopReads f.stride count f.onGrid

end AudioFeed

/-! ## The rate -/

/-- A shifted difference moves an average towards what is averaged, never past it. -/
theorem averaged_mem {lo hi avg x : Int} (s : Nat) (ha : lo ≤ avg) (ha' : avg ≤ hi) (hx : lo ≤ x)
    (hx' : x ≤ hi) : lo ≤ avg + (x - avg) >>> s ∧ avg + (x - avg) >>> s ≤ hi := by
  rw [Int.shiftRight_eq_div_pow]
  have hpos : (0 : Int) < ((2 ^ s : Nat) : Int) := Int.natCast_pos.mpr (Nat.two_pow_pos s)
  by_cases h : 0 ≤ x - avg
  · have hlow := Int.ediv_nonneg h (Int.le_of_lt hpos)
    have hhigh := Int.ediv_le_self ((2 ^ s : Nat) : Int) h
    omega
  · have hlow := Int.self_le_ediv_of_nonpos_of_nonneg (by omega : x - avg ≤ 0) (Int.le_of_lt hpos)
    have hhigh := Int.ediv_nonpos_of_nonpos_of_neg (by omega : x - avg ≤ 0) hpos
    omega

/-- A frame interval that counts. -/
def InRange (dt_us : Int) : Prop := audioDtMinUs ≤ dt_us ∧ dt_us ≤ audioDtMaxUs

/-- The bounds of the rate control.  While a run of long or short frames lasts, its extreme
is one of its frames. -/
structure RateControl.Ok (r : RateControl) : Prop where
  dt : InRange r.dt_avg_us
  long : 1 ≤ r.long_run → InRange r.long_min_us
  short : 1 ≤ r.short_run → InRange r.short_max_us
  err_low : -((audioFillTarget : Int) * 16) ≤ r.err_q4
  err_high : r.err_q4 ≤ ((audioFillLimit : Int) - audioFillTarget) * 16

namespace RateControl

variable {r : RateControl} {dt_us fill : Int}

theorem ok_init : ({} : RateControl).Ok where
  dt := by unfold InRange; decide
  long := fun h => absurd h (by decide)
  short := fun h => absurd h (by decide)
  err_low := by decide
  err_high := by decide

theorem noteLong_ok (h : r.Ok) (hdt : InRange dt_us) :
    (r.noteLong dt_us).Ok ∧ InRange (r.noteLong dt_us).long_min_us := by
  have hmin : InRange (r.noteLong dt_us).long_min_us := by
    unfold noteLong
    dsimp only
    split
    · exact hdt
    · rename_i hkeep
      apply h.long
      unfold count at hkeep
      split at hkeep <;> omega
  refine ⟨⟨h.dt, fun _ => hmin, ?_, h.err_low, h.err_high⟩, hmin⟩
  intro hrun
  exact absurd hrun (Nat.not_succ_le_zero 0)

theorem longFrame_ok (h : r.Ok) (hdt : InRange dt_us) : (r.longFrame dt_us).Ok := by
  obtain ⟨hnote, hmin⟩ := noteLong_ok h hdt
  unfold longFrame
  dsimp only
  split
  · exact { hnote with dt := hmin }
  · exact hnote

theorem noteShort_ok (h : r.Ok) (hdt : InRange dt_us) :
    (r.noteShort dt_us).Ok ∧ InRange (r.noteShort dt_us).short_max_us := by
  have hmax : InRange (r.noteShort dt_us).short_max_us := by
    unfold noteShort
    dsimp only
    split
    · exact hdt
    · rename_i hkeep
      apply h.short
      unfold count at hkeep
      split at hkeep <;> omega
  exact ⟨⟨h.dt, h.long, fun _ => hmax, h.err_low, h.err_high⟩, hmax⟩

theorem shortTarget_mem (h : InRange r.short_max_us) : InRange r.shortTarget := by
  unfold shortTarget
  split
  · unfold InRange
    decide
  · exact h

theorem shortFrame_ok (h : r.Ok) (hdt : InRange dt_us) : (r.shortFrame dt_us).Ok := by
  obtain ⟨hnote, hmax⟩ := noteShort_ok h hdt
  unfold shortFrame
  dsimp only
  split
  · exact { hnote with dt := shortTarget_mem hmax }
  · exact hnote

theorem drift_ok (h : r.Ok) (hdt : InRange dt_us) : (r.drift dt_us).Ok :=
  { h with dt := averaged_mem audioDtAvgShift h.dt.1 h.dt.2 hdt.1 hdt.2 }

theorem average_ok (h : r.Ok) (hdt : InRange dt_us) : (r.average dt_us).Ok := by
  have hlong : ({ r with long_run := 0 } : RateControl).Ok :=
    { h with long := fun hrun => absurd hrun (Nat.not_succ_le_zero 0) }
  unfold average
  dsimp only
  split
  · exact longFrame_ok h hdt
  · split
    · exact drift_ok (shortFrame_ok hlong hdt) hdt
    · have hshort : ({ r with long_run := 0, short_run := 0 } : RateControl).Ok :=
        { hlong with short := fun hrun => absurd hrun (Nat.not_succ_le_zero 0) }
      exact drift_ok hshort hdt

theorem averageErr_ok (h : r.Ok) (hlow : 0 ≤ fill) (hhigh : fill ≤ audioFillLimit) :
    (r.averageErr fill).Ok := by
  have hmem := averaged_mem audioErrAvgShift h.err_low h.err_high
    (by omega : -((audioFillTarget : Int) * 16) ≤ (fill - audioFillTarget) * 16) (by omega)
  exact { h with err_low := hmem.1, err_high := hmem.2 }

theorem judgeSpeed_ok (h : r.Ok) : r.judgeSpeed.Ok := by
  unfold judgeSpeed
  split
  · exact { h with }
  · split
    · exact { h with }
    · exact h

theorem judgeCorrection_ok (h : r.Ok) : r.judgeCorrection.Ok := by
  unfold judgeCorrection
  split
  · exact { h with }
  · split
    · exact { h with }
    · exact h

/-- The emulator counts as slow only while the average is over the lower mark. -/
theorem judgeSpeed_slow (h : r.judgeSpeed.slow = true) : audioFullDtUs ≤ r.judgeSpeed.dt_avg_us := by
  unfold judgeSpeed at h ⊢
  split at h
  · rename_i hslow
    rw [if_pos hslow]
    exact Int.le_trans (by decide) (Int.le_of_lt hslow)
  · split at h
    · exact absurd h Bool.false_ne_true
    · rename_i hfast hfull
      rw [if_neg hfast, if_neg hfull]
      exact Int.not_lt.mp hfull

@[simp] theorem judgeCorrection_slow : r.judgeCorrection.slow = r.slow := by
  unfold judgeCorrection
  split
  · rfl
  · split <;> rfl

@[simp] theorem judgeCorrection_dt : r.judgeCorrection.dt_avg_us = r.dt_avg_us := by
  unfold judgeCorrection
  split
  · rfl
  · split <;> rfl

/-- The rate division gives at most one sample for one sample. -/
theorem frameRate_le (h : r.slow = true → audioFullDtUs ≤ r.dt_avg_us) : r.frameRate ≤ 65536 := by
  unfold frameRate
  split
  · rename_i hslow
    have hdt := h hslow
    have hpos : 0 < r.dt_avg_us := Int.lt_of_lt_of_le (by decide) hdt
    rw [Int.tdiv_eq_ediv_of_nonneg (by decide)]
    apply Int.ediv_le_of_le_mul hpos
    have hframe : audioFrameUs ≤ r.dt_avg_us := Int.le_trans (by decide) hdt
    omega
  · exact Int.le_refl _

theorem feedForward_mem (h : r.slow = true → audioFullDtUs ≤ r.dt_avg_us) :
    audioStrideMin ≤ r.feedForward ∧ r.feedForward ≤ 65536 := by
  have hrate := frameRate_le h
  have hmin : audioStrideMin ≤ 65536 := by decide
  unfold feedForward
  split
  · exact ⟨Int.le_refl _, hmin⟩
  · rename_i hrange
    exact ⟨Int.not_lt.mp hrange, hrate⟩

theorem trim_mem : -audioTrimMax ≤ r.trim ∧ r.trim ≤ audioTrimMax := by
  have hmax : 0 ≤ audioTrimMax := by decide
  unfold trim
  dsimp only
  split <;> split at * <;> omega

/-- What a 32-bit stride may be. -/
def StrideOk (stride : BitVec 32) : Prop :=
  audioStrideMin - audioTrimMax ≤ stride.toNat ∧ (stride.toNat : Int) ≤ 65536 + audioTrimMax

theorem strideOk_one : StrideOk audioStrideOne := by
  unfold StrideOk
  decide

theorem stride_ok (h : r.slow = true → audioFullDtUs ≤ r.dt_avg_us) : StrideOk r.stride := by
  have hff := feedForward_mem h
  have htrim := @trim_mem r
  have hmin : audioStrideMin - audioTrimMax = 34078 := by decide
  have hmax : audioTrimMax = 1966 := by decide
  unfold StrideOk stride
  rw [BitVec.toNat_ofInt]
  omega

/-- The products of the rate control are numbers of 32 bits. -/
def ProductsFit (r : RateControl) : Prop :=
  0 ≤ r.dt_avg_us * 3 ∧ r.dt_avg_us * 3 < 2 ^ 31 ∧ -2 ^ 31 ≤ r.err * 15 ∧ r.err * 15 < 2 ^ 31

theorem Ok.products_fit (h : r.Ok) : r.ProductsFit := by
  have hdt := h.dt
  have hlow := h.err_low
  have hhigh := h.err_high
  unfold InRange audioDtMinUs audioDtMaxUs at hdt
  unfold audioFillTarget at hlow
  unfold audioFillLimit audioRingSize audioFillTarget at hhigh
  unfold ProductsFit err
  rw [Int.shiftRight_eq_div_pow]
  omega

end RateControl

/-! ## Bounds -/

namespace AudioFeed

/-- The bounds the feed keeps. -/
structure Bounded (f : AudioFeed) : Prop where
  fill : f.fill.toNat ≤ audioFillLimit
  frac : f.frac.toNat < 65536
  stride : RateControl.StrideOk f.stride
  rate : f.rate.Ok

variable {f : AudioFeed} {stride : BitVec 32}

theorem bounded_init (slot : Nat → Byte) : Bounded (init slot) where
  fill := by
    change (0 - 0 : BitVec 32).toNat ≤ audioFillLimit
    decide
  frac := by
    change (0 : BitVec 32).toNat < 65536
    decide
  stride := RateControl.strideOk_one
  rate := RateControl.ok_init

theorem Bounded.push (h : Bounded f) (sample : Byte) : Bounded (f.push sample) := by
  unfold AudioFeed.push
  split
  · exact ⟨h.fill, h.frac, h.stride, h.rate⟩
  · refine ⟨?_, h.frac, h.stride, h.rate⟩
    have hfill := h.fill
    unfold AudioFeed.fill RingBuffer.push audioFillLimit audioRingSize at *
    dsimp only [List.length_singleton]
    bv_omega

theorem Bounded.measure (h : Bounded f) (dt_us : BitVec 32) : Bounded (f.measure dt_us) := by
  unfold AudioFeed.measure
  split
  · rename_i hrange
    exact { h with rate := RateControl.average_ok h.rate hrange }
  · exact h

/-- The fill is the same number read as a signed one. -/
theorem Bounded.fill_toInt (h : Bounded f) : f.fill.toInt = f.fill.toNat := by
  have hfill := h.fill
  unfold audioFillLimit audioRingSize at hfill
  rw [BitVec.toInt_eq_toNat_of_lt (by omega)]

theorem restart_fill : f.restart.fill = BitVec.ofNat 32 audioFillTarget := by
  unfold restart fill
  dsimp only
  bv_omega

theorem Bounded.restart (h : Bounded f) : Bounded f.restart := by
  refine ⟨?_, h.frac, RateControl.strideOk_one, ?_⟩
  · rw [restart_fill]
    decide
  · have hlow : -((audioFillTarget : Int) * 16) ≤ 0 := by decide
    have hhigh : (0 : Int) ≤ ((audioFillLimit : Int) - audioFillTarget) * 16 := by decide
    exact { h.rate with err_low := hlow, err_high := hhigh }

theorem Bounded.control (h : Bounded f) : Bounded (f.control f.fill.toInt) := by
  have hfill := h.fill
  have hint := h.fill_toInt
  have herr := RateControl.averageErr_ok h.rate (Int.natCast_nonneg f.fill.toNat)
    (Int.ofNat_le.mpr hfill)
  rw [← hint] at herr
  have hrate := RateControl.judgeCorrection_ok (RateControl.judgeSpeed_ok herr)
  refine ⟨hfill, h.frac, ?_, hrate⟩
  unfold AudioFeed.control
  dsimp only
  split
  · apply RateControl.stride_ok
    intro hslow
    rw [RateControl.judgeCorrection_slow] at hslow
    rw [RateControl.judgeCorrection_dt]
    exact RateControl.judgeSpeed_slow hslow
  · exact RateControl.strideOk_one

theorem Bounded.steer (h : Bounded f) (dt_us : BitVec 32) : Bounded (f.steer dt_us) := by
  have hmeasure := h.measure dt_us
  unfold AudioFeed.steer
  dsimp only
  split
  · split
    · exact hmeasure.restart
    · exact hmeasure
  · exact hmeasure.control

/-! ## The bounds of the consumer -/

/-- Going on by no more than what waits. -/
theorem advance_fill {n : Nat} (hn : n ≤ f.fill.toNat) :
    (f.ring.head - (f.ring.advance n).tail).toNat = f.fill.toNat - n := by
  have hlt := f.fill.isLt
  unfold AudioFeed.fill RingBuffer.advance at *
  dsimp only
  have hsmall : (BitVec.ofNat 32 n).toNat = n := by
    rw [BitVec.toNat_ofNat]
    exact Nat.mod_eq_of_lt (by omega)
  generalize BitVec.ofNat 32 n = k at *
  bv_omega

/-- A stride goes on by at most two samples. -/
theorem pos_le (hfrac : f.frac.toNat < 65536) (hstride : RateControl.StrideOk stride) :
    ((f.frac + stride) >>> 16).toNat ≤ 2 := by
  have hmax : audioTrimMax = 1966 := by decide
  obtain ⟨_, hhigh⟩ := hstride
  rw [BitVec.toNat_ushiftRight, BitVec.toNat_add, Nat.shiftRight_eq_div_pow]
  omega

theorem Bounded.takeOne (h : Bounded f) : Bounded f.takeOne := by
  unfold AudioFeed.takeOne
  split
  · rename_i hsome
    refine ⟨?_, h.frac, h.stride, h.rate⟩
    have hpos : 1 ≤ f.fill.toNat := Nat.one_le_iff_ne_zero.mpr fun hzero =>
      hsome (BitVec.eq_of_toNat_eq hzero)
    exact Nat.le_trans (Nat.le_of_eq (advance_fill hpos)) (Nat.le_trans (Nat.sub_le ..) h.fill)
  · exact h

theorem Bounded.takeStride (h : Bounded f) (hstride : RateControl.StrideOk stride) :
    Bounded (f.takeStride stride) := by
  unfold AudioFeed.takeStride
  split
  · rename_i hsome
    refine ⟨?_, ?_, h.stride, h.rate⟩
    · have hpos := Nat.le_trans (pos_le h.frac hstride) hsome
      exact Nat.le_trans (Nat.le_of_eq (advance_fill hpos)) (Nat.le_trans (Nat.sub_le ..) h.fill)
    · dsimp only
      rw [BitVec.toNat_and]
      exact Nat.lt_of_le_of_lt Nat.and_le_right (by decide)
  · exact h

theorem Bounded.take (h : Bounded f) (hstride : RateControl.StrideOk stride) :
    Bounded (f.take stride) := by
  unfold AudioFeed.take
  split
  · exact h.takeOne
  · exact h.takeStride hstride

theorem Bounded.playWord (h : Bounded f) (hstride : RateControl.StrideOk stride) :
    Bounded (f.playWord stride) := by
  have htake := h.take hstride
  unfold AudioFeed.playWord
  split
  · exact { htake with }
  · exact htake

theorem Bounded.hold (h : Bounded f) : Bounded f.hold := by
  unfold AudioFeed.hold
  split
  · exact { h with }
  · exact h

theorem Bounded.fillWord (h : Bounded f) (hstride : RateControl.StrideOk stride) :
    Bounded (f.fillWord stride) := by
  unfold AudioFeed.fillWord
  apply Bounded.hold
  split
  · exact h.playWord hstride
  · exact h

theorem Bounded.fillLoop (h : Bounded f) (hstride : RateControl.StrideOk stride) (n i : Nat)
    (words : Words) : Bounded (AudioFeed.fillLoop stride n i (f, words)).1 := by
  induction n generalizing f i words with
  | zero => exact h
  | succ n ih => exact ih (h.fillWord hstride) (i + 1) _

@[simp] theorem onGrid_ring : f.onGrid.ring = f.ring := by
  unfold AudioFeed.onGrid
  split <;> rfl

theorem Bounded.onGrid (h : Bounded f) : Bounded f.onGrid := by
  unfold AudioFeed.onGrid
  split
  · refine ⟨h.fill, ?_, h.stride, h.rate⟩
    change (0 : BitVec 32).toNat < 65536
    decide
  · exact h

theorem Bounded.fillWords (h : Bounded f) (words : Words) (count : Nat) :
    Bounded (f.fillWords words count).1 :=
  h.onGrid.fillLoop h.stride count 0 words

/-! ## What the consumer reads -/

/-- A turn goes on by a part of what waits. -/
theorem Bounded.fillWord_ring (h : Bounded f) (hstride : RateControl.StrideOk stride) :
    ∃ n, n ≤ f.fill.toNat ∧ (f.fillWord stride).ring = f.ring.advance n := by
  have hstay : f.ring = f.ring.advance 0 := by
    unfold RingBuffer.advance
    rw [BitVec.add_zero]
  have htake : ∃ n, n ≤ f.fill.toNat ∧ (f.take stride).ring = f.ring.advance n := by
    unfold AudioFeed.take AudioFeed.takeOne AudioFeed.takeStride
    split
    · split
      · rename_i hsome
        exact ⟨1, Nat.one_le_iff_ne_zero.mpr fun hzero => hsome (BitVec.eq_of_toNat_eq hzero), rfl⟩
      · exact ⟨0, Nat.zero_le _, hstay⟩
    · split
      · rename_i hsome
        exact ⟨_, Nat.le_trans (pos_le h.frac hstride) hsome, rfl⟩
      · exact ⟨0, Nat.zero_le _, hstay⟩
  have hhold (g : AudioFeed) : g.hold.ring = g.ring := by
    unfold AudioFeed.hold
    split <;> rfl
  unfold AudioFeed.fillWord
  rw [hhold]
  split
  · unfold AudioFeed.playWord
    split <;> exact htake
  · exact ⟨0, Nat.zero_le _, hstay⟩

theorem wordReads_waiting {k : BitVec 32} (hk : k ∈ f.wordReads stride) :
    (k - f.ring.tail).toNat < f.fill.toNat := by
  unfold wordReads at hk
  split at hk
  · exact absurd hk List.not_mem_nil
  · split at hk
    · split at hk
      · rename_i hsome
        rw [List.mem_singleton.mp hk, BitVec.sub_self]
        exact Nat.pos_of_ne_zero fun hzero => hsome (BitVec.eq_of_toNat_eq hzero)
      · exact absurd hk List.not_mem_nil
    · split at hk
      · rcases List.mem_cons.mp hk with rfl | hk
        · rw [BitVec.sub_self]
          exact Nat.lt_of_lt_of_le Nat.two_pos ‹_›
        · rw [List.mem_singleton.mp hk, BitVec.add_comm, BitVec.add_sub_cancel]
          exact Nat.lt_of_lt_of_le Nat.one_lt_two ‹_›
      · exact absurd hk List.not_mem_nil

/-- The loop reads samples that wait, none at or past `wr`. -/
theorem Bounded.loopReads_waiting (h : Bounded f) (hstride : RateControl.StrideOk stride) (n : Nat)
    {k : BitVec 32} (hk : k ∈ loopReads stride n f) : (k - f.ring.tail).toNat < f.fill.toNat := by
  induction n generalizing f with
  | zero => exact absurd hk List.not_mem_nil
  | succ n ih =>
    rcases List.mem_append.mp hk with hk | hk
    · exact wordReads_waiting hk
    · have hrest := ih (h.fillWord hstride) hk
      obtain ⟨m, hm, hring⟩ := h.fillWord_ring hstride
      have hfill := advance_fill hm
      have hlt := f.fill.isLt
      have hsmall : (BitVec.ofNat 32 m).toNat = m := by
        rw [BitVec.toNat_ofNat]
        exact Nat.mod_eq_of_lt (by omega)
      unfold AudioFeed.fill at hrest
      rw [hring] at hrest
      change _ < (f.ring.head - (f.ring.advance m).tail).toNat at hrest
      rw [hfill] at hrest
      unfold RingBuffer.advance at hrest
      dsimp only at hrest
      generalize BitVec.ofNat 32 m = d at *
      bv_omega

/-- The same feed over other slots. -/
def withSlots (slot : Nat → Byte) (f : AudioFeed) : AudioFeed :=
  { f with ring := { f.ring with slot := slot } }

@[simp] theorem withSlots_fill (slot : Nat → Byte) : (f.withSlots slot).fill = f.fill := rfl

@[simp] theorem withSlots_tail (slot : Nat → Byte) :
    (f.withSlots slot).ring.tail = f.ring.tail := rfl

theorem withSlots_hold (slot : Nat → Byte) : (f.withSlots slot).hold = f.hold.withSlots slot := by
  unfold hold withSlots
  split <;> rfl

section

variable {slot : Nat → Byte}

theorem takeOne_congr
    (h : f.fill ≠ 0 → (f.withSlots slot).sampleAt f.ring.tail = f.sampleAt f.ring.tail) :
    (f.withSlots slot).takeOne = f.takeOne.withSlots slot := by
  unfold takeOne
  rw [withSlots_fill, withSlots_tail]
  split
  · rename_i hsome
    rw [h hsome]
    rfl
  · rfl

theorem takeStride_congr
    (h : 2 ≤ f.fill.toNat → (f.withSlots slot).sampleAt f.ring.tail = f.sampleAt f.ring.tail ∧
      (f.withSlots slot).sampleAt (f.ring.tail + 1) = f.sampleAt (f.ring.tail + 1)) :
    (f.withSlots slot).takeStride stride = (f.takeStride stride).withSlots slot := by
  unfold takeStride
  rw [withSlots_fill, withSlots_tail]
  split
  · rename_i hsome
    obtain ⟨hread, hnext⟩ := h hsome
    rw [hread, hnext]
    rfl
  · rfl

theorem playWord_congr (h : (f.withSlots slot).take stride = (f.take stride).withSlots slot) :
    (f.withSlots slot).playWord stride = (f.playWord stride).withSlots slot := by
  have hdry : (f.withSlots slot).Dry stride ↔ f.Dry stride := Iff.rfl
  unfold playWord
  rw [h]
  by_cases hempty : f.Dry stride
  · rw [if_pos hempty, if_pos (hdry.mpr hempty)]
    rfl
  · rw [if_neg hempty, if_neg (mt hdry.mp hempty)]

/-- A turn looks only at the slots it is said to read. -/
theorem fillWord_congr (h : ∀ k ∈ f.wordReads stride, (f.withSlots slot).sampleAt k = f.sampleAt k) :
    (f.withSlots slot).fillWord stride = (f.fillWord stride).withSlots slot := by
  have hplaying : (f.withSlots slot).playing = f.playing := rfl
  unfold fillWord
  rw [hplaying]
  split
  · rename_i hplay
    unfold wordReads at h
    rw [hplay, Bool.not_true, if_neg Bool.false_ne_true] at h
    have htake : (f.withSlots slot).take stride = (f.take stride).withSlots slot := by
      unfold take
      split
      · rename_i hone
        rw [if_pos hone] at h
        apply takeOne_congr
        intro hsome
        rw [if_pos hsome] at h
        exact h _ List.mem_cons_self
      · rename_i hone
        rw [if_neg hone] at h
        apply takeStride_congr
        intro hsome
        rw [if_pos hsome] at h
        exact ⟨h _ List.mem_cons_self, h _ (List.mem_cons_of_mem _ List.mem_cons_self)⟩
    rw [playWord_congr htake, withSlots_hold]
  · rw [withSlots_hold]

/-- The loop looks only at the slots it is said to read. -/
theorem Bounded.fillLoop_congr (h : Bounded f) (hstride : RateControl.StrideOk stride) (n i : Nat)
    (words : Words)
    (hread : ∀ k ∈ loopReads stride n f, (f.withSlots slot).sampleAt k = f.sampleAt k) :
    AudioFeed.fillLoop stride n i (f.withSlots slot, words) =
      ((AudioFeed.fillLoop stride n i (f, words)).1.withSlots slot,
        (AudioFeed.fillLoop stride n i (f, words)).2) := by
  induction n generalizing f i words with
  | zero => rfl
  | succ n ih =>
    have hword := fillWord_congr fun k hk => hread k (List.mem_append_left _ hk)
    have hslot : (f.fillWord stride).ring.slot = f.ring.slot := by
      obtain ⟨m, _, hring⟩ := h.fillWord_ring hstride
      rw [hring]
      rfl
    unfold AudioFeed.fillLoop
    dsimp only
    rw [hword]
    apply ih (h.fillWord hstride)
    intro k hk
    have hrest := hread k (List.mem_append_right _ hk)
    unfold sampleAt withSlots at hrest ⊢
    rw [hslot]
    exact hrest

/-- A refill looks only at the slots it is said to read. -/
theorem Bounded.fillWords_congr (h : Bounded f) (words : Words) (count : Nat)
    (hread : ∀ k ∈ f.fillReads count, (f.withSlots slot).sampleAt k = f.sampleAt k) :
    (f.withSlots slot).fillWords words count =
      ((f.fillWords words count).1.withSlots slot, (f.fillWords words count).2) := by
  have hgrid : (f.withSlots slot).onGrid = f.onGrid.withSlots slot := by
    unfold AudioFeed.onGrid withSlots
    split <;> rfl
  unfold AudioFeed.fillWords
  rw [hgrid]
  apply h.onGrid.fillLoop_congr h.stride
  intro k hk
  have hsame := hread k hk
  unfold sampleAt withSlots at hsame ⊢
  rw [onGrid_ring]
  exact hsame

/-- What a refill reads are samples that wait. -/
theorem Bounded.fillReads_waiting (h : Bounded f) (count : Nat) {k : BitVec 32}
    (hk : k ∈ f.fillReads count) : (k - f.ring.tail).toNat < f.fill.toNat := by
  have hwait := h.onGrid.loopReads_waiting h.stride count hk
  unfold AudioFeed.fill at *
  rw [onGrid_ring] at hwait
  exact hwait

end

end AudioFeed

end CocoEmulator.Audio
