/-
  Audio/SampleOrder.lean --- any interleaving of the calls of the feed.

  The producer pushes and steers, the consumer refills; a run is any list of such
  calls.  Every call keeps the bounds.  What comes out is in order because the ring
  holds the log of queued samples from the next one on (`RingBuffer.Holds`): a
  restart drops the front of it, and at a stride of one sample for one each word
  takes the first.

      Call.step_holds    every call keeps the ring a part of the log
      run_overruns       the samples handed in are those queued and those counted
      onGrid_order       while the feed plays at a stride of exactly one, what was
                         queued is what was heard and what is still queued
      audio_feed_bounds  the bounds, the count and the order, along every run

  Source: hal/audio_feed.h.
-/
import CocoEmulator.Base.Run
import CocoEmulator.Audio.AudioFeed

set_option autoImplicit false

namespace CocoEmulator.Audio

open CocoEmulator.Base

/-- A call of the feed, which is one step.  The count of words is even. -/
inductive Call
  | push (sample : Byte)
  | steer (dt_us : BitVec 32)
  | fillWords (words : AudioFeed.Words) (pairs : Nat)

namespace Call

/-- What a call makes of the feed. -/
def step : Call → AudioFeed → AudioFeed
  | push sample, f => f.push sample
  | steer dt_us, f => f.steer dt_us
  | fillWords words pairs, f => (f.fillWords words (2 * pairs)).1

/-- What the DAC plays of a call. -/
def heard : Call → AudioFeed → List Byte
  | fillWords words pairs, f => AudioFeed.played (f.fillWords words (2 * pairs)).2 (2 * pairs)
  | _, _ => []

/-- The sample a call hands in. -/
def pushed : Call → AudioFeed → List Byte
  | push sample, _ => [sample]
  | _, _ => []

/-- The sample a call queues: at the limit it is dropped. -/
def queues : Call → AudioFeed → List Byte
  | push sample, f => if audioFillLimit ≤ f.fill.toNat then [] else [sample]
  | _, _ => []

/-- What the calls of a run give, one after the other. -/
def along {α : Type} (out : Call → AudioFeed → List α) : List Call → AudioFeed → List α
  | [], _ => []
  | c :: cs, f => out c f ++ along out cs (c.step f)

/-- The state after a run. -/
abbrev run (cs : List Call) (f : AudioFeed) : AudioFeed := runAll step cs f

end Call

namespace AudioFeed

/-- The samples that wait. -/
def queued (f : AudioFeed) : List Byte := f.ring.peek audioRingSize f.fill.toNat

/-- The feed plays, one sample out for one sample in. -/
def OnGrid (f : AudioFeed) : Prop := f.playing = true ∧ f.stride = audioStrideOne

/-- A refill reads samples that wait, none at or past `wr`: no other slot makes a difference. -/
def ReadsWaiting (f : AudioFeed) : Prop :=
  ∀ (words : Words) (count : Nat),
    (∀ k ∈ f.fillReads count, (k - f.ring.tail).toNat < f.fill.toNat) ∧
      ∀ slot : Nat → Byte,
        (∀ k, (k - f.ring.tail).toNat < f.fill.toNat →
          (f.withSlots slot).sampleAt k = f.sampleAt k) →
        (f.withSlots slot).fillWords words count =
          ((f.fillWords words count).1.withSlots slot, (f.fillWords words count).2)

instance (f : AudioFeed) : Decidable f.OnGrid := inferInstanceAs (Decidable (_ ∧ _))

end AudioFeed

/-! ## Bounds along a run -/

open AudioFeed

theorem Call.step_bounded (c : Call) {f : AudioFeed} (h : Bounded f) : Bounded (c.step f) := by
  cases c with
  | push sample => exact h.push sample
  | steer dt_us => exact h.steer dt_us
  | fillWords words pairs => exact h.fillWords words (2 * pairs)

theorem always_bounded (cs : List Call) {f : AudioFeed} (h : Bounded f) :
    Always Call.step Bounded cs f :=
  Always.of_step (C := fun _ _ => True) h (fun c _ hf _ => c.step_bounded hf)
    (.of_forall fun _ _ _ => trivial)

theorem AudioFeed.Bounded.readsWaiting {f : AudioFeed} (h : Bounded f) : f.ReadsWaiting := by
  intro words count
  refine ⟨fun k hk => h.fillReads_waiting count hk, ?_⟩
  intro slot hsame
  apply h.fillWords_congr
  intro k hk
  exact hsame k (h.fillReads_waiting count hk)

/-! ## The ring is a part of the log -/

/-- The ring holds the queued samples from some position on. -/
def OfLog (f : AudioFeed) : Prop :=
  ∃ (log : List Byte) (next : Nat), f.ring.Holds audioRingSize log next

section

variable {f : AudioFeed} {log : List Byte} {next : Nat}

theorem holds_fill (h : f.ring.Holds audioRingSize log next) : f.fill.toNat = log.length - next :=
  h.used (by decide)

theorem holds_queued (h : f.ring.Holds audioRingSize log next) : f.queued = log.drop next := by
  have hlow := h.low
  have hfill := holds_fill h
  unfold queued
  rw [h.peek (by decide) (by omega), hfill]
  apply List.take_of_length_le
  rw [List.length_drop]

/-- A sample that finds room is appended. -/
theorem holds_push (h : f.ring.Holds audioRingSize log next) (sample : Byte)
    (hroom : ¬audioFillLimit ≤ f.fill.toNat) :
    (f.push sample).ring.Holds audioRingSize (log ++ [sample]) next := by
  have hfill := holds_fill h
  have hlow := h.low
  have hlimit : audioFillLimit ≤ audioRingSize := by decide
  unfold AudioFeed.push
  rw [if_neg hroom]
  apply h.push (by decide)
  rw [List.length_singleton]
  omega

/-- A restart drops the front of what waits. -/
theorem holds_restart (h : f.ring.Holds audioRingSize log next)
    (hfill : audioFillTarget ≤ f.fill.toNat) :
    f.restart.ring.Holds audioRingSize log (log.length - audioFillTarget) := by
  have hused := holds_fill h
  have hlow := h.low
  have hskip := h.advance (n := log.length - audioFillTarget - next) (by omega)
  have hnext : next + (log.length - audioFillTarget - next) = log.length - audioFillTarget := by
    omega
  rw [hnext] at hskip
  refine ⟨h.head, ?_, hskip.low, hskip.high, hskip.slot⟩
  unfold AudioFeed.restart
  dsimp only
  rw [h.head, RingBuffer.ofNat_sub_ofNat (by omega)]

theorem steer_holds (hb : Bounded f) (h : OfLog f) (dt_us : BitVec 32) :
    OfLog (f.steer dt_us) := by
  obtain ⟨log, next, hring⟩ := h
  have hsame : (f.measure dt_us).ring = f.ring := by
    unfold AudioFeed.measure
    split <;> rfl
  have hmeasure := hb.measure dt_us
  rw [← hsame] at hring
  unfold AudioFeed.steer
  dsimp only
  split
  · split
    · rename_i hlevel
      rw [hmeasure.fill_toInt] at hlevel
      exact ⟨log, _, holds_restart hring (Int.ofNat_le.mp hlevel)⟩
    · exact ⟨log, next, hring⟩
  · exact ⟨log, next, hring⟩

theorem fillLoop_holds {stride : BitVec 32} (hb : Bounded f)
    (hstride : RateControl.StrideOk stride) (h : OfLog f) (n i : Nat) (words : Words) :
    OfLog (AudioFeed.fillLoop stride n i (f, words)).1 := by
  induction n generalizing f i words with
  | zero => exact h
  | succ n ih =>
    apply ih (hb.fillWord hstride)
    obtain ⟨log, next, hring⟩ := h
    obtain ⟨m, hm, hword⟩ := hb.fillWord_ring hstride
    have hfill := holds_fill hring
    have hlow := hring.low
    refine ⟨log, next + m, ?_⟩
    rw [hword]
    exact hring.advance (by omega)

end

/-- Every call keeps the ring a part of the log. -/
theorem Call.step_holds (c : Call) {f : AudioFeed} (hb : Bounded f) (h : OfLog f) :
    OfLog (c.step f) := by
  cases c with
  | push sample =>
    obtain ⟨log, next, hring⟩ := h
    by_cases hroom : audioFillLimit ≤ f.fill.toNat
    · refine ⟨log, next, ?_⟩
      change (f.push sample).ring.Holds _ _ _
      unfold AudioFeed.push
      rw [if_pos hroom]
      exact hring
    · exact ⟨_, next, holds_push hring sample hroom⟩
  | steer dt_us => exact steer_holds hb h dt_us
  | fillWords words pairs =>
    have hgrid : OfLog f.onGrid := by
      unfold OfLog
      rw [onGrid_ring]
      exact h
    exact fillLoop_holds hb.onGrid hb.stride hgrid (2 * pairs) 0 words

theorem ofLog_init (slot : Nat → Byte) : OfLog (init slot) :=
  ⟨[], 0, RingBuffer.holds_init audioRingSize slot⟩

/-! ## What is dropped -/

theorem fillLoop_overruns {f : AudioFeed} (stride : BitVec 32) (n i : Nat) (words : Words) :
    (fillLoop stride n i (f, words)).1.overruns = f.overruns := by
  induction n generalizing f i words with
  | zero => rfl
  | succ n ih =>
    have hhold (g : AudioFeed) : g.hold.overruns = g.overruns := by
      unfold hold
      split <;> rfl
    have htake : (f.take stride).overruns = f.overruns := by
      unfold take takeOne takeStride
      split <;> split <;> rfl
    have hword : (f.fillWord stride).overruns = f.overruns := by
      unfold fillWord
      rw [hhold]
      split
      · unfold playWord
        split <;> exact htake
      · rfl
    exact (ih (i + 1) _).trans hword

/-- A sample handed in is queued, or counted. -/
theorem Call.step_overruns (c : Call) (f : AudioFeed) :
    (c.step f).overruns + BitVec.ofNat 32 (c.queues f).length =
      f.overruns + BitVec.ofNat 32 (c.pushed f).length := by
  cases c with
  | push sample =>
    change (f.push sample).overruns +
      BitVec.ofNat 32 (if audioFillLimit ≤ f.fill.toNat then [] else [sample]).length =
        f.overruns + 1
    by_cases hfull : audioFillLimit ≤ f.fill.toNat
    · rw [if_pos hfull, AudioFeed.push, if_pos hfull]
      exact BitVec.add_zero _
    · rw [if_neg hfull, AudioFeed.push, if_neg hfull]
      rfl
  | steer dt_us =>
    have hmeasure : (f.measure dt_us).overruns = f.overruns := by
      unfold AudioFeed.measure
      split <;> rfl
    have hsteer : (f.steer dt_us).overruns = f.overruns := by
      unfold AudioFeed.steer
      dsimp only
      split
      · split <;> exact hmeasure
      · exact hmeasure
    exact congrArg (· + BitVec.ofNat 32 0) hsteer
  | fillWords words pairs =>
    have hgrid : f.onGrid.overruns = f.overruns := by
      unfold onGrid
      split <;> rfl
    have hfill := (fillLoop_overruns (f := f.onGrid) f.stride (2 * pairs) 0 words).trans hgrid
    exact congrArg (· + BitVec.ofNat 32 0) hfill

/-- Along a run, the samples handed in are those queued and those counted as dropped. -/
theorem run_overruns (cs : List Call) (f : AudioFeed) :
    (Call.run cs f).overruns + BitVec.ofNat 32 (Call.along Call.queues cs f).length =
      f.overruns + BitVec.ofNat 32 (Call.along Call.pushed cs f).length := by
  induction cs generalizing f with
  | nil => rfl
  | cons c cs ih =>
    have hstep := c.step_overruns f
    have hrest := ih (c.step f)
    unfold Call.along Call.run
    rw [runAll_cons, List.length_append, List.length_append, BitVec.ofNat_add, BitVec.ofNat_add,
      ← BitVec.add_assoc f.overruns, ← hstep, BitVec.add_assoc (Call.step c f).overruns,
      BitVec.add_comm (BitVec.ofNat 32 (c.queues f).length), ← BitVec.add_assoc,
      BitVec.add_comm (BitVec.ofNat 32 (c.queues f).length) (BitVec.ofNat 32 _),
      ← BitVec.add_assoc (Call.step c f).overruns, ← hrest]

/-! ## What a buffer plays -/

theorem dac_word (b : Byte) : dac (word b) = b := by
  have hlt := b.isLt
  unfold dac word
  apply BitVec.eq_of_toNat_eq
  rw [BitVec.toNat_setWidth, BitVec.toNat_ushiftRight, BitVec.toNat_shiftLeft,
    BitVec.toNat_setWidth, Nat.shiftLeft_eq, Nat.shiftRight_eq_div_pow]
  omega

/-- The last sample after each turn of the loop. -/
def lasts (stride : BitVec 32) : Nat → AudioFeed → List Byte
  | 0, _ => []
  | n + 1, f => (f.fillWord stride).last :: lasts stride n (f.fillWord stride)

section

variable {stride : BitVec 32} {f : AudioFeed}

@[simp] theorem length_lasts (n : Nat) : (lasts stride n f).length = n := by
  induction n generalizing f with
  | zero => rfl
  | succ n ih =>
    unfold lasts
    rw [List.length_cons, ih]

/-- The loop leaves the words of earlier turns alone. -/
theorem fillLoop_before {n i k : Nat} (words : Words) (h : k < i) :
    (fillLoop stride n i (f, words)).2 (k ^^^ 1) = words (k ^^^ 1) := by
  induction n generalizing f i words with
  | zero => rfl
  | succ n ih =>
    unfold fillLoop
    dsimp only
    rw [ih _ (Nat.lt_succ_of_lt h), Function.update_of_ne]
    intro heq
    have hsame := congrArg (· ^^^ 1) heq
    simp only [Nat.xor_assoc, Nat.xor_self, Nat.xor_zero] at hsame
    exact Nat.ne_of_lt h hsame

/-- The word a turn stores stands. -/
theorem fillLoop_at {n i k : Nat} (words : Words) (hk : k < (lasts stride n f).length) :
    (fillLoop stride n i (f, words)).2 ((i + k) ^^^ 1) = word (lasts stride n f)[k] := by
  induction n generalizing f i k words with
  | zero => exact absurd hk (Nat.not_lt_zero k)
  | succ n ih =>
    unfold fillLoop
    dsimp only
    cases k with
    | zero =>
      have hstay := @fillLoop_before stride (f.fillWord stride) n (i + 1) i
        (Function.update words (i ^^^ 1) (word (f.fillWord stride).last)) (Nat.lt_add_one i)
      rw [Function.update_self] at hstay
      exact hstay
    | succ k =>
      have hnext := @ih (f.fillWord stride) (i + 1) k
        (Function.update words (i ^^^ 1) (word (f.fillWord stride).last)) (Nat.lt_of_succ_lt_succ hk)
      rw [Nat.add_assoc, Nat.add_comm 1 k] at hnext
      exact hnext

/-- The DAC plays the last samples of the turns, in their order. -/
theorem played_fillWords (words : Words) (count : Nat) :
    played (f.fillWords words count).2 count = lasts f.stride count f.onGrid := by
  apply List.ext_getElem
  · rw [length_lasts, played, List.length_map, List.length_range]
  · intro k _ hk
    have hword := @fillLoop_at f.stride f.onGrid count 0 k words hk
    rw [Nat.zero_add] at hword
    simp only [played, fillWords, List.getElem_map, List.getElem_range]
    rw [hword, dac_word]

/-! ## Order -/

/-- A turn never starts the feed. -/
theorem playing_of_fillWord (h : (f.fillWord stride).playing = true) : f.playing = true := by
  by_contra hstopped
  have hhold : f.hold.playing = f.playing := by
    unfold hold
    split <;> rfl
  unfold fillWord at h
  rw [if_neg hstopped, hhold] at h
  exact hstopped h

theorem playing_of_fillLoop {n i : Nat} {words : Words}
    (h : (fillLoop stride n i (f, words)).1.playing = true) : f.playing = true := by
  induction n generalizing f i words with
  | zero => exact h
  | succ n ih => exact playing_of_fillWord (ih h)

/-- A turn at a stride of one takes a sample if one waits, and nothing else. -/
theorem fillWord_take (hplay : f.playing = true) (hsome : f.fill ≠ 0) :
    f.fillWord audioStrideOne =
      { f with last := f.sampleAt f.ring.tail, ring := f.ring.advance 1 } := by
  have hwet : ¬f.Dry audioStrideOne := by
    rintro (hzero | ⟨hother, _⟩)
    · exact hsome hzero
    · exact hother rfl
  have htake : f.playWord audioStrideOne =
      { f with last := f.sampleAt f.ring.tail, ring := f.ring.advance 1 } := by
    unfold playWord take takeOne
    rw [if_neg hwet, if_pos rfl, if_pos hsome]
  have hhold : (f.playWord audioStrideOne).hold = f.playWord audioStrideOne := by
    unfold hold
    rw [htake, hplay]
    rfl
  unfold fillWord
  rw [if_pos hplay, hhold, htake]

/-- A turn at a stride of one that does not run dry takes the first sample that waits. -/
theorem fillWord_one {log : List Byte} {next : Nat} (h : f.ring.Holds audioRingSize log next)
    (hplay : (f.fillWord audioStrideOne).playing = true) :
    ∃ hlt : next < log.length, (f.fillWord audioStrideOne).last = log[next] ∧
      (f.fillWord audioStrideOne).ring = f.ring.advance 1 := by
  have hbefore := playing_of_fillWord hplay
  have hfill := holds_fill h
  by_cases hempty : f.fill = 0
  · have hdry : f.Dry audioStrideOne := .inl hempty
    unfold fillWord playWord at hplay
    rw [if_pos hbefore, if_pos hdry] at hplay
    exact absurd hplay Bool.false_ne_true
  · have hlt : next < log.length := by
      have hpos : f.fill.toNat ≠ 0 := fun hzero => hempty (BitVec.eq_of_toNat_eq hzero)
      omega
    rw [fillWord_take hbefore hempty]
    refine ⟨hlt, ?_, rfl⟩
    unfold sampleAt
    dsimp only
    rw [h.tail, RingBuffer.ofNat_mod (by decide)]
    exact h.slot next hlt (Nat.le_refl next)

/-- Turns at a stride of one that do not run dry take what waits, in order. -/
theorem lasts_one {log : List Byte} {next n i : Nat} {words : Words}
    (h : f.ring.Holds audioRingSize log next)
    (hplay : (fillLoop audioStrideOne n i (f, words)).1.playing = true) :
    (fillLoop audioStrideOne n i (f, words)).1.ring.Holds audioRingSize log (next + n) ∧
      log.drop next = lasts audioStrideOne n f ++ log.drop (next + n) := by
  induction n generalizing f next i words with
  | zero => exact ⟨h, rfl⟩
  | succ n ih =>
    obtain ⟨hlt, hlast, hring⟩ := fillWord_one h (playing_of_fillLoop hplay)
    have hnext := h.advance (n := 1) hlt
    rw [← hring] at hnext
    obtain ⟨hholds, hdrop⟩ := ih hnext hplay
    rw [Nat.add_assoc, Nat.add_comm 1 n] at hholds hdrop
    refine ⟨hholds, ?_⟩
    unfold lasts
    rw [List.drop_eq_getElem_cons hlt, hlast, hdrop, List.cons_append]

end

/-- Steering leaves the ring of a feed that plays alone. -/
theorem steer_ring {f : AudioFeed} (hplay : f.playing = true) (dt_us : BitVec 32) :
    (f.steer dt_us).ring = f.ring := by
  have hmeasure : (f.measure dt_us).playing = f.playing := by
    unfold AudioFeed.measure
    split <;> rfl
  unfold AudioFeed.steer
  dsimp only
  rw [hmeasure, hplay, Bool.not_true, if_neg Bool.false_ne_true]
  change (f.measure dt_us).ring = f.ring
  unfold AudioFeed.measure
  split <;> rfl

/-- While the feed plays one sample for one, what waits and what a call queues is what is
heard and what waits then. -/
theorem Call.step_order (c : Call) {f : AudioFeed} (h : OfLog f) (hgrid : f.OnGrid)
    (hgrid' : (c.step f).OnGrid) :
    f.queued ++ c.queues f = c.heard f ++ (c.step f).queued := by
  obtain ⟨log, next, hring⟩ := h
  cases c with
  | push sample =>
    change f.queued ++ (if audioFillLimit ≤ f.fill.toNat then [] else [sample]) =
      [] ++ (f.push sample).queued
    by_cases hroom : audioFillLimit ≤ f.fill.toNat
    · unfold AudioFeed.push
      rw [if_pos hroom, if_pos hroom, List.append_nil]
      rfl
    · have hlow := hring.low
      rw [if_neg hroom, holds_queued hring, holds_queued (holds_push hring sample hroom),
        List.drop_append_of_le_length hlow, List.nil_append]
  | steer dt_us =>
    change f.queued ++ [] = [] ++ (f.steer dt_us).queued
    rw [List.append_nil, List.nil_append]
    unfold queued fill
    rw [steer_ring hgrid.1]
  | fillWords words pairs =>
    change f.queued ++ [] = played (f.fillWords words (2 * pairs)).2 (2 * pairs) ++
      (f.fillWords words (2 * pairs)).1.queued
    rw [← onGrid_ring (f := f)] at hring
    rw [played_fillWords, List.append_nil]
    have hplay := hgrid'.1
    change (fillLoop f.stride (2 * pairs) 0 (f.onGrid, words)).1.playing = true at hplay
    unfold AudioFeed.fillWords
    rw [hgrid.2] at hplay ⊢
    obtain ⟨hholds, hdrop⟩ := lasts_one hring hplay
    rw [onGrid_ring] at hring
    rw [holds_queued hring, holds_queued hholds, hdrop]

/-- The same along a run. -/
theorem onGrid_order {cs : List Call} {f : AudioFeed} (hb : Bounded f) (h : OfLog f)
    (hgrid : Always Call.step OnGrid cs f) :
    f.queued ++ Call.along Call.queues cs f =
      Call.along Call.heard cs f ++ (Call.run cs f).queued := by
  induction cs generalizing f with
  | nil => exact List.append_nil _
  | cons c cs ih =>
    obtain ⟨hnow, hrest⟩ := hgrid
    have hstep := c.step_order h hnow hrest.head
    have hnext := ih (c.step_bounded hb) (c.step_holds hb h) hrest
    unfold Call.along
    rw [← List.append_assoc, hstep, List.append_assoc, hnext, List.append_assoc]
    rfl

theorem run_bounded (cs : List Call) {f : AudioFeed} (hb : Bounded f) (h : OfLog f) :
    Bounded (Call.run cs f) ∧ OfLog (Call.run cs f) := by
  have hall : Always Call.step (fun f => Bounded f ∧ OfLog f) cs f :=
    Always.of_step (C := fun _ _ => True) ⟨hb, h⟩
      (fun c _ hf _ => ⟨c.step_bounded hf.1, c.step_holds hf.1 hf.2⟩)
      (.of_forall fun _ _ _ => trivial)
  exact hall.last

/-- Whatever the order of the calls, the feed keeps its bounds, the products of the rate control
fit 32 bits, and the consumer reads only samples that wait; a sample handed in is queued or, at the
limit, dropped and counted; and while the feed plays at a stride of exactly one, the samples queued
are heard once each, in order. -/
theorem audio_feed_bounds (slot : Nat → Byte) (cs : List Call) :
    Always Call.step (fun f => Bounded f ∧ f.rate.ProductsFit ∧ f.ReadsWaiting) cs (init slot) ∧
      (Call.run cs (init slot)).overruns +
          BitVec.ofNat 32 (Call.along Call.queues cs (init slot)).length =
        BitVec.ofNat 32 (Call.along Call.pushed cs (init slot)).length ∧
      ∀ on : List Call, Always Call.step OnGrid on (Call.run cs (init slot)) →
        (Call.run cs (init slot)).queued ++ Call.along Call.queues on (Call.run cs (init slot)) =
          Call.along Call.heard on (Call.run cs (init slot)) ++
            (Call.run (cs ++ on) (init slot)).queued := by
  have hinit := bounded_init slot
  obtain ⟨hb, h⟩ := run_bounded cs hinit (ofLog_init slot)
  have hcount := run_overruns cs (init slot)
  have hnone : (init slot).overruns = 0#32 := rfl
  rw [hnone, BitVec.zero_add] at hcount
  refine ⟨(always_bounded cs hinit).imp fun f hf => ⟨hf, hf.rate.products_fit, hf.readsWaiting⟩,
    hcount, ?_⟩
  intro on hgrid
  have happend : Call.run (cs ++ on) (init slot) = Call.run on (Call.run cs (init slot)) :=
    runAll_append cs on _
  rw [happend]
  exact onGrid_order hb h hgrid

/-! ## Up to the limit -/

/-- Pushes up to the limit all find room, and change nothing but the ring. -/
theorem run_pushes {f : AudioFeed} (sample : Byte) (n : Nat)
    (hroom : f.fill.toNat + n ≤ audioFillLimit) :
    (Call.run (List.replicate n (.push sample)) f).fill.toNat = f.fill.toNat + n ∧
      (Call.run (List.replicate n (.push sample)) f).playing = f.playing ∧
      (Call.run (List.replicate n (.push sample)) f).stride = f.stride := by
  induction n generalizing f with
  | zero => exact ⟨rfl, rfl, rfl⟩
  | succ n ih =>
    have hpush : f.push sample = { f with ring := f.ring.push audioRingSize [sample] } := by
      unfold AudioFeed.push
      exact if_neg (by omega)
    have hfill : (f.push sample).fill.toNat = f.fill.toNat + 1 := by
      rw [hpush]
      unfold audioFillLimit audioRingSize at hroom
      unfold AudioFeed.fill RingBuffer.push at *
      dsimp only [List.length_singleton]
      bv_omega
    have hplaying : (f.push sample).playing = f.playing := by rw [hpush]
    have hpace : (f.push sample).stride = f.stride := by rw [hpush]
    obtain ⟨hcount, hplay, hstride⟩ := @ih (f.push sample) (by omega)
    exact ⟨hcount.trans (by omega), hplay.trans hplaying, hstride.trans hpace⟩

/-- As many samples as it takes, and the end of the first frame. -/
def startUp : List Call := List.replicate audioFillTarget (.push 0) ++ [.steer 0]

theorem run_startUp (slot : Nat → Byte) :
    (Call.run startUp (init slot)).OnGrid ∧
      (Call.run startUp (init slot)).fill.toNat = audioFillTarget := by
  have hzero : (init slot).fill.toNat = 0 := by
    change (0 - 0 : BitVec 32).toNat = 0
    rfl
  obtain ⟨hfill, hplay, _⟩ := @run_pushes (init slot) 0 audioFillTarget (by rw [hzero]; decide)
  have hrun : Call.run startUp (init slot) =
      (Call.run (List.replicate audioFillTarget (.push 0)) (init slot)).steer 0 := by
    unfold startUp Call.run
    rw [runAll_append, runAll_cons, runAll_nil]
    rfl
  rw [hrun]
  generalize Call.run (List.replicate audioFillTarget (.push 0)) (init slot) = f at *
  have hlevel : f.fill = BitVec.ofNat 32 audioFillTarget := by
    apply BitVec.eq_of_toNat_eq
    rw [hfill, hzero]
    rfl
  have hrestart : f.steer 0 = f.restart := by
    have hmeasure : f.measure 0 = f := if_neg (by decide)
    unfold AudioFeed.steer
    dsimp only
    rw [hmeasure, hplay, hlevel]
    rfl
  rw [hrestart, restart_fill]
  exact ⟨⟨rfl, rfl⟩, rfl⟩

/-- A feed that plays goes on playing when a sample is pushed. -/
theorem onGrid_push {f : AudioFeed} (h : f.OnGrid) (sample : Byte) : (f.push sample).OnGrid := by
  unfold AudioFeed.push
  split <;> exact h

/-- Turns of the loop that find enough samples go on playing. -/
theorem fillLoop_onGrid {f : AudioFeed} {n i : Nat} (words : Words) (h : f.OnGrid)
    (hfill : n ≤ f.fill.toNat) : (fillLoop audioStrideOne n i (f, words)).1.OnGrid := by
  induction n generalizing f i words with
  | zero => exact h
  | succ n ih =>
    have hsome : f.fill ≠ 0 := by
      intro hzero
      rw [hzero] at hfill
      exact absurd hfill (Nat.not_succ_le_zero n)
    have hword := fillWord_take h.1 hsome
    have hone := advance_fill (f := f) (n := 1) (by omega)
    refine ih _ ?_ ?_
    · rw [hword]
      exact h
    · rw [hword]
      exact (Nat.le_sub_of_add_le hfill).trans (Nat.le_of_eq hone.symm)

/-- A refill of no more words than samples wait leaves the feed playing. -/
theorem onGrid_fillWords {f : AudioFeed} {count : Nat} (words : Words) (h : f.OnGrid)
    (hfill : count ≤ f.fill.toNat) : (f.fillWords words count).1.OnGrid := by
  have hgrid : f.onGrid.OnGrid := by
    unfold AudioFeed.onGrid
    split <;> exact h
  have hsame : f.onGrid.fill = f.fill := by
    unfold AudioFeed.fill
    rw [onGrid_ring]
  unfold AudioFeed.fillWords
  rw [h.2]
  exact fillLoop_onGrid words hgrid (by rw [hsame]; exact hfill)

/-- Two samples more, a buffer that takes all that wait, and another sample. -/
def playOn : List Call := [.push 5, .push 6, .fillWords (fun _ => 0) 388, .push 7]

theorem playOn_onGrid (slot : Nat → Byte) :
    Always Call.step OnGrid playOn (Call.run startUp (init slot)) := by
  obtain ⟨hgrid, hfill⟩ := run_startUp slot
  generalize Call.run startUp (init slot) = f at hgrid hfill ⊢
  have hwait (f : AudioFeed) (sample : Byte) (hroom : f.fill.toNat + 1 ≤ audioFillLimit) :
      (f.push sample).fill.toNat = f.fill.toNat + 1 := (run_pushes (f := f) sample 1 hroom).1
  have hfive : (f.push 5).fill.toNat = 775 := by
    rw [hwait f 5 (by rw [hfill]; decide), hfill]
    rfl
  have hsix : ((f.push 5).push 6).fill.toNat = 776 := by
    rw [hwait (f.push 5) 6 (by rw [hfive]; decide), hfive]
  have hpushed := onGrid_push (onGrid_push hgrid 5) 6
  have hfilled : (((f.push 5).push 6).fillWords (fun _ => 0) (2 * 388)).1.OnGrid :=
    onGrid_fillWords (fun _ => 0) hpushed (by rw [hsix])
  exact ⟨hgrid, onGrid_push hgrid 5, hpushed, hfilled, onGrid_push hfilled 7⟩

/-- The feed has started, and plays all it has, the last two samples included. -/
theorem audio_feed_bounds_start :
    (Call.run startUp (init fun _ => 0)).queued ++
        Call.along Call.queues playOn (Call.run startUp (init fun _ => 0)) =
      Call.along Call.heard playOn (Call.run startUp (init fun _ => 0)) ++
        (Call.run (startUp ++ playOn) (init fun _ => 0)).queued :=
  (audio_feed_bounds (fun _ => 0) startUp).2.2 playOn (playOn_onGrid fun _ => 0)

/-- The start, and samples up to the limit. -/
def fillUp : List Call := startUp ++ List.replicate 1210 (.push 0)

theorem run_fillUp (slot : Nat → Byte) :
    (Call.run fillUp (init slot)).OnGrid ∧
      (Call.run fillUp (init slot)).fill.toNat = audioFillLimit := by
  obtain ⟨hgrid, hfill⟩ := run_startUp slot
  obtain ⟨hfull, hplay, hstride⟩ := @run_pushes (Call.run startUp (init slot)) 0 1210
    (by rw [hfill]; decide)
  have hrun : Call.run fillUp (init slot) =
      Call.run (List.replicate 1210 (.push 0)) (Call.run startUp (init slot)) := by
    unfold fillUp Call.run
    rw [runAll_append]
  rw [hrun]
  refine ⟨⟨hplay.trans hgrid.1, hstride.trans hgrid.2⟩, ?_⟩
  rw [hfull, hfill]
  rfl

/-- A sample pushed at the limit neither waits nor is heard. -/
theorem push_full {f : AudioFeed} (h : f.fill.toNat = audioFillLimit) (sample : Byte) :
    f.queued ++ Call.along Call.pushed [.push sample] f ≠
      Call.along Call.heard [.push sample] f ++ (Call.run [.push sample] f).queued := by
  have hdrop : (Call.run [.push sample] f).queued = f.queued := by
    change (f.push sample).queued = f.queued
    unfold AudioFeed.push
    rw [if_pos (Nat.le_of_eq h.symm)]
    rfl
  intro hexact
  have hlength := congrArg List.length hexact
  rw [hdrop, List.length_append, List.length_append] at hlength
  change f.queued.length + 1 = 0 + f.queued.length at hlength
  omega

/-- Not every sample handed in is heard: with the ring at its limit one is dropped. -/
theorem overrun_drops :
    ¬∀ (slot : Nat → Byte) (cs on : List Call),
      Always Call.step OnGrid on (Call.run cs (init slot)) →
        (Call.run cs (init slot)).queued ++ Call.along Call.pushed on (Call.run cs (init slot)) =
          Call.along Call.heard on (Call.run cs (init slot)) ++
            (Call.run (cs ++ on) (init slot)).queued := by
  intro hall
  obtain ⟨hgrid, hfull⟩ := run_fillUp fun _ => 0
  have hexact := hall (fun _ => 0) fillUp [.push 1] ⟨hgrid, onGrid_push hgrid 1⟩
  have happend : Call.run (fillUp ++ [.push 1]) (init fun _ => 0) =
      Call.run [.push 1] (Call.run fillUp (init fun _ => 0)) := runAll_append _ _ _
  rw [happend] at hexact
  exact push_full hfull 1 hexact

end CocoEmulator.Audio
