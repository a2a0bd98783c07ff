/-
  Sound/Speech.lean --- what the SP0256 says, without its ring of samples.

  `stream` is the chip as a stream of samples: it makes one at a time and keeps nothing
  between requests.

      nextSample_one   three attempts make a sample, whatever the ROM holds
      stream_add       a stream may be cut anywhere
      stream_advance   no code is lost or begun twice

  Source: sp0256.cpp.
-/
import CocoEmulator.Sound.Sp0256

set_option autoImplicit false

namespace CocoEmulator.Sound

open CocoEmulator.Base

namespace Sp0256

/-! ## The chip as a stream -/

/-- What was heard, whether the line was raised, and the chip after it. -/
structure Heard where
  samples : List Int
  raised : Bool
  chip : Sequencer

namespace Heard

/-- One thing heard after another. -/
def andThen (h : Heard) (f : Sequencer → Heard) : Heard :=
  ⟨h.samples ++ (f h.chip).samples, h.raised || (f h.chip).raised, (f h.chip).chip⟩

theorem andThen_assoc (h : Heard) (f g : Sequencer → Heard) :
    (h.andThen f).andThen g = h.andThen fun s => (f s).andThen g := by
  simp [andThen, Bool.or_assoc]

theorem andThen_congr {h : Heard} {f g : Sequencer → Heard} (hfg : f h.chip = g h.chip) :
    h.andThen f = h.andThen g := by
  rw [andThen, andThen, hfg]

theorem silent_andThen (s : Sequencer) (f : Sequencer → Heard) :
    (Heard.mk [] false s).andThen f = f s := by
  simp [andThen]

end Heard

namespace Sequencer

variable (s : Sequencer)

/-- The microsequencer runs when the repeat count is out. -/
def refill : Bool × Sequencer := if s.filt.rpt ≤ 0 then s.micro else (false, s)

/-- An attempt at a sample. -/
def attempt : Heard := ⟨s.refill.2.tick.1.toList, s.refill.1, s.refill.2.tick.2⟩

/-- The next sample, in so many attempts. -/
def nextSample : Nat → Sequencer → Heard
  | 0, s => ⟨[], false, s⟩
  | k + 1, s => if s.attempt.samples = [] then s.attempt.andThen (nextSample k) else s.attempt

/-- So many samples. -/
def stream : Nat → Sequencer → Heard
  | 0, s => ⟨[], false, s⟩
  | n + 1, s => (nextSample 3 s).andThen (stream n)

theorem stream_succ (n : Nat) : stream (n + 1) s = (nextSample 3 s).andThen (stream n) := rfl

theorem stream_add (m n : Nat) : stream (m + n) s = (stream m s).andThen (stream n) := by
  induction m generalizing s with
  | zero => rw [Nat.zero_add, stream, Heard.silent_andThen]
  | succ m ih =>
    rw [Nat.succ_add, stream_succ, stream_succ, Heard.andThen_assoc]
    exact Heard.andThen_congr (ih _)

/-! ## The microsequencer -/

/-- The excitation is where it was. -/
structure SameBeat (t : Sequencer) : Prop where
  rpt : t.filt.rpt = s.filt.rpt
  cnt : t.filt.cnt = s.filt.cnt
  per : t.filt.per = s.filt.per

variable {s}

theorem SameBeat.trans {t u : Sequencer} (h : SameBeat s t) (h' : SameBeat t u) : SameBeat s u :=
  ⟨h'.rpt.trans h.rpt, h'.cnt.trans h.cnt, h'.per.trans h.per⟩

theorem SameBeat.of_filt {t : Sequencer} (h : t.filt = s.filt) : SameBeat s t := by
  constructor <;> rw [h]

@[simp] theorem getb_filt (len : Nat) : (s.getb len).2.filt = s.filt := by
  unfold getb
  split
  · dsimp only
    split <;> rfl
  · rfl

@[simp] theorem transfer_filt (pc : Nat) : (s.transfer pc).filt = s.filt := by
  simp only [transfer]
  split <;> rfl

theorem pageOrReturn_filt (immed4 : BitVec 32) : (s.pageOrReturn immed4).filt = s.filt := by
  unfold pageOrReturn
  split
  · rfl
  · split <;> simp only [transfer_filt]

theorem branch_filt (immed4 : BitVec 32) (call : Bool) :
    (s.branch immed4 call).filt = s.filt := by
  cases call <;> simp [branch]

theorem startCode_beat : SameBeat s s.startCode.2 := by
  unfold startCode
  split <;> exact ⟨rfl, rfl, rfl⟩

theorem clearFor_beat (e : Fmt) : SameBeat s (s.clearFor e) := by
  simp only [clearFor, setReg]
  split <;> split <;> exact ⟨rfl, rfl, rfl⟩

theorem applyFmt_beat (e : Fmt) : SameBeat s (s.applyFmt e) := by
  have hclear : SameBeat s (s.clearFor e) := clearFor_beat e
  have hget := getb_filt (s := s.clearFor e) e.len
  unfold applyFmt
  dsimp only
  split
  · exact hclear
  · refine hclear.trans ?_
    split
    · exact ⟨by rw [setReg, hget], by rw [setReg, hget], by rw [setReg, hget]⟩
    · split <;> exact ⟨by rw [setReg, hget], by rw [setReg, hget], by rw [setReg, hget]⟩

theorem foldl_applyFmt_beat (es : List Fmt) : SameBeat s (es.foldl applyFmt s) := by
  induction es generalizing s with
  | nil => exact ⟨rfl, rfl, rfl⟩
  | cons e es ih => exact (applyFmt_beat e).trans ih

/-- A repeat count comes with a new period. -/
theorem load_beat (opcode times : Nat) :
    (s.load opcode times).filt.rpt = times + 1 ∧ (s.load opcode times).filt.cnt = 0 := by
  have hfold := foldl_applyFmt_beat
    (s := { s with filt := { s.filt with rpt := (times : Int) + 1 } }) (formats opcode s.mode)
  unfold load
  dsimp only
  refine ⟨?_, rfl⟩
  split <;> exact hfold.rpt

/-- An instruction leaves the excitation alone, or loads it. -/
theorem instruction_beat :
    SameBeat s s.instruction ∨ 2 ≤ s.instruction.filt.rpt ∧ s.instruction.filt.cnt = 0 := by
  have hget : ((s.getb 4).2.getb 4).2.filt = s.filt := by rw [getb_filt, getb_filt]
  unfold instruction
  dsimp only
  generalize ((s.getb 4).2.getb 4).2 = t at hget
  split
  · exact .inl (SameBeat.of_filt ((pageOrReturn_filt _).trans hget))
  · exact .inl (SameBeat.of_filt ((branch_filt _ _).trans hget))
  · exact .inl (SameBeat.of_filt ((branch_filt _ _).trans hget))
  · exact .inl (SameBeat.of_filt hget)
  · split
    · exact .inl (SameBeat.of_filt hget)
    · refine .inr ?_
      obtain ⟨hrpt, hcnt⟩ := load_beat (s := { t with mode := t.mode &&& 0xF })
        ((s.getb 4).2.getb 4).1.toNat ((s.getb 4).1 ||| (t.mode &&& 0x30)).toNat
      exact ⟨by rw [hrpt]; omega, hcnt⟩

/-- Where `Micro` leaves the excitation: one more round of it, or a new one. -/
def Refilled (t : Sequencer) : Prop :=
  (t.filt.rpt = 1 ∧ t.filt.cnt = s.filt.cnt ∧ t.filt.per = s.filt.per) ∨
    (2 ≤ t.filt.rpt ∧ t.filt.cnt = 0)

theorem microLoop_refills (n : Nat) (h : s.filt.rpt ≤ 0) : Refilled (s := s) (microLoop n s).2 := by
  induction n generalizing s with
  | zero =>
    rw [microLoop, if_neg (by omega)]
    exact .inl ⟨rfl, rfl, rfl⟩
  | succ n ih =>
    rw [microLoop, if_neg (by omega)]
    have hstart : SameBeat s s.startCode.2 := startCode_beat
    dsimp only
    split
    · exact .inl ⟨rfl, hstart.cnt, hstart.per⟩
    · rcases instruction_beat (s := s.startCode.2) with hbeat | ⟨hrpt, hcnt⟩
      · have hsame := hstart.trans hbeat
        rcases ih (by rw [hsame.rpt]; exact h) with ⟨hrpt, hcnt, hper⟩ | hnew
        · exact .inl ⟨hrpt, hcnt.trans hsame.cnt, hper.trans hsame.per⟩
        · exact .inr hnew
      · refine .inr ?_
        cases n with
        | zero =>
          rw [microLoop, if_pos (by omega)]
          exact ⟨hrpt, hcnt⟩
        | succ n =>
          rw [microLoop, if_pos (by omega)]
          exact ⟨hrpt, hcnt⟩

end Sequencer

/-! ## The excitation -/

namespace Lpc12

variable {f : Lpc12}

/-- The excitation of a round. -/
def excite (f : Lpc12) : Int × Bool × Lpc12 := if f.per ≠ 0 then f.pulse else f.noise

theorem filter_beat (samp : Int) :
    (f.filter samp).2.rpt = f.rpt ∧ (f.filter samp).2.cnt = f.cnt := by
  unfold filter
  generalize List.finRange 6 = js
  induction js generalizing f samp with
  | nil => exact ⟨rfl, rfl⟩
  | cons j js ih =>
    rw [List.foldl_cons]
    obtain ⟨hrpt, hcnt⟩ := ih (f := (f.stage j samp).2) (f.stage j samp).1
    exact ⟨hrpt, hcnt⟩

/-- The range of a sample. -/
def InRange (v : Int) : Prop := -32768 ≤ v ∧ v ≤ 32764

theorem output_range (samp : Int) : InRange (output samp) := by
  have hlimit : -8192 ≤ limit (int16 samp) ∧ limit (int16 samp) ≤ 8191 := by
    unfold limit
    split
    · omega
    · split <;> omega
  have hbmod : int16 (limit (int16 samp) * 4) = limit (int16 samp) * 4 := by
    rw [int16, BitVec.toInt_ofInt, Int.bmod_eq_of_le (by omega) (by omega)]
  rw [InRange, output, hbmod]
  omega

/-- A round makes a sample exactly when the excitation has not run out. -/
theorem tick_excite :
    f.tick.2.rpt = f.excite.2.2.rpt ∧ f.tick.2.cnt = f.excite.2.2.cnt ∧
      (f.excite.2.2.rpt ≤ 0 → f.tick.1 = none) ∧
      (0 < f.excite.2.2.rpt → ∃ v, f.tick.1 = some v ∧ InRange v) := by
  have hbeat : ∀ (b : Bool) (g : Lpc12), (if b = true then g.interpolate else g).rpt = g.rpt ∧
      (if b = true then g.interpolate else g).cnt = g.cnt := by
    intro b g
    cases b <;> exact ⟨rfl, rfl⟩
  unfold tick
  rw [← excite]
  generalize f.excite = x
  obtain ⟨samp, doInt, g⟩ := x
  obtain ⟨hrpt, hcnt⟩ := hbeat doInt g
  dsimp only
  generalize (if doInt = true then g.interpolate else g) = g' at hrpt hcnt
  split
  · exact ⟨hrpt, hcnt, fun _ => rfl, fun h => absurd h (by omega)⟩
  · obtain ⟨hrpt', hcnt'⟩ := filter_beat (f := g') samp
    exact ⟨hrpt'.trans hrpt, hcnt'.trans hcnt, fun h => absurd h (by omega),
      fun _ => ⟨_, rfl, output_range _⟩⟩

/-- The excitation runs down within a period, and a period runs down the repeat count. -/
theorem excite_cases (h : 0 ≤ f.cnt) :
    f.excite.2.2.rpt = f.rpt ∧ 0 ≤ f.excite.2.2.cnt ∨
      f.excite.2.2.rpt = f.rpt - 1 ∧ f.cnt ≤ 1 ∧ 1 ≤ f.excite.2.2.cnt ∧
        (f.cnt = 1 → f.excite.2.2.cnt = 64) := by
  unfold excite
  split
  · next hper =>
    unfold pulse
    split
    · refine .inr ⟨rfl, by omega, ?_, fun h1 => absurd h1 (by omega)⟩
      simp only [restart]
      omega
    · refine .inl ⟨rfl, ?_⟩
      show 0 ≤ f.cnt - 1
      omega
  · unfold noise
    dsimp only
    split
    · refine .inr ⟨rfl, by omega, ?_, fun _ => rfl⟩
      simp [shiftRng, restart, perNoise]
    · refine .inl ⟨rfl, ?_⟩
      simp only [shiftRng]
      omega

end Lpc12

/-! ## Samples one at a time -/

namespace Sequencer

variable {s : Sequencer}

/-- The excitation is not behind. -/
def Steady (s : Sequencer) : Prop := 0 ≤ s.filt.cnt

theorem refill_steady (h : s.Steady) :
    0 < s.refill.2.filt.rpt ∧ s.refill.2.Steady ∧
      (s.refill.2.filt.rpt = 1 → s.refill.2.filt.cnt = s.filt.cnt) := by
  unfold Steady at *
  unfold refill
  split
  · next hrpt =>
    rcases microLoop_refills 4095 hrpt with ⟨hone, hcnt, -⟩ | ⟨htwo, hcnt⟩
    · exact ⟨by rw [micro, hone]; decide, by rw [micro, hcnt]; exact h, fun _ => hcnt⟩
    · exact ⟨by rw [micro]; omega, by rw [micro, hcnt], fun h1 => absurd h1 (by rw [micro]; omega)⟩
  · next hrpt => exact ⟨Int.not_le.mp hrpt, h, fun _ => rfl⟩

/-- An attempt makes a sample, or ends a period: with a full one to come, if it ended a
period of noise in its last round. -/
theorem attempt_cases (h : s.Steady) :
    (∃ v, s.attempt.samples = [v] ∧ Lpc12.InRange v ∧ 0 < s.attempt.chip.filt.rpt ∧
        s.attempt.chip.Steady) ∨
      s.attempt.samples = [] ∧ s.attempt.chip.filt.rpt = 0 ∧ s.filt.cnt ≤ 1 ∧
        1 ≤ s.attempt.chip.filt.cnt ∧ (s.filt.cnt = 1 → s.attempt.chip.filt.cnt = 64) := by
  obtain ⟨hpos, hsteady, hkept⟩ := refill_steady h
  obtain ⟨hrpt, hcnt, hnone, hsome⟩ := Lpc12.tick_excite (f := s.refill.2.filt)
  have hrpt' : s.attempt.chip.filt.rpt = s.refill.2.filt.excite.2.2.rpt := hrpt
  have hcnt' : s.attempt.chip.filt.cnt = s.refill.2.filt.excite.2.2.cnt := hcnt
  have hv : s.attempt.samples = s.refill.2.filt.tick.1.toList := rfl
  by_cases hout : 0 < s.refill.2.filt.excite.2.2.rpt
  · obtain ⟨v, heq, hrange⟩ := hsome hout
    refine .inl ⟨v, by rw [hv, heq]; rfl, hrange, by rw [hrpt']; exact hout, ?_⟩
    unfold Steady at *
    rcases Lpc12.excite_cases hsteady with hcase | hcase <;> omega
  · rcases Lpc12.excite_cases hsteady with ⟨hcase, -⟩ | ⟨hcase, hlow, hone, hnoise⟩
    · exact absurd hcase (by omega)
    · have hlast := hkept (by omega)
      refine .inr ⟨by rw [hv, hnone (by omega)]; rfl, by omega, by omega, by omega, ?_⟩
      intro h1
      rw [hcnt']
      exact hnoise (by omega)

/-- A heard sample. -/
structure One (h : Heard) : Prop where
  sample : ∃ v, h.samples = [v] ∧ Lpc12.InRange v
  steady : h.chip.Steady

theorem nextSample_succ_of_some {v : Int} (h : s.attempt.samples = [v]) (k : Nat) :
    nextSample (k + 1) s = s.attempt := by
  rw [nextSample, if_neg (by simp [h])]

theorem nextSample_succ_of_none (h : s.attempt.samples = []) (k : Nat) :
    nextSample (k + 1) s = s.attempt.andThen (nextSample k) := by
  rw [nextSample, if_pos h]

theorem One.after {h : Heard} {f : Sequencer → Heard} (hnone : h.samples = [])
    (hf : One (f h.chip)) : One (h.andThen f) := by
  obtain ⟨v, heq, hrange⟩ := hf.sample
  exact ⟨⟨v, by rw [Heard.andThen, hnone, heq]; rfl, hrange⟩, hf.steady⟩

theorem One.of_after {h : Heard} {f : Sequencer → Heard} (hf : One (h.andThen f))
    (hnone : h.samples = []) : One (f h.chip) := by
  obtain ⟨v, heq, hrange⟩ := hf.sample
  exact ⟨⟨v, by simpa [Heard.andThen, hnone] using heq, hrange⟩, hf.steady⟩

/-- Three attempts make a sample, whatever the ROM holds. -/
theorem nextSample_one (h : s.Steady) : One (nextSample 3 s) := by
  rcases attempt_cases h with ⟨v, hv, hrange, -, hsteady⟩ | ⟨hnone, -, -, hone, -⟩
  · rw [nextSample_succ_of_some hv]
    exact ⟨⟨v, hv, hrange⟩, hsteady⟩
  rw [nextSample_succ_of_none hnone]
  refine One.after hnone ?_
  rcases attempt_cases (s := s.attempt.chip) (by unfold Steady; omega) with
    ⟨v, hv, hrange, -, hsteady⟩ | ⟨hnone', -, hlow, -, hnoise⟩
  · rw [nextSample_succ_of_some hv]
    exact ⟨⟨v, hv, hrange⟩, hsteady⟩
  rw [nextSample_succ_of_none hnone']
  refine One.after hnone' ?_
  -- Both periods have ended: the next one is 64 rounds long.
  have hfull : s.attempt.chip.attempt.chip.filt.cnt = 64 := hnoise (by omega)
  rcases attempt_cases (s := s.attempt.chip.attempt.chip) (by unfold Steady; omega) with
    ⟨v, hv, hrange, -, hsteady⟩ | ⟨-, -, hlow', -, -⟩
  · rw [nextSample_succ_of_some hv]
    exact ⟨⟨v, hv, hrange⟩, hsteady⟩
  · omega

/-- A stream of `n` samples has `n` of them, each in range. -/
theorem stream_spec (n : Nat) (h : s.Steady) :
    (stream n s).samples.length = n ∧ (∀ v ∈ (stream n s).samples, Lpc12.InRange v) ∧
      (stream n s).chip.Steady := by
  induction n generalizing s with
  | zero => exact ⟨rfl, by simp [stream], h⟩
  | succ n ih =>
    obtain ⟨⟨v, hv, hrange⟩, hsteady⟩ := nextSample_one h
    obtain ⟨hlen, hall, hlast⟩ := ih hsteady
    refine ⟨?_, ?_, hlast⟩
    · simp only [stream, Heard.andThen, hv, List.length_append, List.length_singleton, hlen]
      omega
    · intro w hw
      simp only [stream, Heard.andThen, hv, List.mem_append, List.mem_singleton] at hw
      rcases hw with rfl | hw
      · exact hrange
      · exact hall w hw

/-- More attempts than it takes change nothing. -/
theorem nextSample_mono {k : Nat} (h : One (nextSample k s)) :
    nextSample (k + 1) s = nextSample k s := by
  induction k generalizing s with
  | zero =>
    obtain ⟨v, hv, -⟩ := h.sample
    simp [nextSample] at hv
  | succ k ih =>
    by_cases hnone : s.attempt.samples = []
    · rw [nextSample_succ_of_none hnone] at h ⊢
      rw [nextSample_succ_of_none hnone, Heard.andThen, Heard.andThen, ih (h.of_after hnone)]
    · rw [nextSample, if_neg hnone, nextSample, if_neg hnone]

/-- A stream may begin with an attempt that makes nothing. -/
theorem stream_succ_of_none (h : s.Steady) (hnone : s.attempt.samples = []) (n : Nat) :
    stream (n + 1) s = s.attempt.andThen (stream (n + 1)) := by
  have hone := nextSample_one h
  rw [nextSample_succ_of_none hnone] at hone
  have hmono := nextSample_mono (hone.of_after hnone)
  rw [stream_succ, nextSample_succ_of_none hnone, Heard.andThen_assoc]
  refine Heard.andThen_congr ?_
  rw [stream_succ, hmono]

theorem stream_succ_of_some {v : Int} (hv : s.attempt.samples = [v]) (n : Nat) :
    stream (n + 1) s = s.attempt.andThen (stream n) := by
  rw [stream_succ, nextSample_succ_of_some hv]

theorem refill_of_pos (h : 0 < s.filt.rpt) : s.refill = (false, s) := by
  rw [refill, if_neg (by omega)]

theorem attempt_of_pos (h : 0 < s.filt.rpt) :
    s.attempt = ⟨s.tick.1.toList, false, s.tick.2⟩ := by
  rw [attempt, refill_of_pos h]

theorem attempt_refill (h : s.Steady) :
    s.attempt = (Heard.mk [] s.refill.1 s.refill.2).andThen attempt := by
  rw [Heard.andThen, attempt_of_pos (refill_steady h).1, attempt]
  simp

theorem nextSample_refill (h : s.Steady) (k : Nat) :
    nextSample (k + 1) s = (Heard.mk [] s.refill.1 s.refill.2).andThen (nextSample (k + 1)) := by
  have hattempt := attempt_refill h
  have hsamples : s.attempt.samples = s.refill.2.attempt.samples := by
    rw [hattempt, Heard.andThen]
    rfl
  by_cases hnone : s.attempt.samples = []
  · rw [nextSample_succ_of_none hnone, hattempt, Heard.andThen_assoc]
    refine Heard.andThen_congr ?_
    rw [nextSample_succ_of_none (hsamples ▸ hnone)]
  · rw [nextSample, if_neg hnone]
    refine hattempt.trans (Heard.andThen_congr ?_)
    rw [nextSample, if_neg (hsamples ▸ hnone)]

theorem stream_refill (h : s.Steady) (n : Nat) :
    stream (n + 1) s = (Heard.mk [] s.refill.1 s.refill.2).andThen (stream (n + 1)) := by
  rw [stream_succ, nextSample_refill h, Heard.andThen_assoc]
  exact Heard.andThen_congr (stream_succ _ n).symm

/-- Part of a stream: `vs` of the `n` samples from `s` are made, and the chip is at `t`. -/
structure Made (n : Nat) (s : Sequencer) (vs : List Int) (raised : Bool) (t : Sequencer) :
    Prop where
  steady : t.Steady
  alive : 0 ≤ t.filt.rpt
  le : vs.length ≤ n
  rest : stream n s = (Heard.mk vs raised t).andThen (stream (n - vs.length))
  patience : vs = [] → n ≠ 0 → ∀ k, One (nextSample (k + 1) s) → One (nextSample k t)

theorem Made.zero (h : s.Steady) (hrpt : 0 ≤ s.filt.rpt) : Made 0 s [] false s :=
  ⟨h, hrpt, Nat.le_refl 0, (Heard.silent_andThen s _).symm, fun _ h0 => absurd rfl h0⟩

/-- One more sample at the front. -/
theorem Made.some {n : Nat} {v : Int} {vs : List Int} {t u : Sequencer}
    (hattempt : s.attempt = ⟨[v], false, t⟩) (h : Made n t vs false u) :
    Made (n + 1) s (v :: vs) false u := by
  refine ⟨h.steady, h.alive, Nat.succ_le_succ h.le, ?_, fun h0 => absurd h0 (List.cons_ne_nil v vs)⟩
  rw [stream_succ_of_some (by rw [hattempt]), hattempt]
  simp only [Heard.andThen, h.rest, List.length_cons, Nat.succ_sub_succ]
  simp

/-- An attempt that makes nothing. -/
theorem Made.none {n : Nat} {t : Sequencer} (h : s.Steady) (hattempt : s.attempt = ⟨[], false, t⟩) :
    Made (n + 1) s [] false t := by
  have hnone : s.attempt.samples = [] := by rw [hattempt]
  rcases attempt_cases h with ⟨v, hv, -⟩ | ⟨-, hrpt, -, hcnt, -⟩
  · exact absurd (hnone.symm.trans hv) (by simp)
  · rw [hattempt] at hrpt hcnt
    refine ⟨?_, hrpt.ge, Nat.zero_le _, ?_, fun _ _ k hone => ?_⟩
    · exact Int.le_trans (by decide) hcnt
    · rw [stream_succ_of_none h hnone, hattempt]
      rfl
    · rw [nextSample_succ_of_none hnone] at hone
      have hafter := hone.of_after hnone
      rwa [hattempt] at hafter

/-- The microsequencer before it. -/
theorem Made.refill {n : Nat} {vs : List Int} {t : Sequencer} (h : s.Steady)
    (hmade : Made (n + 1) s.refill.2 vs false t) : Made (n + 1) s vs s.refill.1 t := by
  refine ⟨hmade.steady, hmade.alive, hmade.le, ?_, fun hnil hn k hone => ?_⟩
  · rw [stream_refill h]
    simp [Heard.andThen, hmade.rest]
  · rw [nextSample_refill h] at hone
    exact hmade.patience hnil hn k (hone.of_after rfl)

end Sequencer

/-! ## The codes -/

namespace Sequencer

variable {s : Sequencer}

/-- What the codes go through. -/
def codes (s : Sequencer) : Bool × Nat × List Nat × List Nat := (s.lrq, s.ald, s.taken, s.begun)

@[simp] theorem getb_codes (len : Nat) : (s.getb len).2.codes = s.codes := by
  unfold getb
  split
  · dsimp only
    split <;> rfl
  · rfl

@[simp] theorem transfer_codes (pc : Nat) : (s.transfer pc).codes = s.codes := by
  simp only [transfer]
  split <;> rfl

theorem applyFmt_codes (e : Fmt) : (s.applyFmt e).codes = s.codes := by
  have hclear : (s.clearFor e).codes = s.codes := by
    simp only [clearFor, setReg]
    split <;> split <;> rfl
  have hget := getb_codes (s := s.clearFor e) e.len
  unfold applyFmt
  dsimp only
  split
  · exact hclear
  · refine Eq.trans ?_ (hget.trans hclear)
    split
    · rfl
    · split <;> rfl

theorem load_codes (opcode times : Nat) : (s.load opcode times).codes = s.codes := by
  have hfold : ∀ (es : List Fmt) (t : Sequencer), (es.foldl applyFmt t).codes = t.codes := by
    intro es
    induction es with
    | nil => exact fun t => rfl
    | cons e es ih => exact fun t => (ih _).trans (applyFmt_codes e)
  refine Eq.trans ?_
    (hfold (formats opcode s.mode) { s with filt := { s.filt with rpt := times + 1 } })
  unfold load
  dsimp only
  split <;> rfl

theorem instruction_codes : s.instruction.codes = s.codes := by
  have hget : ((s.getb 4).2.getb 4).2.codes = s.codes := by rw [getb_codes, getb_codes]
  unfold instruction
  dsimp only
  generalize ((s.getb 4).2.getb 4).2 = t at hget
  have hbranch : ∀ (i : BitVec 32) (call : Bool), (t.branch i call).codes = t.codes := by
    intro i call
    have hb := getb_codes (s := t) 8
    unfold branch
    dsimp only
    rw [transfer_codes]
    split <;> exact hb
  split
  · refine Eq.trans ?_ hget
    unfold pageOrReturn
    split
    · rfl
    · split <;> exact transfer_codes _
  · exact (hbranch _ _).trans hget
  · exact (hbranch _ _).trans hget
  · exact hget
  · split
    · exact hget
    · exact (load_codes _ _).trans hget

/-- The code that waits. -/
def pending (s : Sequencer) : List Nat := if s.lrq = true then [] else [s.ald]

/-- The codes move on: one that waited may have been begun, and then the line was raised. -/
structure Advance (raised : Bool) (s t : Sequencer) : Prop where
  taken : t.taken = s.taken
  queue : t.begun ++ t.pending = s.begun ++ s.pending
  lrq : t.lrq = (s.lrq || raised)

theorem Advance.of_codes {t : Sequencer} (h : t.codes = s.codes) : Advance false s t := by
  simp only [codes, Prod.mk.injEq] at h
  obtain ⟨hlrq, hald, htaken, hbegun⟩ := h
  exact ⟨htaken, by rw [pending, pending, hlrq, hald, hbegun], by rw [hlrq, Bool.or_false]⟩

theorem Advance.trans {a b : Bool} {t u : Sequencer} (h : Advance a s t) (h' : Advance b t u) :
    Advance (a || b) s u :=
  ⟨h'.taken.trans h.taken, h'.queue.trans h.queue, by rw [h'.lrq, h.lrq, Bool.or_assoc]⟩

theorem startCode_advance : Advance s.startCode.1 s s.startCode.2 := by
  unfold startCode
  split
  · next h =>
    refine ⟨rfl, ?_, by simp⟩
    simp [pending, h.2]
  · exact Advance.of_codes rfl

/-- A chip that is halted once the code that waited is begun has none. -/
theorem startCode_idle (h : s.startCode.2.halted = true) : s.startCode.2.lrq = true := by
  unfold startCode at *
  split
  · rfl
  · next hno =>
    rw [if_neg hno] at h
    simpa using fun hlow => hno ⟨h, hlow⟩

theorem microLoop_advance (n : Nat) : Advance (microLoop n s).1 s (microLoop n s).2 := by
  induction n generalizing s with
  | zero =>
    rw [microLoop]
    split <;> exact Advance.of_codes rfl
  | succ n ih =>
    rw [microLoop]
    split
    · exact Advance.of_codes rfl
    · have hstart := startCode_advance (s := s)
      dsimp only
      split
      · next hhalt =>
        have hidle := startCode_idle hhalt
        refine ⟨hstart.taken, hstart.queue.symm.trans ?_ |>.symm, ?_⟩
        · simp [pending, rest, hidle]
        · rw [← hstart.lrq, hidle]
          rfl
      · have hinstr : Advance false s.startCode.2 s.startCode.2.instruction :=
          Advance.of_codes instruction_codes
        simpa using (hstart.trans hinstr).trans (ih (s := s.startCode.2.instruction))

theorem attempt_advance : Advance s.attempt.raised s s.attempt.chip := by
  have htick : Advance false s.refill.2 s.refill.2.tick.2 := Advance.of_codes rfl
  have hrefill : Advance s.refill.1 s s.refill.2 := by
    unfold refill
    split
    · exact microLoop_advance 4095
    · exact Advance.of_codes rfl
  simpa [attempt] using hrefill.trans htick

theorem nextSample_advance (k : Nat) : Advance (nextSample k s).raised s (nextSample k s).chip := by
  induction k generalizing s with
  | zero => exact Advance.of_codes rfl
  | succ k ih =>
    rw [nextSample]
    split
    · exact attempt_advance.trans ih
    · exact attempt_advance

theorem stream_advance (n : Nat) : Advance (stream n s).raised s (stream n s).chip := by
  induction n generalizing s with
  | zero => exact Advance.of_codes rfl
  | succ n ih => exact (nextSample_advance 3).trans ih

end Sequencer

end Sp0256

end CocoEmulator.Sound
