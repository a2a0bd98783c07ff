/-
  Sound/ChipRange.lean --- the values of the AY-3-8913 and of the mix stay in range.

  The source counts in `int` and mixes in `int32_t`; the model counts in Int.  The ranges
  here are why that is the same: no counter, no state of the sound activity circuit and no
  mix leaves 32 bits, and no jump of a counter overflows.  The shift register of the noise
  never runs empty.

      Ay8913.Sane     what writes and rendering keep
      Activity.Sane   what a sample of the AY keeps
      mix_fits        the mix of any two samples

  Source: ay8913.cpp, ssc.cpp.
-/
import CocoEmulator.Sound.Ay8913
import CocoEmulator.Sound.SscEngine

set_option autoImplicit false

namespace CocoEmulator.Sound

/-! ## The AY-3-8913 -/

/-- Counting up to a period stays below a bound of both, as long as the sum fits. -/
theorem advanceCounter_range {c p m : Int} (hc : 0 ≤ c) (hcm : c < m) (hp : 1 ≤ p) (hpm : p ≤ m)
    {steps : Int} (hfits : c + steps < 2 ^ 31) :
    0 ≤ (advanceCounter c p steps).1 ∧ (advanceCounter c p steps).1 < m := by
  have hstep : ∀ n (c : Int), 0 ≤ c → c < m →
      0 ≤ (stepCounters p n c).1 ∧ (stepCounters p n c).1 < m := by
    intro n
    induction n with
    | zero => exact fun c h0 hm => ⟨h0, hm⟩
    | succ n ih =>
      intro c h0 hm
      rw [stepCounters]
      refine ih _ ?_ ?_ <;> unfold stepCounter <;> split <;> dsimp only <;> omega
  rw [advanceCounter_eq hc hp (by omega) (.inr hfits)]
  exact hstep _ c hc hcm

/-- What holds of a state, and what is done at an event keeps, holds after any of them. -/
theorem iterate_keeps {α : Type} {P : α → Prop} {f : α → α} (hf : ∀ x, P x → P (f x)) (n : Nat)
    {x : α} (hx : P x) : P (f^[n] x) := by
  induction n generalizing x with
  | zero => exact hx
  | succ n ih => exact ih (hf x hx)

namespace Ay8913

variable (ay : Ay8913)

/-- `ReadData` -/
def readData : Byte := ay.regs ay.selected

/-- The counters, the outputs, the shift register and the ramp are in range. -/
structure Sane (ay : Ay8913) : Prop where
  tone : ∀ ch, 0 ≤ ay.toneCounter ch ∧ ay.toneCounter ch < 4096 ∧ ay.toneOutput ch < 2
  noise : 0 ≤ ay.noiseCounter ∧ ay.noiseCounter < 32
  env : 0 ≤ ay.envCounter ∧ ay.envCounter < 65536
  lfsr : ay.noiseLfsr ≠ 0 ∧ ay.noiseLfsr.toNat < 131072
  ramp : ay.ramp.step ≤ 32

theorem sane_reset : Sane {} where
  tone _ := ⟨Int.le_refl 0, Int.ofNat_lt.mpr (Nat.succ_pos 4095), Nat.one_lt_two⟩
  noise := ⟨Int.le_refl 0, by decide⟩
  env := ⟨Int.le_refl 0, by decide⟩
  lfsr := ⟨by decide, by decide⟩
  ramp := Nat.zero_le 32

variable {ay}

theorem Sane.selectRegister (h : ay.Sane) (reg : Byte) : (ay.selectRegister reg).Sane :=
  { h with }

theorem Sane.writeData (h : ay.Sane) (data : Byte) : (ay.writeData data).Sane := by
  unfold Ay8913.writeData
  dsimp only
  split
  · exact { h with ramp := Nat.zero_le 32 }
  · exact { h with }

/-! ### Periods -/

theorem period_le {p : Nat} {m : Int} (hp : p ≤ m) (hm : 1 ≤ m) : period p ≤ m := by
  unfold period
  split <;> omega

theorem tonePeriod_le (ch : Channel) : ay.tonePeriod ch ≤ 4096 := by
  refine period_le ?_ (by decide)
  have hfine := (ay.regs (BitVec.ofNat 4 (ch * 2))).isLt
  have hcoarse : (ay.regs (BitVec.ofNat 4 (ch * 2 + 1)) &&& 0x0f).toNat ≤ 15 := by
    rw [BitVec.toNat_and]
    exact Nat.and_le_right
  omega

theorem noisePeriod_le : ay.noisePeriod ≤ 32 := by
  refine period_le ?_ (by decide)
  have hmask : (ay.regs 6 &&& 0x1f).toNat ≤ 31 := by
    rw [BitVec.toNat_and]
    exact Nat.and_le_right
  omega

theorem envPeriod_le : ay.envPeriod ≤ 65536 := by
  refine period_le ?_ (by decide)
  have hfine := (ay.regs 11).isLt
  have hcoarse := (ay.regs 12).isLt
  omega

/-! ### Events -/

/-- The shift register of the noise keeps to 17 bits, and never runs empty. -/
theorem shiftNoise_lfsr (h : ay.noiseLfsr ≠ 0 ∧ ay.noiseLfsr.toNat < 131072) :
    ay.shiftNoise.noiseLfsr ≠ 0 ∧ ay.shiftNoise.noiseLfsr.toNat < 131072 := by
  obtain ⟨hne, hlt⟩ := h
  unfold shiftNoise
  dsimp only
  generalize ay.noiseLfsr = x at hne hlt
  have hbit : (x ^^^ x >>> 3) &&& 1 = 0 ∨ (x ^^^ x >>> 3) &&& 1 = 1 := by
    have hlast : (x ^^^ x >>> 3) &&& 1#32 =
        (BitVec.ofBool ((x ^^^ x >>> 3).getLsbD 0)).setWidth 32 :=
      BitVec.and_one_eq_setWidth_ofBool_getLsbD
    cases hb : (x ^^^ x >>> 3).getLsbD 0 with
    | false =>
      rw [hb] at hlast
      exact .inl hlast
    | true =>
      rw [hb] at hlast
      exact .inr hlast
  have hhalf : (x >>> 1).toNat = x.toNat / 2 := by
    rw [BitVec.toNat_ushiftRight, Nat.shiftRight_eq_div_pow, Nat.pow_one]
  constructor
  · intro hzero
    obtain ⟨hshift, htop⟩ := BitVec.or_eq_zero_iff.mp hzero
    -- only the last bit is left, and it is fed back
    have hone : x = 1 := by
      apply BitVec.eq_of_toNat_eq
      have hpos : x.toNat ≠ 0 := fun h0 => hne (BitVec.eq_of_toNat_eq h0)
      have hnone : x.toNat / 2 = 0 := by
        rw [← hhalf, hshift]
        rfl
      show x.toNat = 1
      omega
    rw [hone] at htop
    exact absurd htop (by decide)
  · rw [BitVec.toNat_or]
    have hlow : (x >>> 1).toNat < 2 ^ 17 := by
      rw [hhalf]
      omega
    have hhigh : (((x ^^^ x >>> 3) &&& 1) <<< 16).toNat < 2 ^ 17 := by
      rcases hbit with h0 | h1
      · rw [h0]
        decide
      · rw [h1]
        decide
    exact Nat.or_lt_two_pow hlow hhigh

theorem Sane.shiftNoise (h : ay.Sane) : ay.shiftNoise.Sane :=
  { h with lfsr := shiftNoise_lfsr h.lfsr }

theorem Sane.tickOneEnvelopeStep (h : ay.Sane) : ay.tickOneEnvelopeStep.Sane := by
  refine { h with ramp := ?_ }
  have hstep := h.ramp
  simp only [Ay8913.tickOneEnvelopeStep, Ramp.tick]
  split
  · exact hstep
  split
  · next hlt => exact Nat.le_of_lt hlt
  split
  · exact Nat.le_refl 32
  split
  · exact Nat.le_succ 31
  · exact Nat.zero_le 32

/-- Rendering keeps the ranges: up to a quarter of the range of an `int` no jump overflows. -/
theorem Sane.render (h : ay.Sane) {steps : Int} (hsteps : steps < 2 ^ 30) :
    (ay.render steps).1.Sane := by
  have htones : (ay.renderTones steps).Sane := by
    refine { h with tone := fun ch => ?_ }
    obtain ⟨h0, hlt, hout⟩ := h.tone ch
    have hfits : ay.toneCounter ch + steps < 2 ^ 31 := by omega
    obtain ⟨h0', hlt'⟩ := advanceCounter_range h0 hlt (period_pos _) (tonePeriod_le ch) hfits
    refine ⟨h0', hlt', Nat.xor_lt_two_pow (n := 1) hout (Nat.mod_lt _ (by decide))⟩
  have hnoise : ((ay.renderTones steps).renderNoise steps).Sane := by
    obtain ⟨h0, hlt⟩ := htones.noise
    refine iterate_keeps (P := Sane) (fun _ hx => hx.shiftNoise) _ ?_
    exact { htones with
      noise := advanceCounter_range h0 hlt (period_pos _) noisePeriod_le (by omega) }
  obtain ⟨h0, hlt⟩ := hnoise.env
  refine iterate_keeps (P := Sane) (fun _ hx => hx.tickOneEnvelopeStep) _ ?_
  exact { hnoise with
    env := advanceCounter_range h0 hlt (period_pos _) envPeriod_le (by omega) }

/-- A sample is never negative. -/
theorem sample_range : 0 ≤ ay.sample ∧ ay.sample ≤ 32767 := by
  have hvolume : ∀ i < 16, 0 ≤ volumeTable.getD i 0 ∧ volumeTable.getD i 0 ≤ 32767 := by
    decide
  have hchannel (ch : Channel) : 0 ≤ ay.channelLevel ch ∧ ay.channelLevel ch ≤ 32767 := by
    unfold channelLevel
    dsimp only
    generalize (if (!(ay.regs 7).getLsbD ch) = true then ay.toneOutput ch != 0 else true) = tone
    generalize (if (!(ay.regs 7).getLsbD (ch + 3)) = true then ay.noiseOutput != 0 else true) = noise
    split
    · exact ⟨Int.le_refl 0, Int.natCast_nonneg 32767⟩
    · exact hvolume _ (Nat.mod_lt _ (by decide))
  have h0 := hchannel 0
  have h1 := hchannel 1
  have h2 := hchannel 2
  unfold sample
  dsimp only
  rw [Int.tdiv_eq_ediv_of_nonneg (by omega)]
  omega

end Ay8913

/-! ## The mix -/

namespace SscEngine

/-- The greatest input of the sound activity circuit. -/
def greatestInput : Int := 32767 * 512

/-- The circuit is in range: the filter lags its input by at most what it can lose. -/
structure Activity.Sane (a : Activity) : Prop where
  input : 0 ≤ a.prevIn ∧ a.prevIn ≤ greatestInput
  above : a.prevOut * 16777216 ≤ sacHpfAlpha * a.prevIn
  below : sacHpfAlpha * (a.prevIn - greatestInput) - 101 * 16777216 ≤ a.prevOut * 16777216
  env : 0 ≤ a.env ∧ a.env ≤ greatestInput

theorem Activity.sane_start : Activity.Sane {} where
  input := by decide
  above := by decide
  below := by decide
  env := by decide

/-- `q24_mul` rounds down. -/
theorem q24Mul_floor (a b : Int) :
    q24Mul a b * 16777216 ≤ a * b ∧ a * b < q24Mul a b * 16777216 + 16777216 := by
  have hshift : q24Mul a b = a * b / 16777216 := Int.shiftRight_eq_div_pow (a * b) 24
  rw [hshift]
  omega

variable {a : Activity}

/-- What the filter puts out. -/
theorem Activity.Sane.out_range (h : a.Sane) :
    -greatestInput ≤ a.prevOut ∧ a.prevOut ≤ greatestInput := by
  obtain ⟨h0, hle⟩ := h.input
  have habove := h.above
  have hbelow := h.below
  unfold greatestInput sacHpfAlpha at *
  omega

/-- A sample of the AY keeps the circuit in range. -/
theorem Activity.Sane.feed (h : a.Sane) {x : Int} (hx : 0 ≤ x ∧ x ≤ greatestInput) :
    (a.feed x).Sane := by
  obtain ⟨h0, hle⟩ := h.input
  have habove := h.above
  have hbelow := h.below
  have hfloor := q24Mul_floor sacHpfAlpha (a.prevOut + x - a.prevIn)
  have hnext : Activity.Sane
      { prevIn := x, prevOut := q24Mul sacHpfAlpha (a.prevOut + x - a.prevIn), env := a.env } := by
    refine ⟨hx, ?_, ?_, h.env⟩
    · dsimp only
      unfold sacHpfAlpha greatestInput at *
      omega
    · dsimp only
      unfold sacHpfAlpha greatestInput at *
      omega
  have hrange := hnext.out_range
  unfold Activity.feed
  dsimp only at hrange ⊢
  generalize q24Mul sacHpfAlpha (a.prevOut + x - a.prevIn) = y at hnext hrange
  refine ⟨hx, hnext.above, hnext.below, ?_⟩
  obtain ⟨he0, hele⟩ := h.env
  dsimp only
  generalize hrect : (if y < 0 then -y else y) = rect
  have hrect0 : 0 ≤ rect ∧ rect ≤ greatestInput := by
    rw [← hrect]
    split <;> omega
  -- The envelope moves toward the rectified sample, and not past it.
  have hmove : ∀ coef : Int, 0 ≤ coef → coef ≤ 16777216 →
      0 ≤ a.env + q24Mul (rect - a.env) coef ∧
        a.env + q24Mul (rect - a.env) coef ≤ greatestInput := by
    intro coef hc0 hc1
    obtain ⟨hlow, hhigh⟩ := q24Mul_floor (rect - a.env) coef
    rcases Int.le_total 0 (rect - a.env) with hup | hdown
    · have hprod : 0 ≤ (rect - a.env) * coef := Int.mul_nonneg hup hc0
      have hprod' : (rect - a.env) * coef ≤ (rect - a.env) * 16777216 :=
        Int.mul_le_mul_of_nonneg_left hc1 hup
      omega
    · have hprod : (rect - a.env) * coef ≤ 0 := Int.mul_nonpos_of_nonpos_of_nonneg hdown hc0
      have hprod' : (rect - a.env) * 16777216 ≤ (rect - a.env) * coef :=
        Int.mul_le_mul_of_nonpos_left hdown hc1
      omega
  split
  · exact hmove sacAttack (by decide) (by decide)
  · exact hmove sacDecay (by decide) (by decide)

/-- The mix of any two samples is a number of 32 bits before it is limited. -/
theorem mix_fits {ay spo : Int} (hay : 0 ≤ ay ∧ ay ≤ 32767) (hspo : -32768 ≤ spo ∧ spo ≤ 32764) :
    -2147483648 ≤ ay * mixAyGain + spo * mixSpoGain ∧
      ay * mixAyGain + spo * mixSpoGain + 16384 ≤ 2147483647 ∧
      -127 ≤ Engine.mix ay spo ∧ Engine.mix ay spo ≤ 127 := by
  unfold mixAyGain mixSpoGain
  refine ⟨by omega, by omega, ?_, ?_⟩
  · unfold Engine.mix
    dsimp only
    split
    · omega
    · split <;> omega
  · unfold Engine.mix
    dsimp only
    split
    · omega
    · split <;> omega

end SscEngine

end CocoEmulator.Sound
