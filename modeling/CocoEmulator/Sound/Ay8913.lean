/-
  Sound/Ay8913.lean --- the AY-3-8913 of the Speech/Sound Cartridge (ay8913.cpp).

  Three tone generators, a noise generator and an envelope each count clock steps up to
  a period.  `Render` advances them by a number of steps at once: the counters jump, and
  what the events in between do is done as often as there were any.

      advanceCounter_eq_iff   a jump is that many single steps exactly when the sum of
                              the count and the steps does not overflow
      render_render           rendering `a` steps and then `b` is rendering `a + b`

  The sum is an `int`, so it is taken as 32 bits leave it.  In the cartridge it never
  overflows: a period has at most 16 bits and a scanline asks for at most 15 steps
  (Sound/ChipRange).
-/
import CocoEmulator.Sound.Ssc
import CocoEmulator.Base.Words
import Mathlib.Logic.Function.Iterate

set_option autoImplicit false

namespace CocoEmulator.Sound

open CocoEmulator.Base

/-! ## Counters -/

/-- `if (++c >= p) { c = 0; event; }`: the counter, and the number of events. -/
def stepCounter (p c : Int) : Int × Nat := if p ≤ c + 1 then (0, 1) else (c + 1, 0)

/-- That many of them. -/
def stepCounters (p : Int) : Nat → Int → Int × Nat
  | 0, c => (c, 0)
  | n + 1, c =>
    let first := stepCounter p c
    let rest := stepCounters p n first.1
    (rest.1, first.2 + rest.2)

/-- `AdvanceCounter`: the counter, and the number of events.  The sum of the two `int`s is the
only result that can leave 32 bits. -/
def advanceCounter (c p steps : Int) : Int × Nat :=
  if steps ≤ 0 then (c, 0)
  else
    -- the period may have shrunk below the count
    let shrunk := decide (p ≤ c)
    let c := if shrunk then 0 else c
    let events := if shrunk then 1 else 0
    let steps := if shrunk then steps - 1 else steps
    let total := i32 (c + steps)
    if total < p then (total, events) else (total.tmod p, events + (total.tdiv p).toNat)

/-- From below the period, the events are the periods in the total. -/
theorem stepCounters_below {p : Int} (hp : 1 ≤ p) (n : Nat) {c : Int} (hc : c < p) :
    stepCounters p n c =
      if c + n < p then (c + n, 0) else ((c + n) % p, ((c + n) / p).toNat) := by
  induction n generalizing c with
  | zero => simp [stepCounters, hc]
  | succ n ih =>
    unfold stepCounters stepCounter
    dsimp only
    by_cases hwrap : p ≤ c + 1
    · -- the count meets the period: one event, and the rest starts from zero
      have hsum : c + (n + 1 : Nat) = n + 1 * p := by omega
      have hfull : ¬(n : Int) + 1 * p < p := by omega
      rw [if_pos hwrap, ih (by omega), hsum, if_neg hfull, Int.add_mul_emod_self_right,
        Int.add_mul_ediv_right _ _ (by omega), Int.zero_add]
      by_cases hn : (n : Int) < p
      · rw [if_pos hn, Int.emod_eq_of_lt (by omega) hn, Int.ediv_eq_zero_of_lt (by omega) hn]
        rfl
      · have hpos : 0 ≤ (n : Int) / p := Int.ediv_nonneg (by omega) (by omega)
        rw [if_neg hn]
        dsimp only
        congr 1
        omega
    · have hsum : c + (n + 1 : Nat) = c + 1 + n := by omega
      rw [if_neg hwrap, ih (by omega), hsum]
      split
      · rfl
      · simp

/-- The same, as the source divides. -/
theorem stepCounters_total {p : Int} (hp : 1 ≤ p) (n : Nat) {c : Int} (hc : c < p) :
    stepCounters p n c =
      if c + n < p then (c + n, 0) else ((c + n).tmod p, ((c + n).tdiv p).toNat) := by
  rw [stepCounters_below hp n hc]
  split
  · rfl
  · rw [Int.tmod_eq_emod_of_nonneg (by omega), Int.tdiv_eq_ediv_of_nonneg (by omega)]

/-- The counter of single steps stays between zero and the count of the steps. -/
theorem stepCounters_mem (p : Int) (n : Nat) {c : Int} (hc : 0 ≤ c) :
    0 ≤ (stepCounters p n c).1 ∧ (stepCounters p n c).1 ≤ c + n := by
  induction n generalizing c with
  | zero => exact ⟨hc, by simp [stepCounters]⟩
  | succ n ih =>
    unfold stepCounters stepCounter
    dsimp only
    split
    · have hrest := ih (Int.le_refl 0)
      dsimp only
      omega
    · have hrest := ih (c := c + 1) (by omega)
      dsimp only
      omega

/-- The jump does not overflow: the count is beyond a period that shrank, and is reset first, or
the sum fits. -/
def NoOverflow (c p steps : Int) : Prop := p ≤ c ∨ c + steps < 2 ^ 31

instance (c p steps : Int) : Decidable (NoOverflow c p steps) :=
  inferInstanceAs (Decidable (_ ∨ _))

/-- Without an overflow a jump is that many single steps. -/
theorem advanceCounter_eq {c p steps : Int} (hc : 0 ≤ c) (hp : 1 ≤ p) (hsteps : steps < 2 ^ 31)
    (hfits : NoOverflow c p steps) : advanceCounter c p steps = stepCounters p steps.toNat c := by
  unfold advanceCounter
  by_cases hnone : steps ≤ 0
  · rw [if_pos hnone, Int.toNat_of_nonpos hnone]
    rfl
  · rw [if_neg hnone]
    by_cases hshrunk : p ≤ c
    · -- the first step is the event that resets the count
      obtain ⟨n, hn⟩ : ∃ n : Nat, steps = n + 1 := ⟨(steps - 1).toNat, by omega⟩
      have hcount : steps.toNat = n + 1 := by omega
      have hfirst : stepCounter p c = (0, 1) := if_pos (by omega)
      have hrest : steps - 1 = n := by omega
      have htotal : i32 (0 + n) = 0 + n := i32_of_fits ⟨by omega, by omega⟩
      rw [hcount]
      unfold stepCounters
      dsimp only
      rw [hfirst, stepCounters_total hp n (c := 0) (by omega)]
      simp only [hshrunk, decide_true, if_true, hrest, htotal]
      split
      · rfl
      · rfl
    · have hcount : ((steps.toNat : Nat) : Int) = steps := by omega
      have htotal : i32 (c + steps) = c + steps :=
        i32_of_fits ⟨by omega, hfits.resolve_left hshrunk⟩
      rw [stepCounters_total hp _ (by omega), hcount]
      simp only [hshrunk, decide_false, Bool.false_eq_true, if_false, Nat.zero_add, htotal]

/-- An overflow leaves a negative counter, which single steps never do: for the values of an `int`
a jump is that many single steps exactly when it does not overflow. -/
theorem advanceCounter_eq_iff {c p steps : Int} (hc : 0 ≤ c) (hp : 1 ≤ p) (hcount : c < 2 ^ 31)
    (hsteps : steps < 2 ^ 31) :
    advanceCounter c p steps = stepCounters p steps.toNat c ↔ NoOverflow c p steps := by
  refine ⟨fun hjump => ?_, advanceCounter_eq hc hp hsteps⟩
  by_contra hover
  have hshrunk : ¬p ≤ c := fun h => hover (.inl h)
  have hlarge : 2 ^ 31 ≤ c + steps := Int.not_lt.mp fun h => hover (.inr h)
  have htotal : i32 (c + steps) = c + steps - 2 ^ 32 := i32_past hlarge (by omega)
  have hjumped : advanceCounter c p steps = (c + steps - 2 ^ 32, 0) := by
    unfold advanceCounter
    rw [if_neg (by omega)]
    simp only [hshrunk, decide_false, Bool.false_eq_true, if_false, htotal]
    exact if_pos (by omega)
  have hnonneg := (stepCounters_mem p steps.toNat hc).1
  rw [← hjump, hjumped] at hnonneg
  dsimp only at hnonneg
  omega

/-- Steps add up. -/
theorem stepCounters_add (p : Int) (a b : Nat) (c : Int) :
    stepCounters p (a + b) c =
      ((stepCounters p b (stepCounters p a c).1).1,
        (stepCounters p a c).2 + (stepCounters p b (stepCounters p a c).1).2) := by
  have hstep (n : Nat) (c : Int) : stepCounters p (n + 1) c =
      ((stepCounters p n (stepCounter p c).1).1,
        (stepCounter p c).2 + (stepCounters p n (stepCounter p c).1).2) := rfl
  induction a generalizing c with
  | zero => simp [stepCounters]
  | succ a ih =>
    rw [Nat.add_right_comm, hstep, ih, hstep, Nat.add_assoc]

/-- A jump that does not overflow may be made in two parts: neither of them does. -/
theorem NoOverflow.parts {c p : Int} (hc : 0 ≤ c) {a b : Nat} (hsum : a + b < 2 ^ 31)
    (h : NoOverflow c p (a + b : Nat)) :
    NoOverflow c p a ∧ NoOverflow (stepCounters p a c).1 p b := by
  rcases h with hshrunk | hfits
  · refine ⟨.inl hshrunk, ?_⟩
    cases a with
    | zero => exact .inl hshrunk
    | succ a =>
      -- the first step resets the count
      have hfirst : stepCounter p c = (0, 1) := if_pos (by omega)
      have hrest := (stepCounters_mem p a (Int.le_refl 0)).2
      refine .inr ?_
      unfold stepCounters
      rw [hfirst]
      dsimp only
      omega
  · have hpart := (stepCounters_mem p a hc).2
    exact ⟨.inr (by omega), .inr (by omega)⟩

/-- Jumps add up. -/
theorem advanceCounter_add {c p : Int} (hc : 0 ≤ c) (hp : 1 ≤ p) {a b : Nat}
    (hsum : a + b < 2 ^ 31) (hfits : NoOverflow c p (a + b : Nat)) :
    advanceCounter c p (a + b : Nat) =
      ((advanceCounter (advanceCounter c p a).1 p b).1,
        (advanceCounter c p a).2 + (advanceCounter (advanceCounter c p a).1 p b).2) := by
  obtain ⟨hfirst, hsecond⟩ := hfits.parts hc hsum
  have hnonneg := (stepCounters_mem p a hc).1
  rw [advanceCounter_eq hc hp (by omega) hfits, advanceCounter_eq hc hp (by omega) hfirst]
  simp only [Int.toNat_natCast]
  rw [advanceCounter_eq hnonneg hp (by omega) hsecond]
  exact stepCounters_add p a b c

/-! ## Generators -/

/-- A counter that makes something happen in `α` whenever it reaches its period, and that what
happens does not touch. -/
structure Generator (α : Type) where
  count : α → Int
  setCount : Int → α → α
  period : α → Int
  event : α → α
  period_pos : ∀ x, 1 ≤ period x
  count_setCount : ∀ c x, count (setCount c x) = c
  setCount_setCount : ∀ c c' x, setCount c (setCount c' x) = setCount c x
  period_setCount : ∀ c x, period (setCount c x) = period x
  setCount_event : ∀ c x, setCount c (event x) = event (setCount c x)
  count_event : ∀ x, count (event x) = count x
  period_event : ∀ x, period (event x) = period x

namespace Generator

variable {α : Type} (g : Generator α)

/-- Jump, and let happen what the events in between do. -/
def advance (steps : Int) (x : α) : α :=
  let jump := advanceCounter (g.count x) (g.period x) steps
  g.event^[jump.2] (g.setCount jump.1 x)

theorem count_events (n : Nat) (x : α) : g.count (g.event^[n] x) = g.count x := by
  induction n generalizing x with
  | zero => rfl
  | succ n ih => rw [Function.iterate_succ_apply, ih, g.count_event]

theorem period_events (n : Nat) (x : α) : g.period (g.event^[n] x) = g.period x := by
  induction n generalizing x with
  | zero => rfl
  | succ n ih => rw [Function.iterate_succ_apply, ih, g.period_event]

theorem setCount_events (n : Nat) (c : Int) (x : α) :
    g.setCount c (g.event^[n] x) = g.event^[n] (g.setCount c x) := by
  have hone : Function.Commute (g.setCount c) g.event := g.setCount_event c
  exact hone.iterate_right n x

/-- The counter may advance by so many steps. -/
def Room (n : Nat) (x : α) : Prop := 0 ≤ g.count x ∧ NoOverflow (g.count x) (g.period x) n

/-- Advancing by `a` and then by `b`. -/
theorem advance_add {a b : Nat} {x : α} (hsum : a + b < 2 ^ 31) (hroom : g.Room (a + b) x) :
    g.advance b (g.advance a x) = g.advance (a + b : Nat) x := by
  have hjump := advanceCounter_add hroom.1 (g.period_pos x) hsum hroom.2
  unfold advance
  dsimp only
  rw [hjump, g.count_events, g.period_events, g.count_setCount, g.period_setCount,
    g.setCount_events, g.setCount_setCount, Nat.add_comm (advanceCounter _ _ a).2,
    Function.iterate_add_apply]

/-- What neither the count nor the events touch stays. -/
theorem advance_keeps {β : Type} {r : α → β} (hset : ∀ c x, r (g.setCount c x) = r x)
    (hevent : ∀ x, r (g.event x) = r x) (steps : Int) (x : α) : r (g.advance steps x) = r x := by
  have hevents (n : Nat) (x : α) : r (g.event^[n] x) = r x := by
    induction n generalizing x with
    | zero => rfl
    | succ n ih => rw [Function.iterate_succ_apply, ih, hevent]
  unfold advance
  rw [hevents, hset]

/-- What is done elsewhere may be done before or after. -/
theorem advance_comm {f : α → α} (hcount : ∀ x, g.count (f x) = g.count x)
    (hperiod : ∀ x, g.period (f x) = g.period x)
    (hset : ∀ c x, f (g.setCount c x) = g.setCount c (f x))
    (hevent : ∀ x, f (g.event x) = g.event (f x)) (steps : Int) (x : α) :
    f (g.advance steps x) = g.advance steps (f x) := by
  have hone : Function.Commute f g.event := hevent
  unfold advance
  dsimp only
  rw [hone.iterate_right _ _, hset, hcount, hperiod]

end Generator

/-! ## The chip -/

abbrev Channel : Type := Fin 3

/-- The envelope's place on its ramp: `m_env_step`, `m_env_dir_up` and `m_env_holding`. -/
structure Ramp where
  step : Nat := 0
  dirUp : Bool := true
  holding : Bool := false
deriving DecidableEq, Repr

/-- `TickOneEnvelopeStep`, by the shape register. -/
def Ramp.tick (shape : Byte) (r : Ramp) : Ramp :=
  if r.holding then r
  else
    let cont := shape.getLsbD 3
    let alt := shape.getLsbD 1
    let hold := shape.getLsbD 0
    let turned := if alt then !r.dirUp else r.dirUp
    if r.step + 1 < 32 then { r with step := r.step + 1 }
    else if !cont then { r with step := 32, holding := true }
    else if hold then ⟨31, turned, true⟩
    else { r with step := 0, dirUp := turned }

/-- `Ay8913`, after `Reset`. -/
structure Ay8913 where
  regs : BitVec 4 → Byte := fun _ => 0
  selected : BitVec 4 := 0
  toneCounter : Channel → Int := fun _ => 0
  toneOutput : Channel → Nat := fun _ => 1
  noiseCounter : Int := 0
  noiseLfsr : BitVec 32 := 1
  noiseOutput : Nat := 1
  envCounter : Int := 0
  ramp : Ramp := {}

namespace Ay8913

variable (ay : Ay8913)

/-- `kVolumeTable`. -/
def volumeTable : List Int :=
  [0, 1304, 1642, 2067, 2603, 3277, 4125, 5193, 6538, 8231, 10362, 13045, 16422, 20675, 26028, 32767]

/-- `SelectRegister`. -/
def selectRegister (reg : Byte) : Ay8913 := { ay with selected := reg.setWidth 4 }

/-- `WriteData`: a new envelope shape restarts the ramp. -/
def writeData (data : Byte) : Ay8913 :=
  let ay := { ay with regs := Function.update ay.regs ay.selected data }
  if ay.selected = 13 then
    { ay with ramp := { step := 0, dirUp := data.getLsbD 2, holding := false } }
  else ay

/-- `p ? p : 1` -/
def period (p : Nat) : Int := if p ≠ 0 then p else 1

/-- `TonePeriod` -/
def tonePeriod (ch : Channel) : Int :=
  let fine := ay.regs (BitVec.ofNat 4 (ch * 2))
  let coarse := ay.regs (BitVec.ofNat 4 (ch * 2 + 1)) &&& 0x0f
  period (256 * coarse.toNat + fine.toNat)

/-- `NoisePeriod` -/
def noisePeriod : Int := period (ay.regs 6 &&& 0x1f).toNat

/-- `EnvPeriod` -/
def envPeriod : Int := period (256 * (ay.regs 12).toNat + (ay.regs 11).toNat)

/-- What a tone generator does at its events: `m_tone_output[ch] ^= events & 1`. -/
def flipTones (events : Channel → Nat) : Ay8913 :=
  { ay with toneOutput := fun ch => ay.toneOutput ch ^^^ events ch % 2 }

/-- The 17-bit shift register. -/
def shiftNoise : Ay8913 :=
  let bit := (ay.noiseLfsr ^^^ ay.noiseLfsr >>> 3) &&& 1
  let lfsr := ay.noiseLfsr >>> 1 ||| bit <<< 16
  { ay with noiseLfsr := lfsr, noiseOutput := (lfsr &&& 1).toNat }

/-- `TickOneEnvelopeStep` -/
def tickOneEnvelopeStep : Ay8913 := { ay with ramp := ay.ramp.tick (ay.regs 13) }

/-- `CurrentEnvelopeLevel` -/
def currentEnvelopeLevel : Nat :=
  if !(ay.regs 13).getLsbD 3 && ay.ramp.holding then 0
  else
    let step := ay.ramp.step % 32
    (if ay.ramp.dirUp then step else 31 - step) / 2

/-- What a channel adds to the mix. -/
def channelLevel (ch : Channel) : Int :=
  let mixer := ay.regs 7
  let toneBit := if !mixer.getLsbD ch then ay.toneOutput ch != 0 else true
  let noiseBit := if !mixer.getLsbD (ch + 3) then ay.noiseOutput != 0 else true
  if !(toneBit && noiseBit) then 0
  else
    let ampreg := ay.regs (BitVec.ofNat 4 (8 + ch))
    let volIndex := if ampreg.getLsbD 4 then ay.currentEnvelopeLevel else (ampreg &&& 0x0f).toNat
    volumeTable.getD (volIndex % 16) 0

/-- The mixed sample. -/
def sample : Int :=
  let mix := (ay.channelLevel 0 + ay.channelLevel 1 + ay.channelLevel 2).tdiv 3
  max (min mix 32767) (-32768)

/-- The tone generators over `steps` steps. -/
def renderTones (steps : Int) : Ay8913 :=
  let jump (ch : Channel) := advanceCounter (ay.toneCounter ch) (ay.tonePeriod ch) steps
  { ay with toneCounter := fun ch => (jump ch).1 }.flipTones fun ch => (jump ch).2

/-- The noise generator. -/
def renderNoise (steps : Int) : Ay8913 :=
  let jump := advanceCounter ay.noiseCounter ay.noisePeriod steps
  shiftNoise^[jump.2] { ay with noiseCounter := jump.1 }

/-- The envelope. -/
def renderEnvelope (steps : Int) : Ay8913 :=
  let jump := advanceCounter ay.envCounter ay.envPeriod steps
  tickOneEnvelopeStep^[jump.2] { ay with envCounter := jump.1 }

/-- `Render`: the chip, and the sample. -/
def render (steps : Int) : Ay8913 × Int :=
  let ay := ((ay.renderTones steps).renderNoise steps).renderEnvelope steps
  (ay, ay.sample)

/-! ## Rendering in parts -/

theorem period_pos (p : Nat) : 1 ≤ period p := by
  unfold period
  split <;> omega

theorem xor_parity (x a b : Nat) : x ^^^ a % 2 ^^^ b % 2 = x ^^^ (a + b) % 2 := by
  rw [Nat.xor_assoc]
  congr 1
  rcases Nat.mod_two_eq_zero_or_one a with ha | ha <;>
    rcases Nat.mod_two_eq_zero_or_one b with hb | hb <;>
    rw [Nat.add_mod, ha, hb] <;> rfl

theorem renderTones_add {a b : Nat} (hsum : a + b < 2 ^ 31)
    (hroom : ∀ ch, 0 ≤ ay.toneCounter ch ∧
      NoOverflow (ay.toneCounter ch) (ay.tonePeriod ch) (a + b : Nat)) :
    (ay.renderTones a).renderTones b = ay.renderTones (a + b : Nat) := by
  have hpos (ch : Channel) : 1 ≤ ay.tonePeriod ch := period_pos _
  have hjump (ch : Channel) :=
    advanceCounter_add (hroom ch).1 (hpos ch) hsum (hroom ch).2
  unfold renderTones
  simp only [hjump]
  unfold flipTones
  simp only [← xor_parity]
  rfl

/-- The noise generator. -/
def noise : Generator Ay8913 where
  count := noiseCounter
  setCount c ay := { ay with noiseCounter := c }
  period := noisePeriod
  event := shiftNoise
  period_pos _ := period_pos _
  count_setCount _ _ := rfl
  setCount_setCount _ _ _ := rfl
  period_setCount _ _ := rfl
  setCount_event _ _ := rfl
  count_event _ := rfl
  period_event _ := rfl

/-- The envelope. -/
def envelope : Generator Ay8913 where
  count := envCounter
  setCount c ay := { ay with envCounter := c }
  period := envPeriod
  event := tickOneEnvelopeStep
  period_pos _ := period_pos _
  count_setCount _ _ := rfl
  setCount_setCount _ _ _ := rfl
  period_setCount _ _ := rfl
  setCount_event _ _ := rfl
  count_event _ := rfl
  period_event _ := rfl

theorem renderNoise_eq (steps : Int) (ay : Ay8913) :
    ay.renderNoise steps = noise.advance steps ay := rfl

theorem renderEnvelope_eq (steps : Int) (ay : Ay8913) :
    ay.renderEnvelope steps = envelope.advance steps ay := rfl

theorem renderTones_renderNoise (s t : Int) :
    (ay.renderNoise s).renderTones t = (ay.renderTones t).renderNoise s :=
  noise.advance_comm (f := (renderTones · t)) (fun _ => rfl) (fun _ => rfl) (fun _ _ => rfl)
    (fun _ => rfl) s ay

theorem renderTones_renderEnvelope (s t : Int) :
    (ay.renderEnvelope s).renderTones t = (ay.renderTones t).renderEnvelope s :=
  envelope.advance_comm (f := (renderTones · t)) (fun _ => rfl) (fun _ => rfl) (fun _ _ => rfl)
    (fun _ => rfl) s ay

/-- The noise generator leaves the envelope's counter and period alone. -/
theorem renderNoise_env (t : Int) (ay : Ay8913) :
    (ay.renderNoise t).envCounter = ay.envCounter ∧ (ay.renderNoise t).envPeriod = ay.envPeriod :=
  ⟨noise.advance_keeps (fun _ _ => rfl) (fun _ => rfl) t ay,
    noise.advance_keeps (fun _ _ => rfl) (fun _ => rfl) t ay⟩

theorem renderNoise_renderEnvelope (s t : Int) :
    (ay.renderEnvelope s).renderNoise t = (ay.renderNoise t).renderEnvelope s := by
  have hset (c : Int) (ay : Ay8913) : { ay with envCounter := c }.renderNoise t =
      { ay.renderNoise t with envCounter := c } :=
    (noise.advance_comm (f := fun ay => { ay with envCounter := c }) (fun _ => rfl) (fun _ => rfl)
      (fun _ _ => rfl) (fun _ => rfl) t ay).symm
  have hevent (ay : Ay8913) :
      ay.tickOneEnvelopeStep.renderNoise t = (ay.renderNoise t).tickOneEnvelopeStep :=
    (noise.advance_comm (f := tickOneEnvelopeStep) (fun _ => rfl) (fun _ => rfl) (fun _ _ => rfl)
      (fun _ => rfl) t ay).symm
  exact envelope.advance_comm (f := (renderNoise · t)) (fun ay => (renderNoise_env t ay).1)
    (fun ay => (renderNoise_env t ay).2) hset hevent s ay

/-- Every generator may advance by so many steps, which are an `int`. -/
structure Room (ay : Ay8913) (n : Nat) : Prop where
  steps : n < 2 ^ 31
  tone : ∀ ch, 0 ≤ ay.toneCounter ch ∧ NoOverflow (ay.toneCounter ch) (ay.tonePeriod ch) n
  noise : 0 ≤ ay.noiseCounter ∧ NoOverflow ay.noiseCounter ay.noisePeriod n
  env : 0 ≤ ay.envCounter ∧ NoOverflow ay.envCounter ay.envPeriod n

/-- Rendering `a` steps and then `b` leaves what rendering `a + b` leaves. -/
theorem render_render {a b : Nat} (h : ay.Room (a + b)) :
    ((ay.render a).1.render b).1 = (ay.render (a + b : Nat)).1 := by
  have henv : envelope.Room (a + b) ((ay.renderTones (a + b : Nat)).renderNoise (a + b : Nat)) := by
    obtain ⟨hcount, hperiod⟩ := renderNoise_env (a + b : Nat) (ay.renderTones (a + b : Nat))
    have hroom := h.env
    unfold Generator.Room
    change 0 ≤ (Ay8913.renderNoise _ _).envCounter ∧ NoOverflow (Ay8913.renderNoise _ _).envCounter
      (Ay8913.renderNoise _ _).envPeriod _
    rw [hcount, hperiod]
    exact hroom
  unfold render
  dsimp only
  rw [renderTones_renderEnvelope, renderTones_renderNoise, renderNoise_renderEnvelope,
    renderTones_add ay h.steps h.tone]
  have hnoise : noise.Room (a + b) (ay.renderTones (a + b : Nat)) := h.noise
  simp only [renderNoise_eq, renderEnvelope_eq] at henv ⊢
  rw [noise.advance_add h.steps hnoise, envelope.advance_add h.steps henv]

end Ay8913

/-- For every counter from zero on and every period from one on, a jump leaves the counter and
makes the events of as many single steps exactly when the sum does not overflow an `int`; and two
renderings with no write between them leave what one of as many steps leaves, as long as no
counter of the chip overflows. -/
theorem ay_counter_exact {c p steps : Int} (hc : 0 ≤ c) (hp : 1 ≤ p) (hcount : c < 2 ^ 31)
    (hsteps : steps < 2 ^ 31) :
    (advanceCounter c p steps = stepCounters p steps.toNat c ↔ NoOverflow c p steps) ∧
      ∀ (ay : Ay8913) (a b : Nat), ay.Room (a + b) →
        ((ay.render a).1.render b).1 = (ay.render (a + b : Nat)).1 :=
  ⟨advanceCounter_eq_iff hc hp hcount hsteps, fun ay _ _ => ay.render_render⟩

/-- A period that shrank from beyond 7 to 5: eleven steps make three events. -/
theorem ay_counter_exact_shrunk :
    advanceCounter 7 5 11 = (0, 3) ∧ stepCounters 5 11 7 = (0, 3) ∧
      ((({} : Ay8913).render 14).1.render 15).1 = (({} : Ay8913).render 29).1 := by
  obtain ⟨hjump, hrender⟩ :=
    @ay_counter_exact 7 5 11 (by decide) (by decide) (by decide) (by decide)
  have hsteps : stepCounters 5 11 7 = (0, 3) := by decide
  have hroom : ({} : Ay8913).Room (14 + 15) :=
    ⟨by decide, by decide, by decide, by decide⟩
  exact ⟨(hjump.mpr (by decide)).trans hsteps, hsteps, hrender {} 14 15 hroom⟩

/-- Past the greatest `int` the sum is negative: two steps from one below the longest period wrap
the counter, and the event is lost. -/
theorem ay_counter_overflows :
    advanceCounter 2147483646 2147483647 2 = (-2147483648, 0) ∧
      stepCounters 2147483647 2 2147483646 = (1, 1) ∧
      ¬∀ c p steps : Int, 0 ≤ c → 1 ≤ p → FitsI32 c → FitsI32 p → FitsI32 steps →
        advanceCounter c p steps = stepCounters p steps.toNat c := by
  have hjump : advanceCounter 2147483646 2147483647 2 = (-2147483648, 0) := by decide
  have hsteps : stepCounters 2147483647 2 2147483646 = (1, 1) := by decide
  refine ⟨hjump, hsteps, fun hall => ?_⟩
  have hsame := hall 2147483646 2147483647 2 (by decide) (by decide) (by decide) (by decide)
    (by decide)
  rw [hjump] at hsame
  exact absurd (hsame.trans hsteps) (by decide)

end CocoEmulator.Sound
