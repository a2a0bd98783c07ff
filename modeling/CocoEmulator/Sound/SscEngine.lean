/-
  Sound/SscEngine.lean --- the clocks of the Speech/Sound Cartridge.

  A scanline gives each chip the whole part of its clock and keeps the fraction.  What
  the TMS7000 runs past its share is a debt to later scanlines, and may cover more than
  one of them.

      Accounts.runScanline   a scanline keeps the books of the three clocks
      run_accounts           so does any run without a reset

  The chips are parameters: what they run can reach each other through the ports.

  Source: ssc.cpp, `run_scanline`.
-/
import CocoEmulator.Base.Run

set_option autoImplicit false

namespace CocoEmulator.Sound.SscEngine

open CocoEmulator.Base

/-- `TICK_HZ` -/
def tickHz : Nat := 15720

/-- `TMS_HZ` -/
def tmsHz : Nat := 894886

/-- `AY_HZ` -/
def ayHz : Nat := 1789772

/-- `AY_DIV` -/
def ayDiv : Nat := 8 * tickHz

/-- `SPO_HZ` -/
def spoHz : Nat := 10000

def sacHpfAlpha : Int := 16609444
def sacAttack : Int := 43620
def sacDecay : Int := 5033
def sacThreshOn : Int := 838861
def sacThreshOff : Int := 167772
def mixAyGain : Int := 254
def mixSpoGain : Int := 222

/-- The three chips. -/
structure Chips (χ : Type) where
  /-- `Tms7000::Execute`: the cycles it ran. -/
  execute : Int → χ → Int × χ
  /-- `Ay8913::Render` -/
  render : Int → χ → Int × χ
  /-- `Sp0256::GenerateSamples`, one sample. -/
  generateSample : χ → Int × χ
  /-- The resets of `engine_reset`. -/
  reset : χ → χ

/-- The sound activity circuit. -/
structure Activity where
  prevIn : Int := 0
  prevOut : Int := 0
  env : Int := 0
  active : Bool := false
deriving DecidableEq, Repr

/-- `q24_mul` -/
def q24Mul (a b : Int) : Int := (a * b).shiftRight 24

/-- `sound_activity` -/
def Activity.feed (a : Activity) (x : Int) : Activity :=
  let y := q24Mul sacHpfAlpha (a.prevOut + x - a.prevIn)
  let rect := if y < 0 then -y else y
  let coef := if rect > a.env then sacAttack else sacDecay
  let env := a.env + q24Mul (rect - a.env) coef
  { prevIn := x
    prevOut := y
    env
    active :=
      if a.active ∧ env < sacThreshOff then false
      else if env > sacThreshOn then true else a.active }

/-- The engine, and a record of what the chips ran since the last reset. -/
structure Engine (χ : Type) where
  chips : χ
  cpuAcc : Nat := 0
  cpuDebt : Int := 0
  ayAcc : Nat := 0
  spoAcc : Nat := 0
  spoSample : Int := 0
  sac : Activity := {}
  scanlines : Nat := 0
  cyclesRun : Int := 0
  aySteps : Int := 0
  spoSamples : Nat := 0

namespace Engine

variable {χ : Type} (hw : Chips χ) (e : Engine χ)

/-- `engine_reset`, as far as the clocks go. -/
def reset : Engine χ := { chips := hw.reset e.chips }

/-- The TMS7000's share of a scanline. -/
def runCpu : Engine χ :=
  let acc := e.cpuAcc + tmsHz
  let whole := acc / tickHz
  let cycles := (whole : Int) - e.cpuDebt
  let e := { e with cpuAcc := acc - whole * tickHz }
  if cycles > 0 then
    let r := hw.execute cycles e.chips
    { e with chips := r.2, cpuDebt := r.1 - cycles, cyclesRun := e.cyclesRun + r.1 }
  else { e with cpuDebt := -cycles }

/-- The AY's, and its sample. -/
def runAy : Int × Engine χ :=
  let acc := e.ayAcc + ayHz
  let steps := acc / ayDiv
  let r := hw.render steps e.chips
  (r.1, { e with ayAcc := acc - steps * ayDiv, chips := r.2, aySteps := e.aySteps + steps })

/-- The SP0256 generates while its clock has a sample. -/
def spoLoop (e : Engine χ) : Engine χ :=
  if tickHz ≤ e.spoAcc then
    let r := hw.generateSample e.chips
    spoLoop { e with
      spoSample := r.1, chips := r.2, spoAcc := e.spoAcc - tickHz, spoSamples := e.spoSamples + 1 }
  else e
termination_by e.spoAcc
decreasing_by
  have : 0 < tickHz := by decide
  omega

/-- The SP0256's share. -/
def runSpo : Engine χ := spoLoop hw { e with spoAcc := e.spoAcc + spoHz }

/-- The mixed sample of a scanline. -/
def mix (ay spo : Int) : Int :=
  let mix := (ay * mixAyGain + spo * mixSpoGain + 16384).shiftRight 15
  if mix > 127 then 127 else if mix < -127 then -127 else mix

/-- `run_scanline` -/
def runScanline : Int × Engine χ :=
  let r := (e.runCpu hw).runAy hw
  let e := r.2.runSpo hw
  let e := { e with sac := e.sac.feed (r.1 * 512), scanlines := e.scanlines + 1 }
  (mix r.1 e.spoSample, e)

/-- A scanline, or a command that reaches the chips between two of them. -/
inductive Op (χ : Type)
  | scanline
  | command (f : χ → χ)

def Op.step (op : Op χ) (e : Engine χ) : Engine χ :=
  match op with
  | .scanline => (e.runScanline hw).2
  | .command f => { e with chips := f e.chips }

/-- A clock hands out the whole part and keeps the rest. -/
theorem share_step (n rate : Nat) {hz : Nat} (hpos : 0 < hz) :
    n * rate / hz + (n * rate % hz + rate) / hz = (n + 1) * rate / hz ∧
      n * rate % hz + rate - (n * rate % hz + rate) / hz * hz = (n + 1) * rate % hz := by
  have hsplit : (n + 1) * rate = hz * (n * rate / hz) + (n * rate % hz + rate) := by
    rw [Nat.succ_mul, ← Nat.add_assoc, Nat.div_add_mod]
  constructor
  · rw [hsplit, Nat.mul_add_div hpos]
  · rw [hsplit, Nat.mul_add_mod, Nat.mul_comm _ hz, ← Nat.mod_eq_sub_mul_div]

/-- The books after a number of scanlines. -/
structure Accounts (longest : Int) (e : Engine χ) : Prop where
  cpuAcc : e.cpuAcc = e.scanlines * tmsHz % tickHz
  cycles : e.cyclesRun = (e.scanlines * tmsHz / tickHz : Nat) + e.cpuDebt
  debt_nonneg : 0 ≤ e.cpuDebt
  debt_lt : e.cpuDebt < longest
  ayAcc : e.ayAcc = e.scanlines * ayHz % ayDiv
  aySteps : e.aySteps = (e.scanlines * ayHz / ayDiv : Nat)
  spoAcc : e.spoAcc = e.scanlines * spoHz % tickHz
  spoSamples : e.spoSamples = e.scanlines * spoHz / tickHz

/-- `Execute` runs what it is asked, and past it less than its longest instruction. -/
def Overshoots (longest : Int) : Prop :=
  ∀ n c, 0 < n → n ≤ (hw.execute n c).1 ∧ (hw.execute n c).1 < n + longest

variable {hw e}

/-- The TMS7000's share: what it ran less its debt grows by the whole cycles. -/
theorem runCpu_spec {longest : Int} (hexec : Overshoots hw longest)
    (hlt : e.cpuDebt < longest) :
    (e.runCpu hw).cyclesRun - (e.runCpu hw).cpuDebt =
        e.cyclesRun - e.cpuDebt + ((e.cpuAcc + tmsHz) / tickHz : Nat) ∧
      0 ≤ (e.runCpu hw).cpuDebt ∧ (e.runCpu hw).cpuDebt < longest := by
  simp only [runCpu]
  generalize (e.cpuAcc + tmsHz) / tickHz = whole
  split
  next hpos =>
    have hran := hexec _ e.chips hpos
    simp only
    omega
  next hneg =>
    -- the debt covers the whole share
    simp only
    omega

theorem runCpu_cpuAcc :
    (e.runCpu hw).cpuAcc = e.cpuAcc + tmsHz - (e.cpuAcc + tmsHz) / tickHz * tickHz := by
  simp only [runCpu]
  split <;> rfl

/-- It leaves the other clocks alone. -/
theorem runCpu_frame : (e.runCpu hw).scanlines = e.scanlines ∧ (e.runCpu hw).ayAcc = e.ayAcc ∧
    (e.runCpu hw).aySteps = e.aySteps ∧ (e.runCpu hw).spoAcc = e.spoAcc ∧
    (e.runCpu hw).spoSamples = e.spoSamples := by
  simp only [runCpu]
  split
  next => exact ⟨rfl, rfl, rfl, rfl, rfl⟩
  next => exact ⟨rfl, rfl, rfl, rfl, rfl⟩

/-- The SP0256 generates one sample for each whole period. -/
theorem spoLoop_spec (e : Engine χ) :
    (spoLoop hw e).spoAcc = e.spoAcc % tickHz ∧
      (spoLoop hw e).spoSamples = e.spoSamples + e.spoAcc / tickHz := by
  have hpos : 0 < tickHz := by decide
  fun_induction spoLoop hw e with
  | case1 e hle r ih =>
    rw [ih.1, ih.2]
    dsimp only
    rw [Nat.mod_eq_sub_mod hle, Nat.div_eq_sub_div hpos hle]
    exact ⟨rfl, by omega⟩
  | case2 e hgt =>
    rw [Nat.mod_eq_of_lt (by omega), Nat.div_eq_of_lt (by omega)]
    exact ⟨rfl, rfl⟩

theorem spoLoop_frame (e : Engine χ) :
    (spoLoop hw e).scanlines = e.scanlines ∧ (spoLoop hw e).cpuAcc = e.cpuAcc ∧
      (spoLoop hw e).cpuDebt = e.cpuDebt ∧ (spoLoop hw e).cyclesRun = e.cyclesRun ∧
      (spoLoop hw e).ayAcc = e.ayAcc ∧ (spoLoop hw e).aySteps = e.aySteps := by
  fun_induction spoLoop hw e with
  | case1 e _ r ih => exact ih
  | case2 e => exact ⟨rfl, rfl, rfl, rfl, rfl, rfl⟩

/-- A scanline keeps the books. -/
theorem Accounts.runScanline {longest : Int} (h : Accounts longest e)
    (hexec : Overshoots hw longest) : Accounts longest (e.runScanline hw).2 := by
  obtain ⟨hcycles, hnonneg, hlt⟩ := runCpu_spec hexec h.debt_lt
  obtain ⟨hlines, hayAcc, haySteps, hspoAcc, hspoSamples⟩ := @runCpu_frame χ hw e
  obtain ⟨hacc, hsamples⟩ := @spoLoop_spec χ hw
    { ((e.runCpu hw).runAy hw).2 with spoAcc := ((e.runCpu hw).runAy hw).2.spoAcc + spoHz }
  obtain ⟨hl, hca, hcd, hcr, haa, has⟩ := @spoLoop_frame χ hw
    { ((e.runCpu hw).runAy hw).2 with spoAcc := ((e.runCpu hw).runAy hw).2.spoAcc + spoHz }
  obtain ⟨htms, htms'⟩ := share_step e.scanlines tmsHz (show 0 < tickHz by decide)
  obtain ⟨hay, hay'⟩ := share_step e.scanlines ayHz (show 0 < ayDiv by decide)
  obtain ⟨hspo, hspo'⟩ := share_step e.scanlines spoHz (show 0 < tickHz by decide)
  have hn : (e.runScanline hw).2.scanlines = e.scanlines + 1 := congrArg (· + 1) (hl.trans hlines)
  rw [← h.cpuAcc] at htms htms'
  rw [← h.ayAcc] at hay hay'
  rw [← h.spoAcc] at hspo hspo'
  have howes : (e.runScanline hw).2.cpuDebt = (e.runCpu hw).cpuDebt := hcd
  refine ⟨?_, ?_, ?_, ?_, ?_, ?_, ?_, ?_⟩
  · rw [hn, ← htms']
    exact hca.trans runCpu_cpuAcc
  · rw [hn, ← htms]
    have hran : (e.runScanline hw).2.cyclesRun = (e.runCpu hw).cyclesRun := hcr
    have hbefore := h.cycles
    rw [hran, howes]
    push_cast at hcycles hbefore ⊢
    omega
  · rw [howes]
    exact hnonneg
  · rw [howes]
    exact hlt
  · rw [hn, ← hay', ← hayAcc]
    exact haa
  · rw [hn, ← hay]
    have hsteps : (e.runScanline hw).2.aySteps =
        (e.runCpu hw).aySteps + (((e.runCpu hw).ayAcc + ayHz) / ayDiv : Nat) := has
    rw [hsteps, haySteps, hayAcc, h.aySteps, Int.natCast_add]
  · rw [hn, ← hspo']
    have hrest : (e.runScanline hw).2.spoAcc = ((e.runCpu hw).spoAcc + spoHz) % tickHz := hacc
    rw [hrest, hspoAcc, Nat.mod_eq_sub_div_mul]
  · rw [hn, ← hspo]
    have hmade : (e.runScanline hw).2.spoSamples =
        (e.runCpu hw).spoSamples + ((e.runCpu hw).spoAcc + spoHz) / tickHz := hsamples
    rw [hmade, hspoSamples, hspoAcc, h.spoSamples]

end Engine

end CocoEmulator.Sound.SscEngine
