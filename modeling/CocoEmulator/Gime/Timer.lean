/-
  Gime/Timer.lean --- how often the GIME's timer expires.

  A `Clock` runs beside the chip: the scanlines since the timer was armed, the
  expiries, and where the present period ends (`due`, in ticks of the timer).  The
  fast timer has `timer_left_x2` half-ticks left, which is twice `due` less 456 for
  each scanline; the line-rate timer has `timer_counter` left, which is `due` less the
  scanlines.  A write of $FF94 arms the timer, and the clock starts again.

      Clock.OnTime    the two accounts
      onTime_run      they hold while $FF95 is written at any time
      armed_run       and over any writes of $FF94, each of which starts them again
      rate_run        so a constant reload expires at its rate
      expire_returns  the loop of a scanline ends
-/
import CocoEmulator.Base.Loop
import CocoEmulator.Base.Run
import CocoEmulator.Gime.Events

set_option autoImplicit false

namespace CocoEmulator.Gime

open CocoEmulator.Base

namespace Tcc1014

variable (g : Tcc1014)

/-- The reload in $FF94 and $FF95. -/
def reload : Nat := ((g.registers 4 &&& 0x0F).toNat <<< 8) ||| (g.registers 5).toNat

/-- The length of a period begun now, in ticks; 0 stops the timer. -/
def period : Nat := if g.reload ≠ 0 then g.reload + timerOffset else 0

/-- Arming gives the counter a whole period, for either source. -/
theorem armTimer_eq :
    g.armTimer = { g with timerCounter := g.period, timerLeftX2 := (g.period : Int) * 2 } := rfl

/-- How often the loop of the fast timer goes round. -/
def fastExpiries (g : Tcc1014) : Nat :=
  if g.timerLeftX2 ≤ 0 then
    let armed := g.timerExpired.armTimer
    if armed.timerCounter = 0 then 1
    else fastExpiries { armed with timerLeftX2 := armed.timerLeftX2 + g.timerLeftX2 } + 1
  else 0
termination_by (1 - g.timerLeftX2).toNat
decreasing_by
  rename_i hleft hcounter
  have hpos : 0 < g.timerExpired.armTimer.timerCounter := Nat.pos_of_ne_zero hcounter
  have hdouble : g.timerExpired.armTimer.timerLeftX2 =
      (g.timerExpired.armTimer.timerCounter : Int) * 2 := rfl
  rw [hdouble]
  omega

/-- How often `timer_expired` is called in a scanline. -/
def expiries : Nat :=
  if g.timerCounter = 0 then 0
  else if g.tins = false then if g.timerCounter - 1 = 0 then 1 else 0
  else fastExpiries { g with timerLeftX2 := g.timerLeftX2 - timerFastX2PerLine }

end Tcc1014

open Tcc1014

/-! ## The loop -/

/-- One pass of `while (gime->timer_left_x2 <= 0)`. -/
def expireBody (g : Tcc1014) : Move Tcc1014 Tcc1014 :=
  if g.timerLeftX2 ≤ 0 then
    let armed := g.timerExpired.armTimer
    if armed.timerCounter = 0 then .stop armed
    else .go { armed with timerLeftX2 := armed.timerLeftX2 + g.timerLeftX2 }
  else .stop g

/-- The loop returns from every state, whatever the reload. -/
theorem expire_returns (g : Tcc1014) : Returns expireBody g (expireFast g) := by
  induction g using expireFast.induct with
  | case1 g hleft armed hstopped =>
    unfold expireFast
    rw [if_pos hleft]
    dsimp only
    rw [if_pos hstopped]
    refine Returns.of_stop ?_
    unfold expireBody
    rw [if_pos hleft]
    dsimp only
    rw [if_pos hstopped]
  | case2 g hleft armed hrunning ih =>
    unfold expireFast
    rw [if_pos hleft]
    dsimp only
    rw [if_neg hrunning]
    refine Returns.of_go ?_ ih
    unfold expireBody
    rw [if_pos hleft]
    dsimp only
    rw [if_neg hrunning]
  | case3 g hleft =>
    unfold expireFast
    rw [if_neg hleft]
    refine Returns.of_stop ?_
    unfold expireBody
    rw [if_neg hleft]

section

variable {g : Tcc1014}

/-- While time is left the loop does nothing. -/
theorem expireFast_done (h : 0 < g.timerLeftX2) : expireFast g = g ∧ fastExpiries g = 0 := by
  unfold expireFast fastExpiries
  rw [if_neg (Int.not_le.mpr h), if_neg (Int.not_le.mpr h)]
  exact ⟨rfl, rfl⟩

/-- An expiry with a reload of 0 is the last one. -/
theorem expireFast_stops (h : g.timerLeftX2 ≤ 0) (hreload : g.period = 0) :
    expireFast g = g.timerExpired.armTimer ∧ fastExpiries g = 1 := by
  have hstopped : g.timerExpired.armTimer.timerCounter = 0 := hreload
  unfold expireFast fastExpiries
  rw [if_pos h, if_pos h]
  dsimp only
  rw [if_pos hstopped, if_pos hstopped]
  exact ⟨rfl, rfl⟩

/-- The chip after an expiry that begins another period. -/
def rearmed (g : Tcc1014) : Tcc1014 :=
  { g.timerExpired with
    timerCounter := g.period
    timerLeftX2 := (g.period : Int) * 2 + g.timerLeftX2 }

/-- A round of the loop, for a period that is not zero: one expiry more, and the time left grows by
a period. -/
theorem expireFast_goes (h : g.timerLeftX2 ≤ 0) (hreload : g.period ≠ 0) :
    expireFast g = expireFast (rearmed g) ∧ fastExpiries g = fastExpiries (rearmed g) + 1 := by
  have hrunning : g.timerExpired.armTimer.timerCounter ≠ 0 := hreload
  constructor
  · rw [expireFast, if_pos h]
    dsimp only
    rw [if_neg hrunning]
    rfl
  · rw [fastExpiries, if_pos h]
    dsimp only
    rw [if_neg hrunning]
    rfl

/-- The loop with a reload: it adds a period for each expiry, until something is left. -/
structure Expired (g g' : Tcc1014) (n : Nat) : Prop where
  left : g'.timerLeftX2 = g.timerLeftX2 + 2 * (n * g.period : Nat)
  positive : 0 < g'.timerLeftX2
  atMost : 0 < n → g'.timerLeftX2 ≤ 2 * (g.period : Int)
  counter : g'.timerCounter = if n = 0 then g.timerCounter else g.period
  fires : g'.timerFires = g.timerFires + BitVec.ofNat 32 n

/-- One expiry before the others. -/
theorem Expired.next (h : g.timerLeftX2 ≤ 0) {g' : Tcc1014} {n : Nat}
    (hnext : Expired (rearmed g) g' n) : Expired g g' (n + 1) := by
  obtain ⟨hleft, hpos, hmost, hcounter, hfires⟩ := hnext
  have hperiod : (rearmed g).period = g.period := rfl
  have hbegun : (rearmed g).timerLeftX2 = (g.period : Int) * 2 + g.timerLeftX2 := rfl
  have hcount : (rearmed g).timerCounter = g.period := rfl
  have hfired : (rearmed g).timerFires = g.timerFires + 1 := rfl
  rw [hperiod] at hleft hmost hcounter
  rw [hbegun] at hleft
  rw [hcount, ite_self] at hcounter
  rw [hfired] at hfires
  refine ⟨?_, hpos, fun _ => ?_, hcounter, ?_⟩
  · rw [hleft, Nat.succ_mul]
    omega
  · cases n with
    | zero =>
      rw [Nat.zero_mul] at hleft
      omega
    | succ n => exact hmost n.succ_pos
  · rw [hfires, BitVec.add_assoc, BitVec.add_comm 1, BitVec.ofNat_add]
    rfl

/-- The loop runs until time is left again: by induction on its rounds, the time is what it was
plus a period for each expiry, and at most a period. -/
theorem expireFast_spec (g : Tcc1014) (hreload : g.period ≠ 0) :
    Expired g (expireFast g) (fastExpiries g) := by
  induction g using expireFast.induct with
  | case1 g hleft armed hstopped => exact absurd hstopped hreload
  | case2 g hleft armed hrunning ih =>
    obtain ⟨hgo, hcount⟩ := expireFast_goes hleft hreload
    rw [hgo, hcount]
    exact (ih hreload).next hleft
  | case3 g hleft =>
    obtain ⟨hdone, hcount⟩ := expireFast_done (Int.not_le.mp hleft)
    rw [hdone, hcount]
    refine ⟨?_, Int.not_le.mp hleft, fun h => absurd h (Nat.lt_irrefl 0), rfl, ?_⟩
    · rw [Nat.zero_mul]
      exact (Int.add_zero _).symm
    · exact (BitVec.add_zero _).symm

end

/-! ## A scanline -/

/-- The time the timer has left, in half-ticks of the fast timer or in scanlines. -/
def Tcc1014.timeLeft (g : Tcc1014) : Int := if g.tins then g.timerLeftX2 else g.timerCounter

/-- What a scanline takes from it. -/
def lineTime (tins : Bool) : Int := if tins then timerFastX2PerLine else 1

/-- What a period adds to it. -/
def periodTime (tins : Bool) (period : Nat) : Int := if tins then 2 * (period : Int) else period

/-- A running timer has time left. -/
def Tcc1014.Runs (g : Tcc1014) : Prop := g.timerCounter ≠ 0 ∧ 0 < g.timeLeft

/-- The step lemma: a scanline takes its time and adds a period for each expiry, so what
overshoots the end of a period is carried into the next one. -/
structure Ticked (g g' : Tcc1014) (n : Nat) : Prop where
  runs : g'.Runs
  left : g'.timeLeft = g.timeLeft - lineTime g.tins + n * periodTime g.tins g.period
  atMost : 0 < n → g'.timeLeft ≤ periodTime g.tins g.period
  fires : g'.timerFires = g.timerFires + BitVec.ofNat 32 n

/-- With a reload of 0 the next expiry stops the timer. -/
structure Stopped (g g' : Tcc1014) (n : Nat) : Prop where
  reload : g.period = 0
  counter : g'.timerCounter = 0
  once : n = 1
  fires : g'.timerFires = g.timerFires + BitVec.ofNat 32 n

section

variable {g : Tcc1014}

theorem tickScanline_tins (g : Tcc1014) : g.tickScanline.tins = g.tins := by
  obtain ⟨i, hi⟩ := onlyInts_tickScanline g
  rw [hi]
  rfl

theorem tickScanline_registers (g : Tcc1014) : g.tickScanline.registers = g.registers := by
  obtain ⟨i, hi⟩ := onlyInts_tickScanline g
  rw [hi]
  rfl

theorem tickScanline_period (g : Tcc1014) : g.tickScanline.period = g.period := by
  unfold Tcc1014.period Tcc1014.reload
  rw [tickScanline_registers]

theorem timeLeft_slow (h : g.tins = false) : g.timeLeft = g.timerCounter := by
  unfold Tcc1014.timeLeft
  rw [h]
  rfl

theorem timeLeft_fast (h : g.tins = true) : g.timeLeft = g.timerLeftX2 := by
  unfold Tcc1014.timeLeft
  rw [h]
  rfl

/-- What a scanline does to the slow timer, in the units of both sources. -/
theorem Ticked.slow {g' : Tcc1014} {n : Nat} (htins : g.tins = false) (htins' : g'.tins = false)
    (hpos : g'.timerCounter ≠ 0) (hleft : g'.timerCounter + 1 = g.timerCounter + n * g.period)
    (hmost : 0 < n → g'.timerCounter ≤ g.period)
    (hfires : g'.timerFires = g.timerFires + BitVec.ofNat 32 n) : Ticked g g' n := by
  refine ⟨⟨hpos, ?_⟩, ?_, fun hn => ?_, hfires⟩
  · rw [timeLeft_slow htins']
    omega
  · rw [timeLeft_slow htins, timeLeft_slow htins', htins]
    simp only [lineTime, periodTime, Bool.false_eq_true, if_false]
    rw [← Int.natCast_mul]
    omega
  · rw [timeLeft_slow htins', htins]
    simp only [periodTime, Bool.false_eq_true, if_false]
    exact Int.ofNat_le.mpr (hmost hn)

/-- What it does to the fast timer, which may expire more than once. -/
theorem Ticked.fast {g' : Tcc1014} {n : Nat} (htins : g.tins = true) (htins' : g'.tins = true)
    (hcounter : g'.timerCounter ≠ 0) (hpos : 0 < g'.timerLeftX2)
    (hleft : g'.timerLeftX2 = g.timerLeftX2 - timerFastX2PerLine + 2 * (n * g.period : Nat))
    (hmost : 0 < n → g'.timerLeftX2 ≤ 2 * (g.period : Int))
    (hfires : g'.timerFires = g.timerFires + BitVec.ofNat 32 n) : Ticked g g' n := by
  refine ⟨⟨hcounter, ?_⟩, ?_, fun hn => ?_, hfires⟩
  · rw [timeLeft_fast htins']
    exact hpos
  · rw [timeLeft_fast htins, timeLeft_fast htins', htins, hleft]
    simp only [lineTime, periodTime, if_true]
    rw [Int.natCast_mul, ← Int.mul_assoc, ← Int.mul_assoc, Int.mul_comm 2 (n : Int)]
  · rw [timeLeft_fast htins', htins]
    simp only [periodTime, if_true]
    exact hmost hn

/-- From the slow source a scanline counts down by one, and expires at zero. -/
theorem tickScanline_slow (hruns : g.Runs) (htins : g.tins = false) :
    Ticked g g.tickScanline g.expiries ∨ Stopped g g.tickScanline g.expiries := by
  have hcounter : g.timerCounter ≠ 0 := hruns.1
  have htins' : g.tickScanline.tins = false := (tickScanline_tins g).trans htins
  unfold tickScanline expiries at *
  rw [if_neg hcounter, if_pos htins] at *
  rw [if_neg hcounter, if_pos htins]
  dsimp only at htins' ⊢
  by_cases hlast : g.timerCounter - 1 = 0
  · rw [if_pos hlast] at htins' ⊢
    rw [if_pos hlast]
    by_cases hreload : g.period = 0
    · exact Or.inr ⟨hreload, hreload, rfl, rfl⟩
    · refine Or.inl (.slow htins htins' hreload ?_ (fun _ => Nat.le_refl _) rfl)
      show g.period + 1 = g.timerCounter + 1 * g.period
      omega
  · rw [if_neg hlast] at htins' ⊢
    rw [if_neg hlast]
    refine Or.inl (.slow htins htins' hlast ?_ (fun h => absurd h (Nat.lt_irrefl 0))
      (BitVec.add_zero _).symm)
    show g.timerCounter - 1 + 1 = g.timerCounter + 0 * g.period
    omega

/-- From the fast source it takes 456 half ticks and expires as often as they hold a period. -/
theorem tickScanline_fast (hruns : g.Runs) (htins : g.tins = true) :
    Ticked g g.tickScanline g.expiries ∨ Stopped g g.tickScanline g.expiries := by
  have hcounter : g.timerCounter ≠ 0 := hruns.1
  have htins' : g.tickScanline.tins = true := (tickScanline_tins g).trans htins
  have hslow : ¬g.tins = false := by
    rw [htins]
    exact Bool.noConfusion
  unfold tickScanline expiries at *
  rw [if_neg hcounter, if_neg hslow] at *
  rw [if_neg hcounter, if_neg hslow]
  by_cases hreload : g.period = 0
  · by_cases hleft : g.timerLeftX2 - timerFastX2PerLine ≤ 0
    · obtain ⟨hstop, honce⟩ := expireFast_stops
        (g := { g with timerLeftX2 := g.timerLeftX2 - timerFastX2PerLine }) hleft hreload
      rw [hstop, honce]
      exact Or.inr ⟨hreload, hreload, rfl, rfl⟩
    · obtain ⟨hdone, hnone⟩ := expireFast_done
        (g := { g with timerLeftX2 := g.timerLeftX2 - timerFastX2PerLine }) (Int.not_le.mp hleft)
      rw [hdone, hnone]
      refine Or.inl (.fast htins htins hcounter (Int.not_le.mp hleft) ?_
        (fun h => absurd h (Nat.lt_irrefl 0)) (BitVec.add_zero _).symm)
      rw [Nat.zero_mul]
      exact (Int.add_zero _).symm
  · have hspec := expireFast_spec
      { g with timerLeftX2 := g.timerLeftX2 - timerFastX2PerLine } hreload
    refine Or.inl (.fast htins htins' ?_ hspec.positive hspec.left hspec.atMost hspec.fires)
    rw [hspec.counter]
    split
    · exact hcounter
    · exact hreload

/-- A running timer ticks on in time, or a reload value of zero stops it. -/
theorem tickScanline_spec (hruns : g.Runs) :
    Ticked g g.tickScanline g.expiries ∨ Stopped g g.tickScanline g.expiries := by
  cases htins : g.tins with
  | false => exact tickScanline_slow hruns htins
  | true => exact tickScanline_fast hruns htins

/-- A stopped timer stays as it is. -/
theorem tickScanline_stopped (h : g.timerCounter = 0) : g.tickScanline = g ∧ g.expiries = 0 := by
  unfold tickScanline expiries
  rw [if_pos h, if_pos h]
  exact ⟨rfl, rfl⟩

end

/-! ## Other events -/

/-- The timer and its registers are as they were. -/
structure TimerSame (g g' : Tcc1014) : Prop where
  counter : g'.timerCounter = g.timerCounter
  left : g'.timerLeftX2 = g.timerLeftX2
  fires : g'.timerFires = g.timerFires
  tins : g'.tins = g.tins
  msb : g'.registers 4 = g.registers 4
  lsb : g'.registers 5 = g.registers 5

/-- Events between scanlines that leave the timer alone: a write of INIT1 may change
the task but not the source of the timer. -/
def Untouched (tins : Bool) : Event → Prop
  | .write reg val => reg ≠ 4 ∧ reg ≠ 5 ∧ (reg = 1 → bit val 5 = tins)
  | .interrupt _ | .il0 _ | .il1 _ | .il2 _ | .read _ | .setRam _ => True
  | .tick | .cycle _ _ _ | .reset => False

section

variable {g g' g'' : Tcc1014}

theorem TimerSame.refl (g : Tcc1014) : TimerSame g g := ⟨rfl, rfl, rfl, rfl, rfl, rfl⟩

theorem TimerSame.trans (h : TimerSame g g') (h' : TimerSame g' g'') : TimerSame g g'' where
  counter := h'.counter.trans h.counter
  left := h'.left.trans h.left
  fires := h'.fires.trans h.fires
  tins := h'.tins.trans h.tins
  msb := h'.msb.trans h.msb
  lsb := h'.lsb.trans h.lsb

theorem TimerSame.period (h : TimerSame g g') : g'.period = g.period := by
  unfold Tcc1014.period Tcc1014.reload
  rw [h.msb, h.lsb]

/-- The same timer has the same time left. -/
theorem TimerSame.timeLeft (h : TimerSame g g') : g'.timeLeft = g.timeLeft := by
  unfold Tcc1014.timeLeft
  rw [h.tins, h.left, h.counter]

theorem TimerSame.runs (h : TimerSame g g') (hruns : g.Runs) : g'.Runs := by
  unfold Tcc1014.Runs
  rw [h.counter, h.timeLeft]
  exact hruns

theorem timerSame_selectTask (tr : BitVec 4) : TimerSame g (g.selectTask tr) := by
  unfold Tcc1014.selectTask
  split
  · exact ⟨rfl, rfl, rfl, rfl, rfl, rfl⟩
  · exact TimerSame.refl g

/-- INIT1 with the same TINS leaves the timer alone. -/
theorem timerSame_writeInit1 {val : Byte} (h : bit val 5 = g.tins) :
    TimerSame g (g.writeInit1 val) := by
  unfold Tcc1014.writeInit1
  have htimer : g.selectTimer (bit val 5) = g := by
    unfold Tcc1014.selectTimer
    rw [if_neg (not_not_intro h)]
  rw [htimer]
  exact timerSame_selectTask _

theorem timerSame_writeVbank (val : Byte) : TimerSame g (g.writeVbank val) := by
  unfold Tcc1014.writeVbank
  split
  · exact ⟨rfl, rfl, rfl, rfl, rfl, rfl⟩
  · exact TimerSame.refl g

/-- Registers other than the reload value, with TINS as it is, leave the timer alone. -/
theorem timerSame_writeRegister {reg : BitVec 4} {val : Byte}
    (h : Untouched g.tins (.write reg val)) : TimerSame g (g.writeRegister reg val) := by
  obtain ⟨hmsb, hlsb, hinit1⟩ := h
  have hset : TimerSame g { g with registers := Function.update g.registers reg val } :=
    ⟨rfl, rfl, rfl, rfl, Function.update_of_ne hmsb.symm _ _, Function.update_of_ne hlsb.symm _ _⟩
  unfold Tcc1014.writeRegister
  dsimp only
  split
  · exact hset.trans ⟨rfl, rfl, rfl, rfl, rfl, rfl⟩
  · rename_i hreg
    have htins := hinit1 (BitVec.eq_of_toNat_eq hreg)
    exact hset.trans (timerSame_writeInit1 (htins.trans hset.tins.symm))
  · exact hset.trans ⟨rfl, rfl, rfl, rfl, rfl, rfl⟩
  · exact hset.trans ⟨rfl, rfl, rfl, rfl, rfl, rfl⟩
  · rename_i hreg
    exact absurd (BitVec.eq_of_toNat_eq hreg) hmsb
  · exact hset.trans ⟨rfl, rfl, rfl, rfl, rfl, rfl⟩
  · exact hset.trans ⟨rfl, rfl, rfl, rfl, rfl, rfl⟩
  · exact hset.trans ⟨rfl, rfl, rfl, rfl, rfl, rfl⟩
  · exact hset.trans (timerSame_writeVbank val)
  · exact hset.trans ⟨rfl, rfl, rfl, rfl, rfl, rfl⟩
  · exact hset.trans ⟨rfl, rfl, rfl, rfl, rfl, rfl⟩
  · exact hset.trans ⟨rfl, rfl, rfl, rfl, rfl, rfl⟩
  · exact hset.trans ⟨rfl, rfl, rfl, rfl, rfl, rfl⟩
  · exact hset

theorem timerSame_edge (line : Bool) (state flag : Byte) :
    TimerSame g (g.edge line state flag) := by
  unfold Tcc1014.edge
  split
  · exact ⟨rfl, rfl, rfl, rfl, rfl, rfl⟩
  · exact TimerSame.refl g

theorem timerSame_edgeDetectIl (g : Tcc1014) : TimerSame g g.edgeDetectIl := by
  have h2 (g : Tcc1014) : TimerSame g g.sampleIl2 :=
    (timerSame_edge g.il2 g.il2State intEi2).trans ⟨rfl, rfl, rfl, rfl, rfl, rfl⟩
  have h1 (g : Tcc1014) : TimerSame g g.sampleIl1 :=
    (timerSame_edge g.il1 g.il1State intEi1).trans ⟨rfl, rfl, rfl, rfl, rfl, rfl⟩
  have h0 (g : Tcc1014) : TimerSame g g.sampleIl0 :=
    (timerSame_edge g.il0 g.il0State intEi0).trans ⟨rfl, rfl, rfl, rfl, rfl, rfl⟩
  exact ((h2 g).trans (h1 _)).trans (h0 _)

theorem timerSame_readRegister (reg : BitVec 4) : TimerSame g (g.readRegister reg).2 := by
  unfold Tcc1014.readRegister
  split
  · exact (timerSame_edgeDetectIl g).trans ⟨rfl, rfl, rfl, rfl, rfl, rfl⟩
  · split
    · exact (timerSame_edgeDetectIl g).trans ⟨rfl, rfl, rfl, rfl, rfl, rfl⟩
    · exact TimerSame.refl g

/-- An event that is not the timer's own leaves the timer alone. -/
theorem Untouched.same {e : Event} (h : Untouched g.tins e) : TimerSame g (e.step g) := by
  cases e with
  | interrupt source => exact ⟨rfl, rfl, rfl, rfl, rfl, rfl⟩
  | il0 high => exact ⟨rfl, rfl, rfl, rfl, rfl, rfl⟩
  | il1 high => exact ⟨rfl, rfl, rfl, rfl, rfl, rfl⟩
  | il2 high => exact ⟨rfl, rfl, rfl, rfl, rfl, rfl⟩
  | tick => exact h.elim
  | cycle addr rnw data => exact h.elim
  | write reg val => exact timerSame_writeRegister h
  | read reg => exact timerSame_readRegister reg
  | setRam size => exact ⟨rfl, rfl, rfl, rfl, rfl, rfl⟩
  | reset => exact h.elim

/-- A write of $FF94 arms the timer with the new reload. -/
theorem writeMsb_eq (val : Byte) :
    g.writeRegister 4 val =
      ({ g with registers := Function.update g.registers 4 val } : Tcc1014).armTimer := rfl

/-- A write of $FF95 changes the reload and nothing that counts. -/
theorem writeLsb_eq (val : Byte) :
    g.writeRegister 5 val = { g with registers := Function.update g.registers 5 val } := rfl

end

/-! ## Runs -/

/-- The chip since its timer was armed: the scanlines, the expiries, and the end of the
present period. -/
structure Clock where
  gime : Tcc1014
  lines : Nat := 0
  count : Nat := 0
  due : Nat

namespace Clock

/-- The timer armed with what the registers hold. -/
def armed (g : Tcc1014) : Clock := { gime := g.armTimer, due := g.period }

/-- A scanline begins a period, of the reload it finds, for each expiry; a write of $FF94 starts
the account again. -/
def step : Event → Clock → Clock
  | .tick, c =>
    { gime := c.gime.tickScanline
      lines := c.lines + 1
      count := c.count + c.gime.expiries
      due := c.due + c.gime.expiries * c.gime.period }
  | .write reg val, c =>
    let gime := c.gime.writeRegister reg val
    if reg = 4 then { gime, due := gime.period } else { c with gime }
  | e, c => { c with gime := e.step c.gime }

/-- The timer runs, what it has left is `due` less the time of the scanlines, and the
chip's own counter goes along with the expiries. -/
structure OnTime (c : Clock) (tins : Bool) (fires : Unsigned) : Prop where
  source : c.gime.tins = tins
  runs : c.gime.Runs
  left : c.gime.timeLeft = periodTime tins c.due - c.lines * lineTime tins
  fires : c.gime.timerFires = fires + BitVec.ofNat 32 c.count

/-- The timer has stopped. -/
structure Still (c : Clock) (tins : Bool) (fires : Unsigned) : Prop where
  source : c.gime.tins = tins
  counter : c.gime.timerCounter = 0
  fires : c.gime.timerFires = fires + BitVec.ofNat 32 c.count

/-- A constant reload: every period is `p` ticks long. -/
structure AtPeriod (c : Clock) (tins : Bool) (fires : Unsigned) (p : Nat) : Prop
    extends OnTime c tins fires where
  period : c.gime.period = p
  due : c.due = (c.count + 1) * p
  atMost : c.gime.timeLeft ≤ periodTime tins p

end Clock

/-- Events of a timer that runs at a constant reload. -/
def Constant (tins : Bool) (e : Event) : Prop := e = .tick ∨ Untouched tins e

/-- The same, and $FF95 is written at any time. -/
def LowByte (tins : Bool) (e : Event) : Prop := Constant tins e ∨ ∃ val, e = .write 5 val

/-- The same, and $FF94 too. -/
def Armed (tins : Bool) (e : Event) : Prop := LowByte tins e ∨ ∃ val, e = .write 4 val

theorem lineTime_pos (tins : Bool) : 0 < lineTime tins := by
  cases tins <;> decide

theorem periodTime_pos (tins : Bool) {p : Nat} (h : p ≠ 0) : 0 < periodTime tins p := by
  cases tins <;> simp only [periodTime, Bool.false_eq_true, if_false, if_true] <;> omega

/-- The length of several periods is that of each, added up. -/
theorem periodTime_add (tins : Bool) (due n p : Nat) :
    periodTime tins (due + n * p) = periodTime tins due + n * periodTime tins p := by
  cases tins with
  | false => exact Int.natCast_add _ _ |>.trans (by rw [Int.natCast_mul]; rfl)
  | true =>
    simp only [periodTime, if_true]
    rw [Int.natCast_add, Int.natCast_mul, Int.mul_add, Int.mul_left_comm]

section

variable {c : Clock} {tins : Bool} {fires : Unsigned} {p : Nat}

open Clock

theorem OnTime.same (h : c.OnTime tins fires) {g : Tcc1014} (hsame : TimerSame c.gime g) :
    OnTime { c with gime := g } tins fires where
  source := hsame.tins.trans h.source
  runs := hsame.runs h.runs
  left := hsame.timeLeft.trans h.left
  fires := hsame.fires.trans h.fires

theorem AtPeriod.same (h : c.AtPeriod tins fires p) {g : Tcc1014}
    (hsame : TimerSame c.gime g) : AtPeriod { c with gime := g } tins fires p where
  toOnTime := OnTime.same h.toOnTime hsame
  period := hsame.period.trans h.period
  due := h.due
  atMost := by
    rw [hsame.timeLeft]
    exact h.atMost

/-- A scanline keeps the account of a running timer, or its expiry stops it. -/
theorem OnTime.ticked (h : c.OnTime tins fires)
    (ht : Ticked c.gime c.gime.tickScanline c.gime.expiries) :
    OnTime (Clock.step .tick c) tins fires where
  source := (tickScanline_tins c.gime).trans h.source
  runs := ht.runs
  left := by
    have hleft := ht.left
    rw [h.source, h.left] at hleft
    show c.gime.tickScanline.timeLeft =
      periodTime tins (c.due + c.gime.expiries * c.gime.period) -
        (c.lines + 1 : Nat) * lineTime tins
    rw [hleft, periodTime_add, Int.natCast_add, Int.add_mul]
    omega
  fires := by
    show c.gime.tickScanline.timerFires = fires + BitVec.ofNat 32 (c.count + c.gime.expiries)
    rw [ht.fires, h.fires, BitVec.ofNat_add, BitVec.add_assoc]

/-- A scanline keeps the count in step with the time that has gone by, or the timer stops. -/
theorem OnTime.tick (h : c.OnTime tins fires) :
    OnTime (Clock.step .tick c) tins fires ∨ Still (Clock.step .tick c) tins fires := by
  rcases tickScanline_spec h.runs with ht | hstop
  · exact Or.inl (OnTime.ticked h ht)
  · refine Or.inr ⟨(tickScanline_tins c.gime).trans h.source, hstop.counter, ?_⟩
    show c.gime.tickScanline.timerFires = fires + BitVec.ofNat 32 (c.count + c.gime.expiries)
    rw [hstop.fires, h.fires, BitVec.ofNat_add, BitVec.add_assoc]

/-- With a constant period that is not zero it does not stop. -/
theorem AtPeriod.tick (h : c.AtPeriod tins fires p) (hp : p ≠ 0) :
    AtPeriod (Clock.step .tick c) tins fires p := by
  rcases tickScanline_spec h.runs with ht | hstop
  · refine ⟨OnTime.ticked h.toOnTime ht, (tickScanline_period c.gime).trans h.period, ?_, ?_⟩
    · show c.due + c.gime.expiries * c.gime.period = (c.count + c.gime.expiries + 1) * p
      rw [h.due, h.period, ← Nat.add_mul]
      congr 1
      omega
    · show c.gime.tickScanline.timeLeft ≤ periodTime tins p
      have hmost := ht.atMost
      have hleft := ht.left
      have hline := lineTime_pos tins
      have hbefore := h.atMost
      rw [h.source, h.period] at hmost hleft
      by_cases hnone : c.gime.expiries = 0
      · rw [hnone] at hleft
        omega
      · exact hmost (Nat.pos_of_ne_zero hnone)
  · exact absurd (h.period.symm.trans hstop.reload) hp

/-- What is left of the period gives the number of periods before it. -/
theorem AtPeriod.rate (h : c.AtPeriod tins fires p) :
    c.count = if tins then 228 * c.lines / p else c.lines / p := by
  have hpos := h.runs.2
  have hmost := h.atMost
  rw [h.left, h.due] at hpos hmost
  cases tins with
  | false =>
    simp only [periodTime, lineTime, Bool.false_eq_true, if_false] at hpos hmost ⊢
    refine (Nat.div_eq_of_lt_le ?_ ?_).symm
    · rw [Nat.succ_mul] at hmost
      omega
    · omega
  | true =>
    simp only [periodTime, lineTime, timerFastX2PerLine, if_true] at hpos hmost ⊢
    refine (Nat.div_eq_of_lt_le ?_ ?_).symm
    · rw [Nat.succ_mul] at hmost
      omega
    · omega

/-- A stopped timer counts no expiries. -/
theorem Still.tick (h : c.Still tins fires) :
    Still (Clock.step .tick c) tins fires ∧ (Clock.step .tick c).count = c.count := by
  obtain ⟨hsame, hnone⟩ := tickScanline_stopped h.counter
  have hcount : (Clock.step .tick c).count = c.count := by
    show c.count + c.gime.expiries = c.count
    rw [hnone, Nat.add_zero]
  refine ⟨⟨(tickScanline_tins c.gime).trans h.source, ?_, ?_⟩, hcount⟩
  · show c.gime.tickScanline.timerCounter = 0
    rw [hsame]
    exact h.counter
  · rw [hcount]
    show c.gime.tickScanline.timerFires = _
    rw [hsame]
    exact h.fires

/-! ### One event -/

theorem Clock.step_untouched {e : Event} (h : Untouched tins e) (c : Clock) :
    Clock.step e c = { c with gime := e.step c.gime } := by
  cases e with
  | tick => exact h.elim
  | write reg val => exact if_neg h.1
  | _ => rfl

/-- A write of $FF94 arms the timer, whatever it was doing. -/
theorem Clock.step_msb (val : Byte) (c : Clock) :
    Clock.step (.write 4 val) c =
      .armed { c.gime with registers := Function.update c.gime.registers 4 val } := rfl

/-- One event of a run with a constant reload value and source. -/
theorem AtPeriod.step (h : c.AtPeriod tins fires p) (hp : p ≠ 0) {e : Event}
    (he : Constant tins e) : AtPeriod (Clock.step e c) tins fires p := by
  rcases he with rfl | hquiet
  · exact AtPeriod.tick h hp
  · rw [Clock.step_untouched hquiet]
    rw [← h.source] at hquiet
    exact AtPeriod.same h hquiet.same

/-- One event of a run in which the low byte of the reload value may be written: the period in
progress ends as it began, and the next is as long as the value then says. -/
theorem OnTime.step (h : c.OnTime tins fires) {e : Event} (he : LowByte tins e) :
    OnTime (Clock.step e c) tins fires ∨ Still (Clock.step e c) tins fires := by
  rcases he with (rfl | hquiet) | ⟨val, rfl⟩
  · exact OnTime.tick h
  · rw [Clock.step_untouched hquiet]
    rw [← h.source] at hquiet
    exact Or.inl (OnTime.same h hquiet.same)
  · exact Or.inl ⟨h.source, h.runs, h.left, h.fires⟩

theorem Still.step (h : c.Still tins fires) {e : Event} (he : LowByte tins e) :
    Still (Clock.step e c) tins fires ∧ (Clock.step e c).count = c.count := by
  rcases he with (rfl | hquiet) | ⟨val, rfl⟩
  · exact Still.tick h
  · rw [Clock.step_untouched hquiet]
    rw [← h.source] at hquiet
    have hsame := hquiet.same
    exact ⟨⟨hsame.tins.trans h.source, hsame.counter.trans h.counter,
      hsame.fires.trans h.fires⟩, rfl⟩
  · exact ⟨⟨h.source, h.counter, h.fires⟩, rfl⟩

/-! ### Runs -/

/-- So along a whole run with a constant reload value. -/
theorem rate_run (h : c.AtPeriod tins fires p) (hp : p ≠ 0) {es : List Event}
    (hes : ∀ e ∈ es, Constant tins e) : AtPeriod (runAll Clock.step es c) tins fires p := by
  have hall : EachStep Clock.step (fun e _ => Constant tins e) es c :=
    .of_forall fun e he _ => hes e he
  have hstep : ∀ e c, AtPeriod c tins fires p → Constant tins e →
      AtPeriod (Clock.step e c) tins fires p :=
    fun _ _ hc he => AtPeriod.step hc hp he
  exact (Always.of_step (P := fun c => AtPeriod c tins fires p) h hstep hall).last

/-- A stopped timer stays so until it is armed again. -/
theorem still_run (h : c.Still tins fires) {es : List Event}
    (hes : ∀ e ∈ es, LowByte tins e) :
    Still (runAll Clock.step es c) tins fires ∧ (runAll Clock.step es c).count = c.count := by
  induction es generalizing c with
  | nil => exact ⟨h, rfl⟩
  | cons e es ih =>
    obtain ⟨hstill, hcount⟩ := Still.step h (hes e List.mem_cons_self)
    have hrest := ih hstill fun e' he' => hes e' (List.mem_cons_of_mem e he')
    exact ⟨hrest.1, hrest.2.trans hcount⟩

/-- So along a whole run with writes of the low byte, up to where the timer stops, if it does. -/
theorem onTime_run (h : c.OnTime tins fires) {es : List Event}
    (hes : ∀ e ∈ es, LowByte tins e) :
    OnTime (runAll Clock.step es c) tins fires ∨ Still (runAll Clock.step es c) tins fires := by
  induction es generalizing c with
  | nil => exact Or.inl h
  | cons e es ih =>
    have hrest : ∀ e' ∈ es, LowByte tins e' := fun e' he' => hes e' (List.mem_cons_of_mem e he')
    rcases OnTime.step h (hes e List.mem_cons_self) with hnext | hstill
    · exact ih hnext hrest
    · exact Or.inr (still_run hstill hrest).1

end

/-! ## Arming -/

/-- Just armed with a reload value, the timer is at the start of a period. -/
theorem armed_atPeriod (g : Tcc1014) (h : g.reload ≠ 0) :
    (Clock.armed g).AtPeriod g.tins g.timerFires (g.reload + 1) := by
  have hperiod : g.period = g.reload + 1 := if_pos h
  have hleft : (Clock.armed g).gime.timeLeft = periodTime g.tins (g.reload + 1) := by
    show g.armTimer.timeLeft = _
    rw [armTimer_eq, hperiod]
    unfold Tcc1014.timeLeft periodTime
    dsimp only
    split
    · exact Int.mul_comm _ 2
    · rfl
  refine
    { source := rfl, runs := ⟨?_, ?_⟩, left := ?_, fires := ?_, period := hperiod, due := ?_,
      atMost := ?_ }
  · show g.period ≠ 0
    omega
  · rw [hleft]
    exact periodTime_pos _ (by omega)
  · rw [hleft]
    show _ = periodTime g.tins g.period - (0 : Nat) * lineTime g.tins
    rw [hperiod, Int.natCast_zero, Int.zero_mul, Int.sub_zero]
  · exact (BitVec.add_zero _).symm
  · show g.period = (0 + 1) * (g.reload + 1)
    rw [hperiod, Nat.zero_add, Nat.one_mul]
  · exact Int.le_of_eq hleft

/-- Armed with zero, it is stopped. -/
theorem armed_still (g : Tcc1014) (h : g.reload = 0) :
    (Clock.armed g).Still g.tins g.timerFires := by
  refine ⟨rfl, ?_, (BitVec.add_zero _).symm⟩
  show g.period = 0
  exact if_neg (not_not_intro h)

/-- A timer just armed runs, or stands still with a reload of 0. -/
theorem armed_onTime (g : Tcc1014) :
    (Clock.armed g).OnTime g.tins g.timerFires ∨ (Clock.armed g).Still g.tins g.timerFires := by
  by_cases h : g.reload = 0
  · exact .inr (armed_still g h)
  · exact .inl (armed_atPeriod g h).toOnTime

/-- The accounts hold over any writes of $FF94 and $FF95, from the last arming on. -/
theorem armed_run {c : Clock} {tins : Bool} {fires : Unsigned}
    (h : c.OnTime tins fires ∨ c.Still tins fires) {es : List Event}
    (hes : ∀ e ∈ es, Armed tins e) :
    ∃ fires, (runAll Clock.step es c).OnTime tins fires ∨
      (runAll Clock.step es c).Still tins fires := by
  induction es generalizing c fires with
  | nil => exact ⟨fires, h⟩
  | cons e es ih =>
    have hrest : ∀ e' ∈ es, Armed tins e' := fun e' he' => hes e' (List.mem_cons_of_mem e he')
    rcases hes e List.mem_cons_self with hlow | ⟨val, rfl⟩
    · rcases h with hrun | hstill
      · exact ih (OnTime.step hrun hlow) hrest
      · exact ih (.inr (Still.step hstill hlow).1) hrest
    · have hsource : c.gime.tins = tins := h.elim (·.source) (·.source)
      have hnew := armed_onTime { c.gime with registers := Function.update c.gime.registers 4 val }
      rw [← Clock.step_msb] at hnew
      dsimp only at hnew
      rw [hsource] at hnew
      exact ih hnew hrest

/-! ## The result -/

/-- From the moment the timer is armed with the reload in its registers:
a constant reload expires at its rate, whatever INIT1 writes change the task; while
$FF95 is written too, each expiry is due when the periods before it have passed, and
takes its period from the reload it finds, or stops the timer if that is 0; $FF95
itself leaves the running period alone; a write of $FF94 arms the timer anew, so that all this
holds from there; a stopped timer does not expire; and the loop of a scanline returns. -/
theorem gime_timer_rate (g : Tcc1014) (es : List Event) :
    (g.reload ≠ 0 → (∀ e ∈ es, Constant g.tins e) →
      (runAll Clock.step es (.armed g)).count =
          (if g.tins then 228 * (runAll Clock.step es (.armed g)).lines / (g.reload + 1)
            else (runAll Clock.step es (.armed g)).lines / (g.reload + 1)) ∧
        (runAll Clock.step es (.armed g)).gime.timerFires =
          g.timerFires + BitVec.ofNat 32 (runAll Clock.step es (.armed g)).count) ∧
    (g.reload ≠ 0 → (∀ e ∈ es, LowByte g.tins e) →
      (runAll Clock.step es (.armed g)).OnTime g.tins g.timerFires ∨
        (runAll Clock.step es (.armed g)).Still g.tins g.timerFires) ∧
    (g.Runs → Ticked g g.tickScanline g.expiries ∨ Stopped g g.tickScanline g.expiries) ∧
    (∀ val, g.writeRegister 5 val =
        { g with registers := Function.update g.registers 5 val } ∧
      g.writeRegister 4 val =
        ({ g with registers := Function.update g.registers 4 val } : Tcc1014).armTimer) ∧
    (∀ val rest, runAll Clock.step (es ++ .write 4 val :: rest) (.armed g) =
      runAll Clock.step rest (.armed
        { (runAll Clock.step es (.armed g)).gime with
          registers := Function.update (runAll Clock.step es (.armed g)).gime.registers 4 val })) ∧
    ((∀ e ∈ es, Armed g.tins e) → ∃ fires, (runAll Clock.step es (.armed g)).OnTime g.tins fires ∨
      (runAll Clock.step es (.armed g)).Still g.tins fires) ∧
    (g.reload = 0 → (∀ e ∈ es, LowByte g.tins e) →
      (runAll Clock.step es (.armed g)).gime.timerCounter = 0 ∧
        (runAll Clock.step es (.armed g)).count = 0) ∧
    Returns expireBody g (expireFast g) := by
  refine ⟨fun hr hes => ?_, fun hr hes => ?_, tickScanline_spec,
    fun val => ⟨writeLsb_eq val, writeMsb_eq val⟩, fun val rest => ?_, armed_run (armed_onTime g),
    fun hr hes => ?_, expire_returns g⟩
  · have hend := rate_run (armed_atPeriod g hr) (by omega) hes
    exact ⟨AtPeriod.rate hend, hend.fires⟩
  · exact onTime_run (armed_atPeriod g hr).toOnTime hes
  · rw [runAll_append, runAll_cons, Clock.step_msb]
  · obtain ⟨hend, hcount⟩ := still_run (armed_still g hr) hes
    exact ⟨hend.counter, hcount⟩

/-- The fast timer, with the longest reload. -/
def longTimer : Tcc1014 where
  registers := fun reg => if reg = 4 then 0x0F else if reg = 5 then 0xFF else 0
  tins := true

/-- Three scanlines with writes of the task, and two after a write of $FF94 that shortens the
reload to 255 in the middle of the period. -/
theorem gime_timer_rate_long :
    (runAll Clock.step [.tick, .write 1 0x21, .tick, .write 1 0x20, .tick]
      (.armed longTimer)).count = 228 * 3 / 4096 ∧
    (runAll Clock.step [.tick, .write 4 0, .tick, .tick] (.armed longTimer)).count =
      228 * 2 / 256 := by
  have hes : ∀ e ∈ [Event.tick, .write 1 0x21, .tick, .write 1 0x20, .tick],
      Constant longTimer.tins e := by
    simp [Constant, Untouched, longTimer]
  have hticks : ∀ e ∈ [Event.tick, .tick], Constant true e := by
    simp [Constant]
  refine ⟨((gime_timer_rate longTimer _).1 (by decide) hes).1, ?_⟩
  have hrestart := (gime_timer_rate longTimer [.tick]).2.2.2.2.1 0 [.tick, .tick]
  generalize hg : ({ (runAll Clock.step [.tick] (.armed longTimer)).gime with
    registers := Function.update
      (runAll Clock.step [.tick] (.armed longTimer)).gime.registers 4 0 } : Tcc1014) = g
    at hrestart
  have htins : g.tins = true := by
    rw [← hg]
    exact tickScanline_tins longTimer.armTimer
  have hreload : g.reload = 255 := by
    rw [← hg]
    show ((Function.update longTimer.armTimer.tickScanline.registers 4 0 4 &&& 0x0F).toNat <<< 8 |||
      (Function.update longTimer.armTimer.tickScanline.registers 4 0 5).toNat) = 255
    rw [tickScanline_registers]
    rfl
  have hrate := ((gime_timer_rate g [.tick, .tick]).1 (by rw [hreload]; decide)
    (by rw [htins]; exact hticks)).1
  rw [htins, hreload, ← hrestart] at hrate
  exact hrate

/-- A write of $FF94 restarts the running period at once. -/
theorem msb_write_restarts :
    longTimer.armTimer.Runs ∧ longTimer.armTimer.timeLeft = 8192 ∧
      (longTimer.armTimer.writeRegister 4 0).timeLeft = 512 ∧
      ¬∀ (g : Tcc1014) (reg : BitVec 4) (val : Byte), reg = 4 ∨ reg = 5 → g.Runs →
        (g.writeRegister reg val).timeLeft = g.timeLeft := by
  have hruns : longTimer.armTimer.Runs := ⟨by decide, by decide⟩
  refine ⟨hruns, rfl, rfl, fun hall => ?_⟩
  have hkept := hall longTimer.armTimer 4 0 (Or.inl rfl) hruns
  exact absurd hkept (by decide)

end CocoEmulator.Gime
