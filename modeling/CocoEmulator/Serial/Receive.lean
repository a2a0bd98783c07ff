/-
  Serial/Receive.lean --- a byte from the host is taken within one byte time.

  `rx_countdown` runs on every tick and is reloaded only when a byte is taken, so in
  silence it falls without bound, and it wraps after 2^31 cycles.  It is also left as
  it is by a write of the control register, so that after a change to a faster rate
  a byte that comes soon waits for the rest of the slower byte time.

      Prompt            no wrap, and no byte waits as long as the byte time
      RxInv.countdown   the countdown is the byte time last loaded less the cycles since
      acia_rx_prompt    runs are prompt in which no silence passes the byte time by more
                        than 2^31 cycles and no byte comes while more is left of the last
                        byte time than a byte time

  The condition of a run is about its history alone: which byte time was loaded last, and
  how many cycles ago.
-/
import CocoEmulator.Serial.Mc6551

set_option autoImplicit false

namespace CocoEmulator.Serial

open CocoEmulator.Base

/-- `t` is `s` as far as the receiver's pacing goes. -/
structure RxSame (s t : Mc6551) : Prop where
  full : t.rdrf = s.rdrf
  ring : t.rxIn = s.rxIn
  countdown : t.rxCountdown = s.rxCountdown
  rate : t.cyclesPerByte = s.cyclesPerByte

section

variable {s t u : Mc6551}

theorem RxSame.refl (s : Mc6551) : RxSame s s := ⟨rfl, rfl, rfl, rfl⟩

theorem RxSame.trans (h : RxSame s t) (h' : RxSame t u) : RxSame s u where
  full := h'.full.trans h.full
  ring := h'.ring.trans h.ring
  countdown := h'.countdown.trans h.countdown
  rate := h'.rate.trans h.rate

theorem RxSame.waiting (h : RxSame s t) : t.waiting = s.waiting := by
  unfold Mc6551.waiting
  rw [h.full, h.ring]

/-! ## One call -/

theorem txSubmit_rxSame (s : Mc6551) (b : Byte) : RxSame s (s.txSubmit b) := by
  unfold Mc6551.txSubmit
  split <;> exact ⟨rfl, rfl, rfl, rfl⟩

theorem txDone_rxSame (s : Mc6551) : RxSame s s.txDone := by
  have hidle : RxSame s s.lineIdle := ⟨rfl, rfl, rfl, rfl⟩
  rw [s.txDone_eq]
  split
  · exact hidle.trans (txSubmit_rxSame _ _)
  · exact hidle

theorem tickTx_rxSame (s : Mc6551) (cyc : Int) : RxSame s (s.tickTx cyc) := by
  have hcount : RxSame s { s with txCountdown := i32 (s.txCountdown - cyc) } :=
    ⟨rfl, rfl, rfl, rfl⟩
  unfold Mc6551.tickTx
  dsimp only
  split
  · split
    · exact hcount.trans (txDone_rxSame _)
    · exact hcount
  · exact RxSame.refl s

/-- A byte leaves the ring, whether it is stored or dropped. -/
theorem rxTake_spec (s : Mc6551) (b : Byte) (rest : List Byte) :
    (s.rxTake b rest).rdrf = true ∧ (s.rxTake b rest).rxIn = rest ∧
      (s.rxTake b rest).rxCountdown = s.cyclesPerByte ∧
      (s.rxTake b rest).cyclesPerByte = s.cyclesPerByte := by
  rw [s.rxTake_eq]
  split
  · rename_i hfull
    exact ⟨hfull, rfl, rfl, rfl⟩
  · split
    · have hsame := txSubmit_rxSame (s.received b rest) b
      exact ⟨hsame.full, hsame.ring, hsame.countdown, hsame.rate⟩
    · exact ⟨rfl, rfl, rfl, rfl⟩

/-- What a tick did to the receiver: it counted down, or it took a byte. -/
inductive RxTicked (s : Mc6551) (cyc : Int) (t : Mc6551) : Prop
  | counted (rate : t.cyclesPerByte = s.cyclesPerByte) (full : t.rdrf = s.rdrf)
      (ring : t.rxIn = s.rxIn) (countdown : t.rxCountdown = i32 (s.rxCountdown - cyc))
      (idle : t.rxCountdown ≤ 0 → s.rxIn = [])
  | took {b : Byte} (rate : t.cyclesPerByte = s.cyclesPerByte) (full : t.rdrf = true)
      (ring : s.rxIn = b :: t.rxIn) (countdown : t.rxCountdown = s.cyclesPerByte)

theorem tickRx_spec (s : Mc6551) (cyc : Int) : RxTicked s cyc (s.tickRx cyc) := by
  unfold Mc6551.tickRx
  dsimp only
  split
  · split
    · rename_i hempty
      exact .counted rfl rfl rfl rfl fun _ => hempty
    · rename_i b rest hring
      obtain ⟨hfull, hrest, hcount, hrate⟩ :=
        rxTake_spec { s with rxCountdown := i32 (s.rxCountdown - cyc) } b rest
      refine .took (b := b) hrate hfull ?_ hcount
      rw [hrest]
      exact hring
  · rename_i hleft
    exact .counted rfl rfl rfl rfl fun hdue => absurd hdue hleft

theorem rxTicked (s : Mc6551) (cpuCycles : BitVec 32) :
    RxTicked s cpuCycles.toInt (s.tick cpuCycles) := by
  have htx := tickTx_rxSame s cpuCycles.toInt
  cases tickRx_spec (s.tickTx cpuCycles.toInt) cpuCycles.toInt with
  | counted rate full ring countdown idle =>
    rw [htx.rate] at rate
    rw [htx.full] at full
    rw [htx.ring] at ring idle
    rw [htx.countdown] at countdown
    exact .counted rate full ring countdown idle
  | took rate full ring countdown =>
    rw [htx.rate] at rate countdown
    rw [htx.ring] at ring
    exact .took rate full ring countdown

end

/-! ## Sessions -/

/-- The property: the countdown stayed in its range, and a byte that is available while
RDRF is clear has waited for less than the byte time. -/
structure Prompt (s : Session) : Prop where
  inRange : s.overflowed = false
  taken : s.chip.waiting = true → (s.waited : Int) < s.chip.cyclesPerByte

/-- What is left of the byte time last loaded is at most `time`. -/
def Session.Within (s : Session) (time : Int) : Prop := s.loaded ≤ s.since + time

instance (s : Session) (time : Int) : Decidable (s.Within time) :=
  inferInstanceAs (Decidable (_ ≤ _))

/-- The cycles since a byte time was loaded do not pass it by more than 2^31; and where a byte
becomes available with RDRF clear (it arrives, or RDRF is cleared over it), or the rate changes
over such a byte, what is left of the byte time last loaded is at most the present one. -/
def OnTime : Access → Session → Prop
  | .tick cpuCycles, s =>
    0 ≤ cpuCycles.toInt ∧ s.since + cpuCycles.toInt ≤ s.loaded + 2 ^ 31
  | .arrive _, s => s.chip.rdrf = false → s.Within s.chip.cyclesPerByte
  | .read reg, s =>
    decodeReg reg = .data → s.chip.rxIn ≠ [] → s.Within s.chip.cyclesPerByte
  | .write reg val, s =>
    (decodeReg reg = .status → s.chip.rxIn ≠ [] → s.Within s.chip.cyclesPerByte) ∧
      (decodeReg reg = .control → s.chip.waiting = true → s.Within (byteTime (baudOf val)))

instance : (a : Access) → (s : Session) → Decidable (OnTime a s)
  | .tick _, _ => inferInstanceAs (Decidable (_ ∧ _))
  | .arrive _, _ => inferInstanceAs (Decidable (_ → _))
  | .read _, _ => inferInstanceAs (Decidable (_ → _ → _))
  | .write _ _, _ => inferInstanceAs (Decidable ((_ → _ → _) ∧ (_ → _ → _)))

/-- The receiver between two calls: the countdown is the byte time last loaded less the cycles
since, and a byte that has waited is due when it ends, within one byte time of its arrival. -/
structure RxInv (s : Session) : Prop where
  inRange : s.overflowed = false
  rate : ∃ baud, s.chip.cyclesPerByte = byteTime baud
  load : ∃ baud, s.loaded = byteTime baud
  countdown : s.chip.rxCountdown = s.loaded - s.since
  due : s.chip.waiting = true → s.waited = 0 ∧ s.Within s.chip.cyclesPerByte ∨
    0 < s.chip.rxCountdown ∧ s.chip.rxCountdown + s.waited ≤ s.chip.cyclesPerByte

section

variable {s : Session}

theorem RxInv.prompt (h : RxInv s) : Prompt s := by
  refine ⟨h.inRange, fun hwait => ?_⟩
  obtain ⟨baud, hrate⟩ := h.rate
  have hpos := byteTime_pos baud
  rcases h.due hwait with hzero | ⟨hleft, hsum⟩ <;> omega

/-- An access that leaves the countdown and the rate alone, and starts no wait with more left
than a byte time. -/
theorem RxInv.frame (h : RxInv s) {t : Session}
    (hrecord : t.overflowed = s.overflowed ∧ t.loaded = s.loaded ∧ t.since = s.since)
    (hcount : t.chip.rxCountdown = s.chip.rxCountdown)
    (hrate : t.chip.cyclesPerByte = s.chip.cyclesPerByte) (hwaited : t.waited = s.waitedOn)
    (hstart : t.chip.waiting = true → s.chip.waiting = false → s.Within s.chip.cyclesPerByte) :
    RxInv t := by
  obtain ⟨hover, hloaded, hsince⟩ := hrecord
  refine ⟨hover.trans h.inRange, ?_, ?_, ?_, fun hwait => ?_⟩
  · rw [hrate]
    exact h.rate
  · rw [hloaded]
    exact h.load
  · rw [hcount, hloaded, hsince]
    exact h.countdown
  · unfold Session.Within
    rw [hrate, hcount, hwaited, hloaded, hsince]
    unfold Session.waitedOn
    cases hold : s.chip.waiting with
    | true => exact h.due hold
    | false => exact .inl ⟨rfl, hstart hwait hold⟩

/-- A tick on time counts within the range. -/
theorem RxInv.tick_fits (h : RxInv s) {cpuCycles : BitVec 32} (hc : OnTime (.tick cpuCycles) s) :
    FitsI32 (s.chip.rxCountdown - cpuCycles.toInt) := by
  obtain ⟨hpos, hlow⟩ := hc
  obtain ⟨baud, hload⟩ := h.load
  have hcountdown := h.countdown
  have hle := byteTime_le baud
  unfold FitsI32
  omega

theorem toNat_cycles {cpuCycles : BitVec 32} (hpos : 0 ≤ cpuCycles.toInt) :
    (cpuCycles.toNat : Int) = cpuCycles.toInt := by
  have hlt := cpuCycles.isLt
  rw [BitVec.toInt_eq_toNat_cond] at hpos ⊢
  split at hpos <;> omega

theorem RxInv.tick (h : RxInv s) {cpuCycles : BitVec 32}
    (hc : OnTime (.tick cpuCycles) s) : RxInv (s.tick cpuCycles) := by
  have hcountdown := h.countdown
  have hfits := h.tick_fits hc
  have hnat := toNat_cycles hc.1
  have hover : (s.tick cpuCycles).overflowed = false := by
    simp only [Session.tick, h.inRange, hfits, decide_true, Bool.not_true, Bool.or_false]
  cases rxTicked s.chip cpuCycles with
  | counted rate full ring countdown idle =>
    rw [i32_of_fits hfits] at countdown
    have hwaiting : (s.tick cpuCycles).chip.waiting = s.chip.waiting := by
      simp only [Session.tick, Mc6551.waiting, full, ring]
    obtain ⟨hloaded, hsince⟩ : (s.tick cpuCycles).loaded = s.loaded ∧
        (s.tick cpuCycles).since = s.since + cpuCycles.toNat := by
      simp only [Session.tick, ring, beq_self_eq_true, if_true, and_self]
    have hleft : (s.tick cpuCycles).chip.rxCountdown = s.chip.rxCountdown - cpuCycles.toInt :=
      countdown
    refine ⟨hover, ?_, ?_, ?_, fun hwait => .inr ?_⟩
    · simp only [Session.tick, rate]
      exact h.rate
    · rw [hloaded]
      exact h.load
    · rw [hleft, hloaded, hsince]
      omega
    · rw [hwaiting] at hwait
      -- with nothing left the byte would have been taken
      have hnonzero : 0 < s.chip.rxCountdown - cpuCycles.toInt := by
        by_contra hdue
        have hempty := idle (by rw [countdown]; exact Int.not_lt.mp hdue)
        simp [Mc6551.waiting, hempty] at hwait
      have hwaited : (s.tick cpuCycles).waited = s.waited + cpuCycles.toNat := by
        simp only [Session.tick, hwait, ring, beq_self_eq_true, Bool.and_self, if_true]
      have hrate : (s.tick cpuCycles).chip.cyclesPerByte = s.chip.cyclesPerByte := rate
      have hdue := h.due hwait
      unfold Session.Within at hdue
      rw [hleft, hrate, hwaited]
      omega
  | @took b rate full ring countdown =>
    have hleaves : ((s.chip.tick cpuCycles).rxIn == s.chip.rxIn) = false := by
      rw [beq_eq_false_iff_ne, ring]
      exact fun heq => absurd (congrArg List.length heq) (by simp)
    obtain ⟨hloaded, hsince⟩ : (s.tick cpuCycles).loaded = s.chip.cyclesPerByte ∧
        (s.tick cpuCycles).since = 0 := by
      simp only [Session.tick, hleaves, Bool.false_eq_true, if_false, and_self]
    obtain ⟨baud', hrate⟩ := h.rate
    have hleft : (s.tick cpuCycles).chip.rxCountdown = s.chip.cyclesPerByte := countdown
    refine ⟨hover, ⟨baud', rate.trans hrate⟩, ⟨baud', hloaded.trans hrate⟩, ?_, fun hwait => ?_⟩
    · rw [hleft, hloaded, hsince]
      exact (Int.sub_zero _).symm
    · simp [Session.tick, Mc6551.waiting, full] at hwait

theorem RxInv.arrive (h : RxInv s) {b : Byte} (hc : OnTime (.arrive b) s) :
    RxInv (s.arrive b) := by
  refine h.frame ⟨rfl, rfl, rfl⟩ rfl rfl rfl fun hwait _ => hc ?_
  unfold Mc6551.waiting at hwait
  rw [Bool.and_eq_true] at hwait
  exact (Bool.not_eq_true' _).mp hwait.1

theorem waiting_ring {c : Mc6551} (h : c.waiting = true) : c.rxIn ≠ [] := by
  intro hempty
  simp [Mc6551.waiting, hempty] at h

theorem RxInv.read (h : RxInv s) {reg : Byte} (hc : OnTime (.read reg) s) : RxInv (s.read reg) := by
  have hchip : (s.read reg).chip = (s.chip.read reg).2 := rfl
  cases hdec : decodeReg reg with
  | data =>
    obtain ⟨hring, hcount, hrate⟩ : (s.read reg).chip.rxIn = s.chip.rxIn ∧
        (s.read reg).chip.rxCountdown = s.chip.rxCountdown ∧
        (s.read reg).chip.cyclesPerByte = s.chip.cyclesPerByte := by
      rw [hchip]
      unfold Mc6551.read
      rw [hdec]
      exact ⟨rfl, rfl, rfl⟩
    refine h.frame ⟨rfl, rfl, rfl⟩ hcount hrate rfl fun hwait _ => hc hdec ?_
    rw [← hring]
    exact waiting_ring hwait
  | status | command | control =>
    -- the other registers leave the receiver alone
    have hsame : RxSame s.chip (s.read reg).chip := by
      rw [hchip]
      unfold Mc6551.read
      rw [hdec]
      exact ⟨rfl, rfl, rfl, rfl⟩
    refine h.frame ⟨rfl, rfl, rfl⟩ hsame.countdown hsame.rate rfl fun hwait hold => ?_
    rw [hsame.waiting, hold] at hwait
    exact absurd hwait Bool.false_ne_true

/-- A write of the data or the command register leaves the receiver alone. -/
theorem write_rxSame {c : Mc6551} {reg : Byte} (hstatus : decodeReg reg ≠ .status)
    (hcontrol : decodeReg reg ≠ .control) (val : Byte) : RxSame c (c.write reg val) := by
  unfold Mc6551.write
  cases hdec : decodeReg reg with
  | data => exact txSubmit_rxSame c val
  | status => exact absurd hdec hstatus
  | command => exact ⟨rfl, rfl, rfl, rfl⟩
  | control => exact absurd hdec hcontrol

theorem write_record (s : Session) (reg val : Byte) :
    (s.write reg val).overflowed = s.overflowed ∧ (s.write reg val).loaded = s.loaded ∧
      (s.write reg val).since = s.since ∧
      (s.write reg val).waited = if decodeReg reg = .control then 0 else s.waitedOn := by
  unfold Session.write
  cases decodeReg reg <;> exact ⟨rfl, rfl, rfl, rfl⟩

theorem RxInv.write (h : RxInv s) {reg val : Byte} (hc : OnTime (.write reg val) s) :
    RxInv (s.write reg val) := by
  obtain ⟨hover, hloaded, hsince, hwaited⟩ := write_record s reg val
  have hchip := s.write_chip reg val
  cases hdec : decodeReg reg with
  | status =>
    rw [hdec] at hwaited
    have hwrite : (s.chip.write reg val).rxCountdown = s.chip.rxCountdown ∧
        (s.chip.write reg val).cyclesPerByte = s.chip.cyclesPerByte ∧
        (s.chip.write reg val).rxIn = s.chip.rxIn := by
      unfold Mc6551.write
      rw [hdec]
      exact ⟨rfl, rfl, rfl⟩
    rw [← hchip] at hwrite
    refine h.frame ⟨hover, hloaded, hsince⟩ hwrite.1 hwrite.2.1 hwaited fun hwait _ => hc.1 hdec ?_
    rw [← hwrite.2.2]
    exact waiting_ring hwait
  | control =>
    rw [hdec, if_pos rfl] at hwaited
    have hwrite : (s.chip.write reg val).rxCountdown = s.chip.rxCountdown ∧
        (s.chip.write reg val).cyclesPerByte = byteTime (baudOf val) ∧
        (s.chip.write reg val).waiting = s.chip.waiting := by
      unfold Mc6551.write
      rw [hdec]
      exact ⟨rfl, rfl, rfl⟩
    rw [← hchip] at hwrite
    obtain ⟨hcount, hrate, hwaiting⟩ := hwrite
    refine ⟨hover.trans h.inRange, ⟨_, hrate⟩, ?_, ?_, fun hwait => .inl ⟨hwaited, ?_⟩⟩
    · rw [hloaded]
      exact h.load
    · rw [hcount, hloaded, hsince]
      exact h.countdown
    · have hwithin := hc.2 hdec (hwaiting.symm.trans hwait)
      unfold Session.Within at hwithin ⊢
      rw [hloaded, hsince, hrate]
      exact hwithin
  | data | command =>
    have hsame : RxSame s.chip (s.write reg val).chip := by
      rw [hchip]
      exact write_rxSame (by rw [hdec]; decide) (by rw [hdec]; decide) val
    rw [hdec] at hwaited
    refine h.frame ⟨hover, hloaded, hsince⟩ hsame.countdown hsame.rate hwaited fun hwait hold => ?_
    rw [hsame.waiting, hold] at hwait
    exact absurd hwait Bool.false_ne_true

/-- The step lemma. -/
theorem RxInv.step (h : RxInv s) {a : Access} (ha : OnTime a s) : RxInv (a.step s) := by
  cases a with
  | read reg => exact h.read ha
  | write reg val => exact h.write ha
  | tick cpuCycles => exact h.tick ha
  | arrive b => exact h.arrive ha

end

/-- A tick with nothing to send and nothing to take only counts. -/
theorem tick_silent {c : Mc6551} (htx : c.txBusy = false) (hring : c.rxIn = [])
    (cpuCycles : BitVec 32) :
    c.tick cpuCycles = { c with rxCountdown := i32 (c.rxCountdown - cpuCycles.toInt) } := by
  have hdone : c.tickTx cpuCycles.toInt = c := by
    unfold Mc6551.tickTx
    rw [htx]
    rfl
  unfold Mc6551.tick
  rw [hdone]
  unfold Mc6551.tickRx
  dsimp only
  rw [hring]
  split <;> rfl

/-- The session after a silence of `since` cycles that left the countdown at `count`. -/
def silentAt (count : Int) (overflowed : Bool) (since : Nat) : Session :=
  { chip := { Session.start.chip with rxCountdown := count }, overflowed, since }

theorem silentAt_tick (count : Int) (overflowed : Bool) (since : Nat) :
    (silentAt count overflowed since).tick 57 =
      silentAt (i32 (count - 57)) (overflowed || !decide (FitsI32 (count - 57))) (since + 57) := by
  unfold Session.tick
  rw [tick_silent rfl rfl]
  rfl

/-- `n` scanlines of 57 cycles after the reset, while the countdown keeps its range. -/
theorem silence {n : Nat} (hn : 57 * n ≤ 2 ^ 31 + 1) :
    runAll Access.step (List.replicate n (.tick 57)) .start =
      silentAt (1 - 57 * n) false (57 * n) := by
  induction n with
  | zero => rfl
  | succ n ih =>
    have hfits : FitsI32 (1 - 57 * (n : Int) - 57) := by
      unfold FitsI32
      omega
    have hcount : (1 : Int) - 57 * (n : Int) - 57 = 1 - 57 * (n + 1 : Nat) := by omega
    rw [List.replicate_succ', runAll_append, ih (by omega)]
    refine (silentAt_tick _ _ _).trans ?_
    rw [i32_of_fits hfits, decide_eq_true hfits, hcount]
    rfl

end CocoEmulator.Serial
