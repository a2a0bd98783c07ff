/-
  Sound/TmsBudget.lean --- the cycles that `Execute` of the TMS7040 runs.

  An instruction takes from 5 to 49 cycles, and an interrupt 19 more.  An entry clears
  the I bit, and what sets it again is short: with 19 cycles put aside while the bit is
  set (`slack`), no instruction takes more than 49, whatever interrupts come.

      executeOne_costs    an instruction
      execute_overshoots  a run takes what it was asked for and less than 68 cycles more

  Source: tms7000.cpp.
-/
import CocoEmulator.Sound.TmsExec
import CocoEmulator.Sound.SscEngine

set_option autoImplicit false

namespace CocoEmulator.Sound

open CocoEmulator.Base

namespace Tms7000

/-- Are interrupts enabled? -/
def enabled (c : Tms7000) : Bool := c.sr.getLsbD 4

/-- The cycles put aside for an interrupt. -/
def reserve (c : Tms7000) : Int := if c.enabled = true then 19 else 0

end Tms7000

namespace Board

variable {π : Type}

/-- What is left of the cycles, less the reserve. -/
def slack (b : Board π) : Int := b.cpu.icount - b.cpu.reserve

/-- What a run has used. -/
def used (b : Board π) : Int := -b.cpu.icount

end Board

/-- A property of the interrupt lines and the rest of the cartridge. -/
abbrev Wired (π : Type) : Type := (Tms7000Irq → Bool) → π → Prop

/-- It holds of a board. -/
def Board.Holds {π : Type} (Q : Wired π) (b : Board π) : Prop := Q b.cpu.irqState b.bus

/-- What a port does: it changes neither the cycles nor the status register, and keeps `Q`. -/
structure Silent {π : Type} (Q : Wired π) (f : Board π → Board π) : Prop where
  icount : ∀ b, (f b).cpu.icount = b.cpu.icount
  sr : ∀ b, (f b).cpu.sr = b.cpu.sr
  keeps : ∀ b, b.Holds Q → (f b).Holds Q

structure BusPorts.Silent {π : Type} (Q : Wired π) (ports : BusPorts π) : Prop where
  portaRead : Sound.Silent Q fun b => (ports.portaRead b).2
  portbWrite : ∀ data, Sound.Silent Q (ports.portbWrite data)
  portcRead : Sound.Silent Q fun b => (ports.portcRead b).2
  portcWrite : ∀ data, Sound.Silent Q (ports.portcWrite data)
  portdRead : Sound.Silent Q fun b => (ports.portdRead b).2
  portdWrite : ∀ data, Sound.Silent Q (ports.portdWrite data)

/-! ## The processor -/

namespace Tms7000

/-- A change that leaves the cycles, the I bit and the lines as they are. -/
def Neutral (f : Tms7000 → Tms7000) : Prop :=
  ∀ c, (f c).icount = c.icount ∧ (f c).enabled = c.enabled ∧ (f c).irqState = c.irqState

theorem Neutral.comp {f g : Tms7000 → Tms7000} (hf : Neutral f) (hg : Neutral g) :
    Neutral fun c => g (f c) := by
  intro c
  obtain ⟨hicount, henabled, hlines⟩ := hf c
  obtain ⟨hicount', henabled', hlines'⟩ := hg (f c)
  exact ⟨hicount'.trans hicount, henabled'.trans henabled, hlines'.trans hlines⟩

theorem Neutral.ite {p : Tms7000 → Prop} [DecidablePred p] {f g : Tms7000 → Tms7000}
    (hf : Neutral f) (hg : Neutral g) : Neutral fun c => if p c then f c else g c := by
  intro c
  dsimp only
  split
  · exact hf c
  · exact hg c

theorem neutral_id : Neutral fun c => c := fun _ => ⟨rfl, rfl, rfl⟩

theorem neutral_writeR8 (r v : Byte) : Neutral (writeR8 · r v) :=
  .ite (p := fun _ => r < 0x80) (fun _ => ⟨rfl, rfl, rfl⟩) neutral_id

theorem neutral_writeR16 (r : Byte) (v : Word) : Neutral (writeR16 · r v) :=
  (neutral_writeR8 _ _).comp (neutral_writeR8 _ _)

theorem neutral_push8 (v : Byte) : Neutral (push8 · v) := by
  intro c
  exact neutral_writeR8 (c.sp + 1) v { c with sp := c.sp + 1 }

theorem neutral_push16 (v : Word) : Neutral (push16 · v) :=
  (neutral_push8 _).comp (neutral_push8 _)

theorem neutral_flagExtInterrupt (line : Tms7000Irq) : Neutral (flagExtInterrupt · line) :=
  .ite (fun _ => ⟨rfl, rfl, rfl⟩) fun _ => ⟨rfl, rfl, rfl⟩

theorem neutral_takeFlag (irqline : Nat) : Neutral (takeFlag · irqline) := by
  have hfall : Neutral fun c =>
      { c with ioControl := c.ioControl &&& ~~~((0x02 : Byte) <<< (irqline * 2)) } :=
    fun _ => ⟨rfl, rfl, rfl⟩
  have hline : Neutral fun c => if irqline = 0 then c.flagExtInterrupt .int1
      else if irqline = 2 then c.flagExtInterrupt .int3 else c :=
    .ite (p := fun _ => irqline = 0) (neutral_flagExtInterrupt .int1)
      (.ite (p := fun _ => irqline = 2) (neutral_flagExtInterrupt .int3) neutral_id)
  exact hfall.comp hline

theorem neutral_timerReload : Neutral timerReload := by
  have hrun : Neutral timerRun := by
    intro c
    unfold timerRun
    dsimp only
    split
    · exact ⟨rfl, rfl, rfl⟩
    · exact ⟨rfl, rfl, rfl⟩
  intro c
  unfold timerReload
  dsimp only
  split
  · exact hrun _
  · exact ⟨rfl, rfl, rfl⟩

/-- What the flags of a result leave of the status register. -/
theorem neutral_setC (x : Word) : Neutral (setC · x) := by
  intro c
  refine ⟨rfl, ?_, rfl⟩
  simp [enabled, setC]

theorem neutral_setNz (x : Word) : Neutral (setNz · x) := by
  intro c
  refine ⟨rfl, ?_, rfl⟩
  unfold enabled setNz
  dsimp only
  split <;> simp

theorem neutral_setCnz (x : Word) : Neutral (setCnz · x) := by
  intro c
  refine ⟨rfl, ?_, rfl⟩
  unfold enabled setCnz
  dsimp only
  split <;> simp

/-- A change that takes nothing from either potential, and leaves the lines as they are. -/
def Thrifty (f : Tms7000 → Tms7000) : Prop :=
  ∀ c, (f c).icount ≤ c.icount ∧ c.icount - c.reserve ≤ (f c).icount - (f c).reserve ∧
    (f c).irqState = c.irqState

theorem Neutral.thrifty {f : Tms7000 → Tms7000} (hf : Neutral f) : Thrifty f := by
  intro c
  obtain ⟨hicount, henabled, hlines⟩ := hf c
  unfold reserve
  rw [hicount, henabled]
  exact ⟨Int.le_refl _, Int.le_refl _, hlines⟩

theorem Thrifty.comp {f g : Tms7000 → Tms7000} (hf : Thrifty f) (hg : Thrifty g) :
    Thrifty fun c => g (f c) := by
  intro c
  obtain ⟨hicount, hslack, hlines⟩ := hf c
  obtain ⟨hicount', hslack', hlines'⟩ := hg (f c)
  exact ⟨hicount'.trans hicount, hslack.trans hslack', hlines'.trans hlines⟩

/-- The entry of an interrupt uses the reserve. -/
theorem doInterrupt_spends (c : Tms7000) (irqline : Nat) :
    c.icount - 19 ≤ (c.doInterrupt irqline).icount ∧
      (c.doInterrupt irqline).icount ≤ c.icount ∧
      (c.doInterrupt irqline).enabled = false ∧
      (c.doInterrupt irqline).irqState = c.irqState := by
  have henter (c : Tms7000) : (c.enterInterrupt irqline).icount = c.icount ∧
      (c.enterInterrupt irqline).enabled = false ∧
      (c.enterInterrupt irqline).irqState = c.irqState := by
    have hpushed : (c.enterInterrupt irqline).icount = ((c.push8 c.sr).push16 c.pc).icount := by
      simp only [enterInterrupt]
    have hpc : ((c.push8 c.sr).push16 c.pc).icount = (c.push8 c.sr).icount :=
      (neutral_push16 c.pc (c.push8 c.sr)).1
    have hsr : (c.push8 c.sr).icount = c.icount := (neutral_push8 c.sr c).1
    have hoff : (c.enterInterrupt irqline).sr = 0 := by simp only [enterInterrupt]
    have hlines : (c.enterInterrupt irqline).irqState = ((c.push8 c.sr).push16 c.pc).irqState := by
      simp only [enterInterrupt]
    have hkept : ((c.push8 c.sr).push16 c.pc).irqState = c.irqState :=
      (neutral_push16 c.pc (c.push8 c.sr)).2.2.trans (neutral_push8 c.sr c).2.2
    refine ⟨hpushed.trans (hpc.trans hsr), ?_, hlines.trans hkept⟩
    unfold enabled
    rw [hoff]
    rfl
  have hwake : c.wake.icount = c.icount - 17 := rfl
  have hspend : (c.spend 19).icount = c.icount - 19 := rfl
  unfold doInterrupt
  split
  · rw [(henter c.wake).1, hwake]
    exact ⟨by omega, by omega, (henter c.wake).2⟩
  · rw [(henter (c.spend 19)).1, hspend]
    exact ⟨by omega, by omega, (henter (c.spend 19)).2⟩

theorem enabled_iff (c : Tms7000) : c.enabled = false ↔ c.sr &&& srI = 0 := by
  have hbit : c.sr &&& BitVec.twoPow 8 4 = if c.sr.getLsbD 4 = true then BitVec.twoPow 8 4 else 0 :=
    BitVec.and_twoPow c.sr 4
  have htwo : BitVec.twoPow 8 4 = srI := rfl
  unfold enabled
  rw [htwo] at hbit
  rw [hbit]
  cases c.sr.getLsbD 4 with
  | false => simp
  | true => simp [srI]

theorem thrifty_checkInterrupts : Thrifty checkInterrupts := by
  have htake (c : Tms7000) (irqline : Nat) (henabled : c.enabled = true) :
      ((c.takeFlag irqline).doInterrupt irqline).icount ≤ c.icount ∧
        c.icount - c.reserve ≤ ((c.takeFlag irqline).doInterrupt irqline).icount -
          ((c.takeFlag irqline).doInterrupt irqline).reserve ∧
        ((c.takeFlag irqline).doInterrupt irqline).irqState = c.irqState := by
    obtain ⟨hle, hge, hoff, hlines⟩ := doInterrupt_spends (c.takeFlag irqline) irqline
    have hflag : (c.takeFlag irqline).icount = c.icount := (neutral_takeFlag irqline c).1
    have hkept : (c.takeFlag irqline).irqState = c.irqState := (neutral_takeFlag irqline c).2.2
    have hfull : c.reserve = 19 := if_pos henabled
    have hempty : ((c.takeFlag irqline).doInterrupt irqline).reserve = 0 := by
      unfold reserve
      rw [hoff]
      rfl
    exact ⟨by omega, by omega, hlines.trans hkept⟩
  intro c
  unfold checkInterrupts
  by_cases hoff : c.sr &&& srI = 0
  · rw [if_pos hoff]
    exact neutral_id.thrifty c
  have henabled : c.enabled = true := by
    rw [← Bool.not_eq_false]
    exact fun h => hoff ((enabled_iff c).mp h)
  rw [if_neg hoff]
  split
  · exact htake c 0 henabled
  split
  · exact htake c 1 henabled
  split
  · exact htake c 2 henabled
  · exact neutral_id.thrifty c

theorem thrifty_timerTickLow : Thrifty timerTickLow := by
  have hcount : Neutral fun c => { c with timerDecrementer := c.timerDecrementer - 1 } :=
    fun _ => ⟨rfl, rfl, rfl⟩
  have hflag : Neutral fun c => { c with ioControl := c.ioControl ||| 0x08 } :=
    fun _ => ⟨rfl, rfl, rfl⟩
  have hexpired := (neutral_timerReload.comp hflag).thrifty.comp thrifty_checkInterrupts
  intro c
  unfold timerTickLow
  dsimp only
  split
  · exact (hcount.thrifty.comp hexpired) c
  · exact hcount.thrifty c

theorem thrifty_tickLoop (n : Nat) : Thrifty (tickLoop n) := by
  induction n with
  | zero => exact neutral_id.thrifty
  | succ n ih =>
    intro c
    unfold tickLoop
    split
    · dsimp only
      split
      · have hadd : Neutral fun c : Tms7000 =>
            { c with timerTicksRemaining := c.timerTicksRemaining + c.timerPeriod } :=
          fun _ => ⟨rfl, rfl, rfl⟩
        exact (thrifty_timerTickLow.comp (hadd.thrifty.comp ih)) c
      · exact (thrifty_timerTickLow.comp ih) c
    · exact neutral_id.thrifty c

theorem thrifty_tickTimers (elapsed : Tms7000 → Int) :
    Thrifty fun c => c.tickTimers (elapsed c) := by
  intro c
  unfold tickTimers
  dsimp only
  split
  · exact thrifty_tickLoop _ { c with timerTicksRemaining := c.timerTicksRemaining - elapsed c }
  · exact neutral_id.thrifty c

/-! ### The timer -/

/-- What the loop of the timer looks at. -/
def timer (c : Tms7000) : Int × Bool × Nat :=
  (c.timerTicksRemaining, c.timerRunning, c.timerPrescaler)

end Tms7000

/-! ## Programs -/

open Tms7000 (Neutral Thrifty)

variable {π α β : Type} {Q : Wired π}

/-- The program takes at least `lo` cycles, and at most `hi` with the reserve; it keeps `Q`. -/
structure Costs (Q : Wired π) (lo hi : Int) (m : Tms π α) : Prop where
  least : Lowers Board.used (-lo) m
  most : Lowers Board.slack hi m
  keeps : ∀ b, b.Holds Q → (m b).2.Holds Q

namespace Costs

variable {lo hi lo' hi' lo'' hi'' : Int}

theorem mono {m : Tms π α} (h : Costs Q lo hi m) (hlo : lo' ≤ lo) (hhi : hi ≤ hi') :
    Costs Q lo' hi' m :=
  ⟨h.least.mono (by omega), h.most.mono hhi, h.keeps⟩

theorem pure (a : α) : Costs Q 0 0 (Pure.pure a : Tms π α) := ⟨.pure a, .pure a, fun _ hb => hb⟩

theorem seq {m : Tms π α} {f : α → Tms π β} (h : Costs Q lo hi m)
    (h' : ∀ a, Costs Q lo' hi' (f a)) (hlo : lo'' ≤ lo + lo') (hhi : hi + hi' ≤ hi'') :
    Costs Q lo'' hi'' (m >>= f) := by
  refine ⟨h.least.seq (fun a => (h' a).least) (by omega), h.most.seq (fun a => (h' a).most) hhi, ?_⟩
  intro b hb
  exact (h' (m b).1).keeps (m b).2 (h.keeps b hb)

/-- A first part that takes nothing. -/
theorem free {m : Tms π α} {f : α → Tms π β} (h : Costs Q 0 0 m)
    (h' : ∀ a, Costs Q lo hi (f a)) : Costs Q lo hi (m >>= f) :=
  h.seq h' (by omega) (by omega)

theorem ite {p : Prop} [Decidable p] {m m' : Tms π α} (h : Costs Q lo hi m)
    (h' : Costs Q lo hi m') : Costs Q lo hi (if p then m else m') := by
  split
  · exact h
  · exact h'

theorem thrifty {f : Tms7000 → Tms7000} (hf : Thrifty f) : Costs Q 0 0 (Tms.onCpu f) := by
  refine ⟨?_, ?_, ?_⟩
  · intro b
    have hle : (f b.cpu).icount ≤ b.cpu.icount := (hf b.cpu).1
    change -b.cpu.icount ≤ -(f b.cpu).icount + -0
    omega
  · intro b
    have hle := (hf b.cpu).2.1
    change b.cpu.icount - b.cpu.reserve ≤ (f b.cpu).icount - (f b.cpu).reserve + 0
    omega
  · intro b hb
    have hlines := (hf b.cpu).2.2
    change Q (f b.cpu).irqState b.bus
    rw [hlines]
    exact hb

theorem onCpu {f : Tms7000 → Tms7000} (hf : Neutral f) : Costs Q 0 0 (Tms.onCpu f) :=
  thrifty hf.thrifty

theorem fromCpu {f : Tms7000 → α × Tms7000} (hf : Neutral fun c => (f c).2) :
    Costs Q 0 0 (Tms.fromCpu f) :=
  let h : Costs Q 0 0 (Tms.onCpu fun c => (f c).2) := onCpu hf
  ⟨h.least, h.most, h.keeps⟩

/-- A look at the processor. -/
theorem look (f : Tms7000 → α) : Costs Q 0 0 (f <$> Tms.cpu) := by
  have hb (b : Board π) : ((f <$> Tms.cpu) b).2 = b := rfl
  refine ⟨?_, ?_, fun _ hb => hb⟩
  · intro b
    rw [hb]
    omega
  · intro b
    rw [hb]
    omega

theorem cpu : Costs Q 0 0 Tms.cpu := look id

theorem silent {f : Board π → α × Board π} (hf : Silent Q fun b => (f b).2) :
    Costs Q 0 0 (modifyGet f : Tms π α) := by
  have hicount (b : Board π) : (f b).2.cpu.icount = b.cpu.icount := hf.icount b
  have hreserve (b : Board π) : (f b).2.cpu.reserve = b.cpu.reserve := by
    unfold Tms7000.reserve Tms7000.enabled
    rw [hf.sr b]
  refine ⟨?_, ?_, hf.keeps⟩
  · intro b
    change -b.cpu.icount ≤ -(f b).2.cpu.icount + -0
    rw [hicount]
    omega
  · intro b
    change b.cpu.icount - b.cpu.reserve ≤ (f b).2.cpu.icount - (f b).2.cpu.reserve + 0
    rw [hicount, hreserve]
    omega

theorem spend {n : Int} : Costs Q n n (Tms.spend n) := by
  refine ⟨?_, ?_, fun _ hb => hb⟩
  · intro b
    change -b.cpu.icount ≤ -(b.cpu.icount - n) + -n
    omega
  · intro b
    change b.cpu.icount - b.cpu.reserve ≤ b.cpu.icount - n - b.cpu.reserve + n
    omega

/-- A program that takes nothing but what it begins with. -/
theorem only {n : Int} {f : Unit → Tms π α} (h : ∀ a, Costs Q 0 0 (f a)) (hlo : lo ≤ n)
    (hhi : n ≤ hi) : Costs Q lo hi (Tms.spend n >>= f) :=
  spend.seq h (by omega) (by omega)

/-- A change of the status register may have to put the reserve aside. -/
theorem setSr (f : Byte → Byte) : Costs Q 0 19 (Tms.setSr f) := by
  refine ⟨?_, ?_, fun _ hb => hb⟩
  · intro b
    change -b.cpu.icount ≤ -b.cpu.icount + -0
    omega
  · intro b
    have hnone : 0 ≤ b.cpu.reserve := by
      unfold Tms7000.reserve
      split <;> omega
    have hall : { b.cpu with sr := f b.cpu.sr }.reserve ≤ 19 := by
      unfold Tms7000.reserve
      split <;> omega
    change b.cpu.icount - b.cpu.reserve ≤
      b.cpu.icount - { b.cpu with sr := f b.cpu.sr }.reserve + 19
    omega

end Costs

namespace Tms

variable {lo hi : Int}

theorem readR8_costs (r : Byte) : Costs Q 0 0 (readR8 r) := .look _

theorem writeR8_costs (r v : Byte) : Costs Q 0 0 (writeR8 r v) :=
  .onCpu (Tms7000.neutral_writeR8 r v)

theorem readR16_costs (r : Byte) : Costs Q 0 0 (readR16 r) := .look _

theorem writeR16_costs (r : Byte) (v : Word) : Costs Q 0 0 (writeR16 r v) :=
  .onCpu (Tms7000.neutral_writeR16 r v)

theorem push8_costs (v : Byte) : Costs Q 0 0 (push8 v) :=
  .onCpu (Tms7000.neutral_push8 v)

theorem pushPc_costs : Costs Q 0 0 (pushPc) :=
  .onCpu fun c => Tms7000.neutral_push16 c.pc c

theorem pull8_costs : Costs Q 0 0 (pull8) := .fromCpu fun _ => ⟨rfl, rfl, rfl⟩

theorem pull16_costs : Costs Q 0 0 (pull16) := .fromCpu fun _ => ⟨rfl, rfl, rfl⟩

theorem setC_costs (x : Word) : Costs Q 0 0 (setC x) := .onCpu (Tms7000.neutral_setC x)

theorem setNz_costs (x : Word) : Costs Q 0 0 (setNz x) :=
  .onCpu (Tms7000.neutral_setNz x)

theorem setCnz_costs (x : Word) : Costs Q 0 0 (setCnz x) :=
  .onCpu (Tms7000.neutral_setCnz x)

theorem getC_costs : Costs Q 0 0 (getC) := .look _

theorem checkInterrupts_costs : Costs Q 0 0 (checkInterrupts) :=
  .thrifty Tms7000.thrifty_checkInterrupts

theorem setPc_costs (t : Word) : Costs Q 0 0 (setPc t) := .onCpu fun _ => ⟨rfl, rfl, rfl⟩

theorem latch_costs (port : BitVec 2) (data : Byte) : Costs Q 0 0 (latch port data) :=
  .onCpu fun _ => ⟨rfl, rfl, rfl⟩

theorem setDdr_costs (port : BitVec 2) (data : Byte) : Costs Q 0 0 (setDdr port data) :=
  .onCpu fun _ => ⟨rfl, rfl, rfl⟩

section

variable {ports : BusPorts π} (hports : ports.Silent Q)

include hports

theorem readP_costs (offset : Byte) : Costs Q 0 0 (readP ports offset) := by
  unfold readP
  split
  · exact .look _
  · exact .look _
  · exact .look _
  · exact .silent hports.portaRead
  · exact .look _
  · exact .free (.silent hports.portcRead) fun _ => .free .cpu fun _ => .pure _
  · exact .look _
  · exact .free (.silent hports.portdRead) fun _ => .free .cpu fun _ => .pure _
  · exact .look _
  · exact .pure _

omit hports in
theorem silent_modify {f : Board π → Board π} (hf : Silent Q f) :
    Costs Q 0 0 (modify f : Tms π Unit) := .silent (f := fun b => ((), f b)) hf

omit hports in
theorem writeIoControl_costs (data : Byte) : Costs Q 0 0 (writeIoControl data) := by
  refine .free (.onCpu fun _ => ⟨rfl, rfl, rfl⟩) fun _ => ?_
  refine .free (.onCpu ?_) fun _ => .free (.onCpu ?_) fun _ => checkInterrupts_costs
  · exact .ite (p := fun _ => data &&& 0x02 ≠ 0) (Tms7000.neutral_flagExtInterrupt .int1)
      Tms7000.neutral_id
  · exact .ite (p := fun _ => data &&& 0x20 ≠ 0) (Tms7000.neutral_flagExtInterrupt .int3)
      Tms7000.neutral_id

theorem writeP_costs (offset data : Byte) : Costs Q 0 0 (writeP ports offset data) := by
  unfold writeP
  split
  · exact writeIoControl_costs data
  · exact .onCpu fun _ => ⟨rfl, rfl, rfl⟩
  · exact .onCpu fun c => Tms7000.neutral_timerReload { c with timerControl := data }
  · exact .free (silent_modify (hports.portbWrite _)) fun _ => latch_costs 1 _
  · exact .free .cpu fun _ =>
      .free (silent_modify (hports.portcWrite _)) fun _ => latch_costs 2 _
  · exact setDdr_costs 2 _
  · exact .free .cpu fun _ =>
      .free (silent_modify (hports.portdWrite _)) fun _ => latch_costs 3 _
  · exact setDdr_costs 3 _
  · exact .pure _

theorem read8_costs (address : Word) : Costs Q 0 0 (read8 ports address) :=
  .ite (.look _) <| .ite (.pure _) <| .ite (readP_costs hports _) <| .ite (.look _) (.pure _)

theorem write8_costs (address : Word) (data : Byte) : Costs Q 0 0 (write8 ports address data) :=
  .ite (.onCpu fun _ => ⟨rfl, rfl, rfl⟩) <| .ite (.pure _) <| .ite (writeP_costs hports _ _) (.pure _)

theorem fetch8_costs (address : Word) : Costs Q 0 0 (fetch8 ports address) :=
  .ite (.look _) (read8_costs hports _)

theorem imm8_costs : Costs Q 0 0 (imm8 ports) :=
  .free (.fromCpu fun _ => ⟨rfl, rfl, rfl⟩) fun _ => fetch8_costs hports _

theorem imm16_costs : Costs Q 0 0 (imm16 ports) :=
  .free (imm8_costs hports) fun _ => .free (imm8_costs hports) fun _ => .pure _

/-! ## Operations -/

/-- An operation takes at most `hi` cycles. -/
def OpCosts (Q : Wired π) (hi : Int) (op : Op π) : Prop := ∀ p1 p2, Costs Q 0 hi (op p1 p2)

omit hports

theorem flagged_costs (t : Word) : Costs Q 0 0 (flagged t) :=
  .free (setCnz_costs t) fun _ => .pure _

theorem borrowed_costs (t : Word) : Costs Q 0 0 (borrowed t) :=
  .free (setNz_costs t) fun _ => .free (setC_costs _) fun _ => .pure _

theorem opSwap_costs : OpCosts Q 3 (opSwap) :=
  fun _ _ => .only (fun _ => flagged_costs _) (by decide) (Int.le_refl 3)

theorem opXchb_costs : OpCosts Q 1 (opXchb) := by
  intro p1 p2
  refine .only (fun _ => ?_) (by decide) (Int.le_refl 1)
  exact .free (readR8_costs 1) fun _ => .free (setCnz_costs _) fun _ =>
    .free (writeR8_costs 1 p1) fun _ => .pure _

theorem opCmp_costs : OpCosts Q 0 (opCmp) :=
  fun _ _ => .free (setNz_costs _) fun _ => .free (setC_costs _) fun _ => .pure _

theorem opMpy_costs : OpCosts Q 39 (opMpy) := by
  intro p1 p2
  refine .only (fun _ => ?_) (by decide) (Int.le_refl 39)
  exact .free (setCnz_costs _) fun _ => .free (writeR16_costs 1 _) fun _ => .pure _

theorem carry_neutral (p : Prop) [Decidable p] :
    Tms7000.Neutral fun c => if p then { c with sr := c.sr ||| srC } else c := by
  refine .ite (p := fun _ => p) ?_ Tms7000.neutral_id
  intro c
  refine ⟨rfl, ?_, rfl⟩
  simp [Tms7000.enabled, srC]

theorem opDac_costs : OpCosts Q 2 (opDac) := by
  intro p1 p2
  refine .only (fun _ => ?_) (by decide) (Int.le_refl 2)
  exact .free (.look _) fun _ => .free (setCnz_costs _) fun _ =>
    .free (.onCpu (carry_neutral _)) fun _ => .pure _

theorem opDsb_costs : OpCosts Q 2 (opDsb) := by
  intro p1 p2
  refine .only (fun _ => ?_) (by decide) (Int.le_refl 2)
  exact .free (.look _) fun _ => .free (setCnz_costs _) fun _ =>
    .free (.onCpu (carry_neutral _)) fun _ => .pure _

include hports

theorem shortBranch_costs (check : Bool) : Costs Q 2 4 (shortBranch ports check) := by
  refine .seq .spend (fun _ => ?_) (by decide : (2 : Int) ≤ 2 + 0) (by decide : (2 : Int) + 2 ≤ 4)
  refine .free (imm8_costs hports) fun _ => ?_
  refine .ite ?_ ((Costs.pure _).mono (by decide) (by decide))
  have hpc (d : Byte) :
      Costs Q 0 0 (onCpu fun c => { c with pc := c.pc + d.signExtend 16 } : Tms π Unit) :=
    .onCpu fun _ => ⟨rfl, rfl, rfl⟩
  exact .seq (hpc _) (fun _ => .spend) (by decide) (by decide)

theorem opDjnz_costs : OpCosts Q 4 (opDjnz ports) :=
  fun _ _ => .seq (shortBranch_costs hports _) (fun _ => .pure _) (by decide) (by decide)

theorem opBtjo_costs : OpCosts Q 4 (opBtjo ports) := by
  intro p1 p2
  refine .free (setCnz_costs _) fun _ => ?_
  exact .seq (shortBranch_costs hports _) (fun _ => .pure _) (by decide) (by decide)

theorem opBtjz_costs : OpCosts Q 4 (opBtjz ports) := by
  intro p1 p2
  refine .free (setCnz_costs _) fun _ => ?_
  exact .seq (shortBranch_costs hports _) (fun _ => .pure _) (by decide) (by decide)

/-! ## Addressing modes -/

omit hports in
/-- The operation and its result, after cycles `n`. -/
theorem operate_costs {op : Op π} (hop : OpCosts Q hi op) {write : Byte → Tms π Unit}
    (hwrite : ∀ v, Costs Q 0 0 (write v)) (p1 p2 : Byte) :
    Costs Q 0 hi (op p1 p2 >>= fun r => writeBack write r) := by
  refine .seq (hop p1 p2) (fun r => ?_) (Int.le_refl (0 + 0)) (by omega : hi + 0 ≤ hi)
  cases r with
  | some v => exact hwrite v
  | none => exact .pure ()

/-- A mode adds from 5 to 11 cycles to an operation. -/
def ModeCosts (Q : Wired π) (am : Op π → Tms π Unit) : Prop :=
  ∀ {hi : Int} {op : Op π}, OpCosts Q hi op → Costs Q 5 (11 + hi) (am op)

/-- One that adds at most 10. -/
def ShortMode (Q : Wired π) (am : Op π → Tms π Unit) : Prop :=
  ∀ {hi : Int} {op : Op π}, OpCosts Q hi op → Costs Q 5 (10 + hi) (am op)

omit hports in
theorem ShortMode.mode {am : Op π → Tms π Unit} (h : ShortMode Q am) : ModeCosts Q am :=
  fun hop => (h hop).mono (Int.le_refl 5) (by omega)

omit hports in
/-- Cycles, and then an operation with its operands. -/
theorem mode_costs {n limit : Int} {f : Unit → Tms π Unit} (h : ∀ a, Costs Q 0 hi (f a))
    (hlo : 5 ≤ n) (hhi : n ≤ limit) : Costs Q 5 (limit + hi) (spend n >>= f) :=
  .seq .spend h (by omega) (by omega)

omit hports in
theorem amA_costs : ShortMode Q (amA) :=
  fun hop => mode_costs (fun _ => .free (readR8_costs _) fun _ =>
    operate_costs hop (writeR8_costs _) _ _) (by decide) (by decide)

omit hports in
theorem amB_costs : ShortMode Q (amB) :=
  fun hop => mode_costs (fun _ => .free (readR8_costs _) fun _ =>
    operate_costs hop (writeR8_costs _) _ _) (by decide) (by decide)

theorem amR_costs : ShortMode Q (amR ports) :=
  fun hop => mode_costs (fun _ => .free (imm8_costs hports) fun _ => .free (readR8_costs _) fun _ =>
    operate_costs hop (writeR8_costs _) _ _) (by decide) (by decide)

omit hports in
theorem amFixed_costs {n : Int} (dst src : Byte) (hlo : 5 ≤ n) (hhi : n ≤ 10) :
    ShortMode Q (amFixed n dst src) :=
  fun hop => mode_costs (fun _ => .free (readR8_costs _) fun _ => .free (readR8_costs _) fun _ =>
    operate_costs hop (writeR8_costs _) _ _) hlo hhi

theorem amToR_costs {n : Int} (src : Byte) (hlo : 5 ≤ n) (hhi : n ≤ 10) :
    ShortMode Q (amToR ports n src) :=
  fun hop => mode_costs (fun _ => .free (imm8_costs hports) fun _ => .free (readR8_costs _) fun _ =>
    .free (readR8_costs _) fun _ => operate_costs hop (writeR8_costs _) _ _) hlo hhi

theorem amToP_costs {n : Int} (src : Byte) (hlo : 5 ≤ n) (hhi : n ≤ 10) :
    ShortMode Q (amToP ports n src) :=
  fun hop => mode_costs (fun _ => .free (imm8_costs hports) fun _ => .free (readP_costs hports _)
    fun _ => .free (readR8_costs _) fun _ => operate_costs hop (writeP_costs hports _) _ _) hlo hhi

theorem amFromR_costs {n : Int} (dst : Byte) (hlo : 5 ≤ n) (hhi : n ≤ 10) :
    ShortMode Q (amFromR ports n dst) :=
  fun hop => mode_costs (fun _ => .free (readR8_costs _) fun _ => .free (imm8_costs hports) fun _ =>
    .free (readR8_costs _) fun _ => operate_costs hop (writeR8_costs _) _ _) hlo hhi

theorem amR2r_costs : ShortMode Q (amR2r ports) :=
  fun hop => mode_costs (fun _ => .free (imm8_costs hports) fun _ => .free (readR8_costs _) fun _ =>
    .free (imm8_costs hports) fun _ => .free (readR8_costs _) fun _ =>
    operate_costs hop (writeR8_costs _) _ _) (by decide) (by decide)

theorem amFromI_costs {n : Int} (dst : Byte) (hlo : 5 ≤ n) (hhi : n ≤ 10) :
    ShortMode Q (amFromI ports n dst) :=
  fun hop => mode_costs (fun _ => .free (readR8_costs _) fun _ => .free (imm8_costs hports) fun _ =>
    operate_costs hop (writeR8_costs _) _ _) hlo hhi

theorem amI2r_costs : ShortMode Q (amI2r ports) :=
  fun hop => mode_costs (fun _ => .free (imm8_costs hports) fun _ => .free (imm8_costs hports)
    fun _ => .free (readR8_costs _) fun _ => operate_costs hop (writeR8_costs _) _ _)
    (by decide) (by decide)

theorem amI2p_costs : ModeCosts Q (amI2p ports) :=
  fun hop => mode_costs (fun _ => .free (imm8_costs hports) fun _ => .free (imm8_costs hports)
    fun _ => .free (readP_costs hports _) fun _ => operate_costs hop (writeP_costs hports _) _ _)
    (by decide) (by decide)

theorem amFromP_costs {n : Int} (dst : Byte) (hlo : 5 ≤ n) (hhi : n ≤ 10) :
    ShortMode Q (amFromP ports n dst) :=
  fun hop => mode_costs (fun _ => .free (readR8_costs _) fun _ => .free (imm8_costs hports) fun _ =>
    .free (readP_costs hports _) fun _ => operate_costs hop (writeR8_costs _) _ _) hlo hhi

/-! ## Other instructions -/

theorem jmp_costs (check : Bool) : Costs Q 5 49 (jmp ports check) :=
  .seq .spend (fun _ => shortBranch_costs hports check) (by decide) (by decide)

omit hports in
theorem decd_costs (r : Byte) : Costs Q 0 0 (decd r) :=
  .free (readR16_costs _) fun _ => .free (writeR16_costs _ _) fun _ =>
    .free (setNz_costs _) fun _ => setC_costs _

omit hports in
theorem decdA_costs : Costs Q 5 49 (decdA) :=
  .only (fun _ => decd_costs 0) (by decide) (by decide)

omit hports in
theorem decdB_costs : Costs Q 5 49 (decdB) :=
  .only (fun _ => decd_costs 1) (by decide) (by decide)

theorem decdR_costs : Costs Q 5 49 (decdR ports) :=
  .only (fun _ => .free (imm8_costs hports) fun _ => decd_costs _) (by decide) (by decide)

theorem address_costs (mode : Mode) : Costs Q 0 0 (address ports mode) := by
  cases mode with
  | dir => exact imm16_costs hports
  | inx => exact .free (imm16_costs hports) fun _ => .free (readR8_costs 1) fun _ => .pure _
  | ind => exact .free (imm8_costs hports) fun _ => readR16_costs _

omit hports in
/-- The cycles of an instruction with an address. -/
theorem extra_costs (mode : Mode) {n : Int} (hlo : 5 ≤ n) (hhi : n ≤ 46) {f : Unit → Tms π Unit}
    (h : ∀ a, Costs Q 0 0 (f a)) : Costs Q 5 49 (spend (n + mode.extra) >>= f) := by
  have hextra : 0 ≤ mode.extra ∧ mode.extra ≤ 3 := by
    cases mode <;> decide
  exact .only h (by omega) (by omega)

theorem extended_costs (mode : Mode) (lo : Nat) : Costs Q 5 49 (extended ports mode lo) := by
  have haddress := address_costs hports mode
  unfold extended
  split
  · refine extra_costs mode (by decide) (by decide) fun _ => .free haddress fun _ => ?_
    exact .free (imm8_costs hports) fun _ => .free (writeR16_costs _ _) fun _ => setCnz_costs _
  · refine extra_costs mode (by decide) (by decide) fun _ => .free haddress fun _ => ?_
    exact .free (fetch8_costs hports _) fun _ => .free (writeR8_costs 0 _) fun _ => setCnz_costs _
  · refine extra_costs mode (by decide) (by decide) fun _ => .free (readR8_costs 0) fun _ => ?_
    exact .free haddress fun _ => .free (write8_costs hports _ _) fun _ => setCnz_costs _
  · exact extra_costs mode (by decide) (by decide) fun _ => .free haddress fun _ => setPc_costs _
  · refine extra_costs mode (by decide) (by decide) fun _ => .free (readR8_costs 0) fun _ => ?_
    exact .free haddress fun _ => .free (fetch8_costs hports _) fun _ =>
      .free (setNz_costs _) fun _ => setC_costs _
  · refine extra_costs mode (by decide) (by decide) fun _ => .free haddress fun _ => ?_
    exact .free pushPc_costs fun _ => setPc_costs _
  · exact .only (fun _ => .onCpu fun _ => ⟨rfl, rfl, rfl⟩) (by decide) (by decide)

omit hports

theorem illegal_costs : Costs Q 5 49 (illegal) :=
  .only (fun _ => .onCpu fun _ => ⟨rfl, rfl, rfl⟩) (by decide) (by decide)

theorem trap_costs (v : Byte) : Costs Q 5 49 (trap v) :=
  .only (fun _ => .free pushPc_costs fun _ => .onCpu fun _ => ⟨rfl, rfl, rfl⟩) (by decide) (by decide)

theorem pop_costs (r : Byte) : Costs Q 5 49 (pop r) :=
  .only (fun _ => .free pull8_costs fun _ => .free (writeR8_costs r _) fun _ => setCnz_costs _)
    (by decide) (by decide)

theorem push_costs (r : Byte) : Costs Q 5 49 (push r) :=
  .only (fun _ => .free (readR8_costs r) fun _ => .free (push8_costs _) fun _ => setCnz_costs _)
    (by decide) (by decide)

/-- A new status register, and the interrupts it lets in. -/
theorem admit_costs (f : Byte → Byte) :
    Costs Q 0 19 (setSr f >>= fun _ => checkInterrupts) :=
  .seq (.setSr f) (fun _ => checkInterrupts_costs) (by decide) (by decide)

/-- A change of the status register that lets none in. -/
theorem setSr_costs {f : Byte → Byte} (hf : ∀ sr, (f sr).getLsbD 4 = true → sr.getLsbD 4 = true) :
    Costs Q 0 0 (setSr f) := by
  refine .thrifty ?_
  intro c
  refine ⟨Int.le_refl _, ?_, rfl⟩
  have hreserve : { c with sr := f c.sr }.reserve ≤ c.reserve := by
    unfold Tms7000.reserve
    split
    next henabled =>
      rw [if_pos (show c.enabled = true from hf c.sr henabled)]
    next =>
      split <;> omega
  change c.icount - c.reserve ≤ c.icount - { c with sr := f c.sr }.reserve
  omega

theorem control_costs (lo : Nat) : Costs Q 5 49 (control lo) := by
  unfold control
  split
  · exact Costs.spend.mono (by decide) (by decide)
  · exact .only (fun _ => .onCpu fun _ => ⟨rfl, rfl, rfl⟩) (by decide) (by decide)
  · exact .seq .spend (fun _ => admit_costs _) (by decide) (by decide)
  · refine .only (fun _ => setSr_costs ?_) (by decide) (by decide)
    intro sr henabled
    simp [srI, srN, srZ, srC] at henabled
  · refine .only (fun _ => setSr_costs ?_) (by decide) (by decide)
    intro sr henabled
    simpa [srN, srZ, srC] using henabled
  · refine .seq .spend (fun _ => .free pull8_costs fun _ => admit_costs _) (by decide) (by decide)
  · exact .only (fun _ => .onCpu fun c => Tms7000.neutral_writeR8 1 c.sp c) (by decide) (by decide)
  · exact .only (fun _ => .free pull16_costs fun _ => setPc_costs _) (by decide) (by decide)
  · refine .seq .spend (fun _ => ?_) (by decide : (5 : Int) ≤ 9 + 0)
      (by decide : (9 : Int) + 19 ≤ 49)
    exact .free pull16_costs fun _ => .free (setPc_costs _) fun _ =>
      .free pull8_costs fun _ => admit_costs _
  · exact .only (fun _ => .free (readR8_costs 1) fun _ => .onCpu fun _ => ⟨rfl, rfl, rfl⟩)
      (by decide) (by decide)
  · exact .only (fun _ => .onCpu fun c => Tms7000.neutral_push8 c.sr c) (by decide) (by decide)
  · exact illegal_costs

/-! ## Dispatch -/

include hports

theorem onPort_costs {am : Op π → Tms π Unit} (ham : ModeCosts Q am) (lo : Nat) :
    Costs Q 5 49 (onPort ports am lo) := by
  have hplain {op : Op π} (hop : OpCosts Q 0 op) : Costs Q 5 49 (am op) :=
    (ham hop).mono (by decide) (by decide)
  have hbranch {op : Op π} (hop : OpCosts Q 4 op) : Costs Q 5 49 (am op) :=
    (ham hop).mono (by decide) (by decide)
  unfold onPort
  split
  · exact hplain fun _ _ => flagged_costs _
  · exact hplain fun _ _ => flagged_costs _
  · exact hplain fun _ _ => flagged_costs _
  · exact hplain fun _ _ => flagged_costs _
  · exact hbranch (opBtjo_costs hports)
  · exact hbranch (opBtjz_costs hports)
  · exact illegal_costs

theorem dual_costs {am : Op π → Tms π Unit} (ham : ShortMode Q am) (lo : Nat) :
    Costs Q 5 49 (dual ports am lo) := by
  have hplain {op : Op π} (hop : OpCosts Q 0 op) : Costs Q 5 49 (am op) :=
    (ham hop).mono (by decide) (by decide)
  unfold dual
  split
  · exact hplain fun _ _ => flagged_costs _
  · exact hplain fun _ _ => .free getC_costs fun _ => flagged_costs _
  · exact hplain fun _ _ => borrowed_costs _
  · exact hplain fun _ _ => .free getC_costs fun _ => borrowed_costs _
  · exact (ham opMpy_costs).mono (by decide) (by decide)
  · exact hplain opCmp_costs
  · exact (ham opDac_costs).mono (by decide) (by decide)
  · exact (ham opDsb_costs).mono (by decide) (by decide)
  · exact onPort_costs hports ham.mode lo

theorem single_costs {am : Op π → Tms π Unit} (ham : ShortMode Q am) {push pop decd : Tms π Unit}
    (hpush : Costs Q 5 49 push) (hpop : Costs Q 5 49 pop) (hdecd : Costs Q 5 49 decd) (lo : Nat) :
    Costs Q 5 49 (single ports am push pop decd lo) := by
  have hplain {op : Op π} (hop : OpCosts Q 0 op) : Costs Q 5 49 (am op) :=
    (ham hop).mono (by decide) (by decide)
  unfold single
  split
  · exact hplain fun _ _ => borrowed_costs _
  · exact hplain fun _ _ => flagged_costs _
  · exact hplain fun _ _ => flagged_costs _
  · exact hplain fun _ _ => flagged_costs _
  · exact (ham opXchb_costs).mono (by decide) (by decide)
  · exact (ham opSwap_costs).mono (by decide) (by decide)
  · exact hpush
  · exact hpop
  · exact (ham (opDjnz_costs hports)).mono (by decide) (by decide)
  · exact hdecd
  · exact hplain fun _ _ => flagged_costs _
  · exact hplain fun _ _ => .free getC_costs fun _ => flagged_costs _
  · exact hplain fun _ _ => flagged_costs _
  · exact hplain fun _ _ => .free getC_costs fun _ => flagged_costs _
  · exact illegal_costs

theorem peripheral_costs {am : Op π → Tms π Unit} (ham : ModeCosts Q am) (mode : Mode) (lo : Nat) :
    Costs Q 5 49 (peripheral ports am mode lo) :=
  .ite (onPort_costs hports ham lo) (extended_costs hports mode lo)

/-- The cycles of an instruction. -/
theorem executeOne_costs (op : Byte) : Costs Q 5 49 (executeOne ports op) := by
  have hmov {am : Op π → Tms π Unit} (ham : ShortMode Q am) : Costs Q 5 49 (am opMov) :=
    (@ham 0 opMov fun _ _ => flagged_costs _).mono (by decide) (by decide)
  have hpopR : Costs Q 5 49 (popR ports) :=
    .only (fun _ => .free pull8_costs fun _ => .free (imm8_costs hports) fun _ =>
      .free (writeR8_costs _ _) fun _ => setCnz_costs _) (by decide) (by decide)
  have hpushR : Costs Q 5 49 (pushR ports) :=
    .only (fun _ => .free (imm8_costs hports) fun _ => .free (readR8_costs _) fun _ =>
      .free (push8_costs _) fun _ => setCnz_costs _) (by decide) (by decide)
  unfold executeOne
  dsimp only
  generalize op.toNat % 16 = lo
  split
  · exact control_costs lo
  · exact dual_costs hports (amFromR_costs hports 0 (by decide) (by decide)) lo
  · exact dual_costs hports (amFromI_costs hports 0 (by decide) (by decide)) lo
  · exact dual_costs hports (amFromR_costs hports 1 (by decide) (by decide)) lo
  · exact dual_costs hports (amR2r_costs hports) lo
  · exact dual_costs hports (amFromI_costs hports 1 (by decide) (by decide)) lo
  · exact dual_costs hports (amFixed_costs 0 1 (by decide) (by decide)) lo
  · exact dual_costs hports (amI2r_costs hports) lo
  · refine .ite (hmov (amFromP_costs hports 0 (by decide) (by decide))) ?_
    have ham : ShortMode Q (amA2p ports) := amToP_costs hports 0 (by decide) (by decide)
    exact peripheral_costs hports (ShortMode.mode ham) .dir lo
  · refine .ite (hmov (amFromP_costs hports 1 (by decide) (by decide))) ?_
    have ham : ShortMode Q (amB2p ports) := amToP_costs hports 1 (by decide) (by decide)
    exact peripheral_costs hports (ShortMode.mode ham) .ind lo
  · exact peripheral_costs hports (amI2p_costs hports) .inx lo
  · refine .ite (hmov (amFixed_costs 0 0 (by decide) (by decide))) ?_
    refine .ite (hmov (amFixed_costs 0 1 (by decide) (by decide))) ?_
    exact single_costs hports amA_costs (push_costs 0) (pop_costs 0) decdA_costs lo
  · refine .ite (hmov (amFixed_costs 1 0 (by decide) (by decide))) ?_
    refine .ite (hmov (amFixed_costs 1 1 (by decide) (by decide))) ?_
    exact single_costs hports amB_costs (push_costs 1) (pop_costs 1) decdB_costs lo
  · refine .ite (hmov (amToR_costs hports 0 (by decide) (by decide))) ?_
    refine .ite (hmov (amToR_costs hports 1 (by decide) (by decide))) ?_
    exact single_costs hports (amR_costs hports) hpushR hpopR (decdR_costs hports) lo
  · refine .ite (.free (.look _) fun _ => jmp_costs hports _) (trap_costs _)
  · exact trap_costs _

/-- A round of the loop: the instruction, and the timer. -/
theorem executeStep_costs : Costs Q 5 49 (executeStep ports) := by
  refine .free (.look _) fun before => .free (imm8_costs hports) fun op => ?_
  refine .free (.onCpu fun _ => ⟨rfl, rfl, rfl⟩) fun _ => ?_
  exact .seq (executeOne_costs hports op)
    (fun _ => .thrifty (Tms7000.thrifty_tickTimers fun c => before - c.icount))
    (by decide) (by decide)

end

end Tms

/-! ## Runs -/

section

variable {ports : BusPorts π} (hports : ports.Silent Q)

include hports

/-- What the ports keep, a run keeps. -/
theorem execute_keeps (cycles : Int) {b : Board π} (hb : b.Holds Q) :
    (b.execute ports cycles).2.Holds Q := by
  have hround (b : Board π) : b.Holds Q → (b.round ports).Holds Q :=
    (Tms.executeStep_costs hports).keeps b
  have hstart : Board.Holds Q
      { b with cpu := { b.cpu with icount := cycles }.checkInterrupts } := by
    have hlines := (Tms7000.thrifty_checkInterrupts { b.cpu with icount := cycles }).2.2
    change Q { b.cpu with icount := cycles }.checkInterrupts.irqState b.bus
    rw [hlines]
    exact hb
  exact runDown_keeps hround cycles.toNat hstart

end

end CocoEmulator.Sound
