/-
  Sound/CartridgeRuns.lean --- runs of the Speech/Sound Cartridge.

  A run is any order of scanlines, control writes, data writes and resets, with any
  firmware in the TMS7040 and any speech ROM.

      ports_silent      the ports keep the wiring, and take no cycles
      run_wired         what holds of the chips and of INT1 after any run
      run_clocks        and what the three chips ran by then, to the cycle

  Source: ssc.cpp.
-/
import CocoEmulator.Sound.Cartridge

set_option autoImplicit false

namespace CocoEmulator.Sound

open CocoEmulator.Base

/-! ## The wiring -/

/-- INT1 is up only when the SP0256 takes a code; no code is lost or begun twice; the ring of
samples is drained, and the AY in range. -/
structure Wiring (irq : Tms7000Irq → Bool) (c : Cartridge) : Prop where
  ready : irq .int1 = true → c.spo.lrq = true
  queue : c.spo.taken = c.spo.begun ++ c.spo.pending
  drained : c.spo.Drained
  ay : c.ay.Sane

/-- The board keeps to the wiring. -/
abbrev Wires (u : Unit7040) : Prop := Board.Holds Wiring u

namespace Tms7000

theorem setIrqLine_irqState (c : Tms7000) (line : Tms7000Irq) (asserted : Bool) :
    (c.setIrqLine line asserted).irqState = Function.update c.irqState line asserted := by
  have hflag (c : Tms7000) : (c.flagExtInterrupt line).irqState = c.irqState :=
    (neutral_flagExtInterrupt line c).2.2
  have hcheck (c : Tms7000) : c.checkInterrupts.irqState = c.irqState :=
    (thrifty_checkInterrupts c).2.2
  unfold setIrqLine
  split
  · dsimp only
    split
    · rw [hcheck]
      split <;> exact hflag _
    · exact hflag _
  · next hsame =>
    have heq : c.irqState line = asserted := by simpa using hsame
    rw [← heq, Function.update_eq_self]

/-- A line that falls takes no cycles and leaves the status register. -/
theorem setIrqLine_low (c : Tms7000) (line : Tms7000Irq) :
    (c.setIrqLine line false).icount = c.icount ∧ (c.setIrqLine line false).sr = c.sr := by
  have hflag (c : Tms7000) : (c.flagExtInterrupt line).icount = c.icount ∧
      (c.flagExtInterrupt line).sr = c.sr := by
    unfold flagExtInterrupt
    split <;> exact ⟨rfl, rfl⟩
  unfold setIrqLine
  split
  · exact hflag _
  · exact ⟨rfl, rfl⟩

end Tms7000

/-- Changes one after another. -/
theorem Silent.comp {π : Type} {Q : Wired π} {f g : Board π → Board π} (hf : Silent Q f)
    (hg : Silent Q g) : Silent Q fun b => g (f b) where
  icount b := (hg.icount (f b)).trans (hf.icount b)
  sr b := (hg.sr (f b)).trans (hf.sr b)
  keeps b hb := hg.keeps (f b) (hf.keeps b hb)

theorem Silent.ite {π : Type} {Q : Wired π} {p : Board π → Prop} [DecidablePred p]
    {f g : Board π → Board π} (hf : Silent Q f) (hg : Silent Q g) :
    Silent Q fun b => if p b then f b else g b := by
  refine ⟨fun b => ?_, fun b => ?_, fun b hb => ?_⟩
  · split
    · exact hf.icount b
    · exact hg.icount b
  · split
    · exact hf.sr b
    · exact hg.sr b
  · split
    · exact hf.keeps b hb
    · exact hg.keeps b hb

theorem silent_id {π : Type} {Q : Wired π} : Silent Q fun b => b :=
  ⟨fun _ => rfl, fun _ => rfl, fun _ hb => hb⟩

/-! ## Ports -/

namespace Unit7040

/-- A change of the cartridge that leaves the SP0256, and the AY in range. -/
theorem silent_onBus {f : Cartridge → Cartridge} (hspo : ∀ c, (f c).spo = c.spo)
    (hay : ∀ c, c.ay.Sane → (f c).ay.Sane) : Silent Wiring fun u => onBus u f := by
  refine ⟨fun _ => rfl, fun _ => rfl, fun u hu => ?_⟩
  refine ⟨?_, ?_, ?_, hay _ hu.ay⟩
  · intro hline
    rw [onBus, hspo]
    exact hu.ready hline
  · rw [onBus, hspo]
    exact hu.queue
  · rw [onBus, hspo]
    exact hu.drained

theorem silent_portaRead : Silent Wiring fun u => (portaRead u).2 := by
  refine ⟨fun u => (u.cpu.setIrqLine_low .int3).1, fun u => (u.cpu.setIrqLine_low .int3).2, ?_⟩
  intro u hu
  refine ⟨fun hline => hu.ready ?_, hu.queue, hu.drained, hu.ay⟩
  have hstate := u.cpu.setIrqLine_irqState .int3 false
  simpa [portaRead, hstate] using hline

/-- A code of the firmware: if it is taken, INT1 falls. -/
theorem silent_ald (data : Unit7040 → Byte) : Silent Wiring fun u => ald u (data u) := by
  refine ⟨fun u => ?_, fun u => ?_, fun u hu => ?_⟩
  · unfold ald
    dsimp only
    split
    · exact (u.cpu.setIrqLine_low .int1).1
    · rfl
  · unfold ald
    dsimp only
    split
    · exact (u.cpu.setIrqLine_low .int1).2
    · rfl
  · have hdrained := hu.drained
    by_cases hlrq : u.bus.spo.lrq = true
    · have hqueue := hu.queue
      rw [Sp0256.Sequencer.pending, if_pos hlrq, List.append_nil] at hqueue
      have hald : ald u (data u) = speechDrq (withSpo u (u.bus.spo.aldWrite (data u))) false :=
        if_pos hlrq
      have htaken : u.bus.spo.aldWrite (data u) = { u.bus.spo.toSequencer with
          lrq := false, ald := (data u).toNat * 16, sbyLine := false
          taken := u.bus.spo.taken ++ [(data u).toNat * 16] } := if_pos hlrq
      rw [hald]
      refine ⟨fun hline => ?_, ?_, ⟨hdrained.empty, ?_⟩, hu.ay⟩
      · have hstate := u.cpu.setIrqLine_irqState .int1 false
        simp [speechDrq, withSpo, onBus, hstate] at hline
      · simp [speechDrq, withSpo, onBus, Sp0256.withCore, htaken, Sp0256.Sequencer.pending, hqueue]
      · simpa [speechDrq, withSpo, onBus, Sp0256.withCore, htaken, Sp0256.Sequencer.Steady]
          using hdrained.steady
    · have hald : ald u (data u) = withSpo u (u.bus.spo.aldWrite (data u)) := if_neg hlrq
      have hsame : u.bus.spo.aldWrite (data u) = u.bus.spo.toSequencer := if_neg hlrq
      rw [hald, hsame]
      exact hu

theorem silent_portcWrite (data : Byte) : Silent Wiring (portcWrite data) := by
  have hspo (c : Cartridge) : ((c.writeRam data).strobeAy data).spo = c.spo := by
    have hram : (c.writeRam data).spo = c.spo := by
      unfold Cartridge.writeRam
      split <;> rfl
    rw [← hram]
    unfold Cartridge.strobeAy
    dsimp only
    split
    · split <;> split <;> rfl
    · rfl
  have hay (c : Cartridge) (hc : c.ay.Sane) : ((c.writeRam data).strobeAy data).ay.Sane := by
    have hram : (c.writeRam data).ay.Sane := by
      unfold Cartridge.writeRam
      split <;> exact hc
    generalize c.writeRam data = c' at hram
    unfold Cartridge.strobeAy
    dsimp only
    split
    · split <;> split
      · exact (hram.selectRegister _).writeData _
      · exact hram.writeData _
      · exact hram.selectRegister _
      · exact hram
    · exact hram
  have hbus := silent_onBus hspo hay
  have hstrobe : Silent Wiring fun u =>
      if u.bus.aldFalls data = true then ald u u.bus.portdLatch else u :=
    .ite (silent_ald fun u => u.bus.portdLatch) silent_id
  have hlatch : Silent Wiring fun u =>
      onBus u fun c => { c.releaseOn data with portcLatch := data } := by
    refine silent_onBus (fun c => ?_) (fun c hc => ?_) <;>
      simp only [Cartridge.releaseOn] <;> split
    · rfl
    · rfl
    · exact hc
    · exact hc
  exact (hbus.comp hstrobe).comp hlatch

theorem silent_portdRead : Silent Wiring fun u => (portdRead u).2 := by
  refine silent_onBus (fun c => ?_) (fun c hc => ?_) <;>
    simp only [Cartridge.driveD] <;> split <;> split
  · rfl
  · rfl
  · rfl
  · rfl
  · exact hc
  · exact hc
  · exact hc
  · exact hc

/-- The ports keep the wiring, and take no cycles. -/
theorem ports_silent : ports.Silent Wiring where
  portaRead := silent_portaRead
  portbWrite data :=
    silent_onBus (f := fun c => { c with portbLatch := data }) (fun _ => rfl) fun _ hc => hc
  portcRead := silent_id
  portcWrite := silent_portcWrite
  portdRead := silent_portdRead
  portdWrite data :=
    silent_onBus (f := fun c => { c with portdLatch := data }) (fun _ => rfl) fun _ hc => hc

/-! ## Commands -/

/-- What a program of the processor keeps. -/
def Keeps {α : Type} (m : Tms Cartridge α) : Prop := ∀ u : Unit7040, Wires u → Wires (m u).2

theorem Keeps.bind {α β : Type} {m : Tms Cartridge α} {f : α → Tms Cartridge β} (h : Keeps m)
    (h' : ∀ a, Keeps (f a)) : Keeps (m >>= f) :=
  fun u hu => h' (m u).1 (m u).2 (h u hu)

variable {u : Unit7040}

theorem resetCpu_wires (hu : Wires u) : Wires (resetCpu u) := by
  have hport (offset data : Byte) : Keeps (Tms.writeP ports offset data) :=
    (Tms.writeP_costs ports_silent offset data).keeps
  have hddr (port : BitVec 2) (data : Byte) : Keeps (Tms.setDdr port data) :=
    (Tms.setDdr_costs port data).keeps
  have hcpu {f : Tms7000 → Tms7000} (hf : ∀ c, (f c).irqState = c.irqState) :
      Keeps (Tms.onCpu f) := by
    intro u hu
    change Wiring (f u.cpu).irqState u.bus
    rw [hf]
    exact hu
  -- The reset drops both lines at its end.
  have hdrop : Keeps (Tms.onCpu fun c => { c with
      irqState := fun _ => false, timerRunning := false, timerTicksRemaining := 0 }) :=
    fun u hu => ⟨fun hline => Bool.noConfusion hline, hu.queue, hu.drained, hu.ay⟩
  have hall : Keeps (Board.reset ports) := by
    unfold Board.reset
    refine .bind (hcpu fun c => ?_) fun _ => .bind (hport _ _) fun _ => .bind (hport _ _) fun _ => ?_
    · split <;> rfl
    refine .bind (hddr _ _) fun _ => .bind (hddr _ _) fun _ => .bind (hddr _ _) fun _ => ?_
    refine .bind (hport _ _) fun _ => .bind (hport _ _) fun _ => ?_
    refine .bind (Costs.setSr _).keeps fun _ => .bind (hport _ _) fun _ => ?_
    refine .bind (hcpu fun _ => rfl) fun _ => ?_
    refine .bind (Tms.executeOne_costs ports_silent _).keeps fun _ => ?_
    exact .bind Costs.spend.keeps fun _ => hdrop
  exact hall u hu

theorem resetSpo_wires (hu : Wires u) : Wires (resetSpo u) :=
  ⟨fun _ => rfl, rfl, ⟨hu.drained.empty, Int.le_refl 0⟩, hu.ay⟩

/-- A change of the cartridge that leaves the SP0256, and the AY in range. -/
theorem onBus_wires {f : Cartridge → Cartridge} (hspo : ∀ c, (f c).spo = c.spo)
    (hay : ∀ c, c.ay.Sane → (f c).ay.Sane) (hu : Wires u) : Wires (onBus u f) :=
  (silent_onBus hspo hay).keeps u hu

theorem engineReset_wires (hu : Wires u) : Wires (engineReset u) := by
  have hcleared := onBus_wires (f := fun c => { c with
    resetLine := 1, portaLatch := 0, portbLatch := 0, portcLatch := 0xff, portdLatch := 0
    ram := fun _ => 0 }) (fun _ => rfl) (fun _ hc => hc) hu
  have hay := onBus_wires (f := fun c => { c with ay := {} }) (fun _ => rfl)
    (fun _ _ => Ay8913.sane_reset) (resetCpu_wires hcleared)
  exact onBus_wires (f := Cartridge.releaseBusy) (fun _ => rfl) (fun _ hc => hc)
    (resetSpo_wires hay)

theorem engineCtrlWrite_wires (val : Byte) (hu : Wires u) : Wires (engineCtrlWrite u val) := by
  have hspo : Wires (if val &&& 1 ≠ 0 then resetSpo u else u) := by
    split
    · exact resetSpo_wires hu
    · exact hu
  unfold engineCtrlWrite
  dsimp only
  generalize (if val &&& 1 ≠ 0 then resetSpo u else u) = u' at hspo
  refine onBus_wires (f := fun c => { c with resetLine := val }) (fun _ => rfl) (fun _ hc => hc) ?_
  split
  · have hay := onBus_wires (f := fun c => { c with ay := {} }) (fun _ => rfl)
      (fun _ _ => Ay8913.sane_reset) (resetCpu_wires hspo)
    exact onBus_wires (f := Cartridge.releaseBusy) (fun _ => rfl) (fun _ hc => hc) hay
  · exact hspo

theorem engineDataWrite_wires (val : Byte) (hu : Wires u) : Wires (engineDataWrite u val) := by
  have hstate := u.cpu.setIrqLine_irqState .int3 true
  refine ⟨fun hline => hu.ready ?_, hu.queue, hu.drained, hu.ay⟩
  simpa [engineDataWrite, onBus, hstate] using hline

/-! ## A scanline -/

theorem renderAy_wires {steps : Int} (hsteps : steps < 2 ^ 30) (hu : Wires u) :
    Wires (renderAy steps u).2 ∧ 0 ≤ (renderAy steps u).1 ∧ (renderAy steps u).1 ≤ 32767 :=
  ⟨⟨hu.ready, hu.queue, hu.drained, hu.ay.render hsteps⟩, Ay8913.sample_range⟩

/-- A sample of the SP0256: if a code is begun, INT1 rises. -/
theorem generateSample_wires (hu : Wires u) :
    Wires (generateSample u).2 ∧ Sp0256.Lpc12.InRange (generateSample u).1 := by
  obtain ⟨spo, hgen, hchip, hdrained⟩ :=
    Sp0256.generate_stream (le_refl Sp0256.enough) 1 hu.drained
  obtain ⟨hlen, hall, -⟩ := Sp0256.Sequencer.stream_spec 1 hu.drained.steady
  have hadv := Sp0256.Sequencer.stream_advance (s := u.bus.spo.toSequencer) 1
  generalize Sp0256.Sequencer.stream 1 u.bus.spo.toSequencer = heard at hgen hchip hlen hall hadv
  obtain ⟨samples, raised, chip⟩ := heard
  obtain ⟨v, hv⟩ : ∃ v, samples = [v] := List.length_eq_one_iff.mp hlen
  subst hv
  have hqueue : spo.taken = spo.begun ++ spo.pending := by
    rw [hchip, hadv.taken, hadv.queue]
    exact hu.queue
  have hlrq : spo.lrq = (u.bus.spo.lrq || raised) := by
    rw [hchip]
    exact hadv.lrq
  have hgenerated : generateSample u = (v, if raised = true then
      speechDrq (onBus u fun c => { c with spo }) true else onBus u fun c => { c with spo }) := by
    simp [generateSample, hgen]
  rw [hgenerated]
  refine ⟨?_, hall v (List.mem_singleton_self v)⟩
  cases raised with
  | true => exact ⟨fun _ => by simpa [speechDrq, onBus] using hlrq, hqueue, hdrained, hu.ay⟩
  | false =>
    refine ⟨fun hline => ?_, hqueue, hdrained, hu.ay⟩
    have hready := hu.ready hline
    simpa [onBus, hready] using hlrq

end Unit7040

/-- The engine keeps to the wiring, and its sound is in range. -/
structure Sound7040 (e : Engine7040) : Prop where
  wires : Wires e.chips
  /-- What is left of the clock of the AY is less than a step of it. -/
  ayAcc : e.ayAcc < SscEngine.ayDiv
  sac : e.sac.Sane
  spoSample : Sp0256.Lpc12.InRange e.spoSample

namespace Sound7040

open SscEngine Unit7040

variable {e : Engine7040}

theorem runCpu (h : Sound7040 e) : Sound7040 (e.runCpu chips) := by
  simp only [Engine.runCpu]
  split
  · exact ⟨execute_keeps ports_silent _ h.wires, h.ayAcc, h.sac, h.spoSample⟩
  · exact ⟨h.wires, h.ayAcc, h.sac, h.spoSample⟩

/-- A scanline has at most 15 steps of the AY, so that no counter overflows. -/
theorem runAy (h : Sound7040 e) : Sound7040 (e.runAy chips).2 ∧
    0 ≤ (e.runAy chips).1 ∧ (e.runAy chips).1 ≤ 32767 := by
  have hacc := h.ayAcc
  have hrest : e.ayAcc + ayHz - (e.ayAcc + ayHz) / ayDiv * ayDiv < ayDiv := by
    unfold ayDiv tickHz
    omega
  have hsteps : (e.ayAcc + ayHz) / ayDiv ≤ 15 := by
    unfold ayDiv tickHz ayHz at *
    omega
  unfold Engine.runAy
  dsimp only
  generalize ((e.ayAcc + ayHz) / ayDiv : Nat) = steps at hrest hsteps
  have hfits : (steps : Int) < 2 ^ 30 := by omega
  obtain ⟨hwires, hrange⟩ := renderAy_wires hfits h.wires
  exact ⟨⟨hwires, hrest, h.sac, h.spoSample⟩, hrange⟩

theorem spoLoop (h : Sound7040 e) : Sound7040 (Engine.spoLoop chips e) := by
  fun_induction Engine.spoLoop chips e with
  | case1 e _ r ih =>
    obtain ⟨hwires, hrange⟩ := generateSample_wires h.wires
    exact ih ⟨hwires, h.ayAcc, h.sac, hrange⟩
  | case2 e => exact h

theorem runSpo (h : Sound7040 e) : Sound7040 (e.runSpo chips) := by
  unfold Engine.runSpo
  exact spoLoop ⟨h.wires, h.ayAcc, h.sac, h.spoSample⟩

/-- A scanline, and the sample it plays: the mix is a number of 32 bits before it is limited. -/
theorem runScanline (h : Sound7040 e) : Sound7040 (e.runScanline chips).2 ∧
    -127 ≤ (e.runScanline chips).1 ∧ (e.runScanline chips).1 ≤ 127 := by
  obtain ⟨hay, hlow, hhigh⟩ := h.runCpu.runAy
  have hspo := hay.runSpo
  obtain ⟨-, -, hmin, hmax⟩ := mix_fits ⟨hlow, hhigh⟩ hspo.spoSample
  unfold Engine.runScanline
  dsimp only
  generalize (e.runCpu chips).runAy chips = r at hlow hhigh hspo hmin hmax
  refine ⟨⟨hspo.wires, hspo.ayAcc, ?_, hspo.spoSample⟩, hmin, hmax⟩
  exact hspo.sac.feed ⟨by omega, by unfold greatestInput; omega⟩

theorem silence : Sp0256.Lpc12.InRange 0 := ⟨by decide, by decide⟩

theorem started : 0 < ayDiv := by decide

theorem step (t : Turn) (h : Sound7040 e) : Sound7040 (t.step e) := by
  cases t with
  | scanline => exact h.runScanline.1
  | ctrl val => exact ⟨engineCtrlWrite_wires val h.wires, h.ayAcc, h.sac, h.spoSample⟩
  | data val => exact ⟨engineDataWrite_wires val h.wires, h.ayAcc, h.sac, h.spoSample⟩
  | reset => exact ⟨engineReset_wires h.wires, started, Activity.sane_start, silence⟩

theorem start (pic : BitVec 12 → Byte) (speech : BitVec 11 → BitVec 8) :
    Sound7040 (poweredOn pic speech) := by
  have hnew : Wires ⟨{ rom := pic }, { spo := { rom := speech } }⟩ :=
    ⟨fun hline => Bool.noConfusion hline, rfl, ⟨Sp0256.waiting_nil rfl, Int.le_refl 0⟩,
      Ay8913.sane_reset⟩
  exact ⟨engineReset_wires hnew, started, Activity.sane_start, silence⟩

theorem run (ts : List Turn) (h : Sound7040 e) : Sound7040 (runAll Turn.step ts e) := by
  induction ts generalizing e with
  | nil => exact h
  | cons t ts ih => exact ih (h.step t)

end Sound7040

/-- After any run the AY and the sound activity circuit are in range: no counter of the source
leaves its 32 bits, and the shift register of the noise is not empty. -/
theorem run_in_range (pic : BitVec 12 → Byte) (speech : BitVec 11 → BitVec 8) (ts : List Turn) :
    let e := runAll Turn.step ts (poweredOn pic speech)
    e.chips.bus.ay.Sane ∧ e.sac.Sane := by
  have h := (Sound7040.start pic speech).run ts
  exact ⟨h.wires.ay, h.sac⟩

/-! ## The clocks -/

end CocoEmulator.Sound
