/-
  Disk/NmiEdge.lean --- the NMI at the end of a disk command.

  The controller drives the NMI line with INTRQ, gated by the density bit; the CPU latches
  the edge and takes the NMI before its next instruction.  Taking it also clears the CPU's
  record of the line, so the line counts as new at the next write of DSKREG.

      Event.step_calm         once a command is over, what an event does to the two
      checkInterrupts_pins    what the CPU's check leaves of the lines
      nmi_once                one NMI for a command and none after its status is read, in
                              the runs where no edge is made twice
-/
import CocoEmulator.Cpu.Quiet
import CocoEmulator.Disk.RoundTrip
import CocoEmulator.Disk.Transfer

set_option autoImplicit false

namespace CocoEmulator.Disk

open CocoEmulator.Base CocoEmulator.Cpu

/-! ## The controller and the CPU's check -/

/-- Is an NMI taken? -/
def nmiReady (armed : Bool) (p : Pins) : Bool := p.nmiPending && armed

/-- `check_interrupts`, as far as the NMI goes. -/
def checkNmi (armed : Bool) (p : Pins) : Pins :=
  if nmiReady armed p then { p with nmiPending := false, nmiLine := false } else p

/-- Accesses and ticks, and the CPU's checks, with NMI armed or not. -/
inductive NmiEvent
  | disk (e : Event)
  | check (armed : Bool)

def NmiEvent.step : NmiEvent → Controller → Controller
  | .disk e, c => e.step c
  | .check armed, c => { c with pins := checkNmi armed c.pins }

/-- Since the last command: the NMIs taken, whether the guest has read the status of the
completed command, and the NMIs taken after that. -/
structure Nmis where
  taken : Nat := 0
  acked : Bool := false
  late : Nat := 0
  deriving DecidableEq, Repr

/-- Is the status register read? -/
def Event.readsStatus : Event → Bool
  | .read address => isCommandReg address
  | _ => false

def Nmis.take (n : Nmis) : Nmis :=
  { n with taken := n.taken + 1, late := if n.acked then n.late + 1 else n.late }

def Nmis.note (e : NmiEvent) (c : Controller) (n : Nmis) : Nmis :=
  match e with
  | .disk e =>
      if e.isCommand then {}
      else if e.readsStatus && !c.fdc.flow.busy then { n with acked := true }
      else n
  | .check armed => if nmiReady armed c.pins then n.take else n

def nmiStep (e : NmiEvent) (x : Controller × Nmis) : Controller × Nmis :=
  (e.step x.1, x.2.note e x.1)

/-- At most one NMI for the command; once its status has been read, INTRQ is low and no NMI
was taken. -/
structure NmiLaw (x : Controller × Nmis) : Prop where
  once : x.2.taken ≤ 1
  low : x.2.acked = true → x.1.fdc.flow.intrq = false
  none : x.2.late = 0

/-- A DSKREG value that lets the NMI through. -/
def Event.opensNmi : Event → Bool
  | .write address value => decide (address < 0xFF48) && value.getLsbD 5
  | _ => false

/-- No edge is made twice.  DSKREG lets the NMI through, while INTRQ is high, only before it
was taken; the status of a completed command is read when the countdown to INTRQ is over; and
neither that nor the next command comes between an edge and its NMI. -/
structure NmiEvent.OneEdge (e : NmiEvent) (x : Controller × Nmis) : Prop where
  select : ∀ d, e = .disk d → d.opensNmi = true → x.1.fdc.flow.intrq = true → x.2.taken = 0
  status : ∀ d, e = .disk d → d.readsStatus = true → x.1.pins.nmiPending = false ∧
    (x.1.fdc.flow.busy = false → x.1.fdc.flow.intrqDefer = 0)
  command : ∀ d, e = .disk d → d.isCommand = true → x.1.pins.nmiPending = false

/-! ## Edges -/

/-- An NMI is latched only where INTRQ is high. -/
def Latches (c c' : Controller) : Prop :=
  c'.pins.nmiPending = true → c.pins.nmiPending = true ∨ c'.fdc.flow.intrq = true

theorem Latches.same {c c' : Controller} (h : c'.pins.nmiPending = c.pins.nmiPending) :
    Latches c c' := by
  intro hpending
  rw [h] at hpending
  exact .inl hpending

theorem Latches.of_same {c c' c'' : Controller} (hp : c'.pins.nmiPending = c.pins.nmiPending)
    (h : Latches c' c'') : Latches c c'' := by
  intro hpending
  rw [← hp]
  exact h hpending

theorem gateNmi_pending {c : Controller} (h : (gateNmi c).pins.nmiPending = true) :
    c.pins.nmiPending = true ∨ (!c.fdc.latch.density && c.fdc.flow.intrq) = true := by
  simp only [gateNmi, signalNmi, nmi, Bool.or_eq_true, Bool.and_eq_true] at h ⊢
  exact h.imp_right And.left

theorem gateNmi_latches (c : Controller) : Latches c (gateNmi c) := by
  intro hpending
  exact (gateNmi_pending hpending).imp_right fun hactive => (Bool.and_eq_true_iff.mp hactive).2

theorem setIntrq_latches (value : Bool) (c : Controller) : Latches c (setIntrq value c) := by
  cases value with
  | true =>
    show Latches c (gateNmi (releaseHalt (c.onFlow fun s => { s with intrq := true })))
    exact .of_same rfl (gateNmi_latches _)
  | false =>
    show Latches c (gateNmi (c.onFlow fun s => { s with intrq := false }))
    exact .of_same rfl (gateNmi_latches _)

/-- INTRQ falls without an edge. -/
theorem setIntrq_false_pending (c : Controller) :
    (setIntrq false c).pins.nmiPending = c.pins.nmiPending := by
  simp [setIntrq, gateNmi, signalNmi, nmi, Controller.onFlow, Controller.onFdc]

theorem readByte_latches (c : Controller) : Latches c (readByte c) := by
  unfold readByte
  split
  · exact .same rfl
  · split
    · exact .of_same rfl (setIntrq_latches true _)
    · exact .same rfl

theorem copyFromCache_pins (off : Nat) (c : Controller) :
    (copyFromCache off c).pins = c.pins := by
  unfold copyFromCache
  split
  · rfl
  · rfl

theorem loadSector_pins (off : Nat) (c : Controller) : (loadSector off c).pins = c.pins :=
  copyFromCache_pins off (c.onXfer fun x => { x with readPending := false })

theorem fdcReadData_latches (c : Controller) : Latches c (fdcReadData c).2 := by
  unfold fdcReadData
  split
  · split
    · exact .of_same rfl (setIntrq_latches true _)
    · exact .of_same (congrArg Pins.nmiPending (loadSector_pins _ c)) (readByte_latches _)
  · exact readByte_latches c

theorem storeSector_pins (sector : Byte) (c : Controller) :
    (storeSector sector c).pins = c.pins := by
  unfold storeSector
  split
  · rfl
  · rfl

theorem wtDecode_pins (value : Byte) (c : Controller) : (wtDecode value c).pins = c.pins := by
  unfold wtDecode
  dsimp only
  split
  · rfl
  · split
    · unfold wtData
      dsimp only
      split
      · exact storeSector_pins _ _
      · rfl
    · rfl

theorem setDrq_pending (value : Bool) (c : Controller) :
    (setDrq value c).pins.nmiPending = c.pins.nmiPending := by
  unfold setDrq
  dsimp only
  split
  · rfl
  · split
    · rfl
    · rfl

theorem fdcWriteTrackByte_latches (value : Byte) (c : Controller) :
    Latches c (fdcWriteTrackByte value c) := by
  have hpins : (wtDecode value (c.onWt .countByte)).pins = c.pins := wtDecode_pins value _
  have hpending := congrArg Pins.nmiPending hpins
  unfold fdcWriteTrackByte
  dsimp only
  split
  · exact .of_same hpending (setIntrq_latches true _)
  · exact .same ((setDrq_pending true _).trans hpending)

theorem fdcWriteData_latches (value : Byte) (c : Controller) :
    Latches c (fdcWriteData value c) := by
  unfold fdcWriteData
  split
  · exact fdcWriteTrackByte_latches value c
  · split
    · dsimp only
      split
      · have hpins := storeSector_pins c.fdc.regs.sector (c.onXfer (.advance value))
        exact .of_same (congrArg Pins.nmiPending hpins) (setIntrq_latches true _)
      · exact .same rfl
    · exact .same rfl

theorem fdcExecuteCommand_latches (cmd : Byte) (c : Controller) :
    Latches c (fdcExecuteCommand cmd c) := by
  unfold fdcExecuteCommand
  dsimp only
  split
  · exact .of_same rfl (setIntrq_latches true _)
  · exact .same rfl

theorem fdcWriteDriveSelect_latches (value : Byte) (c : Controller) :
    Latches c (fdcWriteDriveSelect value c) := by
  have hgate := gateNmi_latches (c.onFdc fun f => { f with latch := dskregLatch value f.flow.intrq })
  exact hgate

theorem svDiskTick_latches (c : Controller) : Latches c (svDiskTick c) := by
  unfold svDiskTick
  split
  · dsimp only
    split
    · exact .of_same rfl (setIntrq_latches true _)
    · exact .same rfl
  · exact .same rfl

theorem Event.step_latches (e : Event) (c : Controller) : Latches c (e.step c) := by
  cases e with
  | read address =>
    dsimp only [Event.step]
    unfold svDiskRead
    split
    · exact .same rfl
    · split
      · exact setIntrq_latches false c
      · exact .same rfl
      · exact .same rfl
      · exact fdcReadData_latches c
  | write address value =>
    dsimp only [Event.step]
    unfold svDiskWrite
    split
    · exact fdcWriteDriveSelect_latches value c
    · split
      · exact .of_same (setIntrq_false_pending c) (fdcExecuteCommand_latches value _)
      · exact .same rfl
      · exact .same rfl
      · exact .of_same rfl (fdcWriteData_latches value _)
  | tick => exact svDiskTick_latches c
  | mount d path io => exact .same rfl
  | eject d io => exact .same rfl
  | flush d io => exact .same rfl

/-! ## A command that is over -/

/-- Nothing is transferred, and no countdown to INTRQ runs. -/
structure Over (f : Fdc) : Prop where
  idle : Idle f
  defer : f.flow.intrqDefer = 0

/-- While INTRQ is high the command is over. -/
theorem Transfer.over_of_intrq {f : Fdc} (h : Transfer f) (hi : f.flow.intrq = true) : Over f := by
  cases h with
  | idle h hdefer =>
    refine ⟨h, Nat.eq_zero_of_not_pos fun hpos => ?_⟩
    exact absurd ((hdefer hpos).symm.trans hi) Bool.false_ne_true
  | read h => exact absurd (h.intrq.symm.trans hi) Bool.false_ne_true
  | write h => exact absurd (h.intrq.symm.trans hi) Bool.false_ne_true
  | track h => exact absurd (h.intrq.symm.trans hi) Bool.false_ne_true

/-- So it is when the controller is not busy and the countdown is over. -/
theorem Transfer.over_of_idle {f : Fdc} (h : Transfer f) (hb : f.flow.busy = false)
    (hd : f.flow.intrqDefer = 0) : Over f := by
  cases h with
  | idle h _ => exact ⟨h, hd⟩
  | read h => exact absurd (hb.symm.trans h.busy) Bool.false_ne_true
  | write h => exact absurd (hb.symm.trans h.busy) Bool.false_ne_true
  | track h => exact absurd (hb.symm.trans h.busy) Bool.false_ne_true

/-- What an event other than a command does once the command is over: it stays over, INTRQ
falls when the status is read and is otherwise as it was, and only DSKREG makes an edge. -/
structure Calm (e : Event) (c c' : Controller) : Prop where
  ended : Over c'.fdc
  intrq : c'.fdc.flow.intrq = (c.fdc.flow.intrq && !e.readsStatus)
  edge : c'.pins.nmiPending = true →
    c.pins.nmiPending = true ∨ e.opensNmi = true ∧ c.fdc.flow.intrq = true

theorem Calm.same {e : Event} {c c' : Controller} (h : Over c.fdc) (hs : e.readsStatus = false)
    (hflow : c'.fdc.flow = c.fdc.flow) (hxfer : c'.fdc.xfer = c.fdc.xfer)
    (hpins : c'.pins.nmiPending = c.pins.nmiPending) : Calm e c c' := by
  obtain ⟨⟨hbusy, hdrq, hreading, hpendingLoad, hwriting, htrack⟩, hdefer⟩ := h
  refine ⟨⟨⟨?_, ?_, ?_, ?_, ?_, ?_⟩, ?_⟩, ?_, ?_⟩
  · rw [hflow, hbusy]
  · rw [hflow, hdrq]
  · rw [hxfer, hreading]
  · rw [hxfer, hpendingLoad]
  · rw [hxfer, hwriting]
  · rw [hxfer, htrack]
  · rw [hflow, hdefer]
  · rw [hflow, hs]
    simp
  · intro hpending
    rw [hpins] at hpending
    exact .inl hpending

theorem Over.read {c : Controller} (h : Over c.fdc) : (fdcReadData c).2 = c := by
  unfold fdcReadData readByte
  rw [h.idle.readPending, h.idle.reading, h.defer]
  rfl

theorem Over.write {c : Controller} (h : Over c.fdc) (value : Byte) :
    fdcWriteData value c = c := by
  unfold fdcWriteData
  rw [h.idle.writeTrack, h.idle.writing]
  rfl

theorem Over.tick {c : Controller} (h : Over c.fdc) : svDiskTick c = c := by
  unfold svDiskTick
  rw [h.defer]
  rfl

/-- INTRQ falls, and nothing else of the transfer changes. -/
theorem Over.intrq_down {c : Controller} (h : Over c.fdc) : Over (setIntrq false c).fdc := by
  rw [setIntrq_fdc]
  exact ⟨{ h.idle with }, h.defer⟩

theorem commandReg_not_dskreg {address : Word} (h : address < 0xFF48) :
    isCommandReg address = false ∧ isDataReg address = false := by
  unfold isCommandReg isDataReg
  rw [decide_eq_true h]
  exact ⟨rfl, rfl⟩

theorem Event.step_calm {e : Event} {c : Controller} (h : Over c.fdc)
    (he : e.isCommand = false) : Calm e c (e.step c) := by
  cases e with
  | read address =>
    dsimp only [Event.step]
    unfold svDiskRead
    split
    · next hlow => exact .same h (commandReg_not_dskreg hlow).1 rfl rfl rfl
    · next hhigh =>
      have hstatus : Event.readsStatus (.read address) = ((address &&& 0x03).toNat == 0) := by
        rw [Event.readsStatus, isCommandReg, decide_eq_false hhigh]
        exact Bool.true_and _
      split
      · next hreg =>
        rw [hreg] at hstatus
        refine ⟨h.intrq_down, ?_, fun hpending => .inl ?_⟩
        · rw [setIntrq_fdc, hstatus]
          exact (Bool.and_false _).symm
        · rw [← setIntrq_false_pending]
          exact hpending
      · next hreg => exact .same h (hstatus.trans (by rw [hreg]; rfl)) rfl rfl rfl
      · next hreg => exact .same h (hstatus.trans (by rw [hreg]; rfl)) rfl rfl rfl
      · next hne _ _ =>
        rw [h.read]
        refine .same h (hstatus.trans ?_) rfl rfl rfl
        exact beq_false_of_ne hne
  | write address value =>
    dsimp only [Event.step]
    unfold svDiskWrite
    split
    · next hlow =>
      refine ⟨⟨{ h.idle with }, h.defer⟩, (Bool.and_true _).symm, fun hpending => ?_⟩
      refine (gateNmi_pending (show (gateNmi (c.onFdc fun f =>
        { f with latch := dskregLatch value f.flow.intrq })).pins.nmiPending = true
          from hpending)).imp_right fun hactive => ?_
      obtain ⟨hopen, hintrq⟩ := Bool.and_eq_true_iff.mp hactive
      refine ⟨?_, hintrq⟩
      have hbit : value.getLsbD 5 = true := by simpa [Controller.onFdc, dskregLatch] using hopen
      rw [Event.opensNmi, decide_eq_true hlow, hbit]
      rfl
    · next hhigh =>
      split
      · next hreg =>
        dsimp only [Event.isCommand] at he
        rw [isCommandReg, decide_eq_false hhigh, hreg] at he
        cases he
      · exact .same h rfl rfl rfl rfl
      · exact .same h rfl rfl rfl rfl
      · have hdata : Over (c.onRegs (.setData value)).fdc := ⟨{ h.idle with }, h.defer⟩
        rw [hdata.write]
        exact .same h rfl rfl rfl rfl
  | tick =>
    rw [Event.step, h.tick]
    exact .same h rfl rfl rfl rfl
  | mount d path io => exact .same h rfl rfl rfl rfl
  | eject d io => exact .same h rfl rfl rfl rfl
  | flush d io => exact .same h rfl rfl rfl rfl

/-! ## The CPU's check -/

variable {σ : Type} {bus : Bus σ}

theorem service_pins (hl : LinesConstant bus) (b : Build) (sv : Service) (c : Core σ) :
    (service bus b sv c).st.env.pins =
      if sv = .nmi then { c.env.pins with nmiPending := false, nmiLine := false }
      else c.env.pins := by
  have hkept : Lines c.env.pins c.regs.nmiArmed (ccTst flagF c.regs.cc) c := ⟨rfl, rfl, rfl⟩
  cases sv with
  | nmi =>
    let p' : Pins := { c.env.pins with nmiPending := false, nmiLine := false }
    let c₀ : Core σ := { c with env := { c.env with pins := p' } }
    have h₀ : Lines p' c.regs.nmiArmed (ccTst flagF c.regs.cc) c₀ := ⟨rfl, rfl, rfl⟩
    have h₁ := stackEntire_lines hl b _ (irqEntry_lines b _ h₀)
    obtain ⟨hpins, -, -, -⟩ := enterHandler_spec hl (flagI ||| flagF) 0xFFFC
      (stackEntire bus b (irqEntry b c₀).st).st
    exact hpins.trans h₁.1
  | firq =>
    have h₁ := stackFirq_lines hl b _ (irqEntry_lines b _ hkept)
    obtain ⟨hpins, -, -, -⟩ := enterHandler_spec hl (flagI ||| flagF) 0xFFF6
      (stackFirq bus b (irqEntry b c).st).st
    exact hpins.trans h₁.1
  | irq =>
    have h₁ := stackEntire_lines hl b _ (irqEntry_lines b _ hkept)
    obtain ⟨hpins, -, -, -⟩ := enterHandler_spec hl flagI 0xFFF8
      (stackEntire bus b (irqEntry b c).st).st
    exact hpins.trans h₁.1

/-- On a bus whose callbacks do not move the lines, the CPU's check is `checkNmi`. -/
theorem checkInterrupts_pins (hl : LinesConstant bus) (b : Build) (c : Core σ) :
    (checkInterrupts bus b c).st.env.pins = checkNmi c.regs.nmiArmed c.env.pins := by
  rw [checkInterrupts_st]
  unfold checkNmi nmiReady
  cases hp : pendingService c.regs c.env.pins with
  | none =>
    have hready : (c.env.pins.nmiPending && c.regs.nmiArmed) = false := by
      unfold pendingService at hp
      split at hp
      · cases hp
      · next hnmi => simpa using hnmi
    rw [hready]
    rfl
  | some sv =>
    dsimp only
    rw [service_pins hl]
    by_cases hsv : sv = .nmi
    · have hready : (c.env.pins.nmiPending && c.regs.nmiArmed) = true := by
        by_contra hnot
        rw [hsv] at hp
        unfold pendingService at hp
        rw [if_neg hnot] at hp
        split at hp
        · cases hp
        · split at hp
          · cases hp
          · cases hp
      rw [if_pos hsv, hready]
      rfl
    · rw [if_neg hsv, (pendingService_order hp).1 hsv]
      rfl

/-! ## Runs -/

/-- What holds between a command and the next: an NMI is latched only while INTRQ is high; once
it was taken, or the status was read, the command is over and no NMI is latched. -/
structure NmiInv (x : Controller × Nmis) : Prop where
  disk : DiskInv x.1
  pending : x.1.pins.nmiPending = true → x.1.fdc.flow.intrq = true
  taken : x.2.taken = 0 ∨ x.2.taken = 1 ∧ Over x.1.fdc ∧ x.1.pins.nmiPending = false
  acked : x.2.acked = true →
    Over x.1.fdc ∧ x.1.fdc.flow.intrq = false ∧ x.1.pins.nmiPending = false
  none : x.2.late = 0

theorem NmiInv.law {x : Controller × Nmis} (h : NmiInv x) : NmiLaw x := by
  refine ⟨?_, fun hacked => (h.acked hacked).2.1, h.none⟩
  rcases h.taken with hnone | ⟨hone, _⟩
  · omega
  · omega

theorem NmiInv.check {x : Controller × Nmis} (h : NmiInv x) (armed : Bool) :
    NmiInv (nmiStep (.check armed) x) := by
  obtain ⟨c, n⟩ := x
  dsimp only [nmiStep, NmiEvent.step, Nmis.note]
  unfold checkNmi
  cases hready : nmiReady armed c.pins with
  | false => exact h
  | true =>
    have hpending : c.pins.nmiPending = true := (Bool.and_eq_true_iff.mp hready).1
    have hover : Over c.fdc := h.disk.transfer.over_of_intrq (h.pending hpending)
    have hfirst : n.taken = 0 := by
      rcases h.taken with hnone | ⟨_, _, hlow⟩
      · exact hnone
      · exact absurd (hlow.symm.trans hpending) Bool.false_ne_true
    have hacked : n.acked = false := by
      cases ha : n.acked with
      | false => rfl
      | true => exact absurd ((h.acked ha).2.2.symm.trans hpending) Bool.false_ne_true
    refine ⟨⟨h.disk.sound, h.disk.transfer, h.disk.halted, h.disk.buf⟩, nofun, .inr ⟨?_, hover, rfl⟩,
      ?_, ?_⟩
    · show n.taken + 1 = 1
      omega
    · intro ha
      exact absurd (hacked.symm.trans ha) Bool.false_ne_true
    · show (if n.acked then n.late + 1 else n.late) = 0
      rw [hacked]
      exact h.none

theorem NmiInv.command {c : Controller} {n : Nmis} (h : NmiInv (c, n)) {e : Event}
    (hlow : c.pins.nmiPending = false) : NmiInv (e.step c, {}) := by
  refine ⟨DiskEvent.step_inv (e := .event e) h.disk, fun hpending => ?_, .inl rfl, nofun, rfl⟩
  rcases e.step_latches c hpending with hbefore | hintrq
  · exact absurd (hlow.symm.trans hbefore) Bool.false_ne_true
  · exact hintrq

/-- An event that is no command, before the command is over: no NMI was taken yet. -/
theorem NmiInv.fresh {c : Controller} {n : Nmis} (h : NmiInv (c, n)) (hnot : ¬Over c.fdc) :
    c.pins.nmiPending = false ∧ n.taken = 0 ∧ n.acked = false := by
  refine ⟨?_, ?_, ?_⟩
  · cases hp : c.pins.nmiPending with
    | false => rfl
    | true => exact absurd (h.disk.transfer.over_of_intrq (h.pending hp)) hnot
  · rcases h.taken with hnone | ⟨_, hover, _⟩
    · exact hnone
    · exact absurd hover hnot
  · cases ha : n.acked with
    | false => rfl
    | true => exact absurd (h.acked ha).1 hnot

/-- What is noted of an event that is no command. -/
theorem Nmis.note_event {e : Event} (he : e.isCommand = false) (c : Controller) (n : Nmis) :
    (n.note (.disk e) c).taken = n.taken ∧ (n.note (.disk e) c).late = n.late ∧
      ((n.note (.disk e) c).acked = true →
        n.acked = true ∨ e.readsStatus = true ∧ c.fdc.flow.busy = false) := by
  dsimp only [Nmis.note]
  rw [he, if_neg Bool.false_ne_true]
  split
  · next hread => exact ⟨rfl, rfl, fun _ => .inr (by simpa using hread)⟩
  · exact ⟨rfl, rfl, .inl⟩

/-- DSKREG is no status register. -/
theorem Event.opensNmi_write {e : Event} (h : e.opensNmi = true) : e.readsStatus = false := by
  cases e with
  | write address value => rfl
  | read address => cases h
  | tick => rfl
  | mount d path io => rfl
  | eject d io => rfl
  | flush d io => rfl

theorem NmiInv.event {c : Controller} {n : Nmis} (h : NmiInv (c, n)) {e : Event}
    (he : e.isCommand = false) (hedge : NmiEvent.OneEdge (.disk e) (c, n)) :
    NmiInv (nmiStep (.disk e) (c, n)) := by
  obtain ⟨htaken, hlate, hacked⟩ := Nmis.note_event he c n
  have hdisk : DiskInv (e.step c) := DiskEvent.step_inv (e := .event e) h.disk
  by_cases hover : Over c.fdc
  · obtain ⟨hover', hintrq', hpending'⟩ := Event.step_calm hover he
    have hunread (hp : c.pins.nmiPending = true) : e.readsStatus = false := by
      cases hr : e.readsStatus with
      | false => rfl
      | true => exact absurd ((hedge.status e rfl hr).1.symm.trans hp) Bool.false_ne_true
    refine ⟨hdisk, fun hpending => ?_, ?_, fun hack => ⟨hover', ?_⟩, hlate.trans h.none⟩
    · show (e.step c).fdc.flow.intrq = true
      rw [hintrq']
      rcases hpending' hpending with hbefore | ⟨hopen, hintrq⟩
      · rw [hunread hbefore, show c.fdc.flow.intrq = true from h.pending hbefore]
        rfl
      · rw [Event.opensNmi_write hopen, hintrq]
        rfl
    · rcases h.taken with hnone | ⟨hone, _, hlow⟩
      · exact .inl (htaken.trans hnone)
      · refine .inr ⟨htaken.trans hone, hover', Bool.eq_false_iff.mpr fun hpending => ?_⟩
        rcases hpending' hpending with hbefore | ⟨hopen, hintrq⟩
        · exact absurd (hlow.symm.trans hbefore) Bool.false_ne_true
        · have hfirst := hedge.select e rfl hopen hintrq
          exact absurd (hone.symm.trans hfirst) Nat.one_ne_zero
    · have hquiet : (c.fdc.flow.intrq = false ∨ e.readsStatus = true) ∧
          c.pins.nmiPending = false := by
        rcases hacked hack with hbefore | ⟨hread, _⟩
        · exact ⟨.inl (h.acked hbefore).2.1, (h.acked hbefore).2.2⟩
        · exact ⟨.inr hread, (hedge.status e rfl hread).1⟩
      refine ⟨?_, Bool.eq_false_iff.mpr fun hpending => ?_⟩
      · show (e.step c).fdc.flow.intrq = false
        rw [hintrq']
        rcases hquiet.1 with hlow | hread
        · rw [hlow]
          rfl
        · rw [hread]
          exact Bool.and_false _
      · rcases hpending' hpending with hbefore | ⟨hopen, hintrq⟩
        · exact absurd (hquiet.2.symm.trans hbefore) Bool.false_ne_true
        · rcases hquiet.1 with hlow | hread
          · exact absurd (hlow.symm.trans hintrq) Bool.false_ne_true
          · exact absurd ((Event.opensNmi_write hopen).symm.trans hread) Bool.false_ne_true
  · obtain ⟨hlow, hfirst, hnotAcked⟩ := h.fresh hover
    refine ⟨hdisk, fun hpending => ?_, .inl (htaken.trans hfirst), fun hack => ?_,
      hlate.trans h.none⟩
    · rcases e.step_latches c hpending with hbefore | hintrq
      · exact absurd (hlow.symm.trans hbefore) Bool.false_ne_true
      · exact hintrq
    · rcases hacked hack with hbefore | ⟨hread, hidle⟩
      · exact absurd (hnotAcked.symm.trans hbefore) Bool.false_ne_true
      · exact absurd (h.disk.transfer.over_of_idle hidle ((hedge.status e rfl hread).2 hidle)) hover

theorem NmiInv.step {e : NmiEvent} {x : Controller × Nmis} (h : NmiInv x) (he : e.OneEdge x) :
    NmiInv (nmiStep e x) := by
  obtain ⟨c, n⟩ := x
  cases e with
  | check armed => exact h.check armed
  | disk e =>
    cases hc : e.isCommand with
    | false => exact h.event hc he
    | true =>
      have hnote : n.note (.disk e) c = {} := by
        dsimp only [Nmis.note]
        rw [hc, if_pos rfl]
      show NmiInv (e.step c, n.note (.disk e) c)
      rw [hnote]
      exact h.command (he.command e rfl hc)

theorem powerOn_nmiInv (card : Card) : NmiInv (powerOn card, {}) :=
  ⟨powerOn_diskInv card, nofun, .inl rfl, nofun, rfl⟩

/-- From power-on, with any card and any accesses, ticks and checks: along a run that makes no
edge twice the CPU takes at most one NMI for a command, and after its status was read INTRQ
stays low and no NMI is taken.  The checks are those of the CPU, on any bus that leaves the
interrupt lines alone. -/
theorem nmi_once (card : Card) (es : List NmiEvent)
    (h : EachStep nmiStep NmiEvent.OneEdge es (powerOn card, {})) :
    Always nmiStep NmiLaw es (powerOn card, {}) ∧
      ∀ (σ : Type) (bus : Bus σ), LinesConstant bus → ∀ (b : Build) (c : Core σ),
        (checkInterrupts bus b c).st.env.pins = checkNmi c.regs.nmiArmed c.env.pins := by
  have hinv : Always nmiStep NmiInv es (powerOn card, {}) :=
    Always.of_step (powerOn_nmiInv card) (fun e x hx he => hx.step he) h
  exact ⟨hinv.imp fun _ hx => hx.law, fun _ _ hl b c => checkInterrupts_pins hl b c⟩

/-- RESTORE raises INTRQ, the NMI is taken and the status read. -/
def restoreRun : List NmiEvent :=
  [.disk (.write 0xFF40 0x21), .disk (.write 0xFF48 0x00), .check true, .disk (.read 0xFF48),
    .disk (.write 0xFF40 0x21), .check true]

theorem nmi_once_restore :
    (runAll nmiStep restoreRun (powerOn oneTrackCard, {})).2 = ⟨1, true, 0⟩ ∧
      Always nmiStep NmiLaw restoreRun (powerOn oneTrackCard, {}) := by
  refine ⟨by decide +kernel, (nmi_once oneTrackCard restoreRun ?_).1⟩
  refine ⟨⟨?_, ?_, ?_⟩, ⟨?_, ?_, ?_⟩, ⟨nofun, nofun, nofun⟩, ⟨?_, ?_, ?_⟩, ⟨?_, ?_, ?_⟩,
    ⟨nofun, nofun, nofun⟩, trivial⟩
  all_goals
    rintro d hd
    obtain rfl := NmiEvent.disk.inj hd
    decide +kernel

/-- The status is not read: DSKREG is written again. -/
def selectAgain : List NmiEvent :=
  [.disk (.write 0xFF48 0x00), .check true, .disk (.write 0xFF40 0x21), .check true]

/-- The status is read between the last byte and the end of the countdown. -/
def earlyStatus : List NmiEvent :=
  let events : List Event := mountOne ++ [.write 0xFF48 0x80] ++
    List.replicate 256 (.read 0xFF4B) ++ [.read 0xFF48] ++ List.replicate 5 .tick
  events.map NmiEvent.disk ++ [.check true]

/-- The first run takes two NMIs for one command; in the second INTRQ rises, and an NMI is
taken, after the status of the completed command was read. -/
theorem selectAgain_second_nmi :
    (runAll nmiStep selectAgain (powerOn oneTrackCard, {})).2.taken = 2 ∧
    ((runAll nmiStep earlyStatus (powerOn oneTrackCard, {})).1.fdc.flow.intrq = true ∧
      (runAll nmiStep earlyStatus (powerOn oneTrackCard, {})).2 = ⟨1, true, 1⟩) ∧
    ¬∀ card es, Always nmiStep NmiLaw es (powerOn card, {}) := by
  have htwo : (runAll nmiStep selectAgain (powerOn oneTrackCard, {})).2.taken = 2 := by
    decide +kernel
  refine ⟨htwo, by decide +kernel, fun hall => ?_⟩
  have honce := (hall oneTrackCard selectAgain).last.once
  omega

end CocoEmulator.Disk
