/-
  Serial/Mc6551.lean --- the ACIA of the RS-232 Pak (mc6551.cpp) and a guest at it.

  The chip with what its two callbacks see: `rxIn` is what `mc6551_rx_byte_in` will
  deliver, `txOut` what `mc6551_tx_byte_out` was given.  Both are wired, as
  `hal_rs232_begin` does.  The countdowns are `int32_t`; a difference that leaves the
  range wraps, and a session records that it did.

  Not modelled: the counters of the debug page, and the reset of the whole machine.
-/
import CocoEmulator.Base.Run
import CocoEmulator.Base.Words

set_option autoImplicit false

namespace CocoEmulator.Serial

open CocoEmulator.Base

/-! ## The chip -/

/-- `MC6551_CPU_CLOCK_HZ`. -/
def cpuClockHz : Nat := 895000

/-- `baud_table`; entry 0 is the external clock, which does not exist here. -/
def baudTable : List Nat :=
  [0, 50, 75, 110, 134, 150, 300, 600, 1200, 1800, 2400, 3600, 4800, 7200, 9600, 19200]

/-- The rate a value of the control register selects. -/
def baudOf (control : Byte) : Nat := baudTable.getD (control &&& 0x0F).toNat 0

/-- The cycles of ten bit times; without a rate there is no throttle. -/
def byteTime (baud : Nat) : Int :=
  if baud = 0 then 1 else max 1 ((cpuClockHz * 10 / baud : Nat) : Int)

structure Mc6551 where
  regCommand : Byte := 0
  regControl : Byte := 0
  rxData : Byte := 0
  tdre : Bool := true
  rdrf : Bool := false
  overrun : Bool := false
  irqFlag : Bool := false
  rxIrqEn : Bool := false
  txIrqEn : Bool := false
  echoEn : Bool := false
  baud : Nat := 0
  cyclesPerByte : Int := 1
  txBusy : Bool := false
  txCountdown : Int := 0
  txPending : Bool := false
  txPendingByte : Byte := 0
  rxCountdown : Int := 0
  rxIn : List Byte := []
  txOut : List Byte := []
deriving DecidableEq, Repr

/-- The address bits a register access decodes: `reg & 0x03`. -/
inductive Reg
  | data
  | status
  | command
  | control
deriving DecidableEq, Repr

def decodeReg (reg : Byte) : Reg :=
  match (reg &&& 0x03).toNat with
  | 0 => .data
  | 1 => .status
  | 2 => .command
  | _ => .control

namespace Mc6551

variable (s : Mc6551)

/-- `recompute_command`. -/
def recomputeCommand : Mc6551 :=
  { s with
    rxIrqEn := s.regCommand &&& 0x02 == 0
    txIrqEn := (s.regCommand >>> 2) &&& 0x03 == 0x01
    echoEn := s.regCommand &&& 0x10 != 0 }

/-- `recompute_control`. -/
def recomputeControl : Mc6551 :=
  { s with baud := baudOf s.regControl, cyclesPerByte := byteTime (baudOf s.regControl) }

/-- `set_irq`. -/
def setIrq : Mc6551 := { s with irqFlag := true }

/-- `tx_submit`: the byte goes out at once if the line is idle, else into the slot. -/
def txSubmit (b : Byte) : Mc6551 :=
  if s.txBusy then { s with txPending := true, txPendingByte := b }
  else
    { s with
      txBusy := true
      txCountdown := s.cyclesPerByte
      tdre := false
      txOut := s.txOut ++ [b] }

/-- `assemble_status`. -/
def assembleStatus : Byte :=
  (if s.irqFlag then 0x80 else 0) ||| (if s.tdre then 0x10 else 0) |||
    (if s.rdrf then 0x08 else 0) ||| (if s.overrun then 0x04 else 0)

/-- `mc6551_reset`. -/
def reset : Mc6551 :=
  let s := { s with
    regCommand := 0, regControl := 0, rxData := 0, tdre := true, rdrf := false
    overrun := false, irqFlag := false, txBusy := false, txPending := false
    txPendingByte := 0 }.recomputeCommand.recomputeControl
  { s with txCountdown := s.cyclesPerByte, rxCountdown := s.cyclesPerByte }

/-- `mc6551_read`. -/
def read (reg : Byte) : Byte × Mc6551 :=
  match decodeReg reg with
  | .data => (s.rxData, { s with rdrf := false, overrun := false })
  | .status => (s.assembleStatus, { s with irqFlag := false })
  | .command => (s.regCommand, s)
  | .control => (s.regControl, s)

/-- `mc6551_write`; a write of the status register is the programmed reset. -/
def write (reg val : Byte) : Mc6551 :=
  match decodeReg reg with
  | .data => s.txSubmit val
  | .status =>
    { s with
      overrun := false, rdrf := false, tdre := true, irqFlag := false
      regCommand := s.regCommand &&& ~~~0x1F }.recomputeCommand
  | .command => { s with regCommand := val }.recomputeCommand
  | .control => { s with regControl := val }.recomputeControl

/-- The end of a transmitted byte. -/
def txDone : Mc6551 :=
  let s := { s with txBusy := false, tdre := true }
  let s := if s.txIrqEn then s.setIrq else s
  if s.txPending then { s with txPending := false }.txSubmit s.txPendingByte else s

/-- TX completion. -/
def tickTx (cyc : Int) : Mc6551 :=
  if s.txBusy then
    let s := { s with txCountdown := i32 (s.txCountdown - cyc) }
    if s.txCountdown ≤ 0 then s.txDone else s
  else s

/-- A byte that `mc6551_rx_byte_in` delivered; with RDRF set it is dropped. -/
def rxTake (b : Byte) (rest : List Byte) : Mc6551 :=
  let s := { s with rxIn := rest, rxCountdown := s.cyclesPerByte }
  if s.rdrf then { s with overrun := true }
  else
    let s := { s with rxData := b, rdrf := true }
    let s := if s.rxIrqEn then s.setIrq else s
    if s.echoEn then s.txSubmit b else s

/-- RX intake; on an empty ring the countdown is left as it is. -/
def tickRx (cyc : Int) : Mc6551 :=
  let s := { s with rxCountdown := i32 (s.rxCountdown - cyc) }
  if s.rxCountdown ≤ 0 then
    match s.rxIn with
    | [] => s
    | b :: rest => s.rxTake b rest
  else s

/-- `mc6551_tick`. -/
def tick (cpuCycles : BitVec 32) : Mc6551 :=
  (s.tickTx cpuCycles.toInt).tickRx cpuCycles.toInt

end Mc6551

/-! ## Sessions -/

/-- What happens at the chip: the guest's accesses, the scanline tick, and a byte that
arrives in the ring of the host. -/
inductive Access
  | read (reg : Byte)
  | write (reg val : Byte)
  | tick (cpuCycles : BitVec 32)
  | arrive (b : Byte)
deriving DecidableEq, Repr

/-- The chip and a record: the data bytes the guest wrote, whether it saw TDRE since
the last of them, the cycles a deliverable byte has waited at the present rate, whether
`rx_countdown` left its range, and when the receiver last began a byte time: the byte time
it loaded then, by the reset or by the last byte that left the ring, and the cycles since. -/
structure Session where
  chip : Mc6551
  written : List Byte := []
  tdreSeen : Bool := false
  waited : Nat := 0
  overflowed : Bool := false
  loaded : Int := chip.cyclesPerByte
  since : Nat := 0
deriving DecidableEq, Repr

/-- Is a byte available, and RDRF clear? -/
def Mc6551.waiting (s : Mc6551) : Bool := !s.rdrf && !s.rxIn.isEmpty

namespace Session

variable (s : Session)

/-- After `mc6551_reset`. -/
def start : Session := { chip := ({} : Mc6551).reset }

/-- The cycles a byte that is already waiting has waited. -/
def waitedOn : Nat := if s.chip.waiting then s.waited else 0

def read (reg : Byte) : Session :=
  let (val, chip) := s.chip.read reg
  { s with
    chip := chip
    tdreSeen := s.tdreSeen || (decodeReg reg == .status && val &&& 0x10 != 0)
    waited := s.waitedOn }

/-- A write of the control register starts the wait anew, at the new rate. -/
def write (reg val : Byte) : Session :=
  let t := { s with chip := s.chip.write reg val, waited := s.waitedOn }
  match decodeReg reg with
  | .data => { t with written := t.written ++ [val], tdreSeen := false }
  | .status => t
  | .command => t
  | .control => { t with waited := 0 }

/-- A tick at which the waiting byte stays in the ring adds its cycles; one at which a byte
leaves the ring begins a byte time. -/
def tick (cpuCycles : BitVec 32) : Session :=
  let chip := s.chip.tick cpuCycles
  let stays := chip.rxIn == s.chip.rxIn
  { s with
    chip := chip
    waited := if s.chip.waiting && stays then s.waited + cpuCycles.toNat else 0
    overflowed := s.overflowed || !decide (FitsI32 (s.chip.rxCountdown - cpuCycles.toInt))
    loaded := if stays then s.loaded else s.chip.cyclesPerByte
    since := if stays then s.since + cpuCycles.toNat else 0 }

def arrive (b : Byte) : Session :=
  { s with
    chip := { s.chip with rxIn := s.chip.rxIn ++ [b] }
    waited := s.waitedOn }

end Session

def Access.step : Access → Session → Session
  | .read reg, s => s.read reg
  | .write reg val, s => s.write reg val
  | .tick cpuCycles, s => s.tick cpuCycles
  | .arrive b, s => s.arrive b

/-! ## Small facts -/

@[simp] theorem Session.write_chip (s : Session) (reg val : Byte) :
    (s.write reg val).chip = s.chip.write reg val := by
  unfold Session.write
  dsimp only
  split <;> rfl

theorem Session.write_data (s : Session) {reg val : Byte} (h : decodeReg reg = .data) :
    (s.write reg val).written = s.written ++ [val] ∧ (s.write reg val).tdreSeen = false := by
  unfold Session.write
  rw [h]
  exact ⟨rfl, rfl⟩

/-- A write of another register leaves the record of the data bytes alone. -/
theorem Session.write_other (s : Session) {reg val : Byte} (h : decodeReg reg ≠ .data) :
    (s.write reg val).written = s.written ∧ (s.write reg val).tdreSeen = s.tdreSeen := by
  unfold Session.write
  cases hdec : decodeReg reg with
  | data => exact absurd hdec h
  | status => exact ⟨rfl, rfl⟩
  | command => exact ⟨rfl, rfl⟩
  | control => exact ⟨rfl, rfl⟩

/-- The chip between the end of a byte and the held one. -/
def Mc6551.lineIdle (s : Mc6551) : Mc6551 :=
  { s with txBusy := false, tdre := true, irqFlag := s.irqFlag || s.txIrqEn, txPending := false }

theorem Mc6551.txDone_eq (s : Mc6551) :
    s.txDone = if s.txPending then s.lineIdle.txSubmit s.txPendingByte else s.lineIdle := by
  unfold Mc6551.txDone Mc6551.lineIdle Mc6551.setIrq
  cases hirq : s.txIrqEn <;> cases hfull : s.txPending <;> simp

/-- The chip with a byte that was taken and stored. -/
def Mc6551.received (s : Mc6551) (b : Byte) (rest : List Byte) : Mc6551 :=
  { s with
    rxIn := rest
    rxCountdown := s.cyclesPerByte
    rxData := b
    rdrf := true
    irqFlag := s.irqFlag || s.rxIrqEn }

theorem Mc6551.rxTake_eq (s : Mc6551) (b : Byte) (rest : List Byte) :
    s.rxTake b rest =
      if s.rdrf then { s with rxIn := rest, rxCountdown := s.cyclesPerByte, overrun := true }
      else if s.echoEn then (s.received b rest).txSubmit b else s.received b rest := by
  unfold Mc6551.rxTake Mc6551.received Mc6551.setIrq
  cases hirq : s.rxIrqEn <;> cases hfull : s.rdrf <;> simp

theorem Mc6551.write_data (s : Mc6551) {reg : Byte} (h : decodeReg reg = .data) (val : Byte) :
    s.write reg val = s.txSubmit val := by
  unfold Mc6551.write
  rw [h]

theorem byteTime_pos (baud : Nat) : 0 < byteTime baud := by
  unfold byteTime
  split
  · decide
  · exact Int.lt_of_lt_of_le Int.one_pos (Int.le_max_left 1 _)

theorem byteTime_le (baud : Nat) : byteTime baud ≤ 8950000 := by
  unfold byteTime
  split
  · decide
  · apply Int.max_le.mpr
    have hle : cpuClockHz * 10 / baud ≤ cpuClockHz * 10 := Nat.div_le_self _ _
    unfold cpuClockHz at *
    omega

theorem byteTime_fits (baud : Nat) : FitsI32 (byteTime baud) := by
  have hpos := byteTime_pos baud
  have hle := byteTime_le baud
  unfold FitsI32
  omega

end CocoEmulator.Serial
