/-
  Sound/Cartridge.lean --- the three chips of the Speech/Sound Cartridge, wired (ssc.cpp).

  The TMS7040's ports reach the AY-3-8913, the SP0256 and the static RAM through the
  latches; the SP0256 drives INT1 and the CoCo's bytes drive INT3.  `chips` puts the three
  models in place of the parameters of the engine.

  The counters `s_ay_write_count` and `s_ald_speech_count` are outputs that nothing here
  reads, and are left out.
-/
import CocoEmulator.Sound.ChipRange
import CocoEmulator.Sound.SpeechRing
import CocoEmulator.Sound.TmsBudget

set_option autoImplicit false

namespace CocoEmulator.Sound

open CocoEmulator.Base

/-- The cartridge, but for the TMS7040 and the clocks. -/
structure Cartridge where
  spo : Sp0256
  ay : Ay8913 := {}
  ram : BitVec 11 → Byte := fun _ => 0
  resetLine : Byte := 1
  portaLatch : Byte := 0
  portbLatch : Byte := 0
  portcLatch : Byte := 0xff
  portdLatch : Byte := 0
  consumed : Index := 0
  released : Index := 0

namespace Cartridge

variable (c : Cartridge)

/-- `release_busy` -/
def releaseBusy : Cartridge := { c with released := c.consumed }

/-- The address in the static RAM: ports C and B. -/
def ramAddress (portc : Byte) : BitVec 11 := (portc ++ c.portbLatch).setWidth 11

/-- A write of the static RAM: `C_RCS` and `C_RRW` are low. -/
def writeRam (data : Byte) : Cartridge :=
  if data &&& 0x10 = 0 ∧ data &&& 0x08 = 0 then
    { c with ram := Function.update c.ram (c.ramAddress data) c.portdLatch }
  else c

/-- What port C says to the AY, which `C_ACS` selects. -/
def strobeAy (data : Byte) : Cartridge :=
  if data &&& 0x40 = 0 then
    let c := if data &&& 0x09 = 0x09 then { c with ay := c.ay.selectRegister c.portdLatch } else c
    if data &&& 0x08 ≠ 0 ∧ data &&& 0x01 = 0 then { c with ay := c.ay.writeData c.portdLatch } else c
  else c

/-- `C_ALD` falls with a code on port D. -/
def aldFalls (data : Byte) : Bool :=
  c.portcLatch &&& 0x20 != 0 && data &&& 0x20 == 0 && decide (c.portdLatch < 64)

/-- `C_BSY` rises. -/
def releaseOn (data : Byte) : Cartridge :=
  if c.portcLatch &&& 0x80 = 0 ∧ data &&& 0x80 ≠ 0 then c.releaseBusy else c

/-- Port D is driven by the RAM or by the AY, and latched. -/
def driveD : Cartridge :=
  let c := if c.portcLatch &&& 0x10 = 0 ∧ c.portcLatch &&& 0x08 ≠ 0 then
      { c with portdLatch := c.ram (c.ramAddress c.portcLatch) }
    else c
  if c.portcLatch &&& 0x40 = 0 ∧ c.portcLatch &&& 0x08 = 0 ∧ c.portcLatch &&& 0x01 ≠ 0 then
    { c with portdLatch := c.ay.readData }
  else c

end Cartridge

/-- The processor and the cartridge around it. -/
abbrev Unit7040 : Type := Board Cartridge

namespace Unit7040

variable (u : Unit7040)

/-- `ssc_bus_speech_drq` -/
def speechDrq (ready : Bool) : Unit7040 := { u with cpu := u.cpu.setIrqLine .int1 ready }

def onBus (f : Cartridge → Cartridge) : Unit7040 := { u with bus := f u.bus }

/-- The SP0256, but for its ring, replaced. -/
def withSpo (s : Sp0256.Sequencer) : Unit7040 :=
  u.onBus fun c => { c with spo := c.spo.withCore s }

/-- `Sp0256::Ald`, with the line it drives. -/
def ald (data : Byte) : Unit7040 :=
  let spo := u.bus.spo
  let u := u.withSpo (spo.aldWrite data)
  if spo.lrq = true then u.speechDrq false else u

/-- `Sp0256::Reset`, with the line it drives. -/
def resetSpo : Unit7040 := (u.withSpo u.bus.spo.reset).speechDrq true

/-! ## Ports -/

/-- `ssc_bus_porta_read` -/
def portaRead : Byte × Unit7040 :=
  (u.bus.portaLatch, { u with cpu := u.cpu.setIrqLine .int3 false })

/-- `ssc_bus_portb_write` -/
def portbWrite (data : Byte) (u : Unit7040) : Unit7040 :=
  u.onBus fun c => { c with portbLatch := data }

/-- `ssc_bus_portc_read` -/
def portcRead : Byte × Unit7040 := (u.bus.portcLatch, u)

/-- `ssc_bus_portc_write` -/
def portcWrite (data : Byte) (u : Unit7040) : Unit7040 :=
  let u := u.onBus fun c => (c.writeRam data).strobeAy data
  let u := if u.bus.aldFalls data = true then u.ald u.bus.portdLatch else u
  u.onBus fun c => { c.releaseOn data with portcLatch := data }

/-- `ssc_bus_portd_read` -/
def portdRead : Byte × Unit7040 := (u.bus.driveD.portdLatch, u.onBus Cartridge.driveD)

/-- `ssc_bus_portd_write` -/
def portdWrite (data : Byte) (u : Unit7040) : Unit7040 :=
  u.onBus fun c => { c with portdLatch := data }

/-- The wiring of the ports. -/
def ports : BusPorts Cartridge where
  portaRead := portaRead
  portbWrite := portbWrite
  portcRead := portcRead
  portcWrite := portcWrite
  portdRead := portdRead
  portdWrite := portdWrite

/-! ## Commands -/

/-- `Tms7000::Reset` -/
def resetCpu : Unit7040 := (Board.reset ports u).2

/-- `engine_reset` -/
def engineReset : Unit7040 :=
  let u := u.onBus fun c => { c with
    resetLine := 1, portaLatch := 0, portbLatch := 0, portcLatch := 0xff, portdLatch := 0
    ram := fun _ => 0 }
  let u := u.resetCpu.onBus fun c => { c with ay := {} }
  u.resetSpo.onBus Cartridge.releaseBusy

/-- `engine_ctrl_write` -/
def engineCtrlWrite (val : Byte) : Unit7040 :=
  let u := if val &&& 1 ≠ 0 then u.resetSpo else u
  let u := if u.bus.resetLine &&& 1 ≠ 0 ∧ val &&& 1 = 0 then
      (u.resetCpu.onBus fun c => { c with ay := {} }).onBus Cartridge.releaseBusy
    else u
  u.onBus fun c => { c with resetLine := val }

/-- `engine_data_write` -/
def engineDataWrite (val : Byte) : Unit7040 :=
  let u := u.onBus fun c => { c with portaLatch := val, consumed := c.consumed + 1 }
  { u with cpu := u.cpu.setIrqLine .int3 true }

/-! ## The engine -/

/-- The AY's share of a scanline. -/
def renderAy (steps : Int) (u : Unit7040) : Int × Unit7040 :=
  let r := u.bus.ay.render steps
  (r.2, u.onBus fun c => { c with ay := r.1 })

/-- One sample of the SP0256; `Micro` may raise the line. -/
def generateSample (u : Unit7040) : Int × Unit7040 :=
  let r := (u.bus.spo.generateSamples Sp0256.enough 1).getD ([], false, u.bus.spo)
  let u := u.onBus fun c => { c with spo := r.2.2 }
  (r.1.headD 0, if r.2.1 = true then u.speechDrq true else u)

/-- The chips of the engine. -/
def chips : SscEngine.Chips Unit7040 where
  execute := Board.execute ports
  render := renderAy
  generateSample := generateSample
  reset := engineReset

end Unit7040

/-- What happens to the engine: a scanline, or a command of the CoCo between two of them. -/
inductive Turn
  | scanline
  | ctrl (val : Byte)
  | data (val : Byte)
  | reset
deriving DecidableEq, Repr

/-- The engine with its chips. -/
abbrev Engine7040 : Type := SscEngine.Engine Unit7040

/-- A command between two scanlines. -/
def onChips (f : Unit7040 → Unit7040) (e : Engine7040) : Engine7040 :=
  { e with chips := f e.chips }

def Turn.step (t : Turn) (e : Engine7040) : Engine7040 :=
  match t with
  | .scanline => (e.runScanline Unit7040.chips).2
  | .ctrl val => onChips (Unit7040.engineCtrlWrite · val) e
  | .data val => onChips (Unit7040.engineDataWrite · val) e
  | .reset => e.reset Unit7040.chips

/-- The engine after `ssc_load_roms_from`. -/
def poweredOn (pic : BitVec 12 → Byte) (speech : BitVec 11 → BitVec 8) : Engine7040 :=
  SscEngine.Engine.reset Unit7040.chips { chips := ⟨{ rom := pic }, { spo := { rom := speech } }⟩ }

end CocoEmulator.Sound
