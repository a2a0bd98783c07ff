/-
  Machine/Keyboard.lean --- what a read of PIA0 port A puts on its input lines.

  Both machines scan the keyboard matrix, the joystick buttons and the joystick
  comparator with the same code before they read the register.  What the host
  answers is an input (`Hal`).  Not modelled: when the joystick ADC is sampled
  again (`hal_joystick_update`), which changes what the host answers next.
-/
import CocoEmulator.Chip.Mc6821
import CocoEmulator.Base.Words

set_option autoImplicit false

namespace CocoEmulator.Machine

open CocoEmulator.Chip

/-- The answers of the host at one read. -/
structure Hal where
  /-- `hal_keyboard_scan`: the row lines for a column -/
  keyboardScan : Nat → Byte := fun _ => 0xFF
  /-- `hal_joystick_read_button` -/
  button : Nat → Bool := fun _ => false
  /-- `hal_joystick_read_axis`: port, axis -/
  axis : Nat → Nat → Byte := fun _ _ => 0

/-- The rows of every column port B drives low. -/
def matrixRows (hal : Hal) (colSelect : Byte) : Byte :=
  (List.range 8).foldl
    (fun rows col => if colSelect.getLsbD col then rows else rows &&& hal.keyboardScan col) 0xFF

/-- Does the joystick axis selected by CA2 and CB2 reach the DAC level? -/
def comparator (hal : Hal) (pia0 pia1 : Mc6821) : Bool :=
  let joyPort := if Mc6821.has pia0.b.ctrl 0x08 then 1 else 0
  let joyAxis := if Mc6821.has pia0.a.ctrl 0x08 then 1 else 0
  let dac := (pia1.a.data &&& pia1.a.ddr &&& 0xFC).toNat + 2
  let js := (hal.axis joyPort joyAxis).toNat * 4 + 2
  dac ≤ js

/-- `row_data`. -/
def rowData (hal : Hal) (pia0 pia1 : Mc6821) : Byte :=
  let rows := matrixRows hal (pia0.b.data &&& pia0.b.ddr)
  let rows := if hal.button 0 then rows &&& ~~~0x01 else rows
  let rows := if hal.button 1 then rows &&& ~~~0x02 else rows
  if comparator hal pia0 pia1 then rows ||| 0x80 else rows &&& ~~~0x80

/-- Does a read of this PIA0 register scan the keyboard? -/
def scansKeyboard (pia0 : Mc6821) (reg : Byte) : Bool :=
  reg == 0 && pia0.dataSelected .a

/-- PIA0 with the scan on its port A inputs, where the read makes one. -/
def scanned (hal : Hal) (pia0 pia1 : Mc6821) (reg : Byte) : Mc6821 :=
  if scansKeyboard pia0 reg then pia0.mc6821SetInputA (rowData hal pia0 pia1) else pia0

end CocoEmulator.Machine
