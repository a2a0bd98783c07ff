/-
  Storage/Vhd.lean --- the virtual hard disk (vhd.cpp).

  The guest sets a block number and a buffer address in $FF80-$FF86 and writes a
  command to $FF83; the block moves to or from the guest's memory at once, through
  the machine's own bus.  That bus decodes the controller as well (machine.cpp
  412-416 and 1238-1242), so a transfer may reach the registers it runs from: the
  nesting of commands is bounded here by `fuel`.

  The rest of the machine is whatever answers the other addresses (`Bus`).

  Beside the state the model records each block moved and each byte that a transfer
  puts on the bus.

  Not modelled: the debug prints.
-/
import CocoEmulator.Storage.BlockFile
import Mathlib.Data.BitVec

set_option autoImplicit false

namespace CocoEmulator.Storage

open CocoEmulator.Base CocoEmulator.Disk

abbrev Addr : Type := BitVec 16

/-- `VHD_NUM_DRIVES` drives. -/
abbrev HardDrive : Type := Fin 2

abbrev hardDrive0 : HardDrive := ⟨0, Nat.two_pos⟩

/-- `VHD_MAX_BYTES`. -/
def vhdMaxBytes : Nat := 512 * 1024 * 1024

/-- `VHD_ST_OK`. -/
def vhdStOk : Byte := 0x00

/-- `VHD_ST_PWRUP`. -/
def vhdStPwrup : Byte := 0xFF

/-- `VHD_ST_INVALID`. -/
def vhdStInvalid : Byte := 0xFE

/-- `VHD_ST_NODISK`. -/
def vhdStNodisk : Byte := 0x04

/-- `VHD_ST_WPROT`. -/
def vhdStWprot : Byte := 0x05

/-- A block: `sizeof(s_sector)`. -/
def blockSize : Nat := 256

/-- The registers: bits 31-8 of `s_offset`, whose low byte is always zero, the two bytes of
`s_buf_addr`, and `s_drive_sel`. -/
structure Regs where
  high : Byte := 0
  mid : Byte := 0
  low : Byte := 0
  bufHigh : Byte := 0
  bufLow : Byte := 0
  driveSel : HardDrive := hardDrive0

/-- `s_offset`. -/
def Regs.offset (r : Regs) : Nat := r.high.toNat * 2 ^ 24 + r.mid.toNat * 2 ^ 16 + r.low.toNat * 2 ^ 8

/-- `s_buf_addr`. -/
def Regs.bufAddr (r : Regs) : Addr := r.bufHigh ++ r.bufLow

/-- `vhd_is_port`. -/
def vhdIsPort (addr : Addr) : Bool := decide (0xFF80 ≤ addr) && decide (addr ≤ 0xFF86)

/-- `vhd_write` of a register other than the command. -/
def Regs.write (addr : Addr) (val : Byte) (r : Regs) : Regs :=
  if addr = 0xFF80 then { r with high := val }
  else if addr = 0xFF81 then { r with mid := val }
  else if addr = 0xFF82 then { r with low := val }
  else if addr = 0xFF84 then { r with bufHigh := val }
  else if addr = 0xFF85 then { r with bufLow := val }
  else if addr = 0xFF86 then
    if h : val.toNat < 2 then { r with driveSel := ⟨val.toNat, h⟩ } else r
  else r

/-- A block moved, from the image or to it, and its offset. -/
structure Move where
  toImage : Bool
  offset : Nat
  deriving DecidableEq

/-- The rest of the machine. -/
structure Bus (R : Type) where
  read : Addr → R → Byte × R
  write : Addr → Byte → R → R

/-- The controller, the card and the rest of the machine. -/
structure Vhd (R : Type) where
  regs : Regs := {}
  status : Byte := vhdStPwrup
  sector : Nat → Byte := fun _ => 0
  drives : HardDrive → BlockFile := fun _ => {}
  card : Card
  turned : Bool := false
  rest : R
  moves : List Move := []
  writes : List (Addr × Byte) := []

section

variable {R : Type}

/-- The selected image. -/
def Vhd.blk (v : Vhd R) : Blk := ⟨v.drives v.regs.driveSel, v.card, v.turned⟩

def Vhd.setBlk (s : Blk) (v : Vhd R) : Vhd R :=
  { v with
    drives := Function.update v.drives v.regs.driveSel s.bf, card := s.card, turned := s.turned }

def Vhd.setStatus (status : Byte) (v : Vhd R) : Vhd R := { v with status := status }

/-- `vhd_read`. -/
def vhdRead (addr : Addr) (v : Vhd R) : Byte :=
  if addr = 0xFF80 then v.regs.high
  else if addr = 0xFF81 then v.regs.mid
  else if addr = 0xFF82 then v.regs.low
  else if addr = 0xFF83 then v.status
  else if addr = 0xFF84 then v.regs.bufHigh
  else if addr = 0xFF85 then v.regs.bufLow
  else if addr = 0xFF86 then BitVec.ofNat 8 v.regs.driveSel.val
  else 0xFF

/-- `machine_read`. -/
def machineRead (bus : Bus R) (addr : Addr) (v : Vhd R) : Byte × Vhd R :=
  if vhdIsPort addr then (vhdRead addr v, v)
  else
    let r := bus.read addr v.rest
    (r.1, { v with rest := r.2 })

/-- The block a read delivers: what the image gives, and zeros for the rest. -/
def readBlock (io : BlkIo) (v : Vhd R) : Nat → Byte :=
  let r := blockfileRead io v.regs.offset v.sector blockSize v.blk
  splice r.2.1 r.1 (blockSize - r.1) fun _ => 0

/-- `cmd_read` up to the transfer. -/
def loadSector (io : BlkIo) (v : Vhd R) : Vhd R :=
  let r := blockfileRead io v.regs.offset v.sector blockSize v.blk
  { v.setBlk r.2.2 with
    sector := readBlock io v
    moves := v.moves ++ [⟨false, v.regs.offset⟩] }

/-- The loop of `cmd_read`, from byte `i` on: the buffer address is read again for each
byte. -/
def putLoop (put : Addr → Byte → Vhd R → Option (Vhd R)) : Nat → Nat → Vhd R → Option (Vhd R)
  | 0, _, v => some v
  | n + 1, i, v =>
      let addr := v.regs.bufAddr + BitVec.ofNat 16 i
      let val := v.sector i
      (put addr val { v with writes := v.writes ++ [(addr, val)] }).bind (putLoop put n (i + 1))

/-- `cmd_read`. -/
def cmdRead (io : BlkIo) (put : Addr → Byte → Vhd R → Option (Vhd R)) (v : Vhd R) :
    Option (Vhd R) :=
  if vhdMaxBytes ≤ v.regs.offset then some (v.setStatus vhdStNodisk)
  else (putLoop put blockSize 0 (loadSector io v)).map (Vhd.setStatus vhdStOk)

/-- The loop of `cmd_write`. -/
def getLoop (bus : Bus R) : Nat → Nat → Vhd R → Vhd R
  | 0, _, v => v
  | n + 1, i, v =>
      let r := machineRead bus (v.regs.bufAddr + BitVec.ofNat 16 i) v
      getLoop bus n (i + 1) { r.2 with sector := Function.update r.2.sector i r.1 }

/-- `cmd_write` once the block is read from the guest. -/
def storeSector (io : BlkIo) (v : Vhd R) : Vhd R :=
  let r := blockfileWrite io v.regs.offset v.sector blockSize v.blk
  { v.setBlk r.2 with
    status := if r.1 = blockSize then vhdStOk else vhdStNodisk
    moves := v.moves ++ [⟨true, v.regs.offset⟩] }

/-- `cmd_write`. -/
def cmdWrite (io : BlkIo) (bus : Bus R) (v : Vhd R) : Vhd R :=
  if vhdMaxBytes ≤ v.regs.offset then v.setStatus vhdStNodisk
  else if v.blk.bf.readOnly then v.setStatus vhdStWprot
  else storeSector io (getLoop bus blockSize 0 v)

/-- The flush command. -/
def cmdFlush (v : Vhd R) : Vhd R :=
  { v.setBlk { v.blk with bf := blockfileFlush v.blk.bf } with
    regs := { v.regs with high := 0, mid := 0, low := 0, bufHigh := 0, bufLow := 0 }
    status := vhdStOk }

/-- `command`. -/
def command (io : BlkIo) (bus : Bus R) (put : Addr → Byte → Vhd R → Option (Vhd R)) (cmd : Byte)
    (v : Vhd R) : Option (Vhd R) :=
  if !blockfileIsOpen v.blk.bf then some (v.setStatus vhdStNodisk)
  else if cmd = 0 then cmdRead io put v
  else if cmd = 1 then some (cmdWrite io bus v)
  else if cmd = 2 then some (cmdFlush v)
  else some (v.setStatus vhdStInvalid)

/-- `vhd_write`. -/
def vhdWrite (io : BlkIo) (bus : Bus R) (put : Addr → Byte → Vhd R → Option (Vhd R)) (addr : Addr)
    (val : Byte) (v : Vhd R) : Option (Vhd R) :=
  if addr = 0xFF83 then command io bus put val v
  else some { v with regs := v.regs.write addr val }

/-- `machine_write`.  What the card answers to a command depends on how many blocks were
moved before it. -/
def machineWrite (io : Nat → BlkIo) (bus : Bus R) : Nat → Addr → Byte → Vhd R → Option (Vhd R)
  | 0, _, _, _ => none
  | fuel + 1, addr, val, v =>
      if vhdIsPort addr then
        vhdWrite (io v.moves.length) bus (machineWrite io bus fuel) addr val v
      else some { v with rest := bus.write addr val v.rest }

/-! ## Off the bus -/

/-- `vhd_flush_all`. -/
def vhdFlushAll (v : Vhd R) : Vhd R := { v with drives := fun d => blockfileFlush (v.drives d) }

/-- `vhd_reset`. -/
def vhdReset (v : Vhd R) : Vhd R :=
  { vhdFlushAll v with regs := { v.regs with driveSel := hardDrive0 } }

/-- `vhd_tick`. -/
def vhdTick (nowMs : Nat) (v : Vhd R) : Vhd R :=
  { v with drives := fun d => blockfileTick nowMs (v.drives d) }

/-- `vhd_mount`. -/
def vhdMount (io : OpenIo) (d : HardDrive) (path : List Char) (v : Vhd R) : Vhd R :=
  let r := blockfileOpen io path v.card (v.drives d)
  { v with
    drives := Function.update v.drives d r.2
    regs := { v.regs with high := 0, mid := 0, low := 0, bufHigh := 0, bufLow := 0 }
    status := if r.1 then vhdStOk else vhdStNodisk }

/-- `vhd_unmount`. -/
def vhdUnmount (d : HardDrive) (v : Vhd R) : Vhd R :=
  if !blockfileIsOpen (v.drives d) then v
  else
    { v with
      drives := Function.update v.drives d (blockfileClose (v.drives d)), status := vhdStNodisk }

end

end CocoEmulator.Storage
