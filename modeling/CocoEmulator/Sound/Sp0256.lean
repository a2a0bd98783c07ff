/-
  Sound/Sp0256.lean --- the SP0256-AL2 of the Speech/Sound Cartridge (sp0256.cpp).

  The microsequencer reads the ROM bit by bit and loads the filter's registers; the
  filter then makes samples until its repeat count runs out.  `GenerateSamples` goes
  between the two, through a ring of 4096 samples.

  The indices of the ring are masked after every change, so they are 12 bits wide.  `m_pc`
  is Nat: a branch loads at most 19 bits, and one byte of zeros beyond the ROM ends a run.
  The line of the interrupt (`ssc_bus_speech_drq`) is an output: `Micro` says whether it
  raised it.  `taken` and `begun` are not in the source: the codes accepted and those begun.
-/
import CocoEmulator.Sound.Ssc
import CocoEmulator.Base.Loop

set_option autoImplicit false

namespace CocoEmulator.Sound

open CocoEmulator.Base

namespace Sp0256

/-! ## Tables -/

/-- The registers of the filter. -/
inductive Reg
  | am | pr | b0 | f0 | b1 | f1 | b2 | f2 | b3 | f3 | b4 | f4 | b5 | f5 | ia | ip
deriving DecidableEq, Repr

/-- An entry of the data format: `CR`. -/
structure Fmt where
  len : Nat
  shf : Nat
  prm : Reg
  delta : Bool
  field : Bool
  clr5 : Bool
  clra : Bool
deriving DecidableEq, Repr

def cr (l s : Nat) (p : Reg) (d f c5 ca : Nat) : Fmt :=
  ⟨l, s, p, d == 1, f == 1, c5 == 1, ca == 1⟩

/-- `sp0256_datafmt` -/
def datafmt : List Fmt := [
  cr 0 0 .am 0 0 0 1, cr 8 0 .am 0 0 0 1, cr 8 0 .pr 0 0 0 0, cr 8 0 .b0 0 0 0 0,
  cr 8 0 .f0 0 0 0 0, cr 8 0 .b1 0 0 0 0, cr 8 0 .f1 0 0 0 0, cr 8 0 .b2 0 0 0 0,
  cr 8 0 .f2 0 0 0 0, cr 8 0 .b3 0 0 0 0, cr 8 0 .f3 0 0 0 0, cr 8 0 .b4 0 0 0 0,
  cr 8 0 .f4 0 0 0 0, cr 8 0 .b5 0 0 0 0, cr 8 0 .f5 0 0 0 0, cr 8 0 .ia 0 0 0 0,
  cr 8 0 .ip 0 0 0 0, cr 6 2 .am 0 0 0 1, cr 8 0 .pr 0 0 0 0, cr 4 3 .b3 0 0 0 0,
  cr 6 2 .f3 0 0 0 0, cr 7 1 .b4 0 0 0 0, cr 6 2 .f4 0 0 0 0, cr 8 0 .b5 0 0 0 0,
  cr 8 0 .f5 0 0 0 0, cr 6 2 .am 0 0 0 1, cr 8 0 .pr 0 0 0 0, cr 6 1 .b3 0 0 0 0,
  cr 7 1 .f3 0 0 0 0, cr 8 0 .b4 0 0 0 0, cr 8 0 .f4 0 0 0 0, cr 8 0 .b5 0 0 0 0,
  cr 8 0 .f5 0 0 0 0, cr 0 0 .am 0 0 1 0, cr 6 2 .am 0 0 0 0, cr 6 2 .f3 0 1 0 0,
  cr 6 2 .f4 0 1 0 0, cr 8 0 .f5 0 1 0 0, cr 0 0 .am 0 0 1 0, cr 6 2 .am 0 0 0 0,
  cr 7 1 .f3 0 1 0 0, cr 8 0 .f4 0 1 0 0, cr 8 0 .f5 0 1 0 0, cr 0 0 .am 0 0 0 0,
  cr 0 0 .am 0 0 0 0, cr 4 2 .am 1 0 0 0, cr 5 0 .pr 1 0 0 0, cr 3 4 .b0 1 0 0 0,
  cr 3 3 .f0 1 0 0 0, cr 3 4 .b1 1 0 0 0, cr 3 3 .f1 1 0 0 0, cr 3 4 .b2 1 0 0 0,
  cr 3 3 .f2 1 0 0 0, cr 3 3 .b3 1 0 0 0, cr 4 2 .f3 1 0 0 0, cr 4 1 .b4 1 0 0 0,
  cr 4 2 .f4 1 0 0 0, cr 5 0 .b5 1 0 0 0, cr 5 0 .f5 1 0 0 0, cr 4 2 .am 1 0 0 0,
  cr 5 0 .pr 1 0 0 0, cr 4 1 .b0 1 0 0 0, cr 4 2 .f0 1 0 0 0, cr 4 1 .b1 1 0 0 0,
  cr 4 2 .f1 1 0 0 0, cr 4 1 .b2 1 0 0 0, cr 4 2 .f2 1 0 0 0, cr 4 1 .b3 1 0 0 0,
  cr 5 1 .f3 1 0 0 0, cr 5 0 .b4 1 0 0 0, cr 5 0 .f4 1 0 0 0, cr 5 0 .b5 1 0 0 0,
  cr 5 0 .f5 1 0 0 0, cr 0 0 .am 0 0 1 0, cr 6 2 .am 0 0 0 0, cr 5 3 .f0 0 1 0 0,
  cr 5 3 .f1 0 1 0 0, cr 5 3 .f2 0 1 0 0, cr 0 0 .am 0 0 1 0, cr 6 2 .am 0 0 0 0,
  cr 6 2 .f0 0 1 0 0, cr 6 2 .f1 0 1 0 0, cr 6 2 .f2 0 1 0 0, cr 6 2 .am 0 0 0 1,
  cr 8 0 .pr 0 0 0 0, cr 3 4 .b0 0 0 0 0, cr 5 3 .f0 0 0 0 0, cr 3 4 .b1 0 0 0 0,
  cr 5 3 .f1 0 0 0 0, cr 3 4 .b2 0 0 0 0, cr 5 3 .f2 0 0 0 0, cr 4 3 .b3 0 0 0 0,
  cr 6 2 .f3 0 0 0 0, cr 7 1 .b4 0 0 0 0, cr 6 2 .f4 0 0 0 0, cr 5 0 .ia 0 0 0 0,
  cr 5 0 .ip 0 0 0 0, cr 6 2 .am 0 0 0 1, cr 8 0 .pr 0 0 0 0, cr 6 1 .b0 0 0 0 0,
  cr 6 2 .f0 0 0 0 0, cr 6 1 .b1 0 0 0 0, cr 6 2 .f1 0 0 0 0, cr 6 1 .b2 0 0 0 0,
  cr 6 2 .f2 0 0 0 0, cr 6 1 .b3 0 0 0 0, cr 7 1 .f3 0 0 0 0, cr 8 0 .b4 0 0 0 0,
  cr 8 0 .f4 0 0 0 0, cr 5 0 .ia 0 0 0 0, cr 5 0 .ip 0 0 0 0, cr 4 2 .am 1 0 0 0,
  cr 5 0 .pr 1 0 0 0, cr 3 3 .b3 1 0 0 0, cr 4 2 .f3 1 0 0 0, cr 4 1 .b4 1 0 0 0,
  cr 4 2 .f4 1 0 0 0, cr 5 0 .b5 1 0 0 0, cr 5 0 .f5 1 0 0 0, cr 4 2 .am 1 0 0 0,
  cr 5 0 .pr 1 0 0 0, cr 4 1 .b3 1 0 0 0, cr 5 1 .f3 1 0 0 0, cr 5 0 .b4 1 0 0 0,
  cr 5 0 .f4 1 0 0 0, cr 5 0 .b5 1 0 0 0, cr 5 0 .f5 1 0 0 0, cr 6 2 .am 0 0 0 0,
  cr 8 0 .pr 0 0 0 0, cr 6 2 .am 0 0 0 1, cr 8 0 .pr 0 0 0 0, cr 3 4 .b0 0 0 0 0,
  cr 5 3 .f0 0 0 0 0, cr 3 4 .b1 0 0 0 0, cr 5 3 .f1 0 0 0 0, cr 3 4 .b2 0 0 0 0,
  cr 5 3 .f2 0 0 0 0, cr 4 3 .b3 0 0 0 0, cr 6 2 .f3 0 0 0 0, cr 7 1 .b4 0 0 0 0,
  cr 6 2 .f4 0 0 0 0, cr 8 0 .b5 0 0 0 0, cr 8 0 .f5 0 0 0 0, cr 5 0 .ia 0 0 0 0,
  cr 5 0 .ip 0 0 0 0, cr 6 2 .am 0 0 0 1, cr 8 0 .pr 0 0 0 0, cr 6 1 .b0 0 0 0 0,
  cr 6 2 .f0 0 0 0 0, cr 6 1 .b1 0 0 0 0, cr 6 2 .f1 0 0 0 0, cr 6 1 .b2 0 0 0 0,
  cr 6 2 .f2 0 0 0 0, cr 6 1 .b3 0 0 0 0, cr 7 1 .f3 0 0 0 0, cr 8 0 .b4 0 0 0 0,
  cr 8 0 .f4 0 0 0 0, cr 8 0 .b5 0 0 0 0, cr 8 0 .f5 0 0 0 0, cr 5 0 .ia 0 0 0 0,
  cr 5 0 .ip 0 0 0 0, cr 0 0 .am 0 0 1 0, cr 6 2 .am 0 0 0 0, cr 8 0 .pr 0 0 0 0,
  cr 5 3 .f0 0 1 0 0, cr 5 3 .f1 0 1 0 0, cr 5 3 .f2 0 1 0 0, cr 5 0 .ia 0 0 0 0,
  cr 5 0 .ip 0 0 0 0, cr 0 0 .am 0 0 1 0, cr 6 2 .am 0 0 0 0, cr 8 0 .pr 0 0 0 0,
  cr 6 2 .f0 0 1 0 0, cr 6 2 .f1 0 1 0 0, cr 6 2 .f2 0 1 0 0, cr 5 0 .ia 0 0 0 0,
  cr 5 0 .ip 0 0 0 0]

/-- `sp0256_df_idx` -/
def dfIdx : List Int := [
  -1, -1, -1, -1, -1, -1, -1, -1,
  -1, -1, -1, -1, -1, -1, -1, -1,
  17, 22, 17, 24, 25, 30, 25, 32,
  83, 94, 129, 142, 97, 108, 145, 158,
  83, 96, 129, 144, 97, 110, 145, 160,
  73, 77, 74, 77, 78, 82, 79, 82,
  33, 36, 34, 37, 38, 41, 39, 42,
  127, 128, 127, 128, 127, 128, 127, 128,
  1, 14, 1, 16, 1, 14, 1, 16,
  45, 56, 45, 58, 59, 70, 59, 72,
  161, 166, 162, 166, 169, 174, 170, 174,
  111, 116, 111, 118, 119, 124, 119, 126,
  161, 168, 162, 168, 169, 176, 170, 176,
  -1, -1, -1, -1, -1, -1, -1, -1,
  -1, -1, -1, -1, -1, -1, -1, -1,
  0, 0, 0, 0, 0, 0, 0, 0]

/-- `qtbl` -/
def qtbl : List Int := [
  0, 9, 17, 25, 33, 41, 49, 57, 65, 73, 81, 89, 97, 105, 113, 121,
  129, 137, 145, 153, 161, 169, 177, 185, 193, 201, 209, 217, 225, 233, 241, 249,
  257, 265, 273, 281, 289, 297, 301, 305, 309, 313, 317, 321, 325, 329, 333, 337,
  341, 345, 349, 353, 357, 361, 365, 369, 373, 377, 381, 385, 389, 393, 397, 401,
  405, 409, 413, 417, 421, 425, 427, 429, 431, 433, 435, 437, 439, 441, 443, 445,
  447, 449, 451, 453, 455, 457, 459, 461, 463, 465, 467, 469, 471, 473, 475, 477,
  479, 481, 482, 483, 484, 485, 486, 487, 488, 489, 490, 491, 492, 493, 494, 495,
  496, 497, 498, 499, 500, 501, 502, 503, 504, 505, 506, 507, 508, 509, 510, 511]

/-- `IQ` -/
def iq (x : BitVec 8) : Int :=
  if x.getLsbD 7 = true then qtbl.getD (0x7F &&& -x).toNat 0 else -qtbl.getD x.toNat 0

/-- `bitrev32` -/
def bitrev32 (val : BitVec 32) : BitVec 32 :=
  let val := ((val &&& 0xFFFF0000) >>> 16) ||| ((val &&& 0x0000FFFF) <<< 16)
  let val := ((val &&& 0xFF00FF00) >>> 8) ||| ((val &&& 0x00FF00FF) <<< 8)
  let val := ((val &&& 0xF0F0F0F0) >>> 4) ||| ((val &&& 0x0F0F0F0F) <<< 4)
  let val := ((val &&& 0xCCCCCCCC) >>> 2) ||| ((val &&& 0x33333333) <<< 2)
  ((val &&& 0xAAAAAAAA) >>> 1) ||| ((val &&& 0x55555555) <<< 1)

/-- `kPerPause` and `kPerNoise` -/
def perPause : BitVec 8 := 64

def perNoise : Int := 64

/-- `kFifoAddr` -/
def fifoAddr : Nat := 0x1800 * 8

/-! ## The filter -/

/-- `int16_t` -/
def int16 (x : Int) : Int := (BitVec.ofInt 16 x).toInt

/-- `Limit` -/
def limit (s : Int) : Int := if s > 8191 then 8191 else if s < -8192 then -8192 else s

/-- `Lpc12` -/
structure Lpc12 where
  rpt : Int := 0
  cnt : Int := 0
  per : Nat := 0
  rng : BitVec 32 := 1
  amp : Int := 0
  fCoef : Fin 6 → Int := fun _ => 0
  bCoef : Fin 6 → Int := fun _ => 0
  zData : Fin 6 → Int × Int := fun _ => (0, 0)
  r : Reg → BitVec 8 := fun _ => 0
  interp : Bool := false

namespace Lpc12

variable (f : Lpc12)

/-- The amplitude in a register: a mantissa and an exponent. -/
def ampOf (a : BitVec 8) : Int := ((a &&& 0x1F).toNat * 2 ^ ((a &&& 0xE0) >>> 5).toNat : Nat)

/-- A new period of the excitation: the repeat count falls, and the filter is cleared. -/
def restart : Lpc12 := { f with rpt := f.rpt - 1, zData := fun _ => (0, 0) }

/-- The excitation with a period: a pulse, or nothing. -/
def pulse : Int × Bool × Lpc12 :=
  if f.cnt ≤ 0 then (f.amp, f.interp, { f with cnt := f.cnt + f.per }.restart)
  else (0, false, { f with cnt := f.cnt - 1 })

/-- The shift register of the noise. -/
def shiftRng : Lpc12 :=
  { f with rng := (f.rng >>> 1) ^^^ (if f.rng.getLsbD 0 = true then 0x4001 else 0) }

/-- The excitation without one: noise. -/
def noise : Int × Bool × Lpc12 :=
  let cnt := f.cnt - 1
  let samp := if f.rng.getLsbD 0 = true then f.amp else -f.amp
  if cnt ≤ 0 then (samp, f.interp, { f with cnt := perNoise }.restart.shiftRng)
  else (samp, false, { f with cnt }.shiftRng)

/-- The interpolation of amplitude and period. -/
def interpolate : Lpc12 :=
  let am := f.r .am + f.r .ia
  let pr := f.r .pr + f.r .ip
  { f with
    r := Function.update (Function.update f.r .am am) .pr pr
    amp := ampOf am
    per := pr.toNat }

/-- A stage of the filter. -/
def stage (f : Lpc12) (j : Fin 6) (samp : Int) : Int × Lpc12 :=
  let z := f.zData j
  let s := int16 samp + (f.bCoef j * z.2).shiftRight 9 + (f.fCoef j * z.1).shiftRight 8
  (int16 s, { f with zData := Function.update f.zData j (int16 s, z.1) })

/-- The six stages. -/
def filter (samp : Int) : Int × Lpc12 :=
  (List.finRange 6).foldl (fun (x : Int × Lpc12) j => x.2.stage j x.1) (samp, f)

/-- What `Update` stores. -/
def output (samp : Int) : Int := int16 (limit (int16 samp) * 4)

/-- A round of the loop of `Update`: a sample, unless the repeat count has run out. -/
def tick : Option Int × Lpc12 :=
  let (samp, doInt, f) := if f.per ≠ 0 then f.pulse else f.noise
  let f := if doInt = true then f.interpolate else f
  if f.rpt ≤ 0 then (none, f)
  else
    let (samp, f) := f.filter samp
    (some (output samp), f)

/-- `Regdec` -/
def regdec : Lpc12 :=
  { f with
    amp := ampOf (f.r .am)
    cnt := 0
    per := (f.r .pr).toNat
    bCoef := fun j => iq (f.r (([.b0, .b1, .b2, .b3, .b4, .b5] : List Reg).getD j .b0))
    fCoef := fun j => iq (f.r (([.f0, .f1, .f2, .f3, .f4, .f5] : List Reg).getD j .f0))
    interp := f.r .ia != 0 || f.r .ip != 0 }

end Lpc12

/-- `Sp0256`, but for the ring. -/
structure Sequencer where
  rom : BitVec 11 → BitVec 8
  filt : Lpc12 := {}
  sbyLine : Bool := true
  silent : Bool := true
  lrq : Bool := true
  ald : Nat := 0
  pc : Nat := 0
  stack : Nat := 0
  fifoSel : Bool := false
  halted : Bool := true
  mode : BitVec 32 := 0
  page : BitVec 32 := 0x8000
  fifoHead : BitVec 32 := 0
  fifoTail : BitVec 32 := 0
  fifoBitp : BitVec 32 := 0
  fifo : BitVec 6 → BitVec 16 := fun _ => 0
  taken : List Nat := []
  begun : List Nat := []

namespace Sequencer

variable (s : Sequencer)

/-- `Reset`; it raises the line. -/
def reset : Sequencer :=
  { s with
    fifoHead := 0, fifoTail := 0, fifoBitp := 0
    filt := { rpt := -1 }
    halted := true, lrq := true, ald := 0, pc := 0, stack := 0, fifoSel := false, mode := 0
    page := 0x8000, silent := true, sbyLine := true, taken := [], begun := [] }

/-- `Ald`: unless the chip is busy, it takes the code and lowers the line. -/
def aldWrite (data : Byte) : Sequencer :=
  if s.lrq = true then
    { s with
      lrq := false, ald := data.toNat * 16, sbyLine := false
      taken := s.taken ++ [data.toNat * 16] }
  else s

/-! ## The microsequencer -/

/-- `RomByte` -/
def romByte (idx : Nat) : BitVec 8 :=
  let idx := idx % 0x10000
  if 0x1000 ≤ idx ∧ idx < 0x1800 then s.rom (BitVec.ofNat 11 (idx - 0x1000)) else 0

/-- `Getb` -/
def getb (len : Nat) : BitVec 32 × Sequencer :=
  let mask : BitVec 32 := BitVec.ofNat 32 (2 ^ len - 1)
  if s.fifoSel = true then
    let d0 := (s.fifo (s.fifoTail.setWidth 6)).setWidth 32
    let d1 := (s.fifo ((s.fifoTail + 1).setWidth 6)).setWidth 32
    let bitp := s.fifoBitp + BitVec.ofNat 32 len
    let data := ((d1 <<< 10) ||| d0) >>> s.fifoBitp
    (data &&& mask,
      if 10 ≤ bitp then { s with fifoTail := s.fifoTail + 1, fifoBitp := bitp - 10 }
      else { s with fifoBitp := bitp })
  else
    let d0 := (s.romByte (s.pc / 8)).setWidth 32
    let d1 := (s.romByte ((s.pc + 8) / 8)).setWidth 32
    (((d1 <<< 8 ||| d0) >>> (s.pc % 8)) &&& mask, { s with pc := s.pc + len })

/-- A code that waits is begun, once the chip has halted; this raises the line. -/
def startCode : Bool × Sequencer :=
  if s.halted = true ∧ s.lrq = false then
    (true, { s with
      pc := s.ald ||| 0x8000, fifoSel := false, halted := false, lrq := true, ald := 0
      filt := { s.filt with r := fun _ => 0 }
      begun := s.begun ++ [s.ald] })
  else (false, s)

/-- Halted, with nothing to begin. -/
def rest : Sequencer :=
  { s with
    filt := { s.filt with rpt := 1, r := fun _ => 0 }
    lrq := true, ald := 0, sbyLine := true }

/-- The fuse of `Micro`. -/
def blow : Sequencer :=
  { s with halted := true, pc := 0, filt := { s.filt with rpt := 1 }, sbyLine := true }

/-- A change of the program counter. -/
def transfer (pc : Nat) : Sequencer :=
  let s := { s with pc, fifoSel := pc == fifoAddr, mode := s.mode &&& 0xF }
  if s.fifoSel = true ∧ s.fifoBitp ≠ 0 then
    let tail := if s.fifoTail < s.fifoHead then s.fifoTail + 1 else s.fifoTail
    { s with fifoTail := tail, fifoBitp := 0 }
  else s

/-- Opcode 0: a page, or a return. -/
def pageOrReturn (immed4 : BitVec 32) : Sequencer :=
  if immed4 ≠ 0 then { s with page := bitrev32 immed4 >>> 13, mode := s.mode &&& 0xF }
  else if s.stack = 0 then { s with halted := true }.transfer 0
  else { s with stack := 0 }.transfer s.stack

/-- Opcodes $E and $D: a jump, and a call. -/
def branch (immed4 : BitVec 32) (call : Bool) : Sequencer :=
  let (lo, s) := s.getb 8
  let btrg := s.page ||| bitrev32 immed4 >>> 17 ||| bitrev32 lo >>> 21
  let s := if call = true then { s with stack := (s.pc + 7) / 8 * 8 } else s
  s.transfer btrg.toNat

/-- Set a register of the filter. -/
def setReg (p : Reg) (v : BitVec 8) : Sequencer :=
  { s with filt := { s.filt with r := Function.update s.filt.r p v } }

/-- What an entry of the data format clears. -/
def clearFor (e : Fmt) : Sequencer :=
  let s := if e.clra = true then { s with filt := { s.filt with r := fun _ => 0 }, silent := true }
    else s
  if e.clr5 = true then (s.setReg .b5 0).setReg .f5 0 else s

/-- A value of `len` bits, with its sign, and shifted. -/
def decodeValue (e : Fmt) (data : BitVec 32) : BitVec 8 :=
  let v : BitVec 8 := data.setWidth 8
  let v := if e.delta = true ∧ v.getLsbD (e.len - 1) = true then v ||| (0xFF <<< e.len) else v
  v <<< e.shf

/-- An entry of the data format. -/
def applyFmt (e : Fmt) : Sequencer :=
  let s := s.clearFor e
  if e.len = 0 then s
  else
    let (data, s) := s.getb e.len
    let value := decodeValue e data
    let s := { s with silent := false }
    let old := s.filt.r e.prm
    if e.field = true then s.setReg e.prm ((old &&& ~~~((0xFF : BitVec 8) <<< e.shf)) ||| value)
    else if e.delta = true then s.setReg e.prm (old + value)
    else s.setReg e.prm value

/-- The index of a format: `(opcode << 3) | (m_mode & 6)`. -/
def fmtIndex (opcode : Nat) (mode : BitVec 32) : Nat := opcode * 8 ||| (mode &&& 6).toNat

/-- The entries that an opcode applies. -/
def formats (opcode : Nat) (mode : BitVec 32) : List Fmt :=
  let i := fmtIndex opcode mode
  let idx0 := dfIdx.getD i (-1)
  let idx1 := dfIdx.getD (i + 1) (-1)
  (datafmt.drop idx0.toNat).take (idx1 + 1 - idx0).toNat

/-- The registers for a repeat count. -/
def load (opcode : Nat) (times : Nat) : Sequencer :=
  let s := { s with filt := { s.filt with rpt := times + 1 } }
  let s := (formats opcode s.mode).foldl applyFmt s
  let s := if opcode = 0xF then { s.setReg .pr perPause with silent := true } else s
  { s with filt := s.filt.regdec }

/-- An instruction of the microsequencer. -/
def instruction : Sequencer :=
  let (immed4, s) := s.getb 4
  let (opcode, s) := s.getb 4
  match opcode.toNat with
  | 0x0 => s.pageOrReturn immed4
  | 0xE => s.branch immed4 false
  | 0xD => s.branch immed4 true
  | 0x1 => { s with
      mode := ((immed4 &&& 8) >>> 2) ||| (immed4 &&& 4) ||| ((immed4 &&& 3) <<< 4) }
  | opcode =>
    let times := (immed4 ||| (s.mode &&& 0x30)).toNat
    let s := { s with mode := s.mode &&& 0xF }
    if times = 0 then s else s.load opcode times

/-- The loop of `Micro`, with what is left of the fuse: whether it raised the line. -/
def microLoop : Nat → Sequencer → Bool × Sequencer
  | 0, s => if 0 < s.filt.rpt then (false, s) else (false, s.blow)
  | safety + 1, s =>
    if 0 < s.filt.rpt then (false, s)
    else
      let (raised, s) := s.startCode
      if s.halted = true then (raised, s.rest)
      else
        let r := microLoop safety s.instruction
        (raised || r.1, r.2)

/-- `Micro` -/
def micro : Bool × Sequencer := microLoop 4095 s

/-- A round of the loop of `Update`: a sample, unless the repeat count has run out. -/
def tick : Option Int × Sequencer :=
  let (v, filt) := s.filt.tick
  (v, { s with filt })

end Sequencer

end Sp0256

/-- `Sp0256` -/
structure Sp0256 extends Sp0256.Sequencer where
  scratch : BitVec 12 → Int := fun _ => 0
  scHead : BitVec 12 := 0
  scTail : BitVec 12 := 0

namespace Sp0256

open Sequencer

variable (s : Sp0256)

/-- A change of the chip that leaves the ring. -/
def run (f : Sequencer → Bool × Sequencer) : Bool × Sp0256 :=
  let r := f s.toSequencer
  (r.1, { s with toSequencer := r.2 })

/-! ## Samples -/

/-- Store a sample in the ring. -/
def store (v : Int) : Sp0256 :=
  { s with scratch := Function.update s.scratch s.scHead v, scHead := s.scHead + 1 }

/-- `Update`: the samples it made. -/
def update : Nat → Sp0256 → Nat × Sp0256
  | 0, s => (0, s)
  | n + 1, s =>
    let (v, core) := s.toSequencer.tick
    let s := { s with toSequencer := core }
    match v with
    | some v =>
      let r := update n (s.store v)
      (r.1 + 1, r.2)
    | none => (0, s)

/-- Zeros. -/
def storeZeros : Nat → Sp0256 → Sp0256
  | 0, s => s
  | n + 1, s => storeZeros n (s.store 0)

/-- The loop that drains the ring, for at most `want` samples. -/
def drain : Nat → Sp0256 → List Int × Sp0256
  | 0, s => ([], s)
  | want + 1, s =>
    if s.scTail = s.scHead then ([], s)
    else
      let r := drain want { s with scTail := s.scTail + 1 }
      (s.scratch s.scTail :: r.1, r.2)

/-- `kMaxChunk` -/
def maxChunk : Nat := 2048

/-- Where `GenerateSamples` stands: the samples it returned, whether it raised the line, and in the
inner loop the samples to make and those made. -/
structure Progress where
  chip : Sp0256
  out : List Int := []
  raised : Bool := false
  inner : Option (Nat × Nat) := none

/-- What is left of the ring for `want` samples. -/
def room (want : Nat) : Nat :=
  if (s.scHead.toNat : Int) + want - s.scTail.toNat > 4096 then
    s.scTail.toNat + 4096 - s.scHead.toNat
  else want

/-- A round of the inner loop, with `want` samples to make: `none` leaves it. -/
def generateRound (want : Nat) : Option Nat × Bool × Sp0256 :=
  let (raised, s) := if s.filt.rpt ≤ 0 then s.run micro else (false, s)
  let doSamp := s.room want
  if doSamp = 0 then (none, raised, s)
  else if s.silent = true ∧ s.filt.rpt ≤ 0 then (some doSamp, raised, storeZeros doSamp s)
  else
    let (did, s) := update doSamp s
    (some did, raised, s)

/-- A round of either loop of `GenerateSamples`. -/
def generateBody (count : Nat) (p : Progress) : Move Progress (List Int × Bool × Sp0256) :=
  match p.inner with
  | none =>
    if count ≤ p.out.length then .stop (p.out, p.raised, p.chip)
    else
      let (samples, chip) := drain (count - p.out.length) p.chip
      let out := p.out ++ samples
      if count ≤ out.length then .stop (out, p.raised, chip)
      else .go { p with chip, out, inner := some (count - out.length, 0) }
  | some (length, did) =>
    let (made, raised, chip) := generateRound p.chip (length - did)
    let p := { p with chip, raised := p.raised || raised }
    match made with
    | none => .go { p with inner := none }
    | some made =>
      if 0 ≤ chip.filt.rpt ∧ did + made < length then
        .go { p with inner := some (length, did + made) }
      else .go { p with inner := none }

/-- The chunks of a request. -/
def chunks (count : Nat) : List Nat :=
  if maxChunk < count then maxChunk :: chunks (count - maxChunk) else [count]
termination_by count
decreasing_by
  have : 0 < maxChunk := by decide
  omega

/-- One chunk of `GenerateSamples`. -/
def generateChunk (fuel count : Nat) (s : Sp0256) : Option (List Int × Bool × Sp0256) :=
  loop (generateBody count) fuel { chip := s }

/-- `GenerateSamples`: the samples, whether it raised the line, and the chip.  A chunk of `n`
samples may take `fuel n` rounds. -/
def generateSamples (fuel : Nat → Nat) (count : Nat) (s : Sp0256) :
    Option (List Int × Bool × Sp0256) :=
  (chunks count).foldlM
    (fun (r : List Int × Bool × Sp0256) n =>
      (generateChunk (fuel n) n r.2.2).map fun r' => (r.1 ++ r'.1, r.2.1 || r'.2.1, r'.2.2))
    ([], false, s)

end Sp0256

end CocoEmulator.Sound
