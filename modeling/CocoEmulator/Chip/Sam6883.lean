/-
  Chip/Sam6883.lean --- the display address counter of the SAM (sam6883.cpp).

  The counter runs through the bytes of a line while the VDG fetches them and is put
  right at horizontal sync.  A row is shown again by taking back the carry out of bit 3
  (divide by X) or out of bit 4 (divide by Y) until the divider comes around.

      line_byX, line_byY     one active line, in the modes of 16 and of 32 bytes a row
      row_address_exact      the row address after any number of lines

  Not modelled: the divide tables' cost, and who reads `page1` and `mem_size`; `ty` moves the
  memory map of the CoCo 2 (Machine/Coco2Memory).

  Source: sam6883.cpp; `machine_run_scanline_coco2` in machine.cpp.
-/
import CocoEmulator.Base.Run
import CocoEmulator.Base.Words

set_option autoImplicit false

namespace CocoEmulator.Chip

open CocoEmulator.Base

/-- `SAM6883` -/
structure Sam6883 where
  reg : BitVec 16 := 0
  vdgBase : BitVec 16 := 0
  vdgMode : BitVec 8 := 0
  memSize : BitVec 8 := 0
  ty : Bool := false
  page1 : Bool := false
  vdgAddress : BitVec 16 := 0
  vdgXcount : Nat := 0
  vdgYcount : Nat := 0
  vdgModXdiv : Nat := 0
  vdgModYdiv : Nat := 0
  vdgModAdd : BitVec 16 := 0
  vdgModClear : BitVec 16 := 0
  deriving DecidableEq, Repr, Inhabited

namespace Sam6883

/-- `vdg_mod_xdivs` -/
def vdgModXdivs : List Nat := [1, 3, 1, 2, 1, 1, 1, 1]

/-- `vdg_mod_ydivs` -/
def vdgModYdivs : List Nat := [12, 1, 3, 1, 2, 1, 1, 1]

/-- `vdg_mod_adds` -/
def vdgModAdds : List Word := [16, 8, 16, 8, 16, 8, 16, 0]

/-- `vdg_mod_clears` -/
def vdgModClears : List Word := [~~~30, ~~~14, ~~~30, ~~~14, ~~~30, ~~~14, ~~~30, ~~~0]

variable (s : Sam6883)

/-- `update_from_register` -/
def updateFromRegister : Sam6883 :=
  let vdgMode := (s.reg &&& 0x07).setWidth 8
  { s with
    vdgMode
    vdgBase := (s.reg &&& 0x03F8) <<< 6
    vdgModXdiv := vdgModXdivs.getD vdgMode.toNat 0
    vdgModYdiv := vdgModYdivs.getD vdgMode.toNat 0
    vdgModAdd := vdgModAdds.getD vdgMode.toNat 0
    vdgModClear := vdgModClears.getD vdgMode.toNat 0
    page1 := s.reg.getLsbD 10
    memSize := ((s.reg >>> 13) &&& 0x03).setWidth 8
    ty := s.reg.getLsbD 15 }

/-- `sam6883_reset` -/
def reset : Sam6883 :=
  let s := { s with reg := 0 }.updateFromRegister
  { s with vdgAddress := s.vdgBase, vdgXcount := 0, vdgYcount := 0 }

/-- `sam6883_write`: of the two addresses of a bit, the odd one sets it. -/
def write (addr : Byte) : Sam6883 :=
  if addr > 31 then s
  else
    let bit : Word := 1 <<< (addr >>> 1).toNat
    if addr &&& 1 ≠ 0 then { s with reg := s.reg ||| bit }.updateFromRegister
    else { s with reg := s.reg &&& ~~~bit }.updateFromRegister

/-- `sam6883_vdg_fsync` -/
def vdgFsync (level : Bool) : Sam6883 :=
  if level then { s with vdgAddress := s.vdgBase, vdgXcount := 0, vdgYcount := 0 } else s

/-- `vdg_address_add` -/
def vdgAddressAdd (n : Word) : Sam6883 :=
  let newAddr := s.vdgAddress + n
  if (s.vdgAddress ^^^ newAddr) &&& 0x10 ≠ 0 then
    let s := { s with vdgXcount := (s.vdgXcount + 1) % s.vdgModXdiv }
    if s.vdgXcount ≠ 0 then { s with vdgAddress := newAddr - 0x10 }
    else if (s.vdgAddress ^^^ newAddr) &&& 0x20 ≠ 0 then
      let s := { s with vdgYcount := (s.vdgYcount + 1) % s.vdgModYdiv }
      { s with vdgAddress := if s.vdgYcount ≠ 0 then newAddr - 0x20 else newAddr }
    else { s with vdgAddress := newAddr }
  else { s with vdgAddress := newAddr }

/-- `16 - b3_0`: the bytes up to the next multiple of 16. -/
def chunkRoom : Nat := 16 - (s.vdgAddress &&& 0x0F).toNat

theorem chunkRoom_pos : 0 < s.chunkRoom := by
  have hlow : (s.vdgAddress &&& 0x0F).toNat ≤ 15 := by
    rw [BitVec.toNat_and]
    exact Nat.and_le_right
  unfold chunkRoom
  omega

/-- One chunk; only one that ends at a multiple of 16 goes through the dividers. -/
def fetchChunk (chunk : Nat) : Sam6883 :=
  if chunk < s.chunkRoom then { s with vdgAddress := s.vdgAddress + BitVec.ofNat 16 chunk }
  else s.vdgAddressAdd (BitVec.ofNat 16 chunk)

/-- `sam6883_vdg_fetch_bytes` -/
def vdgFetchBytes (nbytes : Nat) (s : Sam6883) : Sam6883 :=
  if _h : 0 < nbytes then
    let chunk := if s.chunkRoom > nbytes then nbytes else s.chunkRoom
    vdgFetchBytes (nbytes - chunk) (s.fetchChunk chunk)
  else s
termination_by nbytes
decreasing_by
  have := s.chunkRoom_pos
  split <;> omega

/-- `sam6883_vdg_hsync` -/
def vdgHsync (level : Bool) : Sam6883 :=
  if level then s
  else
    let s := s.vdgAddressAdd s.vdgModAdd
    { s with vdgAddress := s.vdgAddress &&& s.vdgModClear }

/-- `bytes_per_row`; text fetches 32 bytes. -/
def bytesPerRow (ag : Bool) : Nat :=
  if ag then [16, 16, 32, 16, 32, 16, 32, 32].getD s.vdgMode.toNat 0 else 32

/-- What `machine_run_scanline_coco2` does to the SAM on an active line. -/
def activeLine (ag : Bool) : Sam6883 := (vdgFetchBytes (s.bytesPerRow ag) s).vdgHsync false

/-! ## What changes the counter -/

/-- The fields of the register are up to date. -/
def Derived : Prop := s.updateFromRegister = s

/-- What moves the SAM of a CoCo 2. -/
inductive Op
  | reset
  | write (addr : Byte)
  | fsync (level : Bool)
  | fetch (nbytes : Nat)
  | hsync (level : Bool)

def Op.step (op : Op) (s : Sam6883) : Sam6883 :=
  match op with
  | .reset => s.reset
  | .write addr => s.write addr
  | .fsync level => s.vdgFsync level
  | .fetch nbytes => vdgFetchBytes nbytes s
  | .hsync level => s.vdgHsync level

/-- From a field sync on: active lines, and writes between them. -/
inductive FrameOp
  | line (ag : Bool)
  | write (addr : Byte)
  deriving DecidableEq, Repr

def FrameOp.step (op : FrameOp) (s : Sam6883) : Sam6883 :=
  match op with
  | .line ag => s.activeLine ag
  | .write addr => s.write addr

def FrameOp.isLine : FrameOp → Bool
  | .line _ => true
  | .write _ => false

/-- V stays as it is, and the line is text exactly for V = 0. -/
def FrameOp.KeepsMode (op : FrameOp) (s : Sam6883) : Prop :=
  match op with
  | .line ag => ag = decide (s.vdgMode ≠ 0)
  | .write addr => (s.write addr).vdgMode = s.vdgMode

/-- The bytes from one row to the next. -/
def stride (mode : Byte) : Nat := [32, 16, 32, 16, 32, 16, 32, 32].getD mode.toNat 0

/-- The lines that show a row. -/
def rep (mode : Byte) : Nat := [12, 3, 3, 2, 2, 1, 1, 1].getD mode.toNat 1

/-! ## One addition -/

theorem toggles_iff (a b : Word) {i : Nat} (hi : i < 16) :
    (a ^^^ b) &&& BitVec.twoPow 16 i ≠ 0 ↔ a.toNat / 2 ^ i % 2 ≠ b.toNat / 2 ^ i % 2 := by
  have hpow : ¬BitVec.twoPow 16 i = 0#16 := by
    intro h
    have := congrArg (fun x => x.getLsbD i) h
    simp [hi] at this
  have ha : a.getLsbD i = decide (a.toNat / 2 ^ i % 2 = 1) := Nat.testBit_eq_decide_div_mod_eq
  have hb : b.getLsbD i = decide (b.toNat / 2 ^ i % 2 = 1) := Nat.testBit_eq_decide_div_mod_eq
  rw [BitVec.and_twoPow, BitVec.getLsbD_xor, ha, hb]
  rcases Nat.mod_two_eq_zero_or_one (a.toNat / 2 ^ i) with h | h <;>
    rcases Nat.mod_two_eq_zero_or_one (b.toNat / 2 ^ i) with h' | h' <;> simp [h, h', hpow]

theorem bit4_iff (a b : Word) :
    (a ^^^ b) &&& 0x10 ≠ 0 ↔ a.toNat / 16 % 2 ≠ b.toNat / 16 % 2 :=
  toggles_iff a b (show 4 < 16 by omega)

theorem bit5_iff (a b : Word) :
    (a ^^^ b) &&& 0x20 ≠ 0 ↔ a.toNat / 32 % 2 ≠ b.toNat / 32 % 2 :=
  toggles_iff a b (show 5 < 16 by omega)

/-- A clear takes back an addition inside the bits that are zero. -/
theorem add_and_clear {a low mask zero : Word} (hzero : a &&& zero = 0)
    (hlow : low &&& ~~~zero = 0) (hmask : low &&& mask = 0) (hcover : ~~~mask &&& ~~~zero = 0) :
    (a + low) &&& mask = a := by
  have hbits (i : Nat) (hi : i < 16) : (a.getLsbD i && low.getLsbD i) = false ∧
      ((a.getLsbD i || low.getLsbD i) && mask.getLsbD i) = a.getLsbD i := by
    have h1 := congrArg (fun x => x.getLsbD i) hzero
    have h2 := congrArg (fun x => x.getLsbD i) hlow
    have h3 := congrArg (fun x => x.getLsbD i) hmask
    have h4 := congrArg (fun x => x.getLsbD i) hcover
    simp only [BitVec.ofNat_eq_ofNat, BitVec.getLsbD_and, BitVec.getLsbD_not,
      BitVec.getLsbD_zero, hi, decide_true, Bool.true_and] at h1 h2 h3 h4
    revert h1 h2 h3 h4
    cases a.getLsbD i <;> cases low.getLsbD i <;> cases mask.getLsbD i <;>
      cases zero.getLsbD i <;> simp
  have hdisjoint : a &&& low = 0 := by
    apply BitVec.eq_of_getLsbD_eq
    intro i hi
    simpa using (hbits i hi).1
  rw [BitVec.add_eq_or_of_and_eq_zero _ _ hdisjoint]
  apply BitVec.eq_of_getLsbD_eq
  intro i hi
  simpa using (hbits i hi).2

variable {s}

/-- An addition that stays below the next multiple of 16. -/
theorem add_inside {n : Word} (h : s.vdgAddress.toNat % 16 + n.toNat < 16) :
    s.vdgAddressAdd n = { s with vdgAddress := s.vdgAddress + n } := by
  have hlt := s.vdgAddress.isLt
  have hstay : ¬(s.vdgAddress ^^^ (s.vdgAddress + n)) &&& 0x10 ≠ 0 := by
    rw [bit4_iff, BitVec.toNat_add]
    omega
  unfold vdgAddressAdd
  rw [if_neg hstay]

/-- From a multiple of 16 to the next, as divide by X counts. -/
theorem add_row (h : s.vdgAddress.toNat % 16 = 0) :
    s.vdgAddressAdd 16 =
      let x := (s.vdgXcount + 1) % s.vdgModXdiv
      let y := (s.vdgYcount + 1) % s.vdgModYdiv
      if x ≠ 0 then { s with vdgXcount := x }
      else if s.vdgAddress.toNat % 32 = 16 then
        { s with
          vdgXcount := x, vdgYcount := y
          vdgAddress := if y ≠ 0 then s.vdgAddress + 16 - 0x20 else s.vdgAddress + 16 }
      else { s with vdgXcount := x, vdgAddress := s.vdgAddress + 16 } := by
  have hlt := s.vdgAddress.isLt
  have hcross : (s.vdgAddress ^^^ (s.vdgAddress + 16)) &&& 0x10 ≠ 0 := by
    rw [bit4_iff, BitVec.toNat_add, show (16 : Word).toNat = 16 from rfl]
    omega
  have hcarry : (s.vdgAddress ^^^ (s.vdgAddress + 16)) &&& 0x20 ≠ 0 ↔
      s.vdgAddress.toNat % 32 = 16 := by
    rw [bit5_iff, BitVec.toNat_add, show (16 : Word).toNat = 16 from rfl]
    omega
  have hback : s.vdgAddress + 16 - 0x10 = s.vdgAddress := BitVec.add_sub_cancel _ _
  simp only [vdgAddressAdd, if_pos hcross, hback, hcarry]

/-! ## One line -/

theorem and_low_eq_zero {a : Word} (n : Nat) (hn : n ≤ 16) (h : a.toNat % 2 ^ n = 0) :
    a &&& BitVec.ofNat 16 (2 ^ n - 1) = 0 := by
  apply BitVec.eq_of_toNat_eq
  have hlt : 2 ^ n - 1 < 2 ^ 16 := by
    have := Nat.pow_le_pow_right (n := 2) (by omega) hn
    have := Nat.two_pow_pos n
    omega
  rw [BitVec.toNat_and, BitVec.toNat_ofNat, Nat.mod_eq_of_lt hlt, Nat.and_two_pow_sub_one_eq_mod,
    h]
  rfl

theorem chunkRoom_eq (n : Nat) (h : s.vdgAddress.toNat % 16 = n) : s.chunkRoom = 16 - n := by
  have hand : (s.vdgAddress &&& 0x0F).toNat = s.vdgAddress.toNat % 16 := by
    rw [BitVec.toNat_and]
    exact Nat.and_two_pow_sub_one_eq_mod _ 4
  rw [chunkRoom, hand, h]

/-- From a multiple of 16 the bytes go in chunks of 16. -/
theorem fetch_row (n : Nat) (h : s.vdgAddress.toNat % 16 = 0) :
    vdgFetchBytes (16 + n) s = vdgFetchBytes n (s.vdgAddressAdd 16) := by
  have hroom : s.chunkRoom = 16 := chunkRoom_eq 0 h
  rw [vdgFetchBytes, dif_pos (by omega)]
  simp only [hroom, fetchChunk]
  rw [if_neg (by omega), if_neg (by omega), Nat.add_sub_cancel_left]
  rfl

theorem fetch_zero : vdgFetchBytes 0 s = s := by
  rw [vdgFetchBytes, dif_neg (by omega)]

/-- What the addition of horizontal sync sets, the mask clears. -/
theorem hsync_back {n a : Word} (hn : s.vdgModAdd = n)
    (hadd : s.vdgAddressAdd n = { s with vdgAddress := a })
    (hback : a &&& s.vdgModClear = s.vdgAddress) : s.vdgHsync false = s := by
  simp only [vdgHsync, Bool.false_eq_true, if_false]
  rw [hn, hadd]
  change { s with vdgAddress := a &&& s.vdgModClear } = s
  rw [hback]

/-- Horizontal sync, in the modes of 16 bytes: bits 1 to 3 come and go. -/
theorem hsync_byX (hadd : s.vdgModAdd = 8) (hclear : s.vdgModClear = ~~~14)
    (haligned : s.vdgAddress.toNat % 16 = 0) : s.vdgHsync false = s := by
  have hinside : s.vdgAddress.toNat % 16 + (8 : Word).toNat < 16 := by
    rw [haligned]
    decide
  have hback : (s.vdgAddress + 8) &&& ~~~14 = s.vdgAddress :=
    add_and_clear (and_low_eq_zero 4 (by omega) haligned) (by decide) (by decide) (by decide)
  exact hsync_back hadd (add_inside hinside) (by rw [hclear, hback])

/-- In those of 32 bytes it is bits 1 to 4. -/
theorem hsync_byY (hadd : s.vdgModAdd = 16) (hclear : s.vdgModClear = ~~~30)
    (hxdiv : s.vdgModXdiv = 1) (hx : s.vdgXcount = 0) (haligned : s.vdgAddress.toNat % 32 = 0) :
    s.vdgHsync false = s := by
  have hx' : (s.vdgXcount + 1) % s.vdgModXdiv = s.vdgXcount := by
    rw [hxdiv, hx]
  have hadd16 : s.vdgAddressAdd 16 = { s with vdgAddress := s.vdgAddress + 16 } := by
    rw [add_row (by omega)]
    simp only [hx']
    rw [if_neg (by omega), if_neg (by omega)]
  have hback : (s.vdgAddress + 16) &&& ~~~30 = s.vdgAddress :=
    add_and_clear (and_low_eq_zero 5 (by omega) haligned) (by decide) (by decide) (by decide)
  exact hsync_back hadd hadd16 (by rw [hclear, hback])

/-- In the mode of single rows it does nothing. -/
theorem hsync_none (hadd : s.vdgModAdd = 0) (hclear : s.vdgModClear = ~~~0)
    (haligned : s.vdgAddress.toNat % 32 = 0) : s.vdgHsync false = s := by
  have hinside : s.vdgAddress.toNat % 16 + (0 : Word).toNat < 16 := by
    rw [show (0 : Word).toNat = 0 from rfl]
    omega
  have hback : (s.vdgAddress + 0) &&& ~~~0 = s.vdgAddress :=
    add_and_clear (and_low_eq_zero 0 (by omega) (Nat.mod_one _)) (by decide) (by decide)
      (by decide)
  exact hsync_back hadd (add_inside hinside) (by rw [hclear, hback])

/-- 16 bytes a row: divide by X alone decides whether the row is shown again. -/
theorem line_byX {ag : Bool} (hbytes : s.bytesPerRow ag = 16) (hadd : s.vdgModAdd = 8)
    (hclear : s.vdgModClear = ~~~14) (hydiv : s.vdgModYdiv = 1) (hy : s.vdgYcount = 0)
    (haligned : s.vdgAddress.toNat % 16 = 0) :
    s.activeLine ag = { s with
      vdgXcount := (s.vdgXcount + 1) % s.vdgModXdiv
      vdgAddress := if (s.vdgXcount + 1) % s.vdgModXdiv = 0 then s.vdgAddress + 16
        else s.vdgAddress } := by
  have hy' : (s.vdgYcount + 1) % s.vdgModYdiv = s.vdgYcount := by
    rw [hydiv, hy]
  have hrow : s.vdgAddressAdd 16 = { s with
      vdgXcount := (s.vdgXcount + 1) % s.vdgModXdiv
      vdgAddress := if (s.vdgXcount + 1) % s.vdgModXdiv = 0 then s.vdgAddress + 16
        else s.vdgAddress } := by
    have hstay : ¬s.vdgYcount ≠ 0 := not_not.mpr hy
    rw [add_row haligned]
    simp only [hy', if_neg hstay, ite_not, ite_self]
    split <;> rfl
  have hnext : (s.vdgAddressAdd 16).vdgAddress.toNat % 16 = 0 := by
    rw [hrow]
    split
    next =>
      simp only [BitVec.toNat_add, show (16 : Word).toNat = 16 from rfl]
      omega
    next => exact haligned
  have hfetch : vdgFetchBytes 16 s = s.vdgAddressAdd 16 := by
    rw [fetch_row 0 haligned, fetch_zero]
  rw [activeLine, hbytes, hfetch, hsync_byX (by rw [hrow]; exact hadd)
    (by rw [hrow]; exact hclear) hnext, hrow]

/-- 32 bytes a row: divide by Y does. -/
theorem line_byY {ag : Bool} (hbytes : s.bytesPerRow ag = 32)
    (hsync : ∀ t : Sam6883, t.vdgModAdd = s.vdgModAdd → t.vdgModClear = s.vdgModClear →
      t.vdgModXdiv = 1 → t.vdgXcount = 0 → t.vdgAddress.toNat % 32 = 0 → t.vdgHsync false = t)
    (hxdiv : s.vdgModXdiv = 1) (hx : s.vdgXcount = 0)
    (haligned : s.vdgAddress.toNat % 32 = 0) :
    s.activeLine ag = { s with
      vdgYcount := (s.vdgYcount + 1) % s.vdgModYdiv
      vdgAddress := if (s.vdgYcount + 1) % s.vdgModYdiv = 0 then s.vdgAddress + 32
        else s.vdgAddress } := by
  have hx' : (s.vdgXcount + 1) % s.vdgModXdiv = s.vdgXcount := by
    rw [hxdiv, hx]
  have hfirst : s.vdgAddressAdd 16 = { s with vdgAddress := s.vdgAddress + 16 } := by
    rw [add_row (by omega)]
    simp only [hx']
    rw [if_neg (by omega), if_neg (by omega)]
  have haddr : (s.vdgAddress + 16).toNat % 32 = 16 := by
    rw [BitVec.toNat_add, show (16 : Word).toNat = 16 from rfl]
    omega
  have htwice : s.vdgAddress + 16 + 16 = s.vdgAddress + 32 := by
    rw [BitVec.add_assoc]
    rfl
  have hsecond : (s.vdgAddressAdd 16).vdgAddressAdd 16 = { s with
      vdgYcount := (s.vdgYcount + 1) % s.vdgModYdiv
      vdgAddress := if (s.vdgYcount + 1) % s.vdgModYdiv = 0 then s.vdgAddress + 32
        else s.vdgAddress } := by
    have hstay : ¬s.vdgXcount ≠ 0 := not_not.mpr hx
    rw [hfirst, add_row (by simp only; omega)]
    simp only [hx', if_neg hstay, haddr, if_true, htwice, ite_not, BitVec.add_sub_cancel]
  have hnext : ((s.vdgAddressAdd 16).vdgAddressAdd 16).vdgAddress.toNat % 32 = 0 := by
    rw [hsecond]
    split
    next =>
      simp only [BitVec.toNat_add, show (32 : Word).toNat = 32 from rfl]
      omega
    next => exact haligned
  have hfetch : vdgFetchBytes 32 s = (s.vdgAddressAdd 16).vdgAddressAdd 16 := by
    rw [fetch_row 16 (by omega), fetch_row 0 (by rw [hfirst]; simp only; omega), fetch_zero]
  rw [activeLine, hbytes, hfetch, hsync _ (by rw [hsecond]) (by rw [hsecond])
    (by rw [hsecond]; exact hxdiv) (by rw [hsecond]; exact hx) hnext, hsecond]

/-! ## The frame -/

/-- The state `k` lines after the field sync. -/
structure After (base : Word) (k : Nat) (s : Sam6883) : Prop where
  derived : s.Derived
  address : s.vdgAddress = base + BitVec.ofNat 16 (stride s.vdgMode * (k / rep s.vdgMode))
  xcount : s.vdgXcount = k % s.vdgModXdiv
  ycount : s.vdgYcount = k % s.vdgModYdiv

theorem Derived.mode_lt (h : s.Derived) : s.vdgMode.toNat < 8 := by
  have hmode : s.vdgMode = (s.reg &&& 0x07).setWidth 8 := congrArg vdgMode h.symm
  have hle : (s.reg &&& 0x07).toNat ≤ 7 := by
    rw [BitVec.toNat_and]
    exact Nat.and_le_right
  rw [hmode, BitVec.toNat_setWidth]
  omega

theorem Derived.xdiv (h : s.Derived) : s.vdgModXdiv = vdgModXdivs.getD s.vdgMode.toNat 0 := by
  rw [← h]
  rfl

theorem Derived.ydiv (h : s.Derived) : s.vdgModYdiv = vdgModYdivs.getD s.vdgMode.toNat 0 := by
  rw [← h]
  rfl

theorem Derived.add (h : s.Derived) : s.vdgModAdd = vdgModAdds.getD s.vdgMode.toNat 0 := by
  rw [← h]
  rfl

theorem Derived.clear (h : s.Derived) : s.vdgModClear = vdgModClears.getD s.vdgMode.toNat 0 := by
  rw [← h]
  rfl

/-- The base is a multiple of 512. -/
theorem Derived.base (h : s.Derived) : s.vdgBase.toNat % 512 = 0 := by
  have hbase : s.vdgBase = (s.reg &&& 0x03F8) <<< 6 := congrArg vdgBase h.symm
  have hlow : (s.reg &&& 0x03F8).toNat % 8 = 0 := by
    rw [BitVec.toNat_and, ← Nat.and_two_pow_sub_one_eq_mod _ 3, Nat.and_assoc]
    exact Nat.and_zero _
  rw [hbase, BitVec.toNat_shiftLeft, Nat.shiftLeft_eq]
  omega

/-- Only the counters differ. -/
def SameReg (s t : Sam6883) : Prop :=
  t = { s with
    vdgAddress := t.vdgAddress, vdgXcount := t.vdgXcount, vdgYcount := t.vdgYcount }

theorem SameReg.trans {t u : Sam6883} (h : SameReg s t) (h' : SameReg t u) : SameReg s u := by
  unfold SameReg at h h' ⊢
  rw [h] at h'
  exact h'

theorem SameReg.derived {t : Sam6883} (h : SameReg s t) (hs : s.Derived) : t.Derived := by
  have hupdate : t.updateFromRegister = { s.updateFromRegister with
      vdgAddress := t.vdgAddress, vdgXcount := t.vdgXcount, vdgYcount := t.vdgYcount } := by
    rw [h]
    rfl
  unfold Derived
  rw [hupdate, hs]
  exact h.symm

theorem addressAdd_sameReg (n : Word) : SameReg s (s.vdgAddressAdd n) := by
  simp only [vdgAddressAdd]
  split
  next =>
    split
    next => rfl
    next =>
      split
      next => rfl
      next => rfl
  next => rfl

theorem fetchBytes_sameReg (nbytes : Nat) : SameReg s (vdgFetchBytes nbytes s) := by
  fun_induction vdgFetchBytes nbytes s with
  | case1 nbytes s _ chunk ih =>
    refine SameReg.trans ?_ ih
    unfold fetchChunk
    split
    next => rfl
    next => exact addressAdd_sameReg _
  | case2 nbytes s => rfl

theorem hsync_sameReg (level : Bool) : SameReg s (s.vdgHsync level) := by
  unfold vdgHsync
  split
  next => rfl
  next => exact SameReg.trans (addressAdd_sameReg s.vdgModAdd) rfl

theorem write_derived (addr : Byte) (h : s.Derived) : (s.write addr).Derived := by
  simp only [write]
  split
  next => exact h
  next =>
    split
    next => rfl
    next => rfl

/-- From a reset on the fields of the register are up to date. -/
theorem Op.step_derived (op : Op) (h : s.Derived) : (op.step s).Derived := by
  cases op with
  | reset => rfl
  | write addr => exact write_derived addr h
  | fsync level =>
    refine SameReg.derived ?_ h
    cases level with
    | true => rfl
    | false => rfl
  | fetch nbytes => exact (fetchBytes_sameReg nbytes).derived h
  | hsync level => exact (hsync_sameReg level).derived h

theorem run_derived (ops : List Op) (s : Sam6883) : (runAll Op.step ops s.reset).Derived := by
  have hall : Always Op.step Derived ops s.reset :=
    Always.of_step (C := fun _ _ => True) rfl (fun op _ h _ => op.step_derived h)
      (EachStep.of_forall fun _ _ _ => trivial)
  exact hall.last

/-- The two shapes of the tables: divide by X with 16 bytes a row, by Y with 32. -/
theorem tables_shape : ∀ m, m < 8 →
    ([32, 16, 32, 16, 32, 16, 32, 32].getD m 0 = 16 ∧
        vdgModXdivs.getD m 0 = [12, 3, 3, 2, 2, 1, 1, 1].getD m 1 ∧ vdgModYdivs.getD m 0 = 1 ∧
        vdgModAdds.getD m 0 = 8 ∧ vdgModClears.getD m 0 = ~~~14 ∧
        [16, 16, 32, 16, 32, 16, 32, 32].getD m 0 = 16 ∧ m ≠ 0) ∨
      ([32, 16, 32, 16, 32, 16, 32, 32].getD m 0 = 32 ∧
        vdgModYdivs.getD m 0 = [12, 3, 3, 2, 2, 1, 1, 1].getD m 1 ∧ vdgModXdivs.getD m 0 = 1 ∧
        (vdgModAdds.getD m 0 = 16 ∧ vdgModClears.getD m 0 = ~~~30 ∨
          vdgModAdds.getD m 0 = 0 ∧ vdgModClears.getD m 0 = ~~~0) ∧
        (m ≠ 0 → [16, 16, 32, 16, 32, 16, 32, 32].getD m 0 = 32)) := by
  decide

/-- The next row starts where its last line comes around. -/
theorem next_row (base : Word) (n d k : Nat) :
    (if (k + 1) % d = 0 then base + BitVec.ofNat 16 (n * (k / d)) + BitVec.ofNat 16 n
      else base + BitVec.ofNat 16 (n * (k / d))) =
      base + BitVec.ofNat 16 (n * ((k + 1) / d)) := by
  split
  next h =>
    rw [Nat.succ_div_of_mod_eq_zero h, Nat.mul_add, Nat.mul_one, BitVec.add_assoc,
      BitVec.ofNat_add]
  next h => rw [Nat.succ_div_of_mod_ne_zero h]

theorem mode_ne_zero (h : s.vdgMode.toNat ≠ 0) : s.vdgMode ≠ 0 := by
  intro heq
  rw [heq] at h
  exact h rfl

/-- An active line in a mode of 16 bytes a row. -/
theorem After.line_byX {base : Word} {k : Nat} {ag : Bool} (h : After base k s)
    (hbase : base.toNat % 512 = 0) (hbytes : s.bytesPerRow ag = 16)
    (hstride : stride s.vdgMode = 16) (hxdiv : s.vdgModXdiv = rep s.vdgMode)
    (hydiv : s.vdgModYdiv = 1) (hadd : s.vdgModAdd = 8) (hclear : s.vdgModClear = ~~~14) :
    After base (k + 1) (s.activeLine ag) := by
  have haddress := h.address
  rw [hstride] at haddress
  have haligned : s.vdgAddress.toNat % 16 = 0 := by
    rw [haddress, BitVec.toNat_add, BitVec.toNat_ofNat]
    omega
  have hy : s.vdgYcount = 0 := by
    rw [h.ycount, hydiv, Nat.mod_one]
  have hx : (s.vdgXcount + 1) % s.vdgModXdiv = (k + 1) % rep s.vdgMode := by
    rw [h.xcount, hxdiv, Nat.mod_add_mod]
  rw [Sam6883.line_byX hbytes hadd hclear hydiv hy haligned, hx]
  refine ⟨SameReg.derived rfl h.derived, ?_, ?_, ?_⟩
  · simp only [hstride, haddress]
    exact next_row base 16 (rep s.vdgMode) k
  · simp only [hxdiv]
  · simp only [hy, hydiv, Nat.mod_one]

/-- An active line in a mode of 32 bytes a row. -/
theorem After.line_byY {base : Word} {k : Nat} {ag : Bool} (h : After base k s)
    (hbase : base.toNat % 512 = 0) (hbytes : s.bytesPerRow ag = 32)
    (hstride : stride s.vdgMode = 32) (hydiv : s.vdgModYdiv = rep s.vdgMode)
    (hxdiv : s.vdgModXdiv = 1)
    (hsync : s.vdgModAdd = 16 ∧ s.vdgModClear = ~~~30 ∨ s.vdgModAdd = 0 ∧ s.vdgModClear = ~~~0) :
    After base (k + 1) (s.activeLine ag) := by
  have haddress := h.address
  rw [hstride] at haddress
  have haligned : s.vdgAddress.toNat % 32 = 0 := by
    rw [haddress, BitVec.toNat_add, BitVec.toNat_ofNat]
    omega
  have hx : s.vdgXcount = 0 := by
    rw [h.xcount, hxdiv, Nat.mod_one]
  have hy : (s.vdgYcount + 1) % s.vdgModYdiv = (k + 1) % rep s.vdgMode := by
    rw [h.ycount, hydiv, Nat.mod_add_mod]
  have hback (t : Sam6883) (hadd : t.vdgModAdd = s.vdgModAdd)
      (hclear : t.vdgModClear = s.vdgModClear) (htx : t.vdgModXdiv = 1) (htc : t.vdgXcount = 0)
      (hta : t.vdgAddress.toNat % 32 = 0) : t.vdgHsync false = t := by
    rcases hsync with ⟨ha, hc⟩ | ⟨ha, hc⟩
    · exact hsync_byY (hadd.trans ha) (hclear.trans hc) htx htc hta
    · exact hsync_none (hadd.trans ha) (hclear.trans hc) hta
  rw [Sam6883.line_byY hbytes hback hxdiv hx haligned, hy]
  refine ⟨SameReg.derived rfl h.derived, ?_, ?_, ?_⟩
  · simp only [hstride, haddress]
    exact next_row base 32 (rep s.vdgMode) k
  · simp only [hx, hxdiv, Nat.mod_one]
  · simp only [hydiv]

/-- An active line, in the mode's own fetch size. -/
theorem After.line {base : Word} {k : Nat} {ag : Bool} (h : After base k s)
    (hbase : base.toNat % 512 = 0) (hag : ag = decide (s.vdgMode ≠ 0)) :
    After base (k + 1) (s.activeLine ag) := by
  rcases tables_shape s.vdgMode.toNat h.derived.mode_lt with
    ⟨hstride, hx, hy, hadd, hclear, hbytes, hne⟩ | ⟨hstride, hy, hx, hsync, hbytes⟩
  · have hgraphics : ag = true := by
      rw [hag]
      exact decide_eq_true (mode_ne_zero hne)
    refine h.line_byX hbase ?_ hstride (h.derived.xdiv.trans hx) (h.derived.ydiv.trans hy)
      (h.derived.add.trans hadd) (h.derived.clear.trans hclear)
    rw [bytesPerRow, if_pos hgraphics, hbytes]
  · refine h.line_byY hbase ?_ hstride (h.derived.ydiv.trans hy) (h.derived.xdiv.trans hx) ?_
    · cases ag with
      | false => rfl
      | true =>
        have hmode : s.vdgMode ≠ 0 := of_decide_eq_true hag.symm
        have hne : s.vdgMode.toNat ≠ 0 := fun h0 => hmode (BitVec.eq_of_toNat_eq h0)
        exact hbytes hne
    · rw [h.derived.add, h.derived.clear]
      exact hsync

/-- A write that keeps V keeps the counter. -/
theorem After.write {base : Word} {k : Nat} {addr : Byte} (h : After base k s)
    (hmode : (s.write addr).vdgMode = s.vdgMode) : After base k (s.write addr) := by
  have hderived := write_derived addr h.derived
  have hcounters : (s.write addr).vdgAddress = s.vdgAddress ∧
      (s.write addr).vdgXcount = s.vdgXcount ∧ (s.write addr).vdgYcount = s.vdgYcount := by
    simp only [Sam6883.write]
    split
    next => exact ⟨rfl, rfl, rfl⟩
    next =>
      split
      next => exact ⟨rfl, rfl, rfl⟩
      next => exact ⟨rfl, rfl, rfl⟩
  refine ⟨hderived, ?_, ?_, ?_⟩
  · rw [hcounters.1, hmode, h.address]
  · rw [hcounters.2.1, hderived.xdiv, hmode, ← h.derived.xdiv, h.xcount]
  · rw [hcounters.2.2, hderived.ydiv, hmode, ← h.derived.ydiv, h.ycount]

theorem activeLine_mode (ag : Bool) : (s.activeLine ag).vdgMode = s.vdgMode := by
  have hsame : SameReg s (s.activeLine ag) :=
    (fetchBytes_sameReg _).trans (hsync_sameReg false)
  rw [hsame]

/-- Lines without a write between them. -/
theorem lines_keep (k : Nat) {ag : Bool} (h : ag = decide (s.vdgMode ≠ 0)) :
    EachStep FrameOp.step FrameOp.KeepsMode (List.replicate k (.line ag)) s := by
  induction k generalizing s with
  | zero => exact trivial
  | succ k ih =>
    refine ⟨h, ih ?_⟩
    rw [FrameOp.step, activeLine_mode]
    exact h

/-- Along a frame the counter follows the number of lines, and V stays. -/
theorem After.run {base : Word} {k : Nat} {ops : List FrameOp} (h : After base k s)
    (hbase : base.toNat % 512 = 0) (hkeeps : EachStep FrameOp.step FrameOp.KeepsMode ops s) :
    After base (k + ops.countP FrameOp.isLine) (runAll FrameOp.step ops s) ∧
      (runAll FrameOp.step ops s).vdgMode = s.vdgMode := by
  induction ops generalizing s k with
  | nil => exact ⟨h, rfl⟩
  | cons op ops ih =>
    obtain ⟨hop, hrest⟩ := hkeeps
    cases op with
    | line ag =>
      obtain ⟨hafter, hmode⟩ := ih (h.line hbase hop) hrest
      have hcount : k + (FrameOp.line ag :: ops).countP FrameOp.isLine =
          k + 1 + ops.countP FrameOp.isLine := by
        rw [List.countP_cons_of_pos (by rfl)]
        omega
      rw [hcount]
      exact ⟨hafter, hmode.trans (activeLine_mode ag)⟩
    | write addr =>
      obtain ⟨hafter, hmode⟩ := ih (h.write hop) hrest
      have hcount : k + (FrameOp.write addr :: ops).countP FrameOp.isLine =
          k + ops.countP FrameOp.isLine := by
        rw [List.countP_cons_of_neg (by simp [FrameOp.isLine])]
      rw [hcount]
      exact ⟨hafter, hmode.trans hop⟩

/-- The row address after any number of lines: from a field sync in any state a reset leads to,
and with V constant, it is the base and one stride for every `rep` lines, whatever else is
written between them. -/
theorem row_address_exact (boot : Sam6883) (before : List Op) (frame : List FrameOp)
    (hkeeps : EachStep FrameOp.step FrameOp.KeepsMode frame
      ((runAll Op.step before boot.reset).vdgFsync true)) :
    let start := runAll Op.step before boot.reset
    let lines := frame.countP FrameOp.isLine
    (runAll FrameOp.step frame (start.vdgFsync true)).vdgAddress.toNat =
      (start.vdgBase.toNat + stride start.vdgMode * (lines / rep start.vdgMode)) % 65536 := by
  intro start lines
  have hderived : start.Derived := run_derived before boot
  have hstart : After start.vdgBase 0 (start.vdgFsync true) := by
    refine ⟨SameReg.derived rfl hderived, ?_, ?_, ?_⟩
    · rw [Nat.zero_div, Nat.mul_zero]
      exact (BitVec.add_zero _).symm
    · exact (Nat.zero_mod _).symm
    · exact (Nat.zero_mod _).symm
  obtain ⟨hafter, hmode⟩ := hstart.run hderived.base hkeeps
  have haddress := hafter.address
  rw [hmode, Nat.zero_add] at haddress
  rw [haddress, BitVec.toNat_add, BitVec.toNat_ofNat, Nat.add_mod_mod]
  rfl

/-- V = 2 shows a row of 32 bytes on three lines: the eighth line shows the third row. -/
theorem row_address_exact_cg2 :
    (runAll FrameOp.step (List.replicate 7 (.line true))
      ((runAll Op.step [.write 3] (reset {})).vdgFsync true)).vdgAddress.toNat = 64 :=
  (row_address_exact {} [.write 3] (List.replicate 7 (.line true))
    (lines_keep 7 (by decide))).trans (by decide)

end Sam6883

end CocoEmulator.Chip
