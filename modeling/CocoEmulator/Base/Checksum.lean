/-
  Base/Checksum.lean --- CRC-32 and Adler-32.

  CRC-32 is stated as a division: a register of 32 coefficients, the bits of the
  message shifted in one by one, each byte from its least significant bit, and the
  polynomial subtracted whenever a one falls out.  Programs keep the register
  reversed, so that it shifts the other way, and add a byte at a time.

  Adler-32 is stated with sums: of the bytes, and of all values the first sum takes.
  Programs reduce both at every byte.

      crc32_reflected    the reversed register computes the division
      reflect_byte       a byte added at once and shifted eight times is its eight bits
      adler32_reduced    reducing at every byte changes nothing

  This file names nothing of the emulator.
-/
import Mathlib.Data.BitVec
import Mathlib.Data.List.Basic
import Mathlib.Data.Int.ModEq

set_option autoImplicit false

namespace CocoEmulator.Base

/-! ## CRC-32 -/

/-- The coefficients of `x^26 + x^23 + x^22 + x^16 + x^12 + x^11 + x^10 + x^8 + x^7 + x^5 + x^4 +
x^2 + x + 1`; that of `x^32` is what falls out. -/
def crcPoly : BitVec 32 := 0x04C11DB7

/-- One bit of the division. -/
def crcBit (r : BitVec 32) (b : Bool) : BitVec 32 :=
  if r.msb != b then r <<< 1 ^^^ crcPoly else r <<< 1

/-- A byte in the order of transmission, least significant bit first. -/
def byteBits (b : BitVec 8) : List Bool := (List.range 8).map b.getLsbD

/-- CRC-32: the register starts with ones, and its complement is sent from the highest
coefficient on. -/
def crc32 (bytes : List (BitVec 8)) : BitVec 32 :=
  ~~~((bytes.flatMap byteBits).foldl crcBit (BitVec.allOnes 32)).reverse

/-- The polynomial with its coefficients reversed. -/
def crcPolyReflected : BitVec 32 := 0xEDB88320

/-- One shift of the reversed register. -/
def crcShift (q : BitVec 32) : BitVec 32 :=
  if q.getLsbD 0 then crcPolyReflected ^^^ q >>> 1 else q >>> 1

/-- One bit of the division in the reversed register. -/
def crcBitReflected (q : BitVec 32) (b : Bool) : BitVec 32 :=
  if q.getLsbD 0 != b then crcPolyReflected ^^^ q >>> 1 else q >>> 1

theorem reverse_shiftLeft (r : BitVec 32) : (r <<< 1).reverse = r.reverse >>> 1 := by
  apply BitVec.eq_of_getLsbD_eq
  intro i hi
  rw [BitVec.getLsbD_reverse, BitVec.getLsbD_ushiftRight, BitVec.getLsbD_reverse,
    BitVec.getMsbD_shiftLeft, Nat.add_comm]

theorem reverse_xor (r s : BitVec 32) : (r ^^^ s).reverse = r.reverse ^^^ s.reverse := by
  apply BitVec.eq_of_getLsbD_eq
  intro i hi
  rw [BitVec.getLsbD_reverse, BitVec.getLsbD_xor, BitVec.getLsbD_reverse, BitVec.getLsbD_reverse,
    BitVec.getMsbD_xor]

theorem reverse_crcBit (r : BitVec 32) (b : Bool) :
    (crcBit r b).reverse = crcBitReflected r.reverse b := by
  have hlow : r.reverse.getLsbD 0 = r.msb := by
    rw [BitVec.getLsbD_reverse]
    rfl
  have hpoly : crcPoly.reverse = crcPolyReflected := by decide +kernel
  unfold crcBit crcBitReflected
  rw [hlow]
  split
  · rw [reverse_xor, reverse_shiftLeft, hpoly, BitVec.xor_comm]
  · exact reverse_shiftLeft r

theorem reverse_foldl_crcBit (bits : List Bool) (r : BitVec 32) :
    (bits.foldl crcBit r).reverse = bits.foldl crcBitReflected r.reverse := by
  induction bits generalizing r with
  | nil => rfl
  | cons b bits ih => rw [List.foldl_cons, List.foldl_cons, ih, reverse_crcBit]

/-- Adding what is still to come to the register first makes no difference. -/
theorem crcShift_xor (q m : BitVec 32) :
    crcShift (q ^^^ m) = crcBitReflected q (m.getLsbD 0) ^^^ m >>> 1 := by
  unfold crcShift crcBitReflected
  rw [BitVec.getLsbD_xor, BitVec.ushiftRight_xor_distrib]
  cases q.getLsbD 0 <;> cases m.getLsbD 0 <;>
    simp [BitVec.xor_assoc]

/-- `n` shifts. -/
def crcShifts : Nat → BitVec 32 → BitVec 32
  | 0, q => q
  | n + 1, q => crcShifts n (crcShift q)

theorem crcShifts_xor (n : Nat) (q m : BitVec 32) :
    crcShifts n (q ^^^ m) =
      ((List.range n).map m.getLsbD).foldl crcBitReflected q ^^^ m >>> n := by
  induction n generalizing q m with
  | zero => exact (congrArg _ (BitVec.ushiftRight_zero m)).symm
  | succ n ih =>
    unfold crcShifts
    rw [crcShift_xor, ih, List.range_succ_eq_map, List.map_cons, List.foldl_cons, List.map_map,
      ← BitVec.shiftRight_add, Nat.add_comm 1 n]
    congr 2
    apply List.map_congr_left
    intro k _
    rw [BitVec.getLsbD_ushiftRight, Nat.add_comm]
    rfl

/-- A byte added at once and shifted eight times is its eight bits. -/
theorem reflect_byte (q : BitVec 32) (b : BitVec 8) :
    crcShifts 8 (q ^^^ b.setWidth 32) = (byteBits b).foldl crcBitReflected q := by
  have hgone : b.setWidth 32 >>> 8 = 0#32 := by
    apply BitVec.eq_of_toNat_eq
    have hlt := b.isLt
    rw [BitVec.toNat_ushiftRight, BitVec.toNat_setWidth, Nat.shiftRight_eq_div_pow]
    change _ = 0
    omega
  have hbits : (List.range 8).map (b.setWidth 32).getLsbD = byteBits b := by
    apply List.map_congr_left
    intro k hk
    have hlt := List.mem_range.mp hk
    rw [BitVec.getLsbD_setWidth, decide_eq_true (by omega), Bool.true_and]
  rw [crcShifts_xor, hgone, hbits, BitVec.xor_zero]

/-- The reversed register computes the division. -/
theorem crc32_reflected (bytes : List (BitVec 8)) :
    crc32 bytes =
      bytes.foldl (fun q b => crcShifts 8 (q ^^^ b.setWidth 32)) (0xFFFFFFFF : BitVec 32) ^^^
        0xFFFFFFFF := by
  have hones : (BitVec.allOnes 32).reverse = (0xFFFFFFFF : BitVec 32) := by decide +kernel
  have hnot (q : BitVec 32) : ~~~q = q ^^^ 0xFFFFFFFF := (BitVec.xor_allOnes).symm
  unfold crc32
  rw [reverse_foldl_crcBit, hones, hnot, List.foldl_flatMap]
  congr 2
  funext q b
  exact (reflect_byte q b).symm

/-! ## Adler-32 -/

/-- The values the first sum takes, added up. -/
def adlerSums : Nat → List (BitVec 8) → Nat
  | _, [] => 0
  | s₁, b :: bytes => s₁ + b.toNat + adlerSums (s₁ + b.toNat) bytes

/-- Adler-32 as a number: the second sum above the first, both modulo 65521. -/
def adler32 (bytes : List (BitVec 8)) : Nat :=
  65536 * (adlerSums 1 bytes % 65521) + (1 + (bytes.map BitVec.toNat).sum) % 65521

/-- Both sums, reduced at every byte. -/
def adlerStep (s : Nat × Nat) (b : BitVec 8) : Nat × Nat :=
  let s₁ := (s.1 + b.toNat) % 65521
  (s₁, (s.2 + s₁) % 65521)

theorem adlerSums_congr {s t : Nat} (h : s ≡ t [MOD 65521]) (bytes : List (BitVec 8)) :
    adlerSums s bytes ≡ adlerSums t bytes [MOD 65521] := by
  induction bytes generalizing s t with
  | nil => rfl
  | cons b bytes ih =>
    have hnext : s + b.toNat ≡ t + b.toNat [MOD 65521] := h.add_right _
    exact hnext.add (ih hnext)

/-- Reducing the sums at every byte changes nothing in the end. -/
theorem foldl_adlerStep (bytes : List (BitVec 8)) (s : Nat × Nat) :
    (bytes.foldl adlerStep s).1 ≡ s.1 + (bytes.map BitVec.toNat).sum [MOD 65521] ∧
      (bytes.foldl adlerStep s).2 ≡ s.2 + adlerSums s.1 bytes [MOD 65521] := by
  induction bytes generalizing s with
  | nil => exact ⟨rfl, rfl⟩
  | cons b bytes ih =>
    obtain ⟨hfirst, hsecond⟩ := ih (adlerStep s b)
    have hs₁ : (adlerStep s b).1 ≡ s.1 + b.toNat [MOD 65521] := Nat.mod_modEq _ _
    have hs₂ : (adlerStep s b).2 ≡ s.2 + (s.1 + b.toNat) [MOD 65521] :=
      (Nat.mod_modEq _ _).trans (hs₁.add_left s.2)
    rw [List.foldl_cons, List.map_cons, List.sum_cons, ← Nat.add_assoc]
    refine ⟨hfirst.trans (hs₁.add_right _), ?_⟩
    unfold adlerSums
    rw [← Nat.add_assoc]
    exact hsecond.trans (hs₂.add (adlerSums_congr hs₁ bytes))

theorem adlerStep_lt (bytes : List (BitVec 8)) {s : Nat × Nat} (h : s.1 < 65521 ∧ s.2 < 65521) :
    (bytes.foldl adlerStep s).1 < 65521 ∧ (bytes.foldl adlerStep s).2 < 65521 := by
  induction bytes generalizing s with
  | nil => exact h
  | cons b bytes ih => exact ih ⟨Nat.mod_lt _ (by decide), Nat.mod_lt _ (by decide)⟩

/-- The reduced sums are those of the checksum. -/
theorem adler32_reduced (bytes : List (BitVec 8)) :
    adler32 bytes =
      65536 * (bytes.foldl adlerStep (1, 0)).2 + (bytes.foldl adlerStep (1, 0)).1 := by
  obtain ⟨hfirst, hsecond⟩ := foldl_adlerStep bytes (1, 0)
  obtain ⟨hlt₁, hlt₂⟩ := adlerStep_lt bytes (s := (1, 0)) ⟨by decide, by decide⟩
  dsimp only at hfirst hsecond
  rw [Nat.zero_add] at hsecond
  unfold adler32
  rw [← hfirst, ← hsecond, Nat.mod_eq_of_lt hlt₁, Nat.mod_eq_of_lt hlt₂]

end CocoEmulator.Base
