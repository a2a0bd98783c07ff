/-
  Base/Words.lean --- the fixed-width numbers of the source.

  `uint8_t` and `uint16_t` are bit vectors.  Where a source counts in `int32_t`, a
  model computes in Int and takes each result as 32 bits of two's complement leave it
  (`i32`); a result that fits is exact (`i32_of_fits`).

  This file names nothing of the emulator.
-/
import Mathlib.Data.BitVec

set_option autoImplicit false

namespace CocoEmulator

/-- `uint8_t` -/
abbrev Byte : Type := BitVec 8

/-- `uint16_t` -/
abbrev Word : Type := BitVec 16

namespace Base

/-- What an `int32_t` holds after a computation whose exact result is `x`. -/
def i32 (x : Int) : Int := x.bmod (2 ^ 32)

/-- Does an exact result fit an `int32_t`? -/
def FitsI32 (x : Int) : Prop := -2 ^ 31 ≤ x ∧ x < 2 ^ 31

instance (x : Int) : Decidable (FitsI32 x) := inferInstanceAs (Decidable (_ ∧ _))

theorem i32_of_fits {x : Int} (h : FitsI32 x) : i32 x = x := by
  obtain ⟨hlo, hhi⟩ := h
  unfold i32
  rw [Int.bmod_eq_of_le] <;> omega

theorem i32_fits (x : Int) : FitsI32 (i32 x) := by
  have hlo := Int.le_bmod (x := x) (m := 2 ^ 32) (by decide)
  have hhi := Int.bmod_lt (x := x) (m := 2 ^ 32) (by decide)
  unfold FitsI32 i32
  omega

/-- A result past the greatest one is read as a negative number. -/
theorem i32_past {x : Int} (hlow : 2 ^ 31 ≤ x) (hhigh : x < 2 ^ 32) : i32 x = x - 2 ^ 32 := by
  have hshift : i32 x = i32 (x - 2 ^ 32) := by
    unfold i32
    exact (Int.sub_bmod_right x (2 ^ 32)).symm
  rw [hshift, i32_of_fits]
  unfold FitsI32
  omega

end Base

end CocoEmulator
