/-
  Base/Signed.lean --- signed numbers as a sign and a magnitude.

  A divider strips the signs of its operands, divides the magnitudes and puts the
  signs back (`signed_tdiv`, `signed_tmod`).  Putting the sign of a quotient back in
  a register twice as wide as the destination is `restoreSign`: it negates what has
  no sign bit and gets one.

      restoreSign_msb       the two halves agree in sign exactly below the
                            largest magnitude
      restoreSign_toInt     the low half is the signed quotient, up to it

  This file names nothing of the emulator.
-/
import Mathlib.Data.BitVec
import Mathlib.Tactic.Ring

set_option autoImplicit false

namespace CocoEmulator.Base

/-- The integer with this sign and this magnitude. -/
def signed (neg : Bool) (m : Nat) : Int := if neg then -(m : Int) else m

theorem signed_tdiv (s t : Bool) (m k : Nat) :
    (signed s m).tdiv (signed t k) = signed (s != t) (m / k) := by
  have hpos : (m : Int).tdiv k = (m / k : Nat) := (Int.ofNat_tdiv m k).symm
  unfold signed
  cases s with
  | false =>
    cases t with
    | false => exact hpos
    | true => exact (Int.tdiv_neg _ _).trans (congrArg _ hpos)
  | true =>
    cases t with
    | false => exact (Int.neg_tdiv _ _).trans (congrArg _ hpos)
    | true => exact (Int.neg_tdiv_neg _ _).trans hpos

/-- The remainder takes the sign of the dividend. -/
theorem signed_tmod (s t : Bool) (m k : Nat) :
    (signed s m).tmod (signed t k) = signed s (m % k) := by
  have hpos : (m : Int).tmod k = (m % k : Nat) := (Int.ofNat_tmod m k).symm
  unfold signed
  cases s with
  | false =>
    cases t with
    | false => exact hpos
    | true => exact (Int.tmod_neg _ _).trans hpos
  | true =>
    cases t with
    | false => exact (Int.neg_tmod _ _).trans (congrArg _ hpos)
    | true => exact (Int.neg_tmod _ _).trans (congrArg _ ((Int.tmod_neg _ _).trans hpos))

section
variable {w : Nat}

/-- `0 - x`, as a source writes it. -/
theorem zero_sub_eq (x : BitVec w) : 0 - x = -x := BitVec.zero_sub x

/-- The absolute value; that of the most negative number is itself, read unsigned. -/
def magnitude (x : BitVec w) : BitVec w := if x.msb then 0 - x else x

theorem toInt_eq_signed (x : BitVec w) : x.toInt = signed x.msb (magnitude x).toNat := by
  have hlt := x.isLt
  rw [BitVec.toInt_eq_msb_cond]
  unfold magnitude signed
  cases hmsb : x.msb with
  | false => rfl
  | true =>
    have hpos : 0 < x.toNat := by
      rw [BitVec.msb_eq_decide, decide_eq_true_eq] at hmsb
      exact Nat.lt_of_lt_of_le (Nat.two_pow_pos _) hmsb
    simp only [if_true]
    rw [zero_sub_eq, BitVec.toNat_neg, Nat.mod_eq_of_lt (by omega)]
    omega

theorem magnitude_pos {x : BitVec w} (h : x ≠ 0) : 0 < (magnitude x).toNat := by
  have hint := toInt_eq_signed x
  rcases Nat.eq_zero_or_pos (magnitude x).toNat with hzero | hpos
  · rw [hzero] at hint
    have hx : x.toInt = 0 := by
      rw [hint]
      unfold signed
      split <;> rfl
    exact absurd (BitVec.eq_of_toInt_eq (hx.trans BitVec.toInt_zero.symm)) h
  · exact hpos

theorem magnitude_le (x : BitVec (w + 1)) : (magnitude x).toNat ≤ 2 ^ w := by
  have hlt := x.isLt
  have hpow : 2 ^ (w + 1) = 2 ^ w * 2 := Nat.pow_succ ..
  unfold magnitude
  rw [BitVec.msb_eq_decide, Nat.add_sub_cancel]
  by_cases hle : 2 ^ w ≤ x.toNat
  · have hpos := Nat.two_pow_pos w
    rw [decide_eq_true hle, if_pos rfl, zero_sub_eq, BitVec.toNat_neg, Nat.mod_eq_of_lt (by omega)]
    omega
  · rw [decide_eq_false hle, if_neg Bool.false_ne_true]
    omega

/-- A bit tested by a mask. -/
theorem and_twoPow_ne (x : BitVec w) {i : Nat} (hi : i < w) :
    (x &&& BitVec.twoPow w i != 0) = x.getLsbD i := by
  rw [BitVec.and_twoPow]
  cases x.getLsbD i with
  | false => exact bne_self_eq_false _
  | true =>
    have hne : BitVec.twoPow w i ≠ 0 := by
      intro heq
      have hnat := congrArg BitVec.toNat heq
      rw [BitVec.toNat_twoPow_of_lt hi] at hnat
      exact absurd hnat (Nat.two_pow_pos i).ne'
    exact bne_iff_ne.mpr hne

/-- The sign bit as a number. -/
theorem ushiftRight_last (x : BitVec (w + 1)) : x >>> w = if x.msb then 1 else 0 := by
  have hlt := x.isLt
  apply BitVec.eq_of_toNat_eq
  rw [BitVec.toNat_ushiftRight, Nat.shiftRight_eq_div_pow, BitVec.msb_eq_decide,
    Nat.add_sub_cancel]
  rw [Nat.pow_succ] at hlt
  by_cases hle : 2 ^ w ≤ x.toNat
  · have hone : x.toNat / 2 ^ w = 1 := Nat.div_eq_of_lt_le (by omega) (by omega)
    rw [decide_eq_true hle, if_pos rfl, hone]
    exact (BitVec.toNat_one (by omega)).symm
  · rw [decide_eq_false hle, if_neg Bool.false_ne_true, Nat.div_eq_of_lt (by omega)]
    rfl

/-! ## Restoring the sign of a quotient -/

/-- Negate a quotient of magnitude below `2 ^ (k + 1)`, where that sets bit `k` and it was
clear before. -/
def restoreSign (k : Nat) (neg : Bool) (q : BitVec w) : BitVec w :=
  if neg && ((0 - q).getLsbD k && !q.getLsbD k) then 0 - q else q

/-- Bit `k` of a number below `2 ^ (k + 1)`. -/
theorem testBit_top {x k : Nat} (h : x < 2 ^ (k + 1)) : x.testBit k = decide (2 ^ k ≤ x) := by
  by_cases hle : 2 ^ k ≤ x
  · rw [decide_eq_true hle]
    exact Nat.testBit_of_two_pow_le_and_two_pow_add_one_gt hle h
  · rw [decide_eq_false hle]
    exact Nat.testBit_lt_two_pow (Nat.lt_of_not_le hle)

/-- It negates the magnitudes strictly between zero and `2 ^ k`. -/
theorem restoreSign_eq {k : Nat} (hk : k < w) (neg : Bool) {q : BitVec w}
    (hq : q.toNat < 2 ^ (k + 1)) :
    restoreSign k neg q = if neg = true ∧ 0 < q.toNat ∧ q.toNat < 2 ^ k then -q else q := by
  have hnegated : 0 < q.toNat → (0 - q).getLsbD k = decide (q.toNat ≤ 2 ^ k) := by
    intro hpos
    have hlt := q.isLt
    have hnat : (0 - q).toNat = 2 ^ w - (q.toNat - 1 + 1) := by
      rw [zero_sub_eq, BitVec.toNat_neg, Nat.mod_eq_of_lt (by omega)]
      omega
    rw [BitVec.getLsbD, hnat, Nat.testBit_two_pow_sub_succ (by omega), decide_eq_true hk,
      Bool.true_and, testBit_top (by omega), Bool.eq_iff_iff]
    simp only [Bool.not_eq_true', decide_eq_false_iff_not, decide_eq_true_eq]
    omega
  have hbit : q.getLsbD k = decide (2 ^ k ≤ q.toNat) := testBit_top hq
  unfold restoreSign
  rw [zero_sub_eq] at hnegated ⊢
  rcases Nat.eq_zero_or_pos q.toNat with hzero | hpos
  · have hq0 : q = 0#w := BitVec.eq_of_toNat_eq (hzero.trans BitVec.toNat_zero.symm)
    rw [hq0, BitVec.neg_zero, ite_self, ite_self]
  · have hcond : (neg && (decide (q.toNat ≤ 2 ^ k) && !decide (2 ^ k ≤ q.toNat))) = true ↔
        neg = true ∧ 0 < q.toNat ∧ q.toNat < 2 ^ k := by
      simp only [Bool.and_eq_true, decide_eq_true_eq, Bool.not_eq_true', decide_eq_false_iff_not]
      exact and_congr_right fun _ => by omega
    rw [hnegated hpos, hbit]
    exact if_congr hcond rfl rfl

/-- Quotient and low half agree in sign exactly where the quotient is below `2 ^ k`. -/
theorem restoreSign_msb {k : Nat} (hk : k + 1 < w) (neg : Bool) {q : BitVec w}
    (hq : q.toNat < 2 ^ (k + 1)) :
    (restoreSign k neg q).msb = ((restoreSign k neg q).setWidth (k + 1)).msb ↔
      q.toNat < 2 ^ k := by
  obtain ⟨j, rfl⟩ := Nat.exists_eq_add_of_lt hk
  have hwide : 2 ^ (k + 1 + j + 1) = 2 ^ (k + 1) * 2 ^ j * 2 := by ring
  have hj := Nat.two_pow_pos j
  have hk2 : 2 ^ (k + 1) = 2 ^ k * 2 := Nat.pow_succ ..
  have hle : 2 ^ (k + 1) ≤ 2 ^ (k + 1) * 2 ^ j := Nat.le_mul_of_pos_right _ hj
  have hhalf : 2 ^ (k + 1 + j + 1 - 1) = 2 ^ (k + 1) * 2 ^ j := by
    rw [Nat.add_sub_cancel, Nat.pow_add]
  rw [restoreSign_eq (by omega) neg hq]
  split
  · -- the negated quotient: both halves are negative
    rename_i hneg
    obtain ⟨_, hpos, hsmall⟩ := hneg
    rw [BitVec.setWidth_neg_of_le (by omega), BitVec.msb_eq_decide, BitVec.msb_eq_decide,
      BitVec.toNat_neg, BitVec.toNat_neg, BitVec.toNat_setWidth, Nat.mod_eq_of_lt hq, hhalf,
      Nat.mod_eq_of_lt (by omega), Nat.mod_eq_of_lt (by omega), Nat.add_sub_cancel,
      decide_eq_true (by omega), decide_eq_true (by omega)]
    exact iff_of_true rfl hsmall
  · -- the quotient itself, which is positive in the wide register
    rw [BitVec.msb_eq_decide, BitVec.msb_eq_decide, BitVec.toNat_setWidth, Nat.mod_eq_of_lt hq,
      hhalf, Nat.add_sub_cancel, decide_eq_false (by omega), eq_comm, decide_eq_false_iff_not]
    omega

/-- The low half, with its sign: right up to `2 ^ k`, and at `2 ^ k` if it is negative. -/
theorem restoreSign_toInt {k : Nat} (hk : k + 1 < w) {neg : Bool} {q : BitVec w}
    (hq : q.toNat < 2 ^ k ∨ neg = true ∧ q.toNat = 2 ^ k) :
    ((restoreSign k neg q).setWidth (k + 1)).toInt = signed neg q.toNat := by
  have hk2 : 2 ^ (k + 1) = 2 ^ k * 2 := Nat.pow_succ ..
  have hpow := Nat.two_pow_pos k
  rw [restoreSign_eq (by omega) neg (by omega)]
  unfold signed
  split
  · rename_i hneg
    obtain ⟨hneg, hpos, hsmall⟩ := hneg
    have hnat : (-(q.setWidth (k + 1))).toNat = 2 ^ (k + 1) - q.toNat := by
      have hlow : q.toNat < 2 ^ (k + 1) := by omega
      rw [BitVec.toNat_neg, BitVec.toNat_setWidth, Nat.mod_eq_of_lt hlow,
        Nat.mod_eq_of_lt (by omega)]
    rw [BitVec.setWidth_neg_of_le (by omega), if_pos hneg, BitVec.toInt_eq_toNat_cond, hnat,
      if_neg (by omega)]
    omega
  · rename_i hkeep
    have hnat : (q.setWidth (k + 1)).toNat = q.toNat := by
      rw [BitVec.toNat_setWidth, Nat.mod_eq_of_lt (by omega)]
    rw [BitVec.toInt_eq_toNat_cond, hnat]
    rcases hq with hsmall | ⟨hneg, htop⟩
    · rw [if_pos (by omega)]
      -- only zero keeps its magnitude with either sign
      split
      · rename_i hneg
        have hzero : q.toNat = 0 := by
          rcases Nat.eq_zero_or_pos q.toNat with hz | hpos
          · exact hz
          · exact absurd ⟨hneg, hpos, hsmall⟩ hkeep
        omega
      · rfl
    · rw [if_neg (by omega), if_pos hneg, htop]
      omega

end

end CocoEmulator.Base
