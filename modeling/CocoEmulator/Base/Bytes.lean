/-
  Base/Bytes.lean --- blocks of bytes, copies into them, and chunked transfers.

  A block is a function from offsets.  `splice` is `memcpy` into a block; what it
  leaves is said by where an offset lies.  A transfer moves a range in chunks and
  may be cut short: it is a splice of the part that was moved
  (`moved_le`).

  `mixed_radix` is the address arithmetic of nested arrays.

  This file names nothing of the emulator.
-/
import Mathlib.Order.Basic
import Mathlib.Tactic.Ring

set_option autoImplicit false

namespace CocoEmulator.Base

variable {α : Type}

/-! ## Copies -/

/-- `memcpy(dst + off, src, len)`. -/
def splice (dst : Nat → α) (off len : Nat) (src : Nat → α) : Nat → α :=
  fun i => if off ≤ i ∧ i < off + len then src (i - off) else dst i

variable {dst src : Nat → α} {off len i : Nat}

theorem splice_in (h : off ≤ i) (h' : i < off + len) : splice dst off len src i = src (i - off) :=
  if_pos ⟨h, h'⟩

theorem splice_out (h : i < off ∨ off + len ≤ i) : splice dst off len src i = dst i :=
  if_neg (by omega)

theorem splice_at (h : i < len) : splice dst off len src (off + i) = src i := by
  rw [splice_in (by omega) (by omega), Nat.add_sub_cancel_left]

@[simp] theorem splice_zero : splice dst off 0 src = dst := by
  funext i
  exact splice_out (by omega)

/-- A copy of what is there already changes nothing. -/
theorem splice_same (h : ∀ k, k < len → src k = dst (off + k)) : splice dst off len src = dst := by
  funext i
  by_cases hi : off ≤ i ∧ i < off + len
  · rw [splice_in hi.1 hi.2, h _ (by omega), Nat.add_sub_cancel' hi.1]
  · exact splice_out (by omega)

/-- A copy looks only at what it copies. -/
theorem splice_congr {src' : Nat → α} (h : ∀ k, k < len → src k = src' k) :
    splice dst off len src = splice dst off len src' := by
  funext i
  by_cases hi : off ≤ i ∧ i < off + len
  · rw [splice_in hi.1 hi.2, splice_in hi.1 hi.2, h _ (by omega)]
  · rw [splice_out (by omega), splice_out (by omega)]

/-- Two copies of adjacent ranges are one. -/
theorem splice_append (m n : Nat) :
    splice (splice dst off m src) (off + m) n (fun k => src (m + k)) =
      splice dst off (m + n) src := by
  funext i
  by_cases hlow : off ≤ i ∧ i < off + m
  · rw [splice_out (by omega), splice_in hlow.1 hlow.2, splice_in hlow.1 (by omega)]
  · by_cases hhigh : off + m ≤ i ∧ i < off + m + n
    · rw [splice_in hhigh.1 hhigh.2, splice_in (by omega) (by omega)]
      congr 1
      omega
    · rw [splice_out (by omega), splice_out (by omega), splice_out (by omega)]

/-! ## Transfers in chunks -/

/-- How much a transfer of `remaining` bytes from `pos` on moves: each call is asked
for at most `chunk` bytes and answers how many it moved; a call that moves none ends
the transfer. -/
def moved (chunk : Nat) (answer : Nat → Nat) : Nat → Nat → Nat → Nat
  | 0, _, _ => 0
  | fuel + 1, pos, remaining =>
      if min (answer pos) (min chunk remaining) = 0 then 0
      else min (answer pos) (min chunk remaining) +
        moved chunk answer fuel (pos + min (answer pos) (min chunk remaining))
          (remaining - min (answer pos) (min chunk remaining))

theorem moved_le (chunk : Nat) (answer : Nat → Nat) (fuel pos remaining : Nat) :
    moved chunk answer fuel pos remaining ≤ remaining := by
  induction fuel generalizing pos remaining with
  | zero => exact Nat.zero_le _
  | succ fuel ih =>
    unfold moved
    generalize hn : min (answer pos) (min chunk remaining) = n
    split
    · exact Nat.zero_le _
    · have hrest := ih (pos + n) (remaining - n)
      omega

/-! ## Nested arrays -/

/-- Row-major addresses of different cells differ. -/
theorem mixed_radix {n i j i' j' : Nat} (hj : j < n) (hj' : j' < n)
    (h : i * n + j = i' * n + j') : i = i' ∧ j = j' := by
  have hn : 0 < n := by omega
  have hi : (i * n + j) / n = i := by
    rw [Nat.add_comm, Nat.add_mul_div_right _ _ hn, Nat.div_eq_of_lt hj, Nat.zero_add]
  have hi' : (i' * n + j') / n = i' := by
    rw [Nat.add_comm, Nat.add_mul_div_right _ _ hn, Nat.div_eq_of_lt hj', Nat.zero_add]
  have hii : i = i' := by rw [← hi, h, hi']
  refine ⟨hii, ?_⟩
  rw [hii] at h
  omega

/-- A cell of a row-major array lies inside it. -/
theorem mixed_radix_lt {m n i j : Nat} (hi : i < m) (hj : j < n) : i * n + j < m * n := by
  calc i * n + j < i * n + n := by omega
    _ = (i + 1) * n := by ring
    _ ≤ m * n := Nat.mul_le_mul_right n hi

end CocoEmulator.Base
