/-
  Base/RingBuffer.lean --- single-producer rings with free-running indices.

  A ring is a block of slots with two 32-bit indices that are never reduced; an
  index is masked on access.  The log of a ring is everything pushed since the
  indices were zero.  `Holds` says which part of the log is in the ring: the
  positions from `next` on.  It survives the wrap of the indices because a ring
  holds at most `size` elements, and `size` divides `2 ^ 32`.

      Holds.push    pushed elements extend the log
      Holds.peek    what is read out is the log from `next` on
      Holds.skip    moving the consumer to a mark drops what lies before it, if a
                    mark that is behind is seen to be behind

  This file names nothing of the emulator.
-/
import Mathlib.Data.BitVec
import Mathlib.Data.List.Basic

set_option autoImplicit false

namespace CocoEmulator.Base

variable {α : Type}

/-- Slots, the producer's index and the consumer's. -/
structure RingBuffer (α : Type) where
  slot : Nat → α
  head : BitVec 32 := 0
  tail : BitVec 32 := 0

namespace RingBuffer

/-- `head - tail`. -/
def used (r : RingBuffer α) : Nat := (r.head - r.tail).toNat

/-- Store elements from index `i` on; `size` is a power of two, so the remainder is the
mask. -/
def fill (size : Nat) : List α → BitVec 32 → (Nat → α) → Nat → α
  | [], _, slot => slot
  | a :: as, i, slot => fill size as (i + 1) (Function.update slot (i.toNat % size) a)

/-- Append elements. -/
def push (size : Nat) (as : List α) (r : RingBuffer α) : RingBuffer α :=
  { r with slot := fill size as r.head r.slot, head := r.head + BitVec.ofNat 32 as.length }

/-- The first `n` elements. -/
def peek (size n : Nat) (r : RingBuffer α) : List α :=
  (List.range n).map fun k => r.slot ((r.tail + BitVec.ofNat 32 k).toNat % size)

/-- Move the consumer. -/
def advance (n : Nat) (r : RingBuffer α) : RingBuffer α :=
  { r with tail := r.tail + BitVec.ofNat 32 n }

/-- Drop everything. -/
def clear (r : RingBuffer α) : RingBuffer α := { r with tail := r.head }

/-- Advance a consumer index to a mark unless it is already past it. -/
def skipTo (tail mark : BitVec 32) : BitVec 32 := if 0 < (mark - tail).toInt then mark else tail

/-- Drop what lies before a mark. -/
def skip (mark : BitVec 32) (r : RingBuffer α) : RingBuffer α :=
  { r with tail := skipTo r.tail mark }

/-! ## Indices -/

theorem ofNat_sub_ofNat {a b : Nat} (h : b ≤ a) :
    BitVec.ofNat 32 a - BitVec.ofNat 32 b = BitVec.ofNat 32 (a - b) := by
  apply BitVec.eq_of_toNat_eq
  rw [BitVec.toNat_sub, BitVec.toNat_ofNat, BitVec.toNat_ofNat, BitVec.toNat_ofNat]
  omega

theorem ofNat_add_ofNat (a b : Nat) :
    BitVec.ofNat 32 a + BitVec.ofNat 32 b = BitVec.ofNat 32 (a + b) :=
  (BitVec.ofNat_add a b).symm

/-- Masking undoes the wrap. -/
theorem ofNat_mod {size : Nat} (hdvd : size ∣ 2 ^ 32) (p : Nat) :
    (BitVec.ofNat 32 p).toNat % size = p % size := by
  rw [BitVec.toNat_ofNat, Nat.mod_mod_of_dvd p hdvd]

/-! ## Holding a part of the log -/

/-- The ring holds the log from `next` on. -/
structure Holds (size : Nat) (r : RingBuffer α) (log : List α) (next : Nat) : Prop where
  head : r.head = BitVec.ofNat 32 log.length
  tail : r.tail = BitVec.ofNat 32 next
  low : next ≤ log.length
  high : log.length ≤ next + size
  slot : ∀ p, (h : p < log.length) → next ≤ p → r.slot (p % size) = log[p]

section

variable {size next : Nat} {r : RingBuffer α} {log : List α}

theorem holds_init (size : Nat) (slot : Nat → α) : Holds size { slot := slot } [] 0 where
  head := rfl
  tail := rfl
  low := Nat.le_refl 0
  high := Nat.zero_le _
  slot := fun _ h => absurd h (Nat.not_lt_zero _)

theorem Holds.used (h : Holds size r log next) (hsize : size < 2 ^ 32) :
    r.used = log.length - next := by
  have hlow := h.low
  have hhigh := h.high
  unfold RingBuffer.used
  rw [h.head, h.tail, ofNat_sub_ofNat hlow, BitVec.toNat_ofNat, Nat.mod_eq_of_lt (by omega)]

/-- A ring never holds more than its size. -/
theorem Holds.used_le (h : Holds size r log next) (hsize : size < 2 ^ 32) : r.used ≤ size := by
  have hhigh := h.high
  rw [h.used hsize]
  omega

theorem fill_other {as : List α} {i q : Nat} {slot : Nat → α} (hdvd : size ∣ 2 ^ 32)
    (h : ∀ k, k < as.length → (i + k) % size ≠ q) :
    fill size as (BitVec.ofNat 32 i) slot q = slot q := by
  induction as generalizing i slot with
  | nil => rfl
  | cons a as ih =>
    unfold fill
    have hone : BitVec.ofNat 32 i + 1 = BitVec.ofNat 32 (i + 1) := ofNat_add_ofNat i 1
    rw [hone, ih, ofNat_mod hdvd, Function.update_of_ne]
    · exact (h 0 (by rw [List.length_cons]; omega)).symm
    · intro k hk
      have hnext := h (k + 1) (by rw [List.length_cons]; omega)
      rw [Nat.add_assoc, Nat.add_comm 1 k]
      exact hnext

theorem fill_at {as : List α} {i k : Nat} {slot : Nat → α} (hdvd : size ∣ 2 ^ 32)
    (hfit : as.length ≤ size) (hk : k < as.length) :
    fill size as (BitVec.ofNat 32 i) slot ((i + k) % size) = as[k] := by
  induction as generalizing i k slot with
  | nil => exact absurd hk (Nat.not_lt_zero k)
  | cons a as ih =>
    rw [List.length_cons] at hfit hk
    have hone : BitVec.ofNat 32 i + 1 = BitVec.ofNat 32 (i + 1) := ofNat_add_ofNat i 1
    unfold fill
    rw [hone]
    cases k with
    | zero =>
      rw [fill_other hdvd, ofNat_mod hdvd]
      · exact Function.update_self ..
      · intro k hk' heq
        -- two slots less than `size` apart are different
        have hdist : (i + 1 + k - (i + 0)) % size = 0 := (Nat.sub_mod_eq_zero_of_mod_eq heq)
        have hsmall : i + 1 + k - (i + 0) = k + 1 := by omega
        rw [hsmall, Nat.mod_eq_of_lt (by omega)] at hdist
        omega
    | succ k =>
      have hnext := @ih (i + 1) k (Function.update slot ((BitVec.ofNat 32 i).toNat % size) a)
        (by omega) (by omega)
      rw [Nat.add_assoc, Nat.add_comm 1 k] at hnext
      exact hnext

/-- Pushed elements extend the log. -/
theorem Holds.push (h : Holds size r log next) (hdvd : size ∣ 2 ^ 32) (as : List α)
    (hroom : log.length + as.length ≤ next + size) :
    Holds size (r.push size as) (log ++ as) next := by
  have hlow := h.low
  refine ⟨?_, h.tail, ?_, ?_, ?_⟩
  · unfold RingBuffer.push
    dsimp only
    rw [h.head, ofNat_add_ofNat, List.length_append]
  · rw [List.length_append]
    omega
  · rw [List.length_append]
    exact hroom
  · intro p hp hnext
    unfold RingBuffer.push
    dsimp only
    rw [h.head]
    rw [List.length_append] at hp
    by_cases hold : p < log.length
    · rw [fill_other hdvd, h.slot p hold hnext, List.getElem_append_left hold]
      intro k hk heq
      have hdist : (log.length + k - p) % size = 0 := Nat.sub_mod_eq_zero_of_mod_eq heq
      rw [Nat.mod_eq_of_lt (by omega)] at hdist
      omega
    · obtain ⟨k, rfl⟩ : ∃ k, p = log.length + k := ⟨p - log.length, by omega⟩
      rw [fill_at hdvd (by omega) (by omega), List.getElem_append_right (by omega)]
      congr 1
      omega

/-- What is read out is the log from `next` on. -/
theorem Holds.peek {n : Nat} (h : Holds size r log next) (hdvd : size ∣ 2 ^ 32)
    (hn : next + n ≤ log.length) : r.peek size n = (log.drop next).take n := by
  apply List.ext_getElem
  · rw [RingBuffer.peek, List.length_map, List.length_range, List.length_take, List.length_drop]
    omega
  · intro k hk _
    rw [RingBuffer.peek, List.length_map, List.length_range] at hk
    simp only [RingBuffer.peek, List.getElem_map, List.getElem_range, List.getElem_take,
      List.getElem_drop]
    rw [h.tail, ofNat_add_ofNat, ofNat_mod hdvd]
    exact h.slot (next + k) (by omega) (by omega)

theorem Holds.advance {n : Nat} (h : Holds size r log next) (hn : next + n ≤ log.length) :
    Holds size (r.advance n) log (next + n) := by
  have hhigh := h.high
  refine ⟨h.head, ?_, hn, by omega, fun p hp hnext => h.slot p hp (by omega)⟩
  unfold RingBuffer.advance
  dsimp only
  rw [h.tail, ofNat_add_ofNat]

theorem Holds.clear (h : Holds size r log next) : Holds size r.clear log log.length :=
  ⟨h.head, h.head, Nat.le_refl _, by omega, fun _ hp hnext => absurd hp (by omega)⟩

/-- A mark ahead of the consumer is seen to be ahead. -/
theorem skipTo_ahead {m : Nat} (h : next < m) (hm : m ≤ next + size) (hsize : size < 2 ^ 31) :
    skipTo (BitVec.ofNat 32 next) (BitVec.ofNat 32 m) = BitVec.ofNat 32 m := by
  unfold skipTo
  rw [ofNat_sub_ofNat (by omega), BitVec.toInt_eq_toNat_cond, BitVec.toNat_ofNat,
    Nat.mod_eq_of_lt (by omega)]
  exact if_pos (by split <;> omega)

/-- A mark at or behind the consumer is seen to be so while it is at most half the range
of an index behind. -/
theorem skipTo_behind {tail mark : BitVec 32} (h : (tail - mark).toNat ≤ 2 ^ 31) :
    skipTo tail mark = tail := by
  unfold skipTo
  refine if_neg ?_
  rw [BitVec.toInt_eq_toNat_cond]
  have hneg : (mark - tail).toNat = (2 ^ 32 - (tail - mark).toNat) % 2 ^ 32 := by
    rw [BitVec.toNat_sub, BitVec.toNat_sub]
    have ht := tail.isLt
    have hm := mark.isLt
    omega
  rw [hneg]
  have hlt := (tail - mark).isLt
  split <;> omega

/-- Moving the consumer to a mark drops what lies before it. -/
theorem Holds.skip {m : Nat} (h : Holds size r log next) (hsize : size < 2 ^ 31)
    (hm : m ≤ log.length)
    (hfresh : m ≤ next → (r.tail - BitVec.ofNat 32 m).toNat ≤ 2 ^ 31) :
    Holds size (r.skip (BitVec.ofNat 32 m)) log (max next m) := by
  have hlow := h.low
  have hhigh := h.high
  refine ⟨h.head, ?_, by omega, by omega, fun p hp hnext => h.slot p hp (by omega)⟩
  unfold RingBuffer.skip
  dsimp only
  by_cases hahead : next < m
  · rw [h.tail, skipTo_ahead hahead (by omega) hsize, Nat.max_eq_right (by omega)]
  · rw [skipTo_behind (hfresh (by omega)), h.tail, Nat.max_eq_left (by omega)]

end

end RingBuffer

end CocoEmulator.Base
