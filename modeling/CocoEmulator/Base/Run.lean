/-
  Base/Run.lean --- runs of a state machine over a list of inputs.

  A machine is a step function `ι → σ → σ`.  Two things are said of a run: that a
  predicate holds in every state it passes through (`Always`), and that every
  input meets a condition in the state it is applied to (`EachStep`).

      Always.of_step        a run of admissible steps keeps an invariant
      always_iff_eachStep   a law that a step keeps exactly under a condition
                            holds along a run exactly when every step meets it

  This file names nothing of the emulator.
-/
import Mathlib.Data.List.Basic

set_option autoImplicit false

namespace CocoEmulator.Base

variable {σ ι : Type} (step : ι → σ → σ)

/-- The state after a run. -/
def runAll (is : List ι) (s : σ) : σ := is.foldl (fun s i => step i s) s

/-- `P` holds before the run and after each of its steps. -/
def Always (P : σ → Prop) : List ι → σ → Prop
  | [], s => P s
  | i :: is, s => P s ∧ Always P is (step i s)

/-- Every input of the run meets `C` in the state it is applied to. -/
def EachStep (C : ι → σ → Prop) : List ι → σ → Prop
  | [], _ => True
  | i :: is, s => C i s ∧ EachStep C is (step i s)

instance EachStep.decidable {C : ι → σ → Prop} [d : ∀ i s, Decidable (C i s)] :
    (is : List ι) → (s : σ) → Decidable (EachStep step C is s)
  | [], _ => isTrue trivial
  | i :: is, s => @instDecidableAnd _ _ (d i s) (EachStep.decidable is (step i s))

instance Always.decidable {P : σ → Prop} [d : ∀ s, Decidable (P s)] :
    (is : List ι) → (s : σ) → Decidable (Always step P is s)
  | [], s => d s
  | i :: is, s => @instDecidableAnd _ _ (d s) (Always.decidable is (step i s))

variable {step} {P : σ → Prop} {C : ι → σ → Prop}

@[simp] theorem runAll_nil (s : σ) : runAll step [] s = s := rfl

@[simp] theorem runAll_cons (i : ι) (is : List ι) (s : σ) :
    runAll step (i :: is) s = runAll step is (step i s) := rfl

theorem runAll_append (is js : List ι) (s : σ) :
    runAll step (is ++ js) s = runAll step js (runAll step is s) :=
  List.foldl_append

theorem eachStep_append {is js : List ι} {s : σ} :
    EachStep step C (is ++ js) s ↔ EachStep step C is s ∧ EachStep step C js (runAll step is s) := by
  induction is generalizing s with
  | nil => exact ⟨fun h => ⟨trivial, h⟩, fun h => h.2⟩
  | cons i is ih => exact ⟨fun h => ⟨⟨h.1, (ih.mp h.2).1⟩, (ih.mp h.2).2⟩,
      fun h => ⟨h.1.1, ih.mpr ⟨h.1.2, h.2⟩⟩⟩

/-- Inputs that meet the condition in every state. -/
theorem EachStep.of_forall {is : List ι} {s : σ} (h : ∀ i ∈ is, ∀ s, C i s) :
    EachStep step C is s := by
  induction is generalizing s with
  | nil => exact trivial
  | cons i is ih =>
    exact ⟨h i List.mem_cons_self s, ih fun j hj => h j (List.mem_cons_of_mem i hj)⟩

theorem EachStep.and {D : ι → σ → Prop} {is : List ι} {s : σ} (hc : EachStep step C is s)
    (hd : EachStep step D is s) : EachStep step (fun i s => C i s ∧ D i s) is s := by
  induction is generalizing s with
  | nil => exact trivial
  | cons i is ih => exact ⟨⟨hc.1, hd.1⟩, ih hc.2 hd.2⟩

theorem Always.head {is : List ι} {s : σ} (h : Always step P is s) : P s := by
  cases is with
  | nil => exact h
  | cons i is => exact h.1

theorem Always.last {is : List ι} {s : σ} (h : Always step P is s) : P (runAll step is s) := by
  induction is generalizing s with
  | nil => exact h
  | cons i is ih => exact ih h.2

/-- A run that ends badly. -/
theorem not_always_of_last {is : List ι} {s : σ} (h : ¬P (runAll step is s)) :
    ¬Always step P is s := by
  intro hall
  exact h hall.last

theorem Always.imp {Q : σ → Prop} {is : List ι} {s : σ} (h : Always step P is s)
    (hpq : ∀ s, P s → Q s) : Always step Q is s := by
  induction is generalizing s with
  | nil => exact hpq s h
  | cons i is ih => exact ⟨hpq s h.1, ih h.2⟩

/-- What no step decreases is largest at the end of a run. -/
theorem le_runAll {f : σ → Nat} (hstep : ∀ i s, f s ≤ f (step i s)) (is : List ι) (s : σ) :
    f s ≤ f (runAll step is s) := by
  induction is generalizing s with
  | nil => exact Nat.le_refl _
  | cons i is ih => exact Nat.le_trans (hstep i s) (ih (step i s))

theorem Always.of_step {is : List ι} {s : σ} (hs : P s)
    (hstep : ∀ i s, P s → C i s → P (step i s)) (hc : EachStep step C is s) :
    Always step P is s := by
  induction is generalizing s with
  | nil => exact hs
  | cons i is ih => exact ⟨hs, ih (hstep i s hs hc.1) hc.2⟩

/-- Steps that meet `D` keep an invariant, in whose states `D` gives `C`. -/
theorem EachStep.of_inv {I : σ → Prop} {D : ι → σ → Prop} {is : List ι} {s : σ} (hi : I s)
    (hd : EachStep step D is s) (hinv : ∀ i s, I s → D i s → I (step i s))
    (hc : ∀ i s, I s → D i s → C i s) : EachStep step C is s := by
  induction is generalizing s with
  | nil => exact trivial
  | cons i is ih => exact ⟨hc i s hi hd.1, ih (hinv i s hi hd.1) hd.2⟩

/-- A law that one step keeps exactly when it meets a condition, in a run whose steps
meet `D` and so keep an invariant. -/
theorem always_iff_eachStep_of_run {I : σ → Prop} {D : ι → σ → Prop} {is : List ι} {s : σ}
    (hi : I s) (hs : P s) (hd : EachStep step D is s) (hinv : ∀ i s, I s → D i s → I (step i s))
    (hstep : ∀ i s, I s → D i s → P s → (P (step i s) ↔ C i s)) :
    Always step P is s ↔ EachStep step C is s := by
  induction is generalizing s with
  | nil => exact iff_of_true hs trivial
  | cons i is ih =>
    constructor
    · rintro ⟨_, hrest⟩
      have hnext := hrest.head
      exact ⟨(hstep i s hi hd.1 hs).mp hnext, (ih (hinv i s hi hd.1) hnext hd.2).mp hrest⟩
    · rintro ⟨hc, hrest⟩
      have hnext := (hstep i s hi hd.1 hs).mpr hc
      exact ⟨hs, (ih (hinv i s hi hd.1) hnext hd.2).mpr hrest⟩

/-- A law that one step keeps exactly when it meets a condition, in the states of an
invariant that every step keeps. -/
theorem always_iff_eachStep_of_inv {I : σ → Prop} {is : List ι} {s : σ} (hi : I s) (hs : P s)
    (hinv : ∀ i s, I s → I (step i s)) (hstep : ∀ i s, I s → P s → (P (step i s) ↔ C i s)) :
    Always step P is s ↔ EachStep step C is s :=
  always_iff_eachStep_of_run (D := fun _ _ => True) hi hs (.of_forall fun _ _ _ => trivial)
    (fun i s h _ => hinv i s h) fun i s h _ => hstep i s h

theorem always_iff_eachStep {is : List ι} {s : σ} (hs : P s)
    (hstep : ∀ i s, P s → (P (step i s) ↔ C i s)) :
    Always step P is s ↔ EachStep step C is s :=
  always_iff_eachStep_of_inv (I := fun _ => True) trivial hs (fun _ _ _ => trivial)
    fun i s _ => hstep i s

end CocoEmulator.Base
