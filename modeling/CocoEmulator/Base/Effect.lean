/-
  Base/Effect.lean --- state-passing programs with a write-only output.

  `Act ω σ α` is a program that reads and updates a state `σ`, returns an `α`,
  and adds to an output of a monoid `ω` that it can never read back.  A cost
  counter and an access log are such outputs.  That they cannot influence the
  computation is a fact of the type and needs no frame lemma: a program is a
  function of the state alone.

  Two proof systems are set up over these programs.

      Keeps P m            m preserves the state predicate P
      Agree R m m' s s'    from s and s', m and m' return the same value and the
                           same output, and end in R-related states

  Both come with the rules for `pure`, `bind`, branching, reading and updating,
  so that a proof about a program follows the program's own text.

  This file names nothing of the emulator.
-/
import Mathlib.Algebra.Group.Defs

set_option autoImplicit false

namespace CocoEmulator.Base

/-! ## Programs -/

/-- What a program leaves behind: its value, what it emitted, and the state. -/
structure Outcome (ω σ α : Type) where
  val : α
  out : ω
  st : σ

/-- A program over the state `σ` with write-only output `ω`. -/
def Act (ω σ α : Type) : Type := σ → Outcome ω σ α

namespace Act

variable {ω σ α β γ : Type} [Monoid ω]

instance : Monad (Act ω σ) where
  pure a := fun s => ⟨a, 1, s⟩
  bind m f := fun s =>
    let r := m s
    let r' := f r.val r.st
    ⟨r'.val, r.out * r'.out, r'.st⟩

/-- Read a part of the state. -/
def gets (f : σ → α) : Act ω σ α := fun s => ⟨f s, 1, s⟩

/-- Update the state. -/
def modify (f : σ → σ) : Act ω σ Unit := fun s => ⟨(), 1, f s⟩

/-- Add to the output. -/
def emit (w : ω) : Act ω σ Unit := fun s => ⟨(), w, s⟩

/-- Run `m` only where `c` holds. -/
def guarded (c : Bool) (m : Act ω σ Unit) : Act ω σ Unit :=
  if c then m else pure ()

@[simp] theorem pure_apply (a : α) (s : σ) :
    (pure a : Act ω σ α) s = ⟨a, 1, s⟩ := rfl

theorem bind_apply (m : Act ω σ α) (f : α → Act ω σ β) (s : σ) :
    (m >>= f) s =
      ⟨(f (m s).val (m s).st).val, (m s).out * (f (m s).val (m s).st).out,
        (f (m s).val (m s).st).st⟩ := rfl

@[simp] theorem bind_val (m : Act ω σ α) (f : α → Act ω σ β) (s : σ) :
    ((m >>= f) s).val = (f (m s).val (m s).st).val := rfl

@[simp] theorem bind_out (m : Act ω σ α) (f : α → Act ω σ β) (s : σ) :
    ((m >>= f) s).out = (m s).out * (f (m s).val (m s).st).out := rfl

@[simp] theorem bind_st (m : Act ω σ α) (f : α → Act ω σ β) (s : σ) :
    ((m >>= f) s).st = (f (m s).val (m s).st).st := rfl

@[simp] theorem gets_apply (f : σ → α) (s : σ) :
    (gets f : Act ω σ α) s = ⟨f s, 1, s⟩ := rfl

@[simp] theorem modify_apply (f : σ → σ) (s : σ) :
    (modify f : Act ω σ Unit) s = ⟨(), 1, f s⟩ := rfl

omit [Monoid ω] in
@[simp] theorem emit_apply (w : ω) (s : σ) :
    (emit w : Act ω σ Unit) s = ⟨(), w, s⟩ := rfl

/-- Reading a part of the state hands it to what follows. -/
theorem gets_bind (f : σ → β) (g : β → Act ω σ α) (s : σ) :
    (gets f >>= g) s = g (f s) s := by
  rw [bind_apply, gets_apply, one_mul]

/-- An update changes the state for what follows. -/
theorem modify_bind (f : σ → σ) (g : Unit → Act ω σ α) (s : σ) :
    (modify f >>= g) s = g () (f s) := by
  rw [bind_apply, modify_apply, one_mul]

omit [Monoid ω] in
theorem ite_apply (c : Bool) (m m' : Act ω σ α) (s : σ) :
    (if c = true then m else m') s = if c = true then m s else m' s := by
  cases c <;> rfl

@[simp] theorem guarded_false (m : Act ω σ Unit) :
    guarded false m = pure () := rfl

theorem map_id_eq (m : Act ω σ α) : id <$> m = m := by
  funext s
  show (⟨(m s).val, (m s).out * 1, (m s).st⟩ : Outcome ω σ α) = m s
  rw [mul_one]

theorem pure_bind_eq (a : α) (f : α → Act ω σ β) : (pure a : Act ω σ α) >>= f = f a := by
  funext s
  show (⟨(f a s).val, 1 * (f a s).out, (f a s).st⟩ : Outcome ω σ β) = f a s
  rw [one_mul]

theorem bind_assoc_eq (m : Act ω σ α) (f : α → Act ω σ β) (g : β → Act ω σ γ) :
    m >>= f >>= g = m >>= fun a => f a >>= g := by
  funext s
  simp only [bind_apply, mul_assoc]

instance : LawfulMonad (Act ω σ) :=
  LawfulMonad.mk' (Act ω σ) map_id_eq pure_bind_eq bind_assoc_eq

/-! ## Preserved state predicates -/

/-- `m` preserves `P`. -/
def Keeps (P : σ → Prop) (m : Act ω σ α) : Prop := ∀ s, P s → P (m s).st

theorem Keeps.pure {P : σ → Prop} (a : α) :
    Keeps P (Pure.pure a : Act ω σ α) := fun _ h => h

theorem Keeps.bind {P : σ → Prop} {m : Act ω σ α} {f : α → Act ω σ β}
    (hm : Keeps P m) (hf : ∀ a, Keeps P (f a)) : Keeps P (m >>= f) :=
  fun s h => hf _ _ (hm s h)

theorem Keeps.gets {P : σ → Prop} (f : σ → α) :
    Keeps P (Act.gets f : Act ω σ α) := fun _ h => h

omit [Monoid ω] in
theorem Keeps.emit {P : σ → Prop} (w : ω) :
    Keeps P (Act.emit w : Act ω σ Unit) := fun _ h => h

theorem Keeps.modify {P : σ → Prop} {f : σ → σ} (hf : ∀ s, P s → P (f s)) :
    Keeps P (Act.modify f : Act ω σ Unit) := hf

theorem Keeps.guarded {P : σ → Prop} {c : Bool} {m : Act ω σ Unit}
    (hm : Keeps P m) : Keeps P (Act.guarded c m) := by
  cases c with
  | false => exact Keeps.pure ()
  | true => exact hm

/-! ## Two programs side by side -/

/-- From `s` and `s'`, the programs return the same value, emit the same output
and end in related states. -/
structure Agree (R : σ → σ → Prop) (m m' : Act ω σ α) (s s' : σ) : Prop where
  val : (m s).val = (m' s').val
  out : (m s).out = (m' s').out
  st : R (m s).st (m' s').st

/-- The programs agree from every pair of related states. -/
def Agrees (R : σ → σ → Prop) (m m' : Act ω σ α) : Prop :=
  ∀ s s', R s s' → Agree R m m' s s'

/-- Agreement composes along `bind`; the continuation may use the value the first
program returned. -/
theorem Agree.bind {R : σ → σ → Prop} {m m' : Act ω σ α} {f f' : α → Act ω σ β}
    {s s' : σ} (hm : Agree R m m' s s')
    (hf : Agree R (f (m s).val) (f' (m s).val) (m s).st (m' s').st) :
    Agree R (m >>= f) (m' >>= f') s s' := by
  have hv := hm.val
  refine ⟨?_, ?_, ?_⟩
  · simp only [bind_val, ← hv]; exact hf.val
  · simp only [bind_out, ← hv, hm.out, hf.out]
  · simp only [bind_st, ← hv]; exact hf.st

theorem Agree.then {R : σ → σ → Prop} {m m' : Act ω σ α} {f f' : α → Act ω σ β}
    {s s' : σ} (hm : Agree R m m' s s') (hf : ∀ a, Agrees R (f a) (f' a)) :
    Agree R (m >>= f) (m' >>= f') s s' :=
  hm.bind (hf _ _ _ hm.st)

theorem Agrees.bind {R : σ → σ → Prop} {m m' : Act ω σ α} {f f' : α → Act ω σ β}
    (hm : Agrees R m m') (hf : ∀ a, Agrees R (f a) (f' a)) :
    Agrees R (m >>= f) (m' >>= f') :=
  fun s s' h => (hm s s' h).then hf

theorem Agrees.pure {R : σ → σ → Prop} (a : α) :
    Agrees R (Pure.pure a : Act ω σ α) (Pure.pure a) :=
  fun _ _ h => ⟨rfl, rfl, h⟩

omit [Monoid ω] in
theorem Agrees.emit {R : σ → σ → Prop} (w : ω) :
    Agrees R (Act.emit w : Act ω σ Unit) (Act.emit w) :=
  fun _ _ h => ⟨rfl, rfl, h⟩

theorem Agrees.gets {R : σ → σ → Prop} {f f' : σ → α}
    (hf : ∀ s s', R s s' → f s = f' s') :
    Agrees R (Act.gets f : Act ω σ α) (Act.gets f') :=
  fun s s' h => ⟨hf s s' h, rfl, h⟩

theorem Agrees.modify {R : σ → σ → Prop} {f f' : σ → σ}
    (hf : ∀ s s', R s s' → R (f s) (f' s')) :
    Agrees R (Act.modify f : Act ω σ Unit) (Act.modify f') :=
  fun s s' h => ⟨rfl, rfl, hf s s' h⟩

theorem Agrees.guarded {R : σ → σ → Prop} {c : Bool} {m m' : Act ω σ Unit}
    (hm : Agrees R m m') : Agrees R (Act.guarded c m) (Act.guarded c m') := by
  cases c with
  | false => exact Agrees.pure ()
  | true => exact hm

end Act

end CocoEmulator.Base
