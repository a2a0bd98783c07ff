/-
  Base/Loop.lean --- deterministic loops with fuel, and how to compare two.

  A loop body either goes on, stops with a result, or is stuck.  `loop` runs it
  with fuel; `Returns` says that some fuel gives a result, which is then the only
  one (`Returns.unique`).

      loop_rel              two loops that take their rounds together
      StutterSim.returns    one round of the first loop is matched by one or more
                            rounds of the second: the first returns exactly when
                            the second does, with related results
      Reaches.induct        an invariant of one round holds wherever the loop gets

  This file names nothing of the emulator.
-/
import Mathlib.Logic.Relation

set_option autoImplicit false

namespace CocoEmulator.Base

/-- What one round of a loop does. -/
inductive Move (σ ρ : Type)
  | go (s : σ)
  | stop (r : ρ)
  | stuck

variable {σ τ ρ π : Type}

/-- Run a loop body with fuel. -/
def loop (body : σ → Move σ ρ) : Nat → σ → Option ρ
  | 0, _ => none
  | n + 1, s =>
      match body s with
      | .go s' => loop body n s'
      | .stop r => some r
      | .stuck => none

/-- The loop returns `r` from `s`. -/
def Returns (body : σ → Move σ ρ) (s : σ) (r : ρ) : Prop := ∃ n, loop body n s = some r

/-- `s'` is a state the loop passes through from `s`. -/
def Reaches (body : σ → Move σ ρ) : σ → σ → Prop :=
  Relation.ReflTransGen fun s s' => body s = .go s'

/-- The same after at least one round. -/
def ReachesPlus (body : σ → Move σ ρ) : σ → σ → Prop :=
  Relation.TransGen fun s s' => body s = .go s'

/-! ## Runs of one loop -/

theorem loop_go {body : σ → Move σ ρ} {s s' : σ} (h : body s = .go s') (n : Nat) :
    loop body (n + 1) s = loop body n s' := by
  simp only [loop, h]

theorem loop_stop {body : σ → Move σ ρ} {s : σ} {r : ρ} (h : body s = .stop r) (n : Nat) :
    loop body (n + 1) s = some r := by
  simp only [loop, h]

theorem loop_stuck {body : σ → Move σ ρ} {s : σ} (h : body s = .stuck) (n : Nat) :
    loop body n s = none := by
  cases n with
  | zero => rfl
  | succ n => simp only [loop, h]

/-- More fuel does not change a result. -/
theorem loop_mono {body : σ → Move σ ρ} {n : Nat} {s : σ} {r : ρ}
    (h : loop body n s = some r) (k : Nat) : loop body (n + k) s = some r := by
  induction n generalizing s with
  | zero => exact absurd h (by simp [loop])
  | succ n ih =>
    rw [Nat.succ_add]
    cases hb : body s with
    | go s' =>
      rw [loop_go hb] at h ⊢
      exact ih h
    | stop r' =>
      rw [loop_stop hb] at h ⊢
      exact h
    | stuck =>
      rw [loop_stuck hb] at h
      exact absurd h (by simp)

theorem Returns.unique {body : σ → Move σ ρ} {s : σ} {r r' : ρ} (h : Returns body s r)
    (h' : Returns body s r') : r = r' := by
  obtain ⟨n, hn⟩ := h
  obtain ⟨m, hm⟩ := h'
  have h₁ := loop_mono hn m
  have h₂ := loop_mono hm n
  rw [Nat.add_comm] at h₂
  exact Option.some.inj (h₁.symm.trans h₂)

theorem Returns.of_stop {body : σ → Move σ ρ} {s : σ} {r : ρ} (h : body s = .stop r) :
    Returns body s r :=
  ⟨1, loop_stop h 0⟩

theorem Returns.of_go {body : σ → Move σ ρ} {s s' : σ} {r : ρ} (h : body s = .go s')
    (hr : Returns body s' r) : Returns body s r := by
  obtain ⟨n, hn⟩ := hr
  exact ⟨n + 1, by rw [loop_go h, hn]⟩

/-- A result can be pulled back along rounds already taken. -/
theorem Reaches.returns {body : σ → Move σ ρ} {s s' : σ} {r : ρ} (h : Reaches body s s')
    (hr : Returns body s' r) : Returns body s r := by
  induction h using Relation.ReflTransGen.head_induction_on with
  | refl => exact hr
  | head hgo _ ih => exact Returns.of_go hgo ih

theorem ReachesPlus.reaches {body : σ → Move σ ρ} {s s' : σ} (h : ReachesPlus body s s') :
    Reaches body s s' :=
  Relation.TransGen.to_reflTransGen h

/-- Rounds taken from `s` use up fuel: what is left of a successful run is a
successful run from where they lead, and it is shorter. -/
theorem ReachesPlus.rest {body : σ → Move σ ρ} {s s' : σ} {n : Nat} {r : ρ}
    (h : ReachesPlus body s s') (hn : loop body n s = some r) :
    ∃ m, m < n ∧ loop body m s' = some r := by
  induction h using Relation.TransGen.head_induction_on generalizing n with
  | single hgo =>
    cases n with
    | zero => exact absurd hn (by simp [loop])
    | succ n => exact ⟨n, Nat.lt_succ_self n, by rwa [loop_go hgo] at hn⟩
  | head hgo _ ih =>
    cases n with
    | zero => exact absurd hn (by simp [loop])
    | succ n =>
      rw [loop_go hgo] at hn
      obtain ⟨m, hm, hr⟩ := ih hn
      exact ⟨m, by omega, hr⟩

/-- An invariant of one round holds in every state the loop passes through. -/
theorem Reaches.induct {body : σ → Move σ ρ} {P : σ → Prop}
    (hstep : ∀ s s', P s → body s = .go s' → P s') {s s' : σ} (h : Reaches body s s')
    (h0 : P s) : P s' := by
  induction h with
  | refl => exact h0
  | tail _ hgo ih => exact hstep _ _ ih hgo

/-! ## Two loops round by round -/

/-- The two rounds do the same kind of thing, with related outcomes. -/
inductive MoveRel (R : σ → τ → Prop) (Q : ρ → π → Prop) : Move σ ρ → Move τ π → Prop
  | go {s : σ} {t : τ} : R s t → MoveRel R Q (.go s) (.go t)
  | stop {r : ρ} {p : π} : Q r p → MoveRel R Q (.stop r) (.stop p)
  | stuck : MoveRel R Q .stuck .stuck

/-- Loops that take their rounds together: the relation may depend on the rounds
left. -/
theorem loop_rel {R : Nat → σ → τ → Prop} {Q : ρ → π → Prop} {f : σ → Move σ ρ}
    {g : τ → Move τ π}
    (hstep : ∀ n s t, R (n + 1) s t → MoveRel (R n) Q (f s) (g t)) (n : Nat) {s : σ} {t : τ}
    (h : R n s t) : Option.Rel Q (loop f n s) (loop g n t) := by
  induction n generalizing s t with
  | zero => exact Option.Rel.none
  | succ n ih =>
    have hm := hstep n s t h
    unfold loop
    revert hm
    cases f s with
    | go s' =>
      intro hm
      cases hg : g t with
      | go t' =>
        rw [hg] at hm
        cases hm with
        | go hr => exact ih hr
      | stop p => rw [hg] at hm; cases hm
      | stuck => rw [hg] at hm; cases hm
    | stop r =>
      intro hm
      cases hg : g t with
      | go t' => rw [hg] at hm; cases hm
      | stop p =>
        rw [hg] at hm
        cases hm with
        | stop hq => exact Option.Rel.some hq
      | stuck => rw [hg] at hm; cases hm
    | stuck =>
      intro hm
      cases hg : g t with
      | go t' => rw [hg] at hm; cases hm
      | stop p => rw [hg] at hm; cases hm
      | stuck => exact Option.Rel.none

/-! ## One round against several -/

/-- Each round of `f` is matched by one or more rounds of `g`, and they stop
together. -/
structure StutterSim (f : σ → Move σ ρ) (g : τ → Move τ π) (R : σ → τ → Prop)
    (Q : ρ → π → Prop) : Prop where
  go : ∀ {s t s'}, R s t → f s = .go s' → ∃ t', ReachesPlus g t t' ∧ R s' t'
  stop : ∀ {s t r}, R s t → f s = .stop r → ∃ p, g t = .stop p ∧ Q r p
  stuck : ∀ {s t}, R s t → f s = .stuck → g t = .stuck

/-- Whatever the first loop returns, the second returns. -/
theorem StutterSim.forward {f : σ → Move σ ρ} {g : τ → Move τ π} {R : σ → τ → Prop}
    {Q : ρ → π → Prop} (sim : StutterSim f g R Q) {s : σ} {t : τ} (h : R s t) {r : ρ}
    (hr : Returns f s r) : ∃ p, Returns g t p ∧ Q r p := by
  obtain ⟨n, hn⟩ := hr
  induction n generalizing s t with
  | zero => exact absurd hn (by simp [loop])
  | succ n ih =>
    cases hf : f s with
    | go s' =>
      rw [loop_go hf] at hn
      obtain ⟨t', ht, hR⟩ := sim.go h hf
      obtain ⟨p, hp, hq⟩ := ih hR hn
      exact ⟨p, ht.reaches.returns hp, hq⟩
    | stop r' =>
      rw [loop_stop hf] at hn
      cases hn
      obtain ⟨p, hp, hq⟩ := sim.stop h hf
      exact ⟨p, Returns.of_stop hp, hq⟩
    | stuck =>
      rw [loop_stuck hf] at hn
      exact absurd hn (by simp)

/-- Whatever the second loop returns, the first returns.  The induction is on the
rounds the second loop has left, of which every round of the first uses some. -/
theorem StutterSim.backward {f : σ → Move σ ρ} {g : τ → Move τ π} {R : σ → τ → Prop}
    {Q : ρ → π → Prop} (sim : StutterSim f g R Q) {s : σ} {t : τ} (h : R s t) {p : π}
    (hp : Returns g t p) : ∃ r, Returns f s r ∧ Q r p := by
  obtain ⟨n, hn⟩ := hp
  induction n using Nat.strongRecOn generalizing s t with
  | ind n ih =>
    cases hf : f s with
    | go s' =>
      obtain ⟨t', ht, hR⟩ := sim.go h hf
      obtain ⟨m, hm, hr⟩ := ht.rest hn
      obtain ⟨r, hret, hq⟩ := ih m hm hR hr
      exact ⟨r, Returns.of_go hf hret, hq⟩
    | stop r =>
      obtain ⟨p', hp', hq⟩ := sim.stop h hf
      obtain rfl : p' = p := (Returns.of_stop hp').unique ⟨n, hn⟩
      exact ⟨r, Returns.of_stop hf, hq⟩
    | stuck =>
      rw [loop_stuck (sim.stuck h hf)] at hn
      exact absurd hn (by simp)

end CocoEmulator.Base
