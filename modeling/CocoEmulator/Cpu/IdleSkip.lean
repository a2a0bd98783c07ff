/-
  Cpu/IdleSkip.lean --- calls with `idle_skip` set against calls with it clear.

  The skip credits whole periods when a short branch back is taken twice in a row.
  It is exact where the period it timed was one pass of the loop and the loop is
  at rest, and it is not exact everywhere.  A watched run keeps, beside the call,
  the state in which the branch was last taken, the rounds since and the accesses
  since; it decides nothing.

      Settled               the two states and the accesses between them, at a
                            skip, are those of a loop at rest
      idle_skip_exact       a call in which every skip is settled ends the same
                            with the skip and without
      idle_skip_diverges    `LDX ,X / BNE` over a linked list: a call in which the
                            skip drops passes that would have ended the loop
-/
import CocoEmulator.Cpu.Quiet

set_option autoImplicit false

namespace CocoEmulator.Cpu

open CocoEmulator.Base

variable {σ : Type} (bus : Bus σ)

/-! ## The watched run -/

/-- A call in progress, the state in which the idle check last recorded a branch,
and the rounds and the accesses since. -/
structure Watch (σ : Type) where
  run : RunState σ
  last : Core σ
  since : Nat
  log : List Access

def Watch.start (c : Core σ) (rej : Option Word) : Watch σ := ⟨.start c rej, c, 0, []⟩

/-- One round of the loop body, recorded. -/
def Watch.round (fuel : Nat) (w : Watch σ) : Option Flow × Watch σ :=
  let p := w.run.perform (CocoEmulator.Cpu.round bus .hd6309 fuel)
  (p.1, ⟨p.2, w.last, w.since + 1,
    w.log ++ (CocoEmulator.Cpu.round bus .hd6309 fuel w.run.core).out.trace⟩)

/-- The idle check after the round; a branch it records starts the watch anew. -/
def Watch.note (budget : Cycles) (w : Watch σ) (flow : Flow) : Watch σ :=
  let run := afterFlow bus true budget w.run flow
  match flow with
  | .branchBack br =>
      if w.run.idle.rej = some br then { w with run := run } else ⟨run, w.run.core, 0, []⟩
  | _ => { w with run := run }

/-- The loop body of a call with `idle_skip` set, watched. -/
def watchBody (fuel : Nat) (budget : Cycles) (w : Watch σ) : Move (Watch σ) (RunState σ) :=
  if w.run.cycles.slt budget then
    match w.round bus fuel with
    | (none, w) => .stop { w.run with cycles := budget }
    | (some .stuck, _) => .stuck
    | (some flow, w) => .go (w.note bus budget flow)
  else .stop w.run

/-- The cycles the idle check credits after the branch at `br` was taken. -/
def Watch.credit (budget : Cycles) (w : Watch σ) (br : Word) : Cycles :=
  (idleLoopCheck bus w.run.core budget w.run.cycles w.run.idle br).2

/-- The body of the loop at whose top the watched run stands. -/
def Watch.body (w : Watch σ) (br : Word) : List BodyInsn :=
  idleBody bus w.run.core.env.host w.run.core.regs.pc br

/-- The loop is at rest when the branch at `br` is taken again: since it was last
taken at the same place, over the same memory, exactly one pass of the body and
the branch went by, without a bus callback, and each of A, B and X that the body
reads before it loads it has the value it had then. -/
structure Settled (w : Watch σ) (br : Word) : Prop where
  place : w.last.regs.pc = w.run.core.regs.pc
  memory : w.last.env.host = w.run.core.env.host
  straight : w.since = (w.body bus br).length + 1
  silent : NoCalls w.log
  held : Held (readsFirst (w.body bus br)) w.last.regs w.run.core.regs

/-- Every skip of the watched run from `w₀` is settled. -/
def SettledRun (fuel : Nat) (budget : Cycles) (w₀ : Watch σ) : Prop :=
  ∀ w, Reaches (watchBody bus fuel budget) w₀ w → w.run.cycles.slt budget = true →
    ∀ br w', w.round bus fuel = (some (.branchBack br), w') → w'.credit bus budget br ≠ 0 →
      Settled bus w' br

/-- The same registers, condition codes, memory and lines, the same cycle count, and
the same bus callbacks in the same order. -/
structure SameEnd (r r' : RunState σ) : Prop where
  core : r.core = r'.core
  cycles : r.cycles = r'.cycles
  callbacks : r.trace.filter Access.isCallback = r'.trace.filter Access.isCallback

variable {bus}

/-! ## The idle check -/

variable (bus) in
/-- A branch the check records, it records with the cycles it credits. -/
theorem idleLoopCheck_records (c : Core σ) (budget now : Cycles) {i : Idle} {br : Word}
    (h : i.rej ≠ some br) :
    (idleLoopCheck bus c budget now i br).1.cyc =
        now + (idleLoopCheck bus c budget now i br).2 ∧
      (idleLoopCheck bus c budget now i br).1.br = some br := by
  unfold idleLoopCheck
  rw [if_neg h]
  dsimp only
  have hzero : now = now + 0 := (BitVec.add_zero now).symm
  split
  · exact ⟨hzero, rfl⟩
  · split
    · exact ⟨hzero, rfl⟩
    · split
      · exact ⟨hzero, rfl⟩
      · exact ⟨rfl, rfl⟩

/-- What has to hold for the check to credit anything, and what it credits. -/
structure Credited (bus : Bus σ) (c : Core σ) (budget now : Cycles) (i : Idle) (br : Word) :
    Prop where
  again : i.br = some br
  periodPos : now - i.cyc ≠ 0
  periodMax : now - i.cyc ≤ idlePeriodMax
  room : (budget - now).sle (now - i.cyc) = false
  admitted : idleLoopOk bus c c.regs.pc br = true
  amount : (idleLoopCheck bus c budget now i br).2 =
    (budget - now) / (now - i.cyc) * (now - i.cyc)

theorem idleLoopCheck_credits {c : Core σ} {budget now : Cycles} {i : Idle} {br : Word}
    (h : (idleLoopCheck bus c budget now i br).2 ≠ 0) : Credited bus c budget now i br := by
  have hrej : i.rej ≠ some br := by
    intro hrej
    rw [idleLoopCheck, if_pos hrej] at h
    exact h rfl
  unfold idleLoopCheck at h
  rw [if_neg hrej] at h
  dsimp only at h
  split at h
  · exact absurd rfl h
  · rename_i hguard
    split at h
    · exact absurd rfl h
    · rename_i hroom
      split at h
      · exact absurd rfl h
      · rename_i hok
        simp only [Bool.or_eq_true, not_or, decide_eq_true_eq, beq_iff_eq, ne_eq,
          Decidable.not_not, BitVec.not_lt] at hguard
        refine ⟨hguard.1.1, hguard.1.2, hguard.2, by simpa using hroom, by simpa using hok, ?_⟩
        unfold idleLoopCheck
        rw [if_neg hrej]
        dsimp only
        have hpass : ¬(i.br ≠ some br || now - i.cyc == 0 || idlePeriodMax < now - i.cyc) = true := by
          simp only [Bool.or_eq_true, not_or, decide_eq_true_eq, beq_iff_eq, ne_eq,
            Decidable.not_not, BitVec.not_lt]
          exact hguard
        rw [if_neg hpass, if_neg hroom, if_neg hok]

/-! ## Counting cycles -/

theorem toInt_of_le {v : Cycles} (h : v ≤ idlePeriodMax) : v.toInt = v.toNat := by
  have hv : v.toNat ≤ 16 := h
  rw [BitVec.toInt_eq_toNat_cond, if_pos (by omega)]

/-- Between the branch and the end of the budget every count is below the budget.
The branch was reached below it, 3 cycles before `now`, so no count wraps. -/
theorem slt_of_room {before now budget period : Cycles} (hbefore : before.slt budget = true)
    (hnow : now = before + 3) (hmax : period ≤ idlePeriodMax)
    (hroom : (budget - now).sle period = false) {k : Nat} (hk : k < (budget - now).toNat) :
    (now + BitVec.ofNat 32 k).slt budget = true := by
  subst hnow
  have hperiod := toInt_of_le hmax
  simp only [BitVec.slt, BitVec.sle, decide_eq_true_eq, decide_eq_false_iff_not, Int.not_le] at *
  rw [hperiod] at hroom
  have h3 : (3 : Cycles).toNat = 3 := rfl
  simp only [BitVec.toInt_eq_toNat_cond, BitVec.toNat_add, BitVec.toNat_sub,
    BitVec.toNat_ofNat, h3] at hbefore hroom hk ⊢
  have hb := before.isLt
  have hB := budget.isLt
  generalize before.toNat = b at *
  generalize budget.toNat = t at *
  clear hperiod hmax
  generalize period.toNat = p at *
  split at hbefore <;> split at hbefore <;> split at hroom <;> split <;> omega

/-- What the check credits: as many whole periods as fit into the rest. -/
theorem credit_eq (left period : Cycles) :
    left / period * period =
      BitVec.ofNat 32 (left.toNat / period.toNat * period.toNat) := by
  apply BitVec.eq_of_toNat_eq
  rw [BitVec.toNat_mul, BitVec.toNat_udiv, BitVec.toNat_ofNat]

/-! ## The run without skips -/

/-- A call without skips, after a CPU program of that outcome. -/
def RunState.ran (s : RunState σ) (o : Outcome Cost (Core σ) Unit) : RunState σ :=
  { s with core := o.st, cycles := s.cycles + o.out.cycles, trace := s.trace ++ o.out.trace }

/-- One round of a call without skips, below the budget. -/
theorem runBody_round {fuel : Nat} {budget : Cycles} {s : RunState σ}
    (hlt : s.cycles.slt budget = true) :
    runBody bus .hd6309 false fuel budget s =
      match (round bus .hd6309 fuel s.core).val with
      | none => .stop { (s.perform (round bus .hd6309 fuel)).2 with cycles := budget }
      | some .stuck => .stuck
      | some _ => .go (s.perform (round bus .hd6309 fuel)).2 := by
  unfold runBody runRound
  rw [if_pos hlt]
  have hround : s.perform (round bus .hd6309 fuel) =
      ((round bus .hd6309 fuel s.core).val, (s.perform (round bus .hd6309 fuel)).2) := rfl
  rw [hround]
  cases (round bus .hd6309 fuel s.core).val with
  | none => rfl
  | some flow => cases flow <;> rfl

theorem runBody_steady {fuel : Nat} {budget : Cycles} {s : RunState σ} {flow : Flow}
    (hlt : s.cycles.slt budget = true)
    (hval : (round bus .hd6309 fuel s.core).val = some flow) (hflow : flow ≠ .stuck) :
    runBody bus .hd6309 false fuel budget s = .go (s.perform (round bus .hd6309 fuel)).2 := by
  rw [runBody_round hlt, hval]
  cases flow with
  | stuck => exact absurd rfl hflow
  | next => rfl
  | branchBack br => rfl

theorem Steady.cycles_le {fuel n : Nat} {c : Core σ} (h : Steady bus fuel n c) (hn : n ≤ 100) :
    (rounds bus fuel n c).out.cycles.toNat ≤ 9 * n ∧
      ∀ m, n = m + 1 → (rounds bus fuel n c).out.cycles.toNat =
        (round bus .hd6309 fuel c).out.cycles.toNat +
          (rounds bus fuel m (round bus .hd6309 fuel c).st).out.cycles.toNat := by
  induction n generalizing c with
  | zero => exact ⟨Nat.le_refl 0, nofun⟩
  | succ n ih =>
    obtain ⟨-, -, h9, hrest⟩ := h
    have hle := (ih hrest (by omega)).1
    have hsum : (rounds bus fuel (n + 1) c).out.cycles.toNat =
        (round bus .hd6309 fuel c).out.cycles.toNat +
          (rounds bus fuel n (round bus .hd6309 fuel c).st).out.cycles.toNat := by
      show ((round bus .hd6309 fuel c).out.cycles +
        (rounds bus fuel n (round bus .hd6309 fuel c).st).out.cycles).toNat = _
      rw [BitVec.toNat_add, Nat.mod_eq_of_lt (by omega)]
    refine ⟨by omega, fun m hm => ?_⟩
    obtain rfl : n = m := by omega
    exact hsum

/-- Steady rounds, taken by a call without skips while the count is below the
budget. -/
theorem off_rounds {fuel n : Nat} {budget : Cycles} {s : RunState σ}
    (hs : Steady bus fuel n s.core) (hn : n ≤ 100)
    (hlt : ∀ k, k < (rounds bus fuel n s.core).out.cycles.toNat →
      (s.cycles + BitVec.ofNat 32 k).slt budget = true) :
    Reaches (runBody bus .hd6309 false fuel budget) s (s.ran (rounds bus fuel n s.core)) := by
  induction n generalizing s with
  | zero =>
    have hid : s.ran (rounds bus fuel 0 s.core) = s := by
      show (⟨s.core, s.cycles + 0, s.trace ++ [], s.idle⟩ : RunState σ) = s
      rw [List.append_nil, show s.cycles + 0 = s.cycles from BitVec.add_zero _]
    rw [hid]
    exact .refl
  | succ n ih =>
    have hsum := (hs.cycles_le hn).2 n rfl
    obtain ⟨⟨flow, hval, hflow⟩, h1, h9, hrest⟩ := hs
    let s' := (s.perform (round bus .hd6309 fuel)).2
    have hgo : runBody bus .hd6309 false fuel budget s = .go s' := by
      refine runBody_steady ?_ hval hflow
      have h₀ := hlt 0 (by omega)
      rwa [show s.cycles + BitVec.ofNat 32 0 = s.cycles from BitVec.add_zero _] at h₀
    have hran : s.ran (rounds bus fuel (n + 1) s.core) =
        s'.ran (rounds bus fuel n s'.core) := by
      show (⟨_, s.cycles + (_ + _), s.trace ++ (_ ++ _), _⟩ : RunState σ) =
        ⟨_, s.cycles + _ + _, s.trace ++ _ ++ _, _⟩
      rw [BitVec.add_assoc, List.append_assoc]
      rfl
    rw [hran]
    refine Relation.ReflTransGen.head hgo (ih hrest (by omega) fun k hk => ?_)
    have hk' := hlt ((round bus .hd6309 fuel s.core).out.cycles.toNat + k) (by
      rw [hsum]
      exact Nat.add_lt_add_left hk _)
    rw [show (s'.cycles + BitVec.ofNat 32 k : Cycles) =
      s.cycles + BitVec.ofNat 32 ((round bus .hd6309 fuel s.core).out.cycles.toNat + k) by
        rw [BitVec.ofNat_add, BitVec.ofNat_toNat, BitVec.setWidth_eq, ← BitVec.add_assoc]
        rfl]
    exact hk'

/-- `q` passes that each lead back to where they began, without callbacks. -/
theorem off_passes {fuel n : Nat} {budget : Cycles} {c : Core σ} (q : Nat)
    (hst : (rounds bus fuel n c).st = c) (hs : Steady bus fuel n c) (hn : n ≤ 100)
    (hcalls : NoCalls (rounds bus fuel n c).out.trace) {s : RunState σ} (hc : s.core = c)
    (hlt : ∀ k, k < q * (rounds bus fuel n c).out.cycles.toNat →
      (s.cycles + BitVec.ofNat 32 k).slt budget = true) :
    ∃ tr, NoCalls tr ∧ Reaches (runBody bus .hd6309 false fuel budget) s
      { s with
        cycles := s.cycles + BitVec.ofNat 32 (q * (rounds bus fuel n c).out.cycles.toNat)
        trace := s.trace ++ tr } := by
  let p := (rounds bus fuel n c).out
  induction q generalizing s with
  | zero =>
    refine ⟨[], rfl, ?_⟩
    rw [Nat.zero_mul, List.append_nil,
      show s.cycles + BitVec.ofNat 32 0 = s.cycles from BitVec.add_zero _]
    exact .refl
  | succ q ih =>
    have hsum : (q + 1) * p.cycles.toNat = p.cycles.toNat + q * p.cycles.toNat := by
      rw [Nat.add_mul, Nat.one_mul, Nat.add_comm]
    have hadd : ∀ k, s.cycles + p.cycles + BitVec.ofNat 32 k =
        s.cycles + BitVec.ofNat 32 (p.cycles.toNat + k) := by
      intro k
      rw [BitVec.ofNat_add, BitVec.ofNat_toNat, BitVec.setWidth_eq, BitVec.add_assoc]
    have hfirst : Reaches (runBody bus .hd6309 false fuel budget) s
        (s.ran (rounds bus fuel n c)) := by
      subst hc
      exact off_rounds hs hn fun k hk => hlt k (Nat.lt_of_lt_of_le hk (by
        rw [hsum]
        exact Nat.le_add_right _ _))
    obtain ⟨tr, htr, hrest⟩ := @ih (s.ran (rounds bus fuel n c)) hst (fun k hk => by
      show (s.cycles + p.cycles + BitVec.ofNat 32 k).slt budget = true
      rw [hadd]
      exact hlt _ (by
        rw [hsum]
        exact Nat.add_lt_add_left hk _))
    refine ⟨p.trace ++ tr, NoCalls.append.mpr ⟨hcalls, htr⟩, ?_⟩
    have hend : (s.ran (rounds bus fuel n c)).cycles + BitVec.ofNat 32 (q * p.cycles.toNat) =
        s.cycles + BitVec.ofNat 32 ((q + 1) * p.cycles.toNat) := by
      rw [hsum]
      exact hadd _
    have hfinal := hfirst.trans hrest
    have hcore : (s.ran (rounds bus fuel n c)).core = s.core := hst.trans hc.symm
    rw [hend, hcore] at hfinal
    rw [← List.append_assoc]
    exact hfinal

/-! ## What the watch knows -/

/-- The watched run came from `last` by `since` rounds, at the cost of the cycles
counted and the accesses logged since, and it was quiet there. -/
structure Track (bus : Bus σ) (fuel : Nat) (w : Watch σ) : Prop where
  st : (rounds bus fuel w.since w.last).st = w.run.core
  cycles : (rounds bus fuel w.since w.last).out.cycles = w.run.cycles - w.run.idle.cyc
  log : (rounds bus fuel w.since w.last).out.trace = w.log
  quiet : w.run.idle.br ≠ none → Quiet w.last

theorem Track.start (fuel : Nat) (c : Core σ) (rej : Option Word) :
    Track bus fuel (.start c rej) :=
  ⟨rfl, (BitVec.sub_self 0).symm, rfl, fun h => absurd rfl h⟩

/-- The watch after a round. -/
def Watch.afterRound (bus : Bus σ) (fuel : Nat) (w : Watch σ) : Watch σ := (w.round bus fuel).2

theorem Track.afterRound {fuel : Nat} {w : Watch σ} (h : Track bus fuel w) :
    Track bus fuel (w.afterRound bus fuel) := by
  have hrounds : rounds bus fuel (w.since + 1) w.last =
      ⟨(), (rounds bus fuel w.since w.last).out * (round bus .hd6309 fuel w.run.core).out,
        (round bus .hd6309 fuel w.run.core).st⟩ := by
    rw [rounds_succ, Act.bind_apply, Act.bind_apply, h.st, Act.pure_apply, mul_one]
  refine ⟨?_, ?_, ?_, h.quiet⟩
  · show (rounds bus fuel (w.since + 1) w.last).st = (round bus .hd6309 fuel w.run.core).st
    rw [hrounds]
  · show (rounds bus fuel (w.since + 1) w.last).out.cycles =
      w.run.cycles + (round bus .hd6309 fuel w.run.core).out.cycles - w.run.idle.cyc
    rw [hrounds, Cost.mul_cycles, h.cycles]
    exact BitVec.sub_add_comm
  · show (rounds bus fuel (w.since + 1) w.last).out.trace =
      w.log ++ (round bus .hd6309 fuel w.run.core).out.trace
    rw [hrounds, Cost.mul_trace, h.log]

theorem note_run (budget : Cycles) (w : Watch σ) (flow : Flow) :
    (w.note bus budget flow).run = afterFlow bus true budget w.run flow := by
  cases flow with
  | next => rfl
  | stuck => rfl
  | branchBack br =>
    unfold Watch.note
    dsimp only
    split <;> rfl

/-- The idle check keeps track, where a branch it may record leaves a quiet state. -/
theorem Track.note {fuel : Nat} {budget : Cycles} {w : Watch σ} {flow : Flow}
    (h : Track bus fuel w) (hq : ∀ br, flow = .branchBack br → Quiet w.run.core) :
    Track bus fuel (w.note bus budget flow) := by
  cases flow with
  | next => exact h
  | stuck => exact h
  | branchBack br =>
    unfold Watch.note
    dsimp only
    split
    · rename_i hrej
      have hnone : idleLoopCheck bus w.run.core budget w.run.cycles w.run.idle br =
          (w.run.idle, 0) := by
        rw [idleLoopCheck, if_pos hrej]
      have hrun : afterFlow bus true budget w.run (.branchBack br) = w.run := by
        show (⟨_, w.run.cycles + _, _, _⟩ : RunState σ) = _
        rw [hnone, show w.run.cycles + 0 = w.run.cycles from BitVec.add_zero _]
      rw [hrun]
      exact h
    · rename_i hrej
      obtain ⟨hcyc, -⟩ := idleLoopCheck_records bus w.run.core budget w.run.cycles hrej
      refine ⟨rfl, ?_, rfl, fun _ => hq br rfl⟩
      show (0 : Cycles) = (w.run.cycles + (idleLoopCheck bus w.run.core budget w.run.cycles
        w.run.idle br).2) - (idleLoopCheck bus w.run.core budget w.run.cycles w.run.idle br).1.cyc
      rw [hcyc]
      exact (BitVec.sub_self _).symm

/-! ## One round against several -/

/-- A settled skip: the call without skips takes the credited passes one by one and
arrives where the skip has jumped to. -/
theorem settled_skip {fuel : Nat} {budget : Cycles} {w : Watch σ} {br : Word} {t : RunState σ}
    (hw : Track bus fuel w) (hlt : w.run.cycles.slt budget = true)
    (hcredit : (w.afterRound bus fuel).credit bus budget br ≠ 0)
    (hset : Settled bus (w.afterRound bus fuel) br)
    (hcore : t.core = (w.afterRound bus fuel).run.core)
    (hcycles : t.cycles = (w.afterRound bus fuel).run.cycles) :
    ∃ tr, NoCalls tr ∧ Reaches (runBody bus .hd6309 false fuel budget) t
      { t with
        cycles := t.cycles + (w.afterRound bus fuel).credit bus budget br
        trace := t.trace ++ tr } := by
  let w' := w.afterRound bus fuel
  have htrack : Track bus fuel w' := hw.afterRound
  have hc : Credited bus w'.run.core budget w'.run.cycles w'.run.idle br :=
    idleLoopCheck_credits hcredit
  obtain ⟨hcode, bop, boff, hbr⟩ := idleLoopOk_spec hc.admitted
  let body := w'.body bus br
  have hshort : body.length ≤ 2 := idleBody_length _ _ _
  have hquiet : Quiet w'.last := htrack.quiet (by rw [hc.again]; simp)
  have hsince : w'.since = body.length + 1 := hset.straight
  have hrun : (rounds bus fuel (body.length + 1) w'.last).st = w'.run.core := by
    rw [← hsince]
    exact htrack.st
  have hsilent : NoCalls (rounds bus fuel (body.length + 1) w'.last).out.trace := by
    rw [← hsince, htrack.log]
    exact hset.silent
  obtain ⟨hst, hout, hsteady, hcost⟩ := pass_again fuel hquiet
    (by rw [hset.memory, hset.place]; exact hcode) (by rw [hset.memory]; exact hbr) hrun hsilent
    hset.place hset.held
  -- The timed period is the cost of the pass, and the branch took 3 cycles of it.
  let left := budget - w'.run.cycles
  let period := w'.run.cycles - w'.run.idle.cyc
  have hperiod : (rounds bus fuel (body.length + 1) w'.run.core).out.cycles = period := by
    rw [hout, ← hsince]
    exact htrack.cycles
  have hnow : w'.run.cycles = w.run.cycles + 3 := by
    have hlast : (rounds bus fuel body.length w'.last).st = w.run.core := by
      rw [← Nat.succ.inj hsince]
      exact hw.st
    rw [hlast] at hcost
    exact congrArg (w.run.cycles + ·) hcost
  let q := left.toNat / period.toNat
  have hamount : w'.credit bus budget br = BitVec.ofNat 32 (q * period.toNat) :=
    hc.amount.trans (credit_eq left period)
  have hbelow : ∀ k, k < q * (rounds bus fuel (body.length + 1) w'.run.core).out.cycles.toNat →
      (t.cycles + BitVec.ofNat 32 k).slt budget = true := by
    intro k hk
    rw [hperiod] at hk
    rw [hcycles]
    exact slt_of_room hlt hnow hc.periodMax hc.room
      (Nat.lt_of_lt_of_le hk (Nat.div_mul_le_self _ _))
  obtain ⟨tr, htr, hreach⟩ := off_passes q hst hsteady (by omega)
    (by rw [hout]; exact hsilent) hcore hbelow
  refine ⟨tr, htr, ?_⟩
  rw [hperiod, ← hamount] at hreach
  exact hreach

/-- What relates the watched call to the call without skips. -/
structure Match (bus : Bus σ) (fuel : Nat) (budget : Cycles) (w₀ w : Watch σ) (t : RunState σ) :
    Prop where
  reach : Reaches (watchBody bus fuel budget) w₀ w
  track : Track bus fuel w
  same : SameEnd w.run t

theorem SameEnd.perform {α : Type} {r t : RunState σ} (h : SameEnd r t) (m : M σ α) :
    (r.perform m).1 = (t.perform m).1 ∧ SameEnd (r.perform m).2 (t.perform m).2 := by
  unfold RunState.perform
  rw [h.core]
  refine ⟨rfl, rfl, ?_, ?_⟩
  · exact congrArg (· + _) h.cycles
  · show List.filter _ (_ ++ _) = List.filter _ (_ ++ _)
    rw [List.filter_append, List.filter_append, h.callbacks]

theorem NoCalls.filter {t : List Access} (h : NoCalls t) : t.filter Access.isCallback = [] := by
  rw [List.filter_eq_nil_iff]
  intro a ha
  simp only [NoCalls, List.any_eq_false] at h
  exact h a ha

variable (bus) in
/-- One round of the watched loop body, below the budget. -/
theorem watchBody_round (fuel : Nat) {budget : Cycles} {w : Watch σ}
    (hlt : w.run.cycles.slt budget = true) :
    watchBody bus fuel budget w =
      match (round bus .hd6309 fuel w.run.core).val with
      | none => .stop { (w.afterRound bus fuel).run with cycles := budget }
      | some .stuck => .stuck
      | some flow => .go ((w.afterRound bus fuel).note bus budget flow) := by
  unfold watchBody
  rw [if_pos hlt]
  have hround : w.round bus fuel =
      ((round bus .hd6309 fuel w.run.core).val, w.afterRound bus fuel) := rfl
  rw [hround]
  cases (round bus .hd6309 fuel w.run.core).val with
  | none => rfl
  | some flow => cases flow <;> rfl

/-- A round the watched call goes on from. -/
theorem watchBody_go {fuel : Nat} {budget : Cycles} {w w'' : Watch σ}
    (h : watchBody bus fuel budget w = .go w'') :
    w.run.cycles.slt budget = true ∧ ∃ flow, flow ≠ .stuck ∧
      (round bus .hd6309 fuel w.run.core).val = some flow ∧
      w'' = (w.afterRound bus fuel).note bus budget flow := by
  cases hlt : w.run.cycles.slt budget with
  | false =>
    unfold watchBody at h
    rw [hlt, if_neg (by simp)] at h
    cases h
  | true =>
    rw [watchBody_round bus fuel hlt] at h
    cases hval : (round bus .hd6309 fuel w.run.core).val with
    | none =>
      rw [hval] at h
      cases h
    | some flow =>
      rw [hval] at h
      cases flow with
      | stuck => cases h
      | next => exact ⟨rfl, .next, nofun, rfl, (Move.go.inj h).symm⟩
      | branchBack br => exact ⟨rfl, .branchBack br, nofun, rfl, (Move.go.inj h).symm⟩

/-- The check credits nothing, or it skips. -/
theorem note_same {budget : Cycles} {w : Watch σ} {flow : Flow} {t : RunState σ}
    (h : SameEnd w.run t)
    (hnone : ∀ br, flow = .branchBack br → w.credit bus budget br = 0) :
    SameEnd (w.note bus budget flow).run t := by
  rw [note_run]
  cases flow with
  | next => exact h
  | stuck => exact h
  | branchBack br =>
    refine ⟨h.core, ?_, h.callbacks⟩
    show w.run.cycles + w.credit bus budget br = t.cycles
    rw [hnone br rfl]
    exact (BitVec.add_zero _).trans h.cycles

/-- Each round of the watched call is one round of the call without skips, and at a
skip the rounds of the credited passes besides. -/
theorem skip_sim (hl : LinesConstant bus) {fuel : Nat} {budget : Cycles} {w₀ : Watch σ}
    (hset : SettledRun bus fuel budget w₀) :
    StutterSim (watchBody bus fuel budget) (runBody bus .hd6309 false fuel budget)
      (Match bus fuel budget w₀) SameEnd where
  go {w t w''} h hgo := by
    have hreach : Reaches (watchBody bus fuel budget) w₀ w'' := h.reach.tail hgo
    obtain ⟨hlt, flow, hne, hval, rfl⟩ := watchBody_go hgo
    let w' := w.afterRound bus fuel
    let t' := (t.perform (round bus .hd6309 fuel)).2
    have hsame : SameEnd w'.run t' := (h.same.perform _).2
    have hstep : runBody bus .hd6309 false fuel budget t = .go t' := by
      refine @runBody_steady _ _ _ _ _ flow ?_ ?_ hne
      · rw [← h.same.cycles]
        exact hlt
      · rw [← h.same.core]
        exact hval
    have htrack : Track bus fuel (w'.note bus budget flow) := by
      refine h.track.afterRound.note ?_
      rintro br rfl
      exact branchBack_quiet hl hval
    by_cases hnone : ∀ br, flow = .branchBack br → w'.credit bus budget br = 0
    · exact ⟨t', .single hstep, hreach, htrack, note_same hsame hnone⟩
    · -- The check credits cycles: the credited passes follow the round.
      obtain ⟨br, rfl, hcredit⟩ : ∃ br, flow = .branchBack br ∧ w'.credit bus budget br ≠ 0 := by
        grind
      have hsettled : Settled bus w' br :=
        hset w h.reach hlt br w' (Prod.ext hval rfl) hcredit
      obtain ⟨tr, htr, hpasses⟩ := settled_skip h.track hlt hcredit hsettled hsame.core.symm
        hsame.cycles.symm
      refine ⟨_, Relation.TransGen.head' hstep hpasses, hreach, htrack, ?_⟩
      rw [note_run]
      refine ⟨hsame.core, ?_, ?_⟩
      · show w'.run.cycles + w'.credit bus budget br = t'.cycles + w'.credit bus budget br
        rw [hsame.cycles]
      · show w'.run.trace.filter _ = (t'.trace ++ tr).filter _
        rw [List.filter_append, htr.filter, List.append_nil]
        exact hsame.callbacks
  stop {w t r} h hstop := by
    cases hlt : w.run.cycles.slt budget with
    | false =>
      unfold watchBody at hstop
      rw [hlt, if_neg (by simp)] at hstop
      cases hstop
      refine ⟨t, ?_, h.same⟩
      unfold runBody
      rw [← h.same.cycles, hlt, if_neg (by simp)]
    | true =>
      rw [watchBody_round bus fuel hlt] at hstop
      cases hval : (round bus .hd6309 fuel w.run.core).val with
      | some flow =>
        rw [hval] at hstop
        cases flow <;> cases hstop
      | none =>
        rw [hval] at hstop
        cases hstop
        have hsame : SameEnd (w.afterRound bus fuel).run
            (t.perform (round bus .hd6309 fuel)).2 := (h.same.perform _).2
        refine ⟨{ (t.perform (round bus .hd6309 fuel)).2 with cycles := budget }, ?_, hsame.core,
          rfl, hsame.callbacks⟩
        rw [runBody_round (by rw [← h.same.cycles]; exact hlt), ← h.same.core, hval]
  stuck {w t} h hstuck := by
    cases hlt : w.run.cycles.slt budget with
    | false =>
      unfold watchBody at hstuck
      rw [hlt, if_neg (by simp)] at hstuck
      cases hstuck
    | true =>
      rw [watchBody_round bus fuel hlt] at hstuck
      rw [runBody_round (by rw [← h.same.cycles]; exact hlt), ← h.same.core]
      cases hval : (round bus .hd6309 fuel w.run.core).val with
      | none =>
        rw [hval] at hstuck
        cases hstuck
      | some flow =>
        rw [hval] at hstuck
        cases flow <;> first | rfl | cases hstuck

/-! ## Forgetting the watch -/

/-- The watched call and the call with skips take the same rounds. -/
theorem watch_erase (fuel : Nat) (budget : Cycles) (n : Nat) (w : Watch σ) :
    loop (runBody bus .hd6309 true fuel budget) n w.run =
      loop (watchBody bus fuel budget) n w := by
  induction n generalizing w with
  | zero => rfl
  | succ n ih =>
    cases hlt : w.run.cycles.slt budget with
    | false =>
      have hrun : runBody bus .hd6309 true fuel budget w.run = .stop w.run := by
        unfold runBody
        rw [hlt, if_neg (by simp)]
      have hwatch : watchBody bus fuel budget w = .stop w.run := by
        unfold watchBody
        rw [hlt, if_neg (by simp)]
      rw [loop_stop hrun, loop_stop hwatch]
    | true =>
      have hwatch := watchBody_round bus fuel hlt
      have hrun : runBody bus .hd6309 true fuel budget w.run =
          runRound bus .hd6309 true fuel budget w.run := by
        unfold runBody
        rw [if_pos hlt]
      have hround : w.run.perform (round bus .hd6309 fuel) =
          ((round bus .hd6309 fuel w.run.core).val, (w.afterRound bus fuel).run) := rfl
      unfold runRound at hrun
      rw [hround] at hrun
      cases hval : (round bus .hd6309 fuel w.run.core).val with
      | none =>
        rw [hval] at hrun hwatch
        rw [loop_stop hrun, loop_stop hwatch]
      | some flow =>
        rw [hval] at hrun hwatch
        cases flow with
        | stuck => rw [loop_stuck hrun, loop_stuck hwatch]
        | next =>
          rw [loop_go hrun, loop_go hwatch, ← ih, note_run]
        | branchBack br =>
          rw [loop_go hrun, loop_go hwatch, ← ih, note_run]

/-! ## Exactness -/

/-- What a call returns, with some fuel for its rounds. -/
def CallReturns (bus : Bus σ) (skip : Bool) (rej : Option Word) (fuel : Nat) (budget : Cycles)
    (c : Core σ) (r : RunState σ) : Prop :=
  ∃ n, hd6309Run bus skip rej fuel n budget c = some r

theorem callReturns_iff {skip : Bool} {rej : Option Word} {fuel : Nat} {budget : Cycles}
    {c : Core σ} {r : RunState σ} (ha : bus.attached = true) :
    CallReturns bus skip rej fuel budget c r ↔
      Returns (runBody bus .hd6309 skip fuel budget) (.start c rej) r := by
  unfold CallReturns hd6309Run
  rw [ha]
  exact Iff.rfl

theorem returns_watch {fuel : Nat} {budget : Cycles} {w : Watch σ} {r : RunState σ} :
    Returns (runBody bus .hd6309 true fuel budget) w.run r ↔
      Returns (watchBody bus fuel budget) w r := by
  unfold Returns
  constructor
  · rintro ⟨n, hn⟩
    exact ⟨n, by rwa [← watch_erase]⟩
  · rintro ⟨n, hn⟩
    exact ⟨n, by rwa [watch_erase]⟩

/-! ## Checking a call -/

instance (t : List Access) : Decidable (NoCalls t) :=
  inferInstanceAs (Decidable (t.any Access.isCallback = false))

instance (k : Known) (r r' : Regs) : Decidable (Held k r r') :=
  decidable_of_iff ((k.a = true → r.a = r'.a) ∧ (k.b = true → r.b = r'.b) ∧
    (k.x = true → r.x = r'.x)) ⟨fun h => ⟨h.1, h.2.1, h.2.2⟩, fun h => ⟨h.a, h.b, h.x⟩⟩

instance [DecidableEq σ] (w : Watch σ) (br : Word) : Decidable (Settled bus w br) :=
  decidable_of_iff (w.last.regs.pc = w.run.core.regs.pc ∧
      w.last.env.host = w.run.core.env.host ∧ w.since = (w.body bus br).length + 1 ∧
      NoCalls w.log ∧ Held (readsFirst (w.body bus br)) w.last.regs w.run.core.regs)
    ⟨fun h => ⟨h.1, h.2.1, h.2.2.1, h.2.2.2.1, h.2.2.2.2⟩,
      fun h => ⟨h.place, h.memory, h.straight, h.silent, h.held⟩⟩

/-- Is the skip after the next round, if there is one, settled? -/
def settledNext [DecidableEq σ] (bus : Bus σ) (fuel : Nat) (budget : Cycles) (w : Watch σ) :
    Bool :=
  !w.run.cycles.slt budget ||
    match w.round bus fuel with
    | (some (.branchBack br), w') => w'.credit bus budget br == 0 || decide (Settled bus w' br)
    | _ => true

/-- The call stops within `n` rounds and every skip on the way is settled. -/
def settledRun [DecidableEq σ] (bus : Bus σ) (fuel : Nat) (budget : Cycles) :
    Nat → Watch σ → Bool
  | 0, _ => false
  | n + 1, w => settledNext bus fuel budget w &&
      match watchBody bus fuel budget w with
      | .go w' => settledRun bus fuel budget n w'
      | _ => true

theorem settledRun_spec [DecidableEq σ] {fuel : Nat} {budget : Cycles} {n : Nat} {w₀ : Watch σ}
    (h : settledRun bus fuel budget n w₀ = true) : SettledRun bus fuel budget w₀ := by
  induction n generalizing w₀ with
  | zero => exact absurd h Bool.false_ne_true
  | succ n ih =>
    obtain ⟨hnext, hrest⟩ := Bool.and_eq_true_iff.mp h
    intro w hreach hlt br w' hround hcredit
    rcases Relation.ReflTransGen.cases_head hreach with rfl | ⟨w₁, hgo, hreach⟩
    · unfold settledNext at hnext
      rw [hlt, hround] at hnext
      have hor : w'.credit bus budget br = 0 ∨ Settled bus w' br := by simpa using hnext
      exact hor.resolve_left hcredit
    · rw [hgo] at hrest
      exact ih hrest w hreach hlt br w' hround hcredit

/-! ## With and without the skip -/

/-- A call in which every skip is settled returns with the skip exactly when it returns
without, and leaves the same behind. -/
theorem idle_skip_exact {σ : Type} (bus : Bus σ) (hl : LinesConstant bus) (c : Core σ)
    (rej : Option Word) (fuel : Nat) (budget : Cycles)
    (hset : SettledRun bus fuel budget (.start c rej)) :
    (∀ r, CallReturns bus true rej fuel budget c r →
      ∃ r', CallReturns bus false rej fuel budget c r' ∧ SameEnd r r') ∧
    (∀ r', CallReturns bus false rej fuel budget c r' →
      ∃ r, CallReturns bus true rej fuel budget c r ∧ SameEnd r r') := by
  cases ha : bus.attached with
  | false =>
    have hrun : ∀ skip n, hd6309Run bus skip rej fuel n budget c = some (.start c rej) := by
      intro skip n
      unfold hd6309Run
      rw [ha, if_neg (by simp)]
    refine ⟨fun r hr => ?_, fun r hr => ?_⟩
    · obtain ⟨n, hn⟩ := hr
      rw [hrun] at hn
      cases hn
      exact ⟨_, ⟨n, hrun false n⟩, rfl, rfl, rfl⟩
    · obtain ⟨n, hn⟩ := hr
      rw [hrun] at hn
      cases hn
      exact ⟨_, ⟨n, hrun true n⟩, rfl, rfl, rfl⟩
  | true =>
    have hsim := skip_sim hl hset
    have hstart : Match bus fuel budget (.start c rej) (.start c rej) (.start c rej) :=
      ⟨.refl, Track.start fuel c rej, rfl, rfl, rfl⟩
    refine ⟨fun r hr => ?_, fun r hr => ?_⟩
    · rw [callReturns_iff ha] at hr
      obtain ⟨r', hr', hsame⟩ := hsim.forward hstart (returns_watch.mp hr)
      exact ⟨r', (callReturns_iff ha).mpr hr', hsame⟩
    · rw [callReturns_iff ha] at hr
      obtain ⟨r', hr', hsame⟩ := hsim.backward hstart hr
      exact ⟨r', (callReturns_iff ha).mpr (returns_watch.mpr hr'), hsame⟩

/-- `LDA $1005 / BEQ *-5`, over a zero byte. -/
def pollingLoop : Bus Unit :=
  romBus 0xFF00 (ramWith 0x1000 [0xB6, 0x10, 0x05, 0x27, 0xFB, 0x00])

def pollingCore : Core Unit := ⟨{ pc := 0x1000 }, {}, ⟨{}, ()⟩⟩

theorem pollingLoop_lines : LinesConstant pollingLoop := ⟨fun _ _ => rfl, fun _ _ _ => rfl⟩

/-- A polling loop for 1000 cycles: 6 rounds with the skip, more than 200 without. -/
theorem idle_skip_exact_polling :
    ((∀ r, CallReturns pollingLoop true none 0 1000 pollingCore r →
        ∃ r', CallReturns pollingLoop false none 0 1000 pollingCore r' ∧ SameEnd r r') ∧
      (∀ r', CallReturns pollingLoop false none 0 1000 pollingCore r' →
        ∃ r, CallReturns pollingLoop true none 0 1000 pollingCore r ∧ SameEnd r r')) ∧
    (hd6309Run pollingLoop true none 0 8 1000 pollingCore).isSome = true ∧
    (hd6309Run pollingLoop false none 0 200 1000 pollingCore).isNone = true :=
  ⟨idle_skip_exact pollingLoop pollingLoop_lines pollingCore none 0 1000
      (@settledRun_spec _ _ _ _ _ 8 _ (by decide +kernel)),
    by decide +kernel, by decide +kernel⟩

/-- `LDX ,X / BNE *-2 / BRA *` and a list of six cells from `$1010` on, whose last
link is 0. -/
def listLoop : Bus Unit :=
  romBus 0xFF00 fun p =>
    if p < 0x1010 then ramWith 0x1000 [0xAE, 0x84, 0x26, 0xFC, 0x20, 0xFE] p
    else ramWith 0x1010 [0x10, 0x12, 0x10, 0x14, 0x10, 0x16, 0x10, 0x18, 0x10, 0x1A, 0x00, 0x00] p

def listCore : Core Unit := ⟨{ pc := 0x1000, x := 0x1010 }, {}, ⟨{}, ()⟩⟩

/-- The walk of a list is no idle loop: without the skip it ends at the null link and
leaves the loop, with the skip it stops at the fourth cell. -/
theorem idle_skip_diverges :
    LinesConstant listLoop ∧
    ∃ r r', CallReturns listLoop true none 0 100 listCore r ∧
      CallReturns listLoop false none 0 100 listCore r' ∧
      r.core.regs.x = 0x1016 ∧ r'.core.regs.x = 0 ∧ ¬SameEnd r r' := by
  have hskip : (hd6309Run listLoop true none 0 8 100 listCore).map (·.core.regs.x) =
      some 0x1016 := by
    decide +kernel
  have hplain : (hd6309Run listLoop false none 0 40 100 listCore).map (·.core.regs.x) =
      some 0 := by
    decide +kernel
  obtain ⟨r, hr, hx⟩ := Option.map_eq_some_iff.mp hskip
  obtain ⟨r', hr', hx'⟩ := Option.map_eq_some_iff.mp hplain
  refine ⟨⟨fun _ _ => rfl, fun _ _ _ => rfl⟩, r, r', ⟨8, hr⟩, ⟨40, hr'⟩, hx, hx', fun h => ?_⟩
  rw [h.core, hx'] at hx
  exact absurd hx (by decide)

end CocoEmulator.Cpu
