/-
  Cpu/RunBudget.lean --- a call returns, and how far it goes past its budget.

  A round adds a cycle or more, but for a TFM that goes on with W zero, which adds none and
  ends the transfer: so the cycles left, and after them whether a transfer is part-way
  through, are what a round makes less.  The count stays below the sign bit as long as one
  round past the budget does (`roundMax`), and the idle check credits no more than is left.

  On the 6309 the prefix loop has to end, and does where some byte of the memory is not a
  prefix when the opcode is fetched (`IsMemory`).

      poll_costs            what an interrupt entry adds
      executeOne_reached    the prefix loop ends
      runBody_below         one round from below the budget
      run_budget            both builds return, at the budget or past it by one round

  Source: mc6809_core_impl.h.
-/
import CocoEmulator.Cpu.CycleCounts
import CocoEmulator.Cpu.IdleSkip

set_option autoImplicit false

namespace CocoEmulator.Cpu

open CocoEmulator.Base

variable {σ : Type} (bus : Bus σ)

/-! ## The poll -/

/-- The most an interrupt entry adds. -/
def entryMost : Nat := 21

theorem checkInterrupts_costs (b : Build) : Costs 0 entryMost (checkInterrupts bus b) := by
  have hmost : (entryMost : Int) = 21 := rfl
  have hentry : Costs 0 0 (irqEntry b : M σ Unit) :=
    .guarded (.modify _) (Int.le_refl _) (Int.le_refl _)
  have hwait : Costs 0 entryMost (tick 7 : M σ Unit) := (tick_nat 7).mono (by omega) (by omega)
  have hentire : Costs 0 entryMost
      (setCc flagE >>= fun _ => pushEntire bus b >>= fun _ => tick 19) :=
    .free (setRegs_free _) fun _ =>
      (pushEntire_costs bus b).seq (fun _ => tick_nat 19) (by omega) (by omega)
  have hstack : Costs 0 entryMost (stackEntire bus b) :=
    .free regs_free fun _ => .ite hwait hentire
  have hfast : Costs 0 entryMost (stackFirq bus b) := by
    refine .free regs_free fun r => .ite hwait (.ite hentire ?_)
    exact .free (setRegs_free _) fun _ => .free (push16_free bus .s _) fun _ =>
      .free regs_free fun _ => .free (push8_free bus .s _) fun _ =>
      (tick_nat 10).mono (by omega) (by omega)
  have hhandler (mask : Byte) (vec : Word) : Costs 0 0 (enterHandler bus mask vec) :=
    .free (setRegs_free _) fun _ => .free (memRead16_free bus _) fun _ => setRegs_free _
  refine .free regs_free fun r => .free (.gets _) fun p => ?_
  split
  · rename_i sv _
    cases sv with
    | nmi =>
      exact .free (.modify _) fun _ => .free hentry fun _ =>
        hstack.seq (fun _ => hhandler _ _) (by omega) (by omega)
    | firq => exact .free hentry fun _ => hfast.seq (fun _ => hhandler _ _) (by omega) (by omega)
    | irq => exact .free hentry fun _ => hstack.seq (fun _ => hhandler _ _) (by omega) (by omega)
  · exact (Costs.pure ()).mono (by omega) (by omega)

theorem poll_costs (b : Build) : Costs 0 entryMost (poll bus b) := by
  have hmost : (entryMost : Int) = 21 := rfl
  have hnone (p : Poll) : Costs 0 0 (pure p : M σ Poll) := .pure p
  have hall : Costs 0 entryMost (pollAll bus b) := by
    refine .free (.gets _) fun p => .ite ((hnone _).mono (by omega) (by omega)) ?_
    refine (checkInterrupts_costs bus b).seq (fun _ => .free regs_free fun r =>
      .free (.gets _) fun p => .ite (.ite ?_ (hnone _)) (hnone _)) (by omega) (by omega)
    exact .free (setRegs_free _) fun _ => hnone _
  cases b with
  | mc6809 => exact hall
  | hd6309 => exact .free (.gets _) fun _ => .ite hall ((hnone _).mono (by omega) (by omega))

/-- No poll starts a block transfer. -/
theorem poll_accs {d w : Word} {md : Byte} (b : Build) :
    Act.Keeps (Accs d w md false) (poll bus b) := by
  have hentry : Act.Keeps (Accs d w md false) (irqEntry b : M σ Unit) :=
    .guarded (.modify fun _ h => ⟨h.1, h.2.1, h.2.2.1, rfl⟩)
  have hentire : Act.Keeps (Accs d w md false)
      (setCc flagE >>= fun _ => pushEntire bus b >>= fun _ => tick 19) :=
    .bind (setCc_accs _) fun _ => .bind (pushEntire_accs b) fun _ => tick_accs _
  have hstack : Act.Keeps (Accs d w md false) (stackEntire bus b) := by
    refine .bind regs_accs fun r => ?_
    split
    · exact tick_accs _
    · exact hentire
  have hfast : Act.Keeps (Accs d w md false) (stackFirq bus b) := by
    refine .bind regs_accs fun r => ?_
    split
    · exact tick_accs _
    · split
      · exact hentire
      · exact .bind (setRegs_accs fun _ => ⟨rfl, rfl, rfl⟩) fun _ =>
          .bind (push16_accs .s _) fun _ => .bind regs_accs fun _ => .bind (push8_accs .s _) fun _ => tick_accs _
  have hhandler (mask : Byte) (vec : Word) :
      Act.Keeps (Accs d w md false) (enterHandler bus mask vec) :=
    .bind (setCc_accs _) fun _ => .bind (memRead16_accs _) fun _ =>
      setRegs_accs fun _ => ⟨rfl, rfl, rfl⟩
  have hcheck : Act.Keeps (Accs d w md false) (checkInterrupts bus b) := by
    refine .bind regs_accs fun r => .bind (.gets _) fun p => ?_
    split
    · rename_i sv _
      cases sv with
      | nmi =>
        exact .bind (.modify fun _ h => h) fun _ => .bind hentry fun _ => .bind hstack fun _ =>
          hhandler _ _
      | firq => exact .bind hentry fun _ => .bind hfast fun _ => hhandler _ _
      | irq => exact .bind hentry fun _ => .bind hstack fun _ => hhandler _ _
    · exact .pure ()
  have hall : Act.Keeps (Accs d w md false) (pollAll bus b) := by
    refine .bind (.gets _) fun p => ?_
    split
    · exact .pure _
    · refine .bind hcheck fun _ => .bind regs_accs fun r => .bind (.gets _) fun p => ?_
      split
      · split
        · exact .bind (setRegs_accs fun _ => ⟨rfl, rfl, rfl⟩) fun _ => .pure _
        · exact .pure _
      · exact .pure _
  cases b with
  | mc6809 => exact hall
  | hd6309 =>
    refine .bind (.gets _) fun g => ?_
    split
    · exact hall
    · exact .pure _

/-! ## The prefix loop -/

/-- Reads return what `view` says and leave it. -/
structure IsMemory (view : Env σ → Word → Byte) : Prop where
  val : ∀ a e, (readByte bus a e).val = view e a
  env : ∀ a e, view (readByte bus a e).env = view e

section

variable {bus} {view : Env σ → Word → Byte} (hmem : IsMemory bus view)
include hmem

theorem fetch8_memory (c : Core σ) :
    (fetch8 bus c).val = view c.env c.regs.pc ∧ view (fetch8 bus c).st.env = view c.env := by
  unfold fetch8 regs setRegs
  rw [Act.gets_bind, Act.modify_bind, memRead_eq]
  exact ⟨hmem.val _ _, hmem.env _ _⟩

/-- The loop runs out only over prefix bytes. -/
theorem skipPrefixes_stuck {n : Nat} {op : Byte} {c : Core σ}
    (h : (skipPrefixes bus n op c).val = none) :
    isPrefix op = true ∧ ∀ j < n, isPrefix (view c.env (c.regs.pc + BitVec.ofNat 16 j)) = true := by
  induction n generalizing op c with
  | zero =>
    unfold skipPrefixes at h
    refine ⟨?_, fun j hj => absurd hj (Nat.not_lt_zero j)⟩
    cases hop : isPrefix op with
    | true => rfl
    | false =>
      rw [hop] at h
      cases h
  | succ n ih =>
    unfold skipPrefixes at h
    cases hop : isPrefix op with
    | false =>
      rw [hop] at h
      cases h
    | true =>
      rw [hop, if_pos rfl] at h
      obtain ⟨hval, hview⟩ := fetch8_memory hmem c
      obtain ⟨-, hregs, -⟩ := fetch8_kept bus c
      obtain ⟨hfirst, hrest⟩ := ih (c := (fetch8 bus c).st) h
      rw [hval] at hfirst
      rw [hview, hregs] at hrest
      refine ⟨rfl, fun j hj => ?_⟩
      cases j with
      | zero => rw [BitVec.add_zero]; exact hfirst
      | succ j =>
        have hnext : c.regs.pc + BitVec.ofNat 16 (j + 1) = c.regs.pc + 1 + BitVec.ofNat 16 j := by
          rw [BitVec.ofNat_add]
          bv_omega
        rw [hnext]
        exact hrest j (by omega)

theorem prefixed_reached {c : Core σ} {a : Word} (ha : isPrefix (view c.env a) = false) :
    (prefixed bus .hd6309 0x10000 c).val ≠ none := by
  intro h
  obtain ⟨-, hview⟩ := fetch8_memory hmem c
  obtain ⟨-, hregs, -⟩ := fetch8_kept bus c
  obtain ⟨-, hall⟩ := skipPrefixes_stuck hmem (c := (fetch8 bus c).st) h
  rw [hview, hregs] at hall
  have hat := hall (a - (c.regs.pc + 1)).toNat (BitVec.isLt _)
  rw [BitVec.ofNat_toNat, BitVec.setWidth_eq, BitVec.add_comm, BitVec.sub_add_cancel, ha] at hat
  cases hat

end

theorem afterPrefix_stuck {f : Byte → M σ Unit} {op : Option Byte} {c : Core σ}
    (h : (afterPrefix f op c).val = .stuck) : op = none := by
  cases op with
  | none => rfl
  | some v => cases h

/-- The instruction is reached: on the 6809 always, on the 6309 in such a memory. -/
theorem executeOne_reached {b : Build} {c : Core σ}
    (h : b = .hd6309 → ∃ view, IsMemory bus view ∧ ∃ a, isPrefix (view c.env a) = false) :
    (executeOne bus b 0x10000 c).val ≠ .stuck := by
  have hprefixed : (prefixed bus b 0x10000 (fetch8 bus c).st).val ≠ none := by
    cases b with
    | mc6809 => exact nofun
    | hd6309 =>
      obtain ⟨view, hmem, a, ha⟩ := h rfl
      rw [← (fetch8_memory hmem c).2] at ha
      exact prefixed_reached hmem ha
  unfold executeOne
  rw [Act.bind_val]
  generalize (fetch8 bus c).val = op
  unfold executeOp
  cases page1.get op with
  | none => exact nofun
  | some e =>
    cases e with
    | insn i => exact nofun
    | branch cond =>
      obtain ⟨flow, pc, hflow, hend⟩ := branchOn_spec cond (fetch8 bus (fetch8 bus c).st).val
        (fetch8 bus (fetch8 bus c).st).st
      show (branchOn cond _ (fetch8 bus (fetch8 bus c).st).st).val ≠ .stuck
      rw [hend]
      exact hflow
    | page2 => exact fun hstuck => hprefixed (afterPrefix_stuck hstuck)
    | page3 => exact fun hstuck => hprefixed (afterPrefix_stuck hstuck)

/-! ## One round -/

/-- The most a round adds. -/
def roundMax (b : Build) : Nat := entryMost + insnMax b

/-- What the interrupt entry of the next round adds. -/
def entryCycles (b : Build) (s : RunState σ) : Nat := (poll bus b s.core).out.cycles.toNat

/-- What its instruction adds. -/
def insnCycles (b : Build) (fuel : Nat) (s : RunState σ) : Nat :=
  (executeOne bus b fuel (poll bus b s.core).st).out.cycles.toNat

theorem entryCycles_le (b : Build) (s : RunState σ) : entryCycles bus b s ≤ entryMost := by
  have hmost : entryMost = 21 := rfl
  obtain ⟨n, hlo, hhi, hcost⟩ := poll_costs bus b s.core
  have hn : BitVec.ofInt 32 n = BitVec.ofNat 32 n.toNat := by
    rw [← BitVec.ofInt_natCast]
    congr 1
    omega
  unfold entryCycles
  rw [hcost, hn, BitVec.toNat_ofNat]
  omega

/-- The instruction of a round, and why it may add nothing. -/
theorem insnCycles_le (b : Build) {fuel : Nat} (hfuel : fuel ≤ 0x10000) (s : RunState σ)
    (h : (executeOne bus b fuel (poll bus b s.core).st).val ≠ .stuck) :
    insnCycles bus b fuel s ≤ insnMax b ∧
      (insnCycles bus b fuel s = 0 → s.core.tfm.busy = true ∧
        (executeOne bus b fuel (poll bus b s.core).st).st.tfm.busy = false) := by
  obtain ⟨n, hmax, hcost, hfree⟩ := executeOne_counts bus b hfuel _ h
  have hsmall : insnMax b < 0x20000 := by cases b <;> decide
  have hn : insnCycles bus b fuel s = n := by
    unfold insnCycles
    rw [hcost, BitVec.toNat_ofNat]
    omega
  rw [hn]
  refine ⟨hmax, fun hzero => ?_⟩
  obtain ⟨hresumes, -, hdone⟩ := hfree hzero
  refine ⟨?_, hdone⟩
  -- a poll that finds no transfer starts none
  by_contra hbusy
  have hidle : Accs s.core.regs.d s.core.regs.w s.core.regs.md false s.core :=
    ⟨rfl, rfl, rfl, by simpa using hbusy⟩
  have hpolled := poll_accs bus b s.core hidle
  exact absurd hresumes.1 (by simp [hpolled.2.2.2])

/-- The check credits no more than is left. -/
theorem credit_le (c : Core σ) {budget now : Cycles} (i : Idle) (br : Word)
    (hbudget : budget.toNat < 0x80000000) (hnow : now.toNat < 0x80000000) :
    (now + (idleLoopCheck bus c budget now i br).2).toNat = now.toNat ∨
      now.toNat ≤ (now + (idleLoopCheck bus c budget now i br).2).toNat ∧
        (now + (idleLoopCheck bus c budget now i br).2).toNat ≤ budget.toNat := by
  by_cases hzero : (idleLoopCheck bus c budget now i br).2 = 0
  · rw [hzero]
    exact .inl (congrArg BitVec.toNat (BitVec.add_zero now))
  · have hcredit := idleLoopCheck_credits hzero
    have hroom := hcredit.room
    have hperiod := toInt_of_le hcredit.periodMax
    have hmul := Nat.div_mul_le_self (budget - now).toNat (now - i.cyc).toNat
    rw [hcredit.amount, credit_eq]
    generalize (budget - now).toNat / (now - i.cyc).toNat * (now - i.cyc).toNat = skip at hmul ⊢
    rw [BitVec.sle, decide_eq_false_iff_not, Int.not_le, hperiod,
      BitVec.toInt_eq_toNat_cond] at hroom
    have hleft := BitVec.toNat_sub budget now
    rw [BitVec.toNat_add, BitVec.toNat_ofNat]
    split at hroom <;> omega

/-- After an instruction, only the idle check moves the counter. -/
theorem afterFlow_counts (skip : Bool) {budget : Cycles} {s : RunState σ} (flow : Flow)
    (hbudget : budget.toNat < 0x80000000) (hnow : s.cycles.toNat < 0x80000000) :
    (afterFlow bus skip budget s flow).core = s.core ∧
      s.cycles.toNat ≤ (afterFlow bus skip budget s flow).cycles.toNat ∧
      ((afterFlow bus skip budget s flow).cycles.toNat = s.cycles.toNat ∨
        (afterFlow bus skip budget s flow).cycles.toNat ≤ budget.toNat) := by
  cases flow with
  | next => exact ⟨rfl, Nat.le_refl _, .inl rfl⟩
  | stuck => exact ⟨rfl, Nat.le_refl _, .inl rfl⟩
  | branchBack br =>
    cases skip with
    | false => exact ⟨rfl, Nat.le_refl _, .inl rfl⟩
    | true =>
      refine ⟨rfl, ?_⟩
      have hcycles : (afterFlow bus true budget s (.branchBack br)).cycles =
          s.cycles + (idleLoopCheck bus s.core budget s.cycles s.idle br).2 := rfl
      rw [hcycles]
      rcases credit_le bus s.core s.idle br hbudget hnow with hsame | ⟨hmore, hle⟩
      · exact ⟨Nat.le_of_eq hsame.symm, .inl hsame⟩
      · exact ⟨hmore, .inr hle⟩

theorem round_burn {b : Build} {fuel : Nat} {c : Core σ} (h : (poll bus b c).val = .burn) :
    round bus b fuel c = ⟨none, (poll bus b c).out, (poll bus b c).st⟩ := by
  unfold round
  rw [Act.bind_apply, h]
  dsimp only
  rw [Act.pure_apply, mul_one]

theorem round_execute {b : Build} {fuel : Nat} {c : Core σ} (h : (poll bus b c).val = .execute) :
    round bus b fuel c =
      ⟨some (executeOne bus b fuel (poll bus b c).st).val,
        (poll bus b c).out * (executeOne bus b fuel (poll bus b c).st).out,
        (executeOne bus b fuel (poll bus b c).st).st⟩ := by
  unfold round
  rw [Act.bind_apply, h]
  dsimp only
  rw [Act.bind_apply, Act.pure_apply, mul_one]

/-- From below the budget a round stops at the budget, or goes on past what it costs, and
past the budget only by its own cost. -/
theorem runBody_below {b : Build} {skip : Bool} {fuel : Nat} {budget : Cycles} {s : RunState σ}
    (hfuel : fuel ≤ 0x10000) (hroom : budget.toNat + roundMax b ≤ 0x80000000)
    (hlt : s.cycles.toNat < budget.toNat)
    (hlive : (executeOne bus b fuel (poll bus b s.core).st).val ≠ .stuck) :
    (∃ r, runBody bus b skip fuel budget s = .stop r ∧ r.cycles = budget) ∨
      ∃ s', runBody bus b skip fuel budget s = .go s' ∧
        s.cycles.toNat + (entryCycles bus b s + insnCycles bus b fuel s) ≤ s'.cycles.toNat ∧
        (insnCycles bus b fuel s = 0 →
          s.core.tfm.busy = true ∧ s'.core.tfm.busy = false) ∧
        (s'.cycles.toNat ≤ budget.toNat ∨ s'.cycles.toNat =
          s.cycles.toNat + entryCycles bus b s + insnCycles bus b fuel s) := by
  have hentry := entryCycles_le bus b s
  obtain ⟨hinsn, hfree⟩ := insnCycles_le bus b hfuel s hlive
  have hmax : roundMax b = entryMost + insnMax b := rfl
  have hpos : 0 < insnMax b := by cases b <;> decide
  have hslt : s.cycles.slt budget = true := by
    rw [BitVec.slt, decide_eq_true_eq, BitVec.toInt_eq_toNat_cond, BitVec.toInt_eq_toNat_cond,
      if_pos (by omega), if_pos (by omega)]
    omega
  unfold runBody
  rw [if_pos hslt]
  unfold runRound RunState.perform
  cases hp : (poll bus b s.core).val with
  | burn =>
    rw [round_burn bus hp]
    exact .inl ⟨_, rfl, rfl⟩
  | execute =>
    rw [round_execute bus hp]
    dsimp only
    have hcount : (s.cycles + ((poll bus b s.core).out *
        (executeOne bus b fuel (poll bus b s.core).st).out).cycles).toNat =
          s.cycles.toNat + entryCycles bus b s + insnCycles bus b fuel s := by
      rw [Cost.mul_cycles, BitVec.toNat_add, BitVec.toNat_add]
      unfold entryCycles insnCycles at *
      omega
    obtain ⟨t, ht⟩ : ∃ t : RunState σ, t =
        { s with
          core := (executeOne bus b fuel (poll bus b s.core).st).st
          cycles := s.cycles + ((poll bus b s.core).out *
            (executeOne bus b fuel (poll bus b s.core).st).out).cycles
          trace := s.trace ++ ((poll bus b s.core).out *
            (executeOne bus b fuel (poll bus b s.core).st).out).trace } := ⟨_, rfl⟩
    have hcore : t.core = (executeOne bus b fuel (poll bus b s.core).st).st := congrArg _ ht
    have hcycles : t.cycles.toNat =
        s.cycles.toNat + entryCycles bus b s + insnCycles bus b fuel s :=
      (congrArg (fun t => t.cycles.toNat) ht).trans hcount
    rw [← ht]
    generalize (executeOne bus b fuel (poll bus b s.core).st).val = flow at hlive
    obtain ⟨hsame, hmore, hpast⟩ :=
      @afterFlow_counts σ bus skip budget t flow (by omega) (by omega)
    refine .inr ⟨afterFlow bus skip budget t flow, ?_, by omega, fun hzero => ?_, by omega⟩
    · cases flow with
      | stuck => exact absurd rfl hlive
      | next => rfl
      | branchBack br => rfl
    · rw [hsame, hcore]
      exact hfree hzero

/-! ## The call -/

/-- How a call ends: at the budget, or past it by an interrupt entry and an instruction that
started below it, neither of which adds more than its most. -/
structure Respects (b : Build) (skip : Bool) (fuel : Nat) (budget : Cycles) (s₀ r : RunState σ) :
    Prop where
  reached : budget.toNat ≤ r.cycles.toNat
  overshoot : r.cycles.toNat = budget.toNat ∨ ∃ s,
    Reaches (runBody bus b skip fuel budget) s₀ s ∧ s.cycles.toNat < budget.toNat ∧
      entryCycles bus b s ≤ entryMost ∧ insnCycles bus b fuel s ≤ insnMax b ∧
      r.cycles.toNat = s.cycles.toNat + entryCycles bus b s + insnCycles bus b fuel s

/-- What a round makes less: the cycles left, and whether a transfer is part-way through. -/
def remaining (budget : Cycles) (s : RunState σ) : Nat :=
  2 * (budget.toNat - s.cycles.toNat) + s.core.tfm.busy.toNat

theorem run_ends {b : Build} {skip : Bool} {fuel : Nat} {budget : Cycles} {s₀ : RunState σ}
    (hfuel : fuel ≤ 0x10000) (hroom : budget.toNat + roundMax b ≤ 0x80000000)
    (hlive : ∀ s, Reaches (runBody bus b skip fuel budget) s₀ s →
      (executeOne bus b fuel (poll bus b s.core).st).val ≠ .stuck)
    {s : RunState σ} (hreach : Reaches (runBody bus b skip fuel budget) s₀ s)
    (hs : s.cycles.toNat < budget.toNat ∨ Respects bus b skip fuel budget s₀ s) :
    ∃ r, Returns (runBody bus b skip fuel budget) s r ∧ Respects bus b skip fuel budget s₀ r := by
  generalize hm : remaining budget s = m
  induction m using Nat.strongRecOn generalizing s with
  | ind m ih =>
    rcases hs with hlt | hend
    · rcases runBody_below bus hfuel hroom hlt (hlive s hreach) with
        ⟨r, hstop, hat⟩ | ⟨s', hgo, hgrow, hfree, hpast⟩
      · have hcycles : r.cycles.toNat = budget.toNat := congrArg BitVec.toNat hat
        exact ⟨r, .of_stop hstop, Nat.le_of_eq hcycles.symm, .inl hcycles⟩
      · have hreach' := hreach.tail hgo
        have hless : remaining budget s' < m := by
          have hbusy := s'.core.tfm.busy.toNat_le
          rw [← hm]
          unfold remaining
          by_cases hzero : insnCycles bus b fuel s = 0
          · obtain ⟨hwas, hnow⟩ := hfree hzero
            rw [hwas, hnow, Bool.toNat_true, Bool.toNat_false]
            omega
          · omega
        have hs' : s'.cycles.toNat < budget.toNat ∨ Respects bus b skip fuel budget s₀ s' := by
          by_cases hbelow : s'.cycles.toNat < budget.toNat
          · exact .inl hbelow
          · refine .inr ⟨by omega, ?_⟩
            rcases hpast with hle | hcount
            · exact .inl (by omega)
            · exact .inr ⟨s, hreach, hlt, entryCycles_le bus b s,
                (insnCycles_le bus b hfuel s (hlive s hreach)).1, hcount⟩
        obtain ⟨r, hret, hr⟩ := ih _ hless hreach' hs' rfl
        exact ⟨r, .of_go hgo hret, hr⟩
    · have hstop : runBody bus b skip fuel budget s = .stop s := by
        have hsmall : s.cycles.toNat < 0x80000000 := by
          have hpos : 0 < insnMax b := by cases b <;> decide
          unfold roundMax at hroom
          rcases hend.overshoot with hat | ⟨s', -, hbelow, hentry, hinsn, hcount⟩
          · omega
          · omega
        have hge := hend.reached
        have hslt : s.cycles.slt budget = false := by
          rw [BitVec.slt, decide_eq_false_iff_not, BitVec.toInt_eq_toNat_cond,
            BitVec.toInt_eq_toNat_cond, if_pos (by omega), if_pos (by omega)]
          omega
        unfold runBody
        rw [hslt]
        rfl
      exact ⟨s, .of_stop hstop, hend⟩

/-- A call of either build returns, at its budget or past it by one round: an interrupt entry of
at most 21 cycles and an instruction of at most `insnMax`.  An instruction that is executed adds
a cycle, unless it is a TFM that goes on with W zero.  The 6309 build asks two things more, since
its prefix loop ends only at a byte that is no prefix: that its bus is a memory, and that one such
byte is left in it at every round of the call. -/
theorem run_budget (c : Core σ) (budget : Cycles) (hattached : bus.attached = true)
    (hpos : 0 < budget.toNat) :
    (budget.toNat + roundMax .mc6809 ≤ 0x80000000 →
      ∃ n r, mc6809Run bus 0x10000 n budget c = some r ∧
        Respects bus .mc6809 false 0x10000 budget (.start c none) r) ∧
    (∀ skip rej view, budget.toNat + roundMax .hd6309 ≤ 0x80000000 → IsMemory bus view →
      (∀ s, Reaches (runBody bus .hd6309 skip 0x10000 budget) (.start c rej) s →
        ∃ a, isPrefix (view (poll bus .hd6309 s.core).st.env a) = false) →
      ∃ n r, hd6309Run bus skip rej 0x10000 n budget c = some r ∧
        Respects bus .hd6309 skip 0x10000 budget (.start c rej) r) ∧
    ∀ b c', (executeOne bus b 0x10000 c').val ≠ .stuck → ¬(Resumes c' ∧ c'.regs.w = 0) →
      1 ≤ (executeOne bus b 0x10000 c').out.cycles.toNat ∧
        (executeOne bus b 0x10000 c').out.cycles.toNat ≤ insnMax b := by
  refine ⟨fun hroom => ?_, fun skip rej view hroom hmem hprefix => ?_, fun b c' hflow hfree => ?_⟩
  · obtain ⟨r, ⟨n, hn⟩, hr⟩ := @run_ends σ bus .mc6809 false 0x10000 budget (.start c none)
      (Nat.le_refl _) hroom (fun _ _ => executeOne_reached bus nofun) _ .refl (.inl hpos)
    refine ⟨n, r, ?_, hr⟩
    rw [mc6809Run, if_pos hattached]
    exact hn
  · obtain ⟨r, ⟨n, hn⟩, hr⟩ := @run_ends σ bus .hd6309 skip 0x10000 budget (.start c rej)
      (Nat.le_refl _) hroom
      (fun s hs => executeOne_reached bus fun _ => ⟨view, hmem, hprefix s hs⟩) _ .refl (.inl hpos)
    refine ⟨n, r, ?_, hr⟩
    rw [hd6309Run, if_pos hattached]
    exact hn
  · obtain ⟨n, hmax, hcost, hzero⟩ := executeOne_counts bus b (Nat.le_refl _) c' hflow
    have hsmall : insnMax b < 0x20000 := by cases b <;> decide
    have hn : (executeOne bus b 0x10000 c').out.cycles.toNat = n := by
      rw [hcost, BitVec.toNat_ofNat]
      omega
    rw [hn]
    refine ⟨?_, hmax⟩
    by_contra hnone
    obtain ⟨hresumes, hw, -⟩ := hzero (by omega)
    exact hfree ⟨hresumes, hw⟩

/-- A memory of NOPs. -/
def nopBus : Bus Unit := romBus 0 fun _ => 0x12

def nopCore : Core Unit := ⟨{}, {}, ⟨{}, ()⟩⟩

theorem nopBus_memory : IsMemory nopBus fun _ _ => 0x12 := ⟨fun _ _ => rfl, fun _ _ => rfl⟩

theorem run_budget_nops :
    (∃ n r, mc6809Run nopBus 0x10000 n 100 nopCore = some r ∧
      Respects nopBus .mc6809 false 0x10000 100 (.start nopCore none) r) ∧
    (∃ n r, hd6309Run nopBus true none 0x10000 n 100 nopCore = some r ∧
      Respects nopBus .hd6309 true 0x10000 100 (.start nopCore none) r) ∧
    1 ≤ (executeOne nopBus .hd6309 0x10000 nopCore).out.cycles.toNat := by
  obtain ⟨h6809, h6309, hinsn⟩ := run_budget nopBus nopCore 100 rfl (by decide)
  have hfree : ¬(Resumes nopCore ∧ nopCore.regs.w = 0) := by decide
  exact ⟨h6809 (by decide), h6309 true none _ (by decide) nopBus_memory fun _ _ => ⟨0, rfl⟩,
    (hinsn .hd6309 nopCore nofun hfree).1⟩

/-! ## Where a call does not return, or adds nothing -/

/-- A NOP adds two cycles. -/
theorem runBody_nop {fuel : Nat} {budget : Cycles} {p : Word} {k : Cycles} {t : List Access}
    {i : Idle} (h : k.slt budget = true) :
    ∃ t', runBody nopBus .mc6809 false fuel budget ⟨⟨{ pc := p }, {}, ⟨{}, ()⟩⟩, k, t, i⟩ =
      .go ⟨⟨{ pc := p + 1 }, {}, ⟨{}, ()⟩⟩, k + 2, t', i⟩ := by
  have hfetch : fetch8 nopBus ⟨{ pc := p }, {}, ⟨{}, ()⟩⟩ =
      ⟨0x12, ⟨0, [.busRead p 0x12]⟩, ⟨{ pc := p + 1 }, {}, ⟨{}, ()⟩⟩⟩ := rfl
  have hop : page1.get 0x12 = some (.insn .nop) := rfl
  have hround : round nopBus .mc6809 fuel ⟨{ pc := p }, {}, ⟨{}, ()⟩⟩ =
      ⟨some .next, ⟨2, [.busRead p 0x12]⟩, ⟨{ pc := p + 1 }, {}, ⟨{}, ()⟩⟩⟩ := by
    rw [@round_execute Unit nopBus .mc6809 fuel ⟨{ pc := p }, {}, ⟨{}, ()⟩⟩ rfl]
    have hpoll : poll nopBus .mc6809 ⟨{ pc := p }, {}, ⟨{}, ()⟩⟩ =
        ⟨.execute, 1, ⟨{ pc := p }, {}, ⟨{}, ()⟩⟩⟩ := rfl
    rw [hpoll]
    unfold executeOne
    rw [Act.bind_apply, hfetch]
    dsimp only
    unfold executeOp
    rw [hop]
    rfl
  unfold runBody
  rw [if_pos h]
  unfold runRound RunState.perform
  dsimp only
  rw [hround]
  exact ⟨_, rfl⟩

/-- Two by two the counter never meets the largest odd budget. -/
theorem nops_never_return (fuel n : Nat) {p : Word} {k : Cycles} {t : List Access} {i : Idle}
    (h : k.toNat % 2 = 0) :
    loop (runBody nopBus .mc6809 false fuel 0x7FFFFFFF) n ⟨⟨{ pc := p }, {}, ⟨{}, ()⟩⟩, k, t, i⟩ =
      none := by
  induction n generalizing p k t with
  | zero => rfl
  | succ n ih =>
    have hslt : k.slt 0x7FFFFFFF = true := by
      have hk := k.isLt
      rw [BitVec.slt, decide_eq_true_eq, BitVec.toInt_eq_toNat_cond]
      have hbudget : (0x7FFFFFFF : Cycles).toInt = 0x7FFFFFFF := rfl
      rw [hbudget]
      split <;> omega
    obtain ⟨t', hgo⟩ := @runBody_nop fuel 0x7FFFFFFF p k t i hslt
    rw [loop_go hgo]
    refine ih ?_
    rw [BitVec.toNat_add]
    have htwo : (2 : Cycles).toNat = 2 := rfl
    omega

/-- `STA $1010` at `$1010`, with a prefix byte in A; the rest of memory is prefix bytes. -/
def overwriting : Core (Nat → Byte) :=
  ⟨{ pc := 0x1010, d := 0x1000 }, {}, ⟨{}, fun p => if p = 0x1010 then 0xB7 else 0x10⟩⟩

theorem skipPrefixes_endless {view : Env σ → Word → Byte} (hmem : IsMemory bus view) {c : Core σ}
    (h : ∀ a, isPrefix (view c.env a) = true) (n : Nat) {op : Byte} (hop : isPrefix op = true) :
    (skipPrefixes bus n op c).val = none := by
  induction n generalizing op c with
  | zero =>
    unfold skipPrefixes
    rw [hop]
    rfl
  | succ n ih =>
    obtain ⟨hval, hview⟩ := fetch8_memory hmem c
    unfold skipPrefixes
    rw [hop, if_pos rfl]
    refine ih (c := (fetch8 bus c).st) (by rw [hview]; exact h) ?_
    rw [hval]
    exact h _

theorem overwriting_never_returns (fuel n : Nat) :
    loop (runBody (ramBus 0) .hd6309 false fuel 100) n (.start overwriting none) = none := by
  let c : Core (Nat → Byte) :=
    ⟨{ pc := 0x1013, d := 0x1000 }, {}, ⟨{}, poke overwriting.env.host 0x1010 0x10⟩⟩
  have hmem : IsMemory (ramBus 0) fun e a => e.host a.toNat := ⟨fun _ _ => rfl, fun _ _ => rfl⟩
  have hall (a : Word) : c.env.host a.toNat = 0x10 := by
    show (if _ then (0x10 : Byte) else if _ then 0xB7 else 0x10) = 0x10
    split
    · rfl
    · rfl
  obtain ⟨t, hgo⟩ : ∃ t, runBody (ramBus 0) .hd6309 false fuel 100 (.start overwriting none) =
      .go ⟨c, 5, t, {}⟩ := ⟨_, rfl⟩
  have hstuck : runBody (ramBus 0) .hd6309 false fuel 100 ⟨c, 5, t, {}⟩ = .stuck := by
    have hnone : (prefixed (ramBus 0) .hd6309 fuel (fetch8 (ramBus 0) c).st).val = none := by
      refine skipPrefixes_endless (ramBus 0) hmem (c := (fetch8 (ramBus 0)
        (fetch8 (ramBus 0) c).st).st) (fun a => ?_) fuel ?_
      · exact congrArg isPrefix (hall a)
      · exact congrArg isPrefix (hall 0x1014)
    have hexec : (executeOne (ramBus 0) .hd6309 fuel c).val = .stuck := by
      have hop : (fetch8 (ramBus 0) c).val = 0x10 := rfl
      have hpage : page1.get 0x10 = some .page2 := rfl
      unfold executeOne
      rw [Act.bind_val, hop]
      unfold executeOp
      rw [hpage]
      dsimp only
      rw [Act.bind_val, hnone]
      rfl
    have hbelow : (5 : Cycles).slt 100 = true := rfl
    unfold runBody
    rw [if_pos hbelow]
    unfold runRound RunState.perform
    rw [@round_execute _ (ramBus 0) .hd6309 fuel c rfl]
    dsimp only
    have hpoll : (poll (ramBus 0) .hd6309 c).st = c := rfl
    rw [hpoll, hexec]
  cases n with
  | zero => rfl
  | succ n =>
    rw [loop_go hgo]
    exact loop_stuck hstuck n

/-- A TFM whose transfer is marked as part-way through, with nothing left to move. -/
def nothingLeft : Core (Nat → Byte) :=
  ⟨{}, ⟨true, 0⟩, ⟨{}, ramWith 0 [0x11, 0x38, 0x12]⟩⟩

/-- Two memories with bytes that are no prefixes and positive budgets, for which a call never
returns; an instruction that adds nothing; and a call without callbacks. -/
theorem run_budget_fails :
    (∀ fuel n, mc6809Run nopBus fuel n 0x7FFFFFFF nopCore = none) ∧
    (∀ fuel n, hd6309Run (ramBus 0) false none fuel n 100 overwriting = none) ∧
    ((executeOne (ramBus 0) .hd6309 0 nothingLeft).val = .next ∧
      (executeOne (ramBus 0) .hd6309 0 nothingLeft).out.cycles = 0) ∧
    (mc6809Run { nopBus with attached := false } 0 0 100 nopCore).map (·.cycles) = some 0 := by
  refine ⟨fun fuel n => ?_, fun fuel n => ?_, ⟨rfl, rfl⟩, rfl⟩
  · exact @nops_never_return fuel n 0 0 [] {} rfl
  · exact overwriting_never_returns fuel n

end CocoEmulator.Cpu
