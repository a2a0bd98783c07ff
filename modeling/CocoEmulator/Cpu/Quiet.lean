/-
  Cpu/Quiet.lean --- what the poll leaves behind when the lines stand still.

  On a bus whose callbacks do not move the interrupt lines, an executed poll
  leaves nothing to service: whatever `check_interrupts` enters masks itself and
  everything below it.  A short branch changes neither the masks nor the wait
  state, so the state behind one is quiet:

      poll_quiet            after a poll that goes on to execute
      branchBack_quiet      after the round of a short branch back

  The lemmas below follow one program after the other with `Act.Keeps`.
-/
import CocoEmulator.Cpu.IdleLoop

set_option autoImplicit false

namespace CocoEmulator.Cpu

open CocoEmulator.Base

variable {σ : Type} {bus : Bus σ}

/-- The callbacks leave the interrupt lines alone. -/
structure LinesConstant (bus : Bus σ) : Prop where
  read : ∀ addr e, (bus.read addr e).2.pins = e.pins
  write : ∀ addr v e, (bus.write addr v e).pins = e.pins

/-! ## Programs that keep the lines and the masks -/

/-- The lines, whether NMI is armed, and the F mask. -/
def Lines (p : Pins) (armed f : Bool) (c : Core σ) : Prop :=
  c.env.pins = p ∧ c.regs.nmiArmed = armed ∧ ccTst flagF c.regs.cc = f

section
variable {p : Pins} {armed f : Bool} (hl : LinesConstant bus)
include hl

theorem memRead_pins (addr : Word) (c : Core σ) :
    (memRead bus addr c).st.regs = c.regs ∧ (memRead bus addr c).st.tfm = c.tfm ∧
      (memRead bus addr c).st.env.pins = c.env.pins := by
  unfold memRead
  cases bus.readSlot c.env.host addr with
  | some q => exact ⟨rfl, rfl, rfl⟩
  | none => exact ⟨rfl, rfl, hl.read addr c.env⟩

theorem memWrite_pins (addr : Word) (v : Byte) (c : Core σ) :
    (memWrite bus addr v c).st.regs = c.regs ∧
      (memWrite bus addr v c).st.env.pins = c.env.pins := by
  unfold memWrite
  cases bus.writeSlot c.env.host addr with
  | some q => exact ⟨rfl, rfl⟩
  | none => exact ⟨rfl, hl.write addr v c.env⟩

theorem memWrite_lines (addr : Word) (v : Byte) :
    Act.Keeps (Lines p armed f) (memWrite bus addr v) := by
  intro c h
  obtain ⟨hregs, hpins⟩ := memWrite_pins hl addr v c
  unfold Lines
  rw [hregs, hpins]
  exact h

end

theorem setRegs_lines {p : Pins} {armed f : Bool} {g : Regs → Regs}
    (harmed : ∀ r, (g r).nmiArmed = r.nmiArmed)
    (hf : ∀ r, ccTst flagF (g r).cc = ccTst flagF r.cc) :
    Act.Keeps (Lines p armed f) (setRegs g : M σ Unit) := by
  intro c h
  exact ⟨h.1, (harmed _).trans h.2.1, (hf _).trans h.2.2⟩

theorem regs_lines {p : Pins} {armed f : Bool} :
    Act.Keeps (Lines p armed f) (regs : M σ Regs) :=
  Act.Keeps.gets _

theorem tick_lines {p : Pins} {armed f : Bool} (n : Cycles) :
    Act.Keeps (Lines p armed f) (tick n : M σ Unit) :=
  Act.Keeps.emit _

theorem ccSet_mask {f m cc : Byte} (h : f &&& m = 0) : ccTst f (ccSet m cc) = ccTst f cc := by
  have hmask : putFlags m m cc &&& f = cc &&& f := by
    unfold putFlags
    ext i hi
    have e := congrArg (fun w : Byte => w[i]) h
    simp at e ⊢
    grind
  rw [ccSet, ccTst, ccTst, hmask]

theorem setCc_lines {p : Pins} {armed f : Bool} {m : Byte} (h : flagF &&& m = 0) :
    Act.Keeps (Lines p armed f) (setCc m : M σ Unit) :=
  setRegs_lines (fun _ => rfl) fun _ => ccSet_mask h

section
variable {p : Pins} {armed f : Bool} (hl : LinesConstant bus)
include hl

theorem push8_lines (st : Stack) (v : Byte) :
    Act.Keeps (Lines p armed f) (push8 bus st v) := by
  refine .bind (setRegs_lines (fun r => ?_) fun r => ?_) fun _ =>
    .bind regs_lines fun _ => memWrite_lines hl _ _
  · cases st <;> rfl
  · cases st <;> rfl

theorem push16_lines (st : Stack) (v : Word) :
    Act.Keeps (Lines p armed f) (push16 bus st v) :=
  .bind (push8_lines hl st _) fun _ => push8_lines hl st _

theorem pushEf_lines (b : Build) : Act.Keeps (Lines p armed f) (pushEf bus b) :=
  .bind regs_lines fun _ => .guarded <|
    .bind (push8_lines hl .s _) fun _ => .bind (push8_lines hl .s _) fun _ => tick_lines _

theorem pushEntire_lines (b : Build) : Act.Keeps (Lines p armed f) (pushEntire bus b) :=
  .bind regs_lines fun _ =>
    .bind (push16_lines hl .s _) fun _ => .bind (push16_lines hl .s _) fun _ =>
    .bind (push16_lines hl .s _) fun _ => .bind (push16_lines hl .s _) fun _ =>
    .bind (push8_lines hl .s _) fun _ => .bind (pushEf_lines hl b) fun _ =>
    .bind (push8_lines hl .s _) fun _ => .bind (push8_lines hl .s _) fun _ =>
    push8_lines hl .s _

theorem stackEntire_lines (b : Build) : Act.Keeps (Lines p armed f) (stackEntire bus b) := by
  refine .bind regs_lines fun r => ?_
  split
  · exact tick_lines _
  · exact .bind (setCc_lines rfl) fun _ => .bind (pushEntire_lines hl b) fun _ => tick_lines _

theorem stackFirq_lines (b : Build) : Act.Keeps (Lines p armed f) (stackFirq bus b) := by
  refine .bind regs_lines fun r => ?_
  split
  · exact tick_lines _
  · split
    · exact .bind (setCc_lines rfl) fun _ => .bind (pushEntire_lines hl b) fun _ => tick_lines _
    · refine .bind (setRegs_lines (fun _ => rfl) fun r => ?_) fun _ =>
        .bind (push16_lines hl .s _) fun _ => .bind regs_lines fun _ =>
        .bind (push8_lines hl .s _) fun _ => tick_lines _
      exact @ccTst_same flagF flagE _ _ (by
        unfold Regs.mapCc ccClr putFlags
        ext i hi
        simp) rfl

end

theorem irqEntry_lines {p : Pins} {armed f : Bool} (b : Build) :
    Act.Keeps (Lines p armed f) (irqEntry b : M σ Unit) :=
  .guarded (.modify fun _ h => h)

/-! ## Interrupt entry -/

theorem ccTst_ccSet {f m : Byte} (h : f &&& ~~~m = 0) (hf : f ≠ 0) (cc : Byte) :
    ccTst f (ccSet m cc) = true := by
  have hmask : putFlags m m cc &&& f = f := by
    unfold putFlags
    ext i hi
    have e := congrArg (fun w : Byte => w[i]) h
    simp at e ⊢
    grind
  rw [ccSet, ccTst, hmask]
  simpa using hf

/-- Entering a handler masks, leaves the wait state and keeps the rest. -/
theorem enterHandler_spec (hl : LinesConstant bus) (mask : Byte) (vec : Word) (c : Core σ) :
    (enterHandler bus mask vec c).st.env.pins = c.env.pins ∧
      (enterHandler bus mask vec c).st.regs.nmiArmed = c.regs.nmiArmed ∧
      (enterHandler bus mask vec c).st.regs.cc = ccSet mask c.regs.cc ∧
      (enterHandler bus mask vec c).st.regs.waitForInterrupt = false := by
  let c₀ : Core σ := { c with regs := c.regs.mapCc (ccSet mask) }
  obtain ⟨hregs, -, hpins⟩ := memRead_pins hl vec c₀
  obtain ⟨hregs', -, hpins'⟩ := memRead_pins hl (vec + 1) (memRead bus vec c₀).st
  have hpins₂ : (memRead16 bus vec c₀).st.env.pins = c.env.pins := hpins'.trans hpins
  have hregs₂ : (memRead16 bus vec c₀).st.regs = c₀.regs := hregs'.trans hregs
  refine ⟨hpins₂, ?_, ?_, rfl⟩
  · show (memRead16 bus vec c₀).st.regs.nmiArmed = _
    rw [hregs₂]
    rfl
  · show (memRead16 bus vec c₀).st.regs.cc = _
    rw [hregs₂]
    rfl

/-- A state with these lines, masks and wait state has nothing to service. -/
theorem Quiet.of_masked {c : Core σ} (hrun : c.env.pins.halted = false)
    (hwait : c.regs.waitForInterrupt = false)
    (hnmi : (c.env.pins.nmiPending && c.regs.nmiArmed) = false)
    (hfirq : (c.env.pins.firqPending && !ccTst flagF c.regs.cc) = false)
    (hirq : ccTst flagI c.regs.cc = true) : Quiet c := by
  refine ⟨hrun, hwait, ?_⟩
  simp [pendingService, hnmi, hfirq, hirq]

/-- An interrupt is taken only when none above it is. -/
theorem pendingService_order {r : Regs} {p : Pins} {sv : Service}
    (h : pendingService r p = some sv) :
    (sv ≠ .nmi → (p.nmiPending && r.nmiArmed) = false) ∧
      (sv = .irq → (p.firqPending && !ccTst flagF r.cc) = false) := by
  unfold pendingService at h
  split at h
  · cases h
    exact ⟨fun hne => absurd rfl hne, nofun⟩
  · rename_i hnmi
    split at h
    · cases h
      exact ⟨fun _ => by simpa using hnmi, nofun⟩
    · rename_i hfirq
      exact ⟨fun _ => by simpa using hnmi, fun _ => by simpa using hfirq⟩

/-- Whatever is serviced leaves nothing to service. -/
theorem service_quiet (hl : LinesConstant bus) {c : Core σ} {sv : Service}
    (hrun : c.env.pins.halted = false) (hp : pendingService c.regs c.env.pins = some sv) :
    Quiet (service bus .hd6309 sv c).st := by
  have hF : ∀ cc, ccTst flagF (ccSet (flagI ||| flagF) cc) = true :=
    fun cc => ccTst_ccSet (by decide) (by decide) cc
  have hI : ∀ cc, ccTst flagI (ccSet (flagI ||| flagF) cc) = true :=
    fun cc => ccTst_ccSet (by decide) (by decide) cc
  cases sv with
  | nmi =>
    let p' : Pins := { c.env.pins with nmiPending := false, nmiLine := false }
    let c₀ : Core σ := { c with env := { c.env with pins := p' } }
    have h₀ : Lines p' c.regs.nmiArmed (ccTst flagF c.regs.cc) c₀ := ⟨rfl, rfl, rfl⟩
    have h₁ := stackEntire_lines hl .hd6309 _ (irqEntry_lines .hd6309 _ h₀)
    obtain ⟨hpins, harmed, hcc, hwait⟩ := enterHandler_spec hl (flagI ||| flagF) 0xFFFC
      (stackEntire bus .hd6309 (irqEntry .hd6309 c₀).st).st
    have hpins' := hpins.trans h₁.1
    refine Quiet.of_masked ?_ hwait ?_ ?_ ?_
    · exact (congrArg Pins.halted hpins').trans hrun
    · exact Bool.and_eq_false_iff.mpr (.inl (congrArg Pins.nmiPending hpins'))
    · exact Bool.and_eq_false_iff.mpr (.inr (by
        rw [Bool.not_eq_false']
        exact (congrArg (ccTst flagF) hcc).trans (hF _)))
    · exact (congrArg (ccTst flagI) hcc).trans (hI _)
  | firq =>
    have hnmi := (pendingService_order hp).1 (by simp)
    have h₀ : Lines c.env.pins c.regs.nmiArmed (ccTst flagF c.regs.cc) c := ⟨rfl, rfl, rfl⟩
    have h₁ := stackFirq_lines hl .hd6309 _ (irqEntry_lines .hd6309 _ h₀)
    obtain ⟨hpins, harmed, hcc, hwait⟩ := enterHandler_spec hl (flagI ||| flagF) 0xFFF6
      (stackFirq bus .hd6309 (irqEntry .hd6309 c).st).st
    have hpins' := hpins.trans h₁.1
    have harmed' := harmed.trans h₁.2.1
    refine Quiet.of_masked ?_ hwait ?_ ?_ ?_
    · exact (congrArg Pins.halted hpins').trans hrun
    · exact (congrArg₂ (fun q n => Pins.nmiPending q && n) hpins' harmed').trans hnmi
    · exact Bool.and_eq_false_iff.mpr (.inr (by
        rw [Bool.not_eq_false']
        exact (congrArg (ccTst flagF) hcc).trans (hF _)))
    · exact (congrArg (ccTst flagI) hcc).trans (hI _)
  | irq =>
    obtain ⟨hnmi, hfirq⟩ := pendingService_order hp
    have h₀ : Lines c.env.pins c.regs.nmiArmed (ccTst flagF c.regs.cc) c := ⟨rfl, rfl, rfl⟩
    have h₁ := stackEntire_lines hl .hd6309 _ (irqEntry_lines .hd6309 _ h₀)
    obtain ⟨hpins, harmed, hcc, hwait⟩ := enterHandler_spec hl flagI 0xFFF8
      (stackEntire bus .hd6309 (irqEntry .hd6309 c).st).st
    have hpins' := hpins.trans h₁.1
    have harmed' := harmed.trans h₁.2.1
    have hf : ccTst flagF (service bus .hd6309 .irq c).st.regs.cc = ccTst flagF c.regs.cc := by
      refine (congrArg (ccTst flagF) hcc).trans ((ccSet_mask (by decide)).trans h₁.2.2)
    refine Quiet.of_masked ?_ hwait ?_ ?_ ?_
    · exact (congrArg Pins.halted hpins').trans hrun
    · exact (congrArg₂ (fun q n => Pins.nmiPending q && n) hpins' harmed').trans
        (hnmi (by simp))
    · exact (congrArg₂ (fun q n => Pins.firqPending q && !n) hpins' hf).trans (hfirq rfl)
    · exact (congrArg (ccTst flagI) hcc).trans (ccTst_ccSet (by decide) (by decide) _)

variable (bus) in
/-- A pending interrupt is serviced; without one the poll looks at the wait state. -/
theorem pollAll_running {c : Core σ} (hrun : c.env.pins.halted = false) :
    ∃ out, pollAll bus .hd6309 c =
      let c' := (checkInterrupts bus .hd6309 c).st
      if c'.regs.waitForInterrupt = true then
        if (!c'.regs.cwaiState && (c'.env.pins.irqPending || c'.env.pins.firqPending)) = true then
          ⟨.execute, out, { c' with regs := { c'.regs with waitForInterrupt := false } }⟩
        else ⟨.burn, out, c'⟩
      else ⟨.execute, out, c'⟩ := by
  refine ⟨(checkInterrupts bus .hd6309 c).out, ?_⟩
  unfold pollAll getPins regs
  rw [Act.gets_bind, hrun, Act.ite_apply, if_neg (by simp), Act.bind_apply, Act.gets_bind,
    Act.gets_bind, Act.ite_apply]
  generalize checkInterrupts bus .hd6309 c = o
  by_cases hw : o.st.regs.waitForInterrupt = true
  · rw [if_pos hw, if_pos hw, Act.ite_apply]
    by_cases hk : (!o.st.regs.cwaiState && (o.st.env.pins.irqPending ||
        o.st.env.pins.firqPending)) = true
    · rw [if_pos hk, if_pos hk, setRegs, Act.modify_bind, Act.pure_apply, mul_one]
    · rw [if_neg hk, if_neg hk, Act.pure_apply, mul_one]
  · rw [if_neg hw, if_neg hw, Act.pure_apply, mul_one]

/-- Servicing what is pending, if anything is. -/
theorem checkInterrupts_st (b : Build) (c : Core σ) :
    (checkInterrupts bus b c).st =
      match pendingService c.regs c.env.pins with
      | some sv => (service bus b sv c).st
      | none => c := by
  unfold checkInterrupts regs getPins
  rw [Act.gets_bind, Act.gets_bind]
  cases pendingService c.regs c.env.pins <;> rfl

/-- After a poll that goes on to execute there is nothing to service. -/
theorem poll_quiet (hl : LinesConstant bus) {c : Core σ}
    (h : (poll bus .hd6309 c).val = .execute) : Quiet (poll bus .hd6309 c).st := by
  rw [poll_hd6309] at h ⊢
  by_cases hg : pollGuard c = true
  · rw [if_pos hg] at h ⊢
    cases hrun : c.env.pins.halted with
    | true =>
      have hburn : pollAll bus .hd6309 c = ⟨.burn, 1, c⟩ := by
        unfold pollAll getPins
        rw [Act.gets_bind, hrun, Act.ite_apply, if_pos rfl]
        rfl
      rw [hburn] at h
      cases h
    | false =>
      obtain ⟨out, hall⟩ := pollAll_running bus hrun
      have hst : (checkInterrupts bus .hd6309 c).st = _ := checkInterrupts_st .hd6309 c
      cases hp : pendingService c.regs c.env.pins with
      | some sv =>
        rw [hp] at hst
        have hq := service_quiet hl hrun hp
        simp only [hall, hst, hq.awake, Bool.false_eq_true, if_false]
        exact hq
      | none =>
        rw [hp] at hst
        rw [hall, hst] at h ⊢
        dsimp only at h ⊢
        by_cases hw : c.regs.waitForInterrupt = true
        · rw [if_pos hw] at h ⊢
          split at h
          · rename_i hk
            rw [if_pos hk]
            exact ⟨hrun, rfl, hp⟩
          · cases h
        · rw [if_neg hw]
          exact ⟨hrun, by simpa using hw, hp⟩
  · rw [if_neg hg]
    simp only [pollGuard, Bool.or_eq_true, not_or, Bool.not_eq_true] at hg
    obtain ⟨⟨⟨⟨hrun, hw⟩, hnmi⟩, hfirq⟩, hirq⟩ := hg
    exact ⟨hrun, hw, by simp [pendingService, hnmi, hfirq, hirq]⟩

/-! ## Short branches -/

theorem fetch8_pins (hl : LinesConstant bus) (c : Core σ) :
    ∃ env, (fetch8 bus c).st = { c with regs := { c.regs with pc := c.regs.pc + 1 }, env := env } ∧
      env.pins = c.env.pins := by
  let c₁ : Core σ := { c with regs := { c.regs with pc := c.regs.pc + 1 } }
  have hst : (fetch8 bus c).st = (memRead bus c.regs.pc c₁).st := rfl
  obtain ⟨hregs, htfm, hpins⟩ := memRead_pins hl c.regs.pc c₁
  refine ⟨(memRead bus c.regs.pc c₁).st.env, ?_, hpins⟩
  rw [hst]
  generalize (memRead bus c.regs.pc c₁).st = c₂ at hregs htfm
  cases c₂
  simp only at hregs htfm
  rw [hregs, htfm]

theorem afterPrefix_flow (k : Byte → M σ Unit) (op : Option Byte) (c : Core σ) (br : Word) :
    (afterPrefix k op c).val ≠ .branchBack br := by
  cases op with
  | none => exact nofun
  | some op => exact fun h => Flow.noConfusion (show Flow.next = .branchBack br from h)

/-- Only a short branch ends with `branchBack`; it moves PC and keeps the lines. -/
theorem branchBack_spec (hl : LinesConstant bus) {c : Core σ} {fuel : Nat} {br : Word}
    (h : (executeOne bus .hd6309 fuel c).val = .branchBack br) :
    ∃ pc env, (executeOne bus .hd6309 fuel c).st =
        { c with regs := { c.regs with pc := pc }, env := env } ∧
      env.pins = c.env.pins := by
  unfold executeOne at h ⊢
  rw [Act.bind_val] at h
  rw [Act.bind_st]
  obtain ⟨env₁, hst₁, hpins₁⟩ := fetch8_pins hl c
  generalize (fetch8 bus c).val = opcode at h ⊢
  rw [hst₁] at h ⊢
  unfold executeOp at h ⊢
  cases hentry : page1.get opcode with
  | none =>
    rw [hentry] at h
    cases h
  | some e =>
    rw [hentry] at h
    cases e with
    | insn i => cases h
    | page2 => exact absurd h (afterPrefix_flow _ _ _ _)
    | page3 => exact absurd h (afterPrefix_flow _ _ _ _)
    | branch cond =>
      let c₁ : Core σ := { c with regs := { c.regs with pc := c.regs.pc + 1 }, env := env₁ }
      obtain ⟨env₂, hst₂, hpins₂⟩ := fetch8_pins hl c₁
      obtain ⟨flow, pc, -, hend⟩ := branchOn_spec cond (fetch8 bus c₁).val (fetch8 bus c₁).st
      refine ⟨pc, env₂, ?_, hpins₂.trans hpins₁⟩
      show (branchOn cond (fetch8 bus c₁).val (fetch8 bus c₁).st).st = _
      rw [hend, hst₂]

/-- The state behind a short branch back is quiet. -/
theorem branchBack_quiet (hl : LinesConstant bus) {c : Core σ} {fuel : Nat} {br : Word}
    (h : (round bus .hd6309 fuel c).val = some (.branchBack br)) :
    Quiet (round bus .hd6309 fuel c).st := by
  cases hp : (poll bus .hd6309 c).val with
  | burn =>
    unfold round at h
    rw [Act.bind_val, hp] at h
    cases h
  | execute =>
    have hq := poll_quiet hl hp
    unfold round at h ⊢
    rw [Act.bind_val, hp] at h
    rw [Act.bind_st, hp]
    have hval : (executeOne bus .hd6309 fuel (poll bus .hd6309 c).st).val = .branchBack br :=
      Option.some.inj h
    obtain ⟨pc, env, hst, hpins⟩ := branchBack_spec hl hval
    show Quiet (executeOne bus .hd6309 fuel (poll bus .hd6309 c).st).st
    rw [hst]
    exact hq.of_eq hpins rfl rfl rfl rfl

end CocoEmulator.Cpu
