/-
  Cpu/IdleLoop.lean --- one pass over an idle loop.

  `idleBody` decodes the body the idle check has accepted, and `idleLoopOk_spec`
  says that it is admitted code from `top` to a short branch at `br` back to
  `top`.  A pass is then a run of rounds, one for each body instruction and one
  for the branch:

      rounds_body          what the rounds of a body do
      pass_again           if a pass without bus callbacks led from `last` to
                           `now`, and the registers the body reads first were the
                           same, another pass leads from `now` back to `now`, at
                           the same cost

  The second is where the idempotence of the admitted instructions enters: what
  the first pass wrote, the second writes again, and what it did not write, both
  states have in common.
-/
import CocoEmulator.Cpu.IdleStep

set_option autoImplicit false

namespace CocoEmulator.Cpu

open CocoEmulator.Base

variable {σ : Type} (bus : Bus σ)

/-! ## Decoding a body -/

/-- A body instruction with its bytes. -/
structure BodyInsn where
  op : Byte
  insn : Insn
  operand : BodyOperand
  deriving DecidableEq, Repr, Inhabited

/-- The operand bytes of mode `m` behind an opcode at `a`. -/
def operandBytes (h : σ) (a : Word) : Mode → Option BodyOperand
  | .imm => none
  | .direct => (peekAt bus h (a + 1)).map .direct
  | .indexed => (peekAt bus h (a + 1)).map .indexed
  | .extended => do
      let hi ← peekAt bus h (a + 1)
      let lo ← peekAt bus h (a + 2)
      some (.extended hi lo)

/-- The instruction at `a`, if it is one a body can hold. -/
def decodeBody (h : σ) (a : Word) : Option BodyInsn := do
  let op ← peekAt bus h a
  match page1.get op with
  | some (.insn i) =>
      match i.operandMode with
      | none => some ⟨op, i, .inherent⟩
      | some m => (operandBytes bus h a m).map (⟨op, i, ·⟩)
  | _ => none

/-- The body of the loop from `top` to the branch at `br`: at most two
instructions. -/
def idleBody (h : σ) (top br : Word) : List BodyInsn :=
  if top = br then []
  else
    match decodeBody bus h top with
    | none => []
    | some b => b :: if top + b.operand.len = br then []
        else (decodeBody bus h (top + b.operand.len)).toList

/-- `body` is admitted code in plain memory from `a` up to `br`. -/
def BodyCode (h : σ) : List BodyInsn → Word → Word → Prop
  | [], a, br => a = br
  | b :: body, a, br =>
      BodyAt bus h a b.op b.insn b.operand ∧ BodyCode h body (a + b.operand.len) br

variable {bus}

set_option maxRecDepth 4000 in
/-- Inherent opcodes of a body. -/
theorem inherent_entry : ∀ op : Byte, (op == 0x12 || op == 0x4D || op == 0x5D) = true →
    ∃ i, page1.get op = some (.insn i) ∧ i.idle = true ∧ i.operandMode = none := by
  have h : ∀ op : Byte, (op == 0x12 || op == 0x4D || op == 0x5D) = true →
      (match page1.get op with
        | some (.insn i) => i.idle && i.operandMode == none
        | _ => false) = true := by
    decide
  intro op hop
  have := h op hop
  cases hp : page1.get op with
  | none => rw [hp] at this; exact absurd this Bool.false_ne_true
  | some e =>
    cases e with
    | insn i => rw [hp] at this; exact ⟨i, rfl, by simpa using this⟩
    | _ => rw [hp] at this; exact absurd this Bool.false_ne_true

set_option maxRecDepth 4000 in
/-- Opcodes of a body with a memory operand. -/
theorem memory_entry : ∀ op : Byte, (idleMode op).isSome = true →
    (idleClass op).isSome = true →
    ∃ i, page1.get op = some (.insn i) ∧ i.idle = true ∧ i.operandMode = idleMode op := by
  have h : ∀ op : Byte, (idleMode op).isSome = true → (idleClass op).isSome = true →
      (match page1.get op with
        | some (.insn i) => i.idle && i.operandMode == idleMode op
        | _ => false) = true := by
    decide
  intro op hm hc
  have := h op hm hc
  cases hp : page1.get op with
  | none => rw [hp] at this; exact absurd this Bool.false_ne_true
  | some e =>
    cases e with
    | insn i => rw [hp] at this; exact ⟨i, rfl, by simpa using this⟩
    | _ => rw [hp] at this; exact absurd this Bool.false_ne_true

/-- The operand bytes the idle check looked at. -/
theorem idleOperand_spec {c : Core σ} {a ea len : Word} {m : Mode}
    (h : idleOperand bus c a m = some (ea, len)) :
    ∃ o, operandBytes bus c.env.host a m = some o ∧
      OperandAt bus c.env.host a m o ∧ o.len = len := by
  unfold idleOperand at h
  change (peekAt bus c.env.host (a + 1)).bind _ = _ at h
  cases h₁ : peekAt bus c.env.host (a + 1) with
  | none => rw [h₁] at h; exact absurd h (by simp)
  | some b₁ =>
    rw [h₁] at h
    cases m with
    | imm => exact absurd h (by simp)
    | direct =>
      simp only [Option.bind_some, Option.some.injEq, Prod.mk.injEq] at h
      exact ⟨.direct b₁, by rw [operandBytes, h₁]; rfl, .direct h₁, h.2⟩
    | indexed =>
      simp only [Option.bind_some] at h
      refine ⟨.indexed b₁, by rw [operandBytes, h₁]; rfl, .indexed h₁ ?_, ?_⟩
      · split at h
        · simp_all
        · split at h
          · simp_all
          · exact absurd h (by simp)
      · split at h
        · exact (Prod.mk.inj (Option.some.inj h)).2
        · split at h
          · exact (Prod.mk.inj (Option.some.inj h)).2
          · exact absurd h (by simp)
    | extended =>
      simp only [Option.bind_some] at h
      change (peekAt bus c.env.host (a + 2)).bind _ = _ at h
      cases h₂ : peekAt bus c.env.host (a + 2) with
      | none => rw [h₂] at h; exact absurd h (by simp)
      | some b₂ =>
        rw [h₂] at h
        simp only [Option.bind_some, Option.some.injEq, Prod.mk.injEq] at h
        exact ⟨.extended b₁ b₂, by rw [operandBytes, h₁, h₂]; rfl, .extended h₁ h₂, h.2⟩

/-- What `idle_insn` accepts is an admitted instruction of the length it says. -/
theorem idleInsn_spec {c : Core σ} {a len : Word} {kind : IdleKind}
    (h : idleInsn bus c a = some (kind, len)) :
    ∃ b, decodeBody bus c.env.host a = some b ∧
      BodyAt bus c.env.host a b.op b.insn b.operand ∧ b.operand.len = len := by
  unfold idleInsn at h
  change (peekAt bus c.env.host a).bind _ = _ at h
  cases h₀ : peekAt bus c.env.host a with
  | none => rw [h₀] at h; exact absurd h (by simp)
  | some op =>
    rw [h₀] at h
    simp only [Option.bind_some] at h
    split at h
    · rename_i hop
      obtain ⟨i, hentry, hidle, hmode⟩ := inherent_entry op hop
      obtain rfl : 1 = len := (Prod.mk.inj (Option.some.inj h)).2
      exact ⟨⟨op, i, .inherent⟩, by simp [decodeBody, h₀, hentry, hmode],
        ⟨h₀, hentry, hidle, by rw [hmode]⟩, rfl⟩
    · cases hm : idleMode op with
      | none => rw [hm] at h; exact absurd h (by simp)
      | some m =>
        cases ho : idleOperand bus c a m with
        | none => rw [hm] at h; exact absurd h (by simp [ho])
        | some p =>
          cases hc : idleClass op with
          | none => rw [hm] at h; exact absurd h (by simp [hc])
          | some k =>
            obtain ⟨ea, len'⟩ := p
            obtain ⟨kind', wide⟩ := k
            rw [hm] at h
            simp only [Option.bind_eq_bind, Option.bind_some, ho, hc] at h
            split at h
            · obtain rfl : len' = len := (Prod.mk.inj (Option.some.inj h)).2
              obtain ⟨i, hentry, hidle, hmode⟩ :=
                memory_entry op (by rw [hm]; rfl) (by rw [hc]; rfl)
              obtain ⟨o, hbytes, hat, hlen⟩ := idleOperand_spec ho
              rw [hm] at hmode
              exact ⟨⟨op, i, o⟩, by simp [decodeBody, h₀, hentry, hmode, hbytes],
                ⟨h₀, hentry, hidle, by rw [hmode]; exact hat⟩, hlen⟩
            · exact absurd h (by simp)

/-- A short branch at `br` back to `top`. -/
structure BranchAt (bus : Bus σ) (h : σ) (br top : Word) (bop boff : Byte) : Prop where
  opcode : peekAt bus h br = some bop
  offset : peekAt bus h (br + 1) = some boff
  entry : page1.get bop = some (.branch (bop &&& 0x0F).toNat)
  target : br + 2 + sext boff = top

set_option maxRecDepth 4000 in
theorem branch_entry : ∀ op : Byte, (op &&& 0xF0 == 0x20) = true →
    page1.get op = some (.branch (op &&& 0x0F).toNat) := by
  decide

/-- What may follow the first instruction: nothing, or one more up to the branch. -/
theorem idleTailOk_spec {c : Core σ} {k : IdleKind} {a br : Word}
    (h : idleTailOk bus c k a br = true) :
    a = br ∨ ∃ b, decodeBody bus c.env.host a = some b ∧
      BodyAt bus c.env.host a b.op b.insn b.operand ∧ a + b.operand.len = br := by
  unfold idleTailOk at h
  rcases Bool.or_eq_true_iff.mp h with hend | hrest
  · exact .inl (by simpa using hend)
  · right
    cases hi : idleInsn bus c a with
    | none =>
      rw [hi] at hrest
      exact absurd hrest Bool.false_ne_true
    | some p =>
      rw [hi] at hrest
      obtain ⟨b, hb, hat, hlen⟩ := idleInsn_spec hi
      have hend := (Bool.and_eq_true_iff.mp hrest).1
      refine ⟨b, hb, hat, ?_⟩
      rw [hlen]
      simpa using hend

/-- An accepted body decodes to admitted code up to the branch. -/
theorem idleBodyOk_spec {c : Core σ} {top br : Word} (h : idleBodyOk bus c top br = true) :
    BodyCode bus c.env.host (idleBody bus c.env.host top br) top br := by
  unfold idleBodyOk at h
  unfold idleBody
  by_cases htop : top = br
  · rw [if_pos htop]
    exact htop
  · rw [if_neg htop]
    rcases Bool.or_eq_true_iff.mp h with heq | hbody
    · exact absurd (by simpa using heq) htop
    · cases hi : idleInsn bus c top with
      | none =>
        rw [hi] at hbody
        exact absurd hbody Bool.false_ne_true
      | some p =>
        obtain ⟨k, len⟩ := p
        obtain ⟨b, hb, hat, hlen⟩ := idleInsn_spec hi
        have htail : idleTailOk bus c k (top + b.operand.len) br = true := by
          rw [hi] at hbody
          rw [hlen]
          cases k with
          | alu acc => exact absurd hbody Bool.false_ne_true
          | pure => exact hbody
          | load acc => exact hbody
        rw [hb]
        dsimp only
        rcases idleTailOk_spec htail with hend | ⟨b', hb', hat', hend⟩
        · rw [if_pos hend]
          exact ⟨hat, hend⟩
        · by_cases hshort : top + b.operand.len = br
          · rw [if_pos hshort]
            exact ⟨hat, hshort⟩
          · rw [if_neg hshort, hb']
            exact ⟨hat, hat', hend⟩

theorem idleBody_length (h : σ) (top br : Word) : (idleBody bus h top br).length ≤ 2 := by
  unfold idleBody
  split
  · exact Nat.zero_le _
  · split
    · exact Nat.zero_le _
    · split
      · simp
      · cases decodeBody bus h _ <;> simp

/-- What the idle check accepts is admitted code and a short branch back. -/
theorem idleLoopOk_spec {c : Core σ} {top br : Word} (h : idleLoopOk bus c top br = true) :
    BodyCode bus c.env.host (idleBody bus c.env.host top br) top br ∧
      ∃ bop boff, BranchAt bus c.env.host br top bop boff := by
  unfold idleLoopOk at h
  cases hop : idlePeek bus c br with
  | none =>
    rw [hop] at h
    exact absurd h Bool.false_ne_true
  | some bop =>
    cases hoff : idlePeek bus c (br + 1) with
    | none =>
      rw [hop, hoff] at h
      exact absurd h Bool.false_ne_true
    | some boff =>
      rw [hop, hoff] at h
      obtain ⟨hbranch, hbody⟩ := Bool.and_eq_true_iff.mp h
      obtain ⟨hbop, htarget⟩ := Bool.and_eq_true_iff.mp hbranch
      exact ⟨idleBodyOk_spec hbody, bop, boff, hop, hoff, branch_entry bop hbop,
        by simpa using htarget⟩

/-! ## Executing a body -/

/-- No access in the list is a bus callback. -/
def NoCalls (t : List Access) : Prop := t.any Access.isCallback = false

theorem NoCalls.append {s t : List Access} : NoCalls (s ++ t) ↔ NoCalls s ∧ NoCalls t := by
  simp [NoCalls, List.any_append, Bool.or_eq_false_iff]

theorem NoCalls.cons {a : Access} {t : List Access} :
    NoCalls (a :: t) ↔ a.isCallback = false ∧ NoCalls t := by
  simp only [NoCalls, List.any_cons, Bool.or_eq_false_iff]

/-- A read that is no callback leaves everything behind the bus alone. -/
theorem readByte_env {a : Word} {e : Env σ} (h : NoCalls (readByte bus a e).trace) :
    (readByte bus a e).env = e := by
  unfold readByte at h ⊢
  cases hs : bus.readSlot e.host a with
  | some p => rfl
  | none =>
    rw [hs] at h
    exact absurd (NoCalls.cons.mp h).1 (by simp [Access.isCallback])

theorem readOperand_env {i : Insn} {a : Word} {e : Env σ}
    (h : NoCalls (readOperand bus i a e).trace) : (readOperand bus i a e).env = e := by
  unfold readOperand at h ⊢
  split
  · rfl
  · rename_i hm
    rw [if_neg hm] at h
    split
    · rename_i hw
      rw [if_pos hw] at h
      obtain ⟨hhi, hlo⟩ := NoCalls.append.mp h
      show (readByte bus (a + 1) (readByte bus a e).env).env = e
      rw [readByte_env hlo, readByte_env hhi]
    · rename_i hw
      rw [if_neg hw] at h
      exact readByte_env h

/-- The program of a body: its instructions in order. -/
def bodyProgram (bus : Bus σ) : List BodyInsn → M σ Unit
  | [] => pure ()
  | b :: body => bodyOutcome bus b.op b.insn b.operand >>= fun _ => bodyProgram bus body

/-- The accumulators and X an instruction reads, its address included. -/
def BodyInsn.reads (b : BodyInsn) : Known :=
  { b.insn.computesWith with x := b.insn.computesWith.x || b.operand.throughX }

/-- Of `k`, what is not in `l`. -/
def Known.minus (k l : Known) : Known := ⟨k.a && !l.a, k.b && !l.b, k.x && !l.x, 0⟩

/-- The accumulators and X a body reads before it loads them. -/
def readsFirst : List BodyInsn → Known
  | [] => ⟨false, false, false, 0⟩
  | b :: body => b.reads.union ((readsFirst body).minus b.insn.loads)

/-- What a body writes. -/
def loadsAll : List BodyInsn → Known
  | [] => ⟨false, false, false, 0⟩
  | b :: body => b.insn.loads.union (loadsAll body)

/-- Two cores that agree on `k` and everything outside A, B, X and the flags. -/
structure CoreSame (k : Known) (c c' : Core σ) : Prop where
  regs : RegsSame k c.regs c'.regs
  pc : c.regs.pc = c'.regs.pc
  tfm : c.tfm = c'.tfm
  env : c.env = c'.env

theorem CoreSame.eq {c c' : Core σ} (h : CoreSame .all c c') : c = c' := by
  have hregs := h.regs.eq h.pc
  have htfm := h.tfm
  have henv := h.env
  cases c
  cases c'
  simp only [Core.mk.injEq]
  exact ⟨hregs, htfm, henv⟩

/-- The operand's address depends on X at most. -/
theorem ea_same {k : Known} {r r' : Regs} (h : RegsSame k r r') {o : BodyOperand}
    (hx : o.throughX = true → k.x = true) : o.ea r = o.ea r' := by
  have hrest := h.rest
  simp only [Regs.mk.injEq] at hrest
  cases o with
  | inherent => rfl
  | direct lo =>
    show word r.dp lo = word r'.dp lo
    rw [hrest.2.2.2.2.2.2.1]
  | extended hi lo => rfl
  | indexed pb =>
    show (idxReg pb).get r + _ = (idxReg pb).get r' + _
    have hget : (idxReg pb).get r = (idxReg pb).get r' := by
      cases hreg : idxReg pb with
      | x => exact h.x (hx (by simp [BodyOperand.throughX, hreg]))
      | d => exact absurd hreg (by unfold idxReg; split <;> simp)
      | y => exact hrest.2.2.2.1
      | u => exact hrest.2.2.2.2.1
      | s => exact hrest.2.2.2.2.2.1
    rw [hget]

theorem RegsSame.setPc {k : Known} {r r' : Regs} (h : RegsSame k r r') (pc pc' : Word) :
    RegsSame k { r with pc := pc } { r' with pc := pc' } :=
  ⟨h.a, h.b, h.x, h.cc, h.rest⟩

theorem native_same {k : Known} {r r' : Regs} (h : RegsSame k r r') : r.native = r'.native := by
  have hrest := h.rest
  simp only [Regs.mk.injEq] at hrest
  have hmd : r.md = r'.md := hrest.2.2.2.2.2.2.2.2.2.2.2.2.2
  rw [Regs.native, Regs.native, hmd]

variable (bus) in
/-- An admitted instruction costs, accesses and returns the same where the states
agree on what it reads. -/
theorem bodyOutcome_same {b : BodyInsn} (hidle : b.insn.idle = true) {k : Known} {c c' : Core σ}
    (h : CoreSame k c c') (hk : k.covers b.reads) :
    (bodyOutcome bus b.op b.insn b.operand c).out =
        (bodyOutcome bus b.op b.insn b.operand c').out ∧
      CoreSame (k.union b.insn.loads) (bodyOutcome bus b.op b.insn b.operand c).st
        (bodyOutcome bus b.op b.insn b.operand c').st := by
  have hea : b.operand.ea c.regs = b.operand.ea c'.regs := by
    refine ea_same h.regs fun hx => hk.2.2 ?_
    simp [BodyInsn.reads, hx]
  have hcomputes : k.covers b.insn.computesWith := by
    refine ⟨hk.1, hk.2.1, fun hx => hk.2.2 ?_⟩
    simp [BodyInsn.reads, hx]
  unfold bodyOutcome
  dsimp only
  rw [← hea, ← h.env, ← h.pc, ← native_same h.regs]
  exact ⟨rfl, (bodyFx_same hidle h.regs hcomputes _).setPc _ _, rfl, h.tfm, rfl⟩

theorem Known.covers_union {k l m : Known} :
    k.covers (l.union m) ↔ k.covers l ∧ k.covers m := by
  simp only [Known.covers, Known.union, Bool.or_eq_true]
  constructor
  · rintro ⟨ha, hb, hx⟩
    exact ⟨⟨fun h => ha (.inl h), fun h => hb (.inl h), fun h => hx (.inl h)⟩,
      fun h => ha (.inr h), fun h => hb (.inr h), fun h => hx (.inr h)⟩
  · rintro ⟨⟨ha, hb, hx⟩, ha', hb', hx'⟩
    exact ⟨fun h => h.elim ha ha', fun h => h.elim hb hb', fun h => h.elim hx hx'⟩

theorem Known.covers_minus {k l m : Known} (h : k.covers (l.minus m)) : (k.union m).covers l := by
  simp only [Known.covers, Known.union, Known.minus, Bool.and_eq_true, Bool.or_eq_true,
    Bool.not_eq_true'] at h ⊢
  grind

variable (bus) in
/-- The same for a body that starts from states that agree on what it reads first. -/
theorem bodyProgram_same {body : List BodyInsn} (hidle : ∀ b ∈ body, b.insn.idle = true)
    {k : Known} {c c' : Core σ} (h : CoreSame k c c') (hk : k.covers (readsFirst body)) :
    (bodyProgram bus body c).out = (bodyProgram bus body c').out ∧
      CoreSame (k.union (loadsAll body)) (bodyProgram bus body c).st
        (bodyProgram bus body c').st := by
  induction body generalizing k c c' with
  | nil =>
    refine ⟨rfl, ?_⟩
    rw [loadsAll, show k.union ⟨false, false, false, 0⟩ = k by simp [Known.union]]
    exact h
  | cons b body ih =>
    obtain ⟨hb, hrest⟩ := Known.covers_union.mp hk
    obtain ⟨hout, hst⟩ := bodyOutcome_same bus (hidle b List.mem_cons_self) h hb
    obtain ⟨hout', hst'⟩ := ih (fun b' hb' => hidle b' (List.mem_cons_of_mem _ hb')) hst
      (Known.covers_minus hrest)
    refine ⟨?_, ?_⟩
    · show _ * _ = _ * _
      rw [hout]
      exact congrArg _ hout'
    · rw [loadsAll, ← Known.union_assoc]
      exact hst'

/-- A body leaves alone what it does not write. -/
theorem bodyProgram_frame {body : List BodyInsn} (hidle : ∀ b ∈ body, b.insn.idle = true)
    (c : Core σ) :
    RegsSame (loadsAll body).compl c.regs (bodyProgram bus body c).st.regs := by
  induction body generalizing c with
  | nil => exact RegsSame.refl _ _
  | cons b body ih =>
    let c' := (bodyOutcome bus b.op b.insn b.operand c).st
    have hb : RegsSame b.insn.loads.compl c.regs c'.regs :=
      (bodyFx_frame (hidle b List.mem_cons_self)
        (readOperand bus b.insn (b.operand.ea c.regs) c.env).val c.regs).setPc c.regs.pc
        (c.regs.pc + b.operand.len)
    exact hb.trans_compl (ih (fun b' hb' => hidle b' (List.mem_cons_of_mem _ hb')) c')

/-- A body that calls nothing leaves everything behind the bus alone. -/
theorem bodyProgram_env {body : List BodyInsn} {c : Core σ}
    (h : NoCalls (bodyProgram bus body c).out.trace) :
    (bodyProgram bus body c).st.env = c.env := by
  induction body generalizing c with
  | nil => rfl
  | cons b body ih =>
    obtain ⟨hb, hrest⟩ := NoCalls.append.mp h
    have hq := (NoCalls.append.mp (NoCalls.cons.mp hb).2).2
    have henv : (bodyOutcome bus b.op b.insn b.operand c).st.env = c.env := readOperand_env hq
    exact (ih hrest).trans henv

theorem bodyProgram_tfm (body : List BodyInsn) (c : Core σ) :
    (bodyProgram bus body c).st.tfm = c.tfm := by
  induction body generalizing c with
  | nil => rfl
  | cons b body ih => exact ih _

/-! ## Rounds of the run loop -/

/-- No interrupt is taken, and the CPU is neither halted nor waiting. -/
structure Quiet (c : Core σ) : Prop where
  running : c.env.pins.halted = false
  awake : c.regs.waitForInterrupt = false
  noService : pendingService c.regs c.env.pins = none

/-- The 6309 build polls only when the guard finds a reason to. -/
theorem poll_hd6309 (c : Core σ) :
    poll bus .hd6309 c =
      if pollGuard c = true then pollAll bus .hd6309 c else ⟨.execute, 1, c⟩ := by
  show (Act.gets pollGuard >>= fun g =>
    if g = true then pollAll bus .hd6309 else pure .execute) c = _
  rw [Act.gets_bind, Act.ite_apply]
  rfl

theorem poll_of_quiet {c : Core σ} (h : Quiet c) : poll bus .hd6309 c = ⟨.execute, 1, c⟩ := by
  have hcheck : checkInterrupts bus .hd6309 c = ⟨(), 1, c⟩ := by
    unfold checkInterrupts regs getPins
    rw [Act.gets_bind, Act.gets_bind, h.noService]
    rfl
  have hall : pollAll bus .hd6309 c = ⟨.execute, 1, c⟩ := by
    unfold pollAll getPins regs
    rw [Act.gets_bind, h.running, Act.ite_apply, if_neg (by simp), Act.bind_apply, hcheck,
      Act.gets_bind, Act.gets_bind, h.awake, Act.ite_apply, if_neg (by simp), Act.pure_apply,
      mul_one]
  rw [poll_hd6309, hall]
  split <;> rfl

variable (bus) in
theorem round_of_quiet {c : Core σ} (fuel : Nat) (h : Quiet c) :
    round bus .hd6309 fuel c =
      ⟨some (executeOne bus .hd6309 fuel c).val, (executeOne bus .hd6309 fuel c).out,
        (executeOne bus .hd6309 fuel c).st⟩ := by
  simp only [round, Act.bind_apply, poll_of_quiet h, one_mul, Act.pure_apply, mul_one]

/-- `n` rounds of the run loop. -/
def rounds (bus : Bus σ) (fuel : Nat) : Nat → M σ Unit
  | 0 => pure ()
  | n + 1 => round bus .hd6309 fuel >>= fun _ => rounds bus fuel n

/-- A round after `n` rounds. -/
theorem rounds_succ (fuel n : Nat) :
    rounds bus fuel (n + 1) =
      (rounds bus fuel n >>= fun _ => round bus .hd6309 fuel >>= fun _ => pure ()) := by
  induction n with
  | zero => simp only [rounds, pure_bind]
  | succ n ih =>
    calc rounds bus fuel (n + 2)
        = round bus .hd6309 fuel >>= fun _ => rounds bus fuel (n + 1) := rfl
      _ = round bus .hd6309 fuel >>= fun _ =>
            rounds bus fuel n >>= fun _ => round bus .hd6309 fuel >>= fun _ => pure () := by
          rw [ih]
      _ = rounds bus fuel (n + 1) >>= fun _ => round bus .hd6309 fuel >>= fun _ => pure () := by
          rw [← bind_assoc]
          rfl

theorem ccTst_same {f m cc cc' : Byte} (h : cc &&& ~~~m = cc' &&& ~~~m) (hf : f &&& m = 0) :
    ccTst f cc = ccTst f cc' := by
  have hmask : ∀ v : Byte, v &&& f = v &&& ~~~m &&& f := by
    intro v
    ext i hi
    have e := congrArg (fun w : Byte => w[i]) hf
    simp at e ⊢
    grind
  rw [ccTst, ccTst, hmask cc, hmask cc', h]

/-- No admitted instruction touches the interrupt masks. -/
theorem loads_masks {i : Insn} (hi : i.idle = true) :
    flagF &&& i.loads.cc = 0 ∧ flagI &&& i.loads.cc = 0 := by
  have hmasks : ∀ m ∈ [0, flagsNzv, flagsNzvc, flagsHnzvc], flagF &&& m = 0 ∧ flagI &&& m = 0 := by
    decide
  refine hmasks _ ?_
  cases i with
  | alu8 op acc m => cases op <;> simp [Insn.loads, Alu.mask]
  | unaryAcc | unaryMem | cmp16 | ld16 | nop => simp [Insn.loads]
  | _ => exact absurd hi Bool.false_ne_true

/-- Quiet states stay quiet where the wait state, the masks, NMI arming and the
lines stay. -/
theorem Quiet.of_eq {c c' : Core σ} (h : Quiet c) (henv : c'.env.pins = c.env.pins)
    (hwait : c'.regs.waitForInterrupt = c.regs.waitForInterrupt)
    (harmed : c'.regs.nmiArmed = c.regs.nmiArmed)
    (hf : ccTst flagF c'.regs.cc = ccTst flagF c.regs.cc)
    (hi : ccTst flagI c'.regs.cc = ccTst flagI c.regs.cc) : Quiet c' := by
  refine ⟨by rw [henv]; exact h.running, by rw [hwait]; exact h.awake, ?_⟩
  have hn := h.noService
  unfold pendingService at hn ⊢
  rw [henv, harmed, hf, hi]
  exact hn

theorem Quiet.bodyOutcome {c : Core σ} {b : BodyInsn} (h : Quiet c) (hidle : b.insn.idle = true)
    (henv : (bodyOutcome bus b.op b.insn b.operand c).st.env = c.env) :
    Quiet (bodyOutcome bus b.op b.insn b.operand c).st := by
  have hframe := bodyFx_frame hidle
    (readOperand bus b.insn (b.operand.ea c.regs) c.env).val c.regs
  have hrest := hframe.rest
  simp only [Regs.mk.injEq] at hrest
  obtain ⟨hf, hi⟩ := loads_masks hidle
  refine h.of_eq (by rw [henv]) ?_ ?_ ?_ ?_
  · exact hrest.2.2.2.2.2.2.2.2.1.symm
  · exact hrest.2.2.2.2.2.2.2.2.2.2.1.symm
  · exact (ccTst_same hframe.cc hf).symm
  · exact (ccTst_same hframe.cc hi).symm

/-- `n` rounds that all execute an instruction of 1 to 9 cycles. -/
def Steady (bus : Bus σ) (fuel : Nat) : Nat → Core σ → Prop
  | 0, _ => True
  | n + 1, c =>
      (∃ flow, (round bus .hd6309 fuel c).val = some flow ∧ flow ≠ .stuck) ∧
      1 ≤ (round bus .hd6309 fuel c).out.cycles.toNat ∧
      (round bus .hd6309 fuel c).out.cycles.toNat ≤ 9 ∧
      Steady bus fuel n (round bus .hd6309 fuel c).st

set_option maxRecDepth 8000 in
/-- Cycle counts of the admitted opcodes, with and without the native saving. -/
theorem baseCycles_bounds : ∀ op : Byte, ∀ native : Bool,
    (match page1.get op with
      | some (.insn i) => !i.idle ||
          let n := (i.baseCycles +
            if native then -((nativeSaveP1.get op : Nat) : Cycles) else 0).toNat
          decide (1 ≤ n ∧ n ≤ 8)
      | _ => true) = true := by
  decide

theorem BodyOperand.cycles_le (o : BodyOperand) : o.cycles.toNat ≤ 1 := by
  unfold BodyOperand.cycles
  split
  · split <;> decide
  · decide

theorem bodyCycles_bounds {h : σ} {a : Word} {op : Byte} {i : Insn} {o : BodyOperand}
    (hat : BodyAt bus h a op i o) (native : Bool) :
    1 ≤ (bodyCycles op i o native).toNat ∧ (bodyCycles op i o native).toNat ≤ 9 := by
  have hb := baseCycles_bounds op native
  rw [hat.entry] at hb
  simp only [hat.idle, Bool.not_true, Bool.false_or, decide_eq_true_eq] at hb
  have ho := o.cycles_le
  unfold bodyCycles
  rw [BitVec.toNat_add, Nat.mod_eq_of_lt (by omega)]
  omega

/-- A round at an admitted instruction. -/
theorem round_body {c : Core σ} {b : BodyInsn} (fuel : Nat) (hq : Quiet c)
    (hat : BodyAt bus c.env.host c.regs.pc b.op b.insn b.operand) :
    round bus .hd6309 fuel c =
      ⟨some .next, (bodyOutcome bus b.op b.insn b.operand c).out,
        (bodyOutcome bus b.op b.insn b.operand c).st⟩ := by
  rw [round_of_quiet bus fuel hq, executeOne_body fuel hat]
  rfl

/-- Rounds that begin at an admitted instruction. -/
theorem rounds_cons {c : Core σ} {b : BodyInsn} (fuel n : Nat) (hq : Quiet c)
    (hat : BodyAt bus c.env.host c.regs.pc b.op b.insn b.operand) :
    rounds bus fuel (n + 1) c =
      (bodyOutcome bus b.op b.insn b.operand >>= fun _ => rounds bus fuel n) c := by
  show (round bus .hd6309 fuel >>= fun _ => rounds bus fuel n) c = _
  rw [Act.bind_apply, Act.bind_apply, round_body fuel hq hat]

theorem bodyOutcome_env {b : BodyInsn} {c : Core σ}
    (h : NoCalls (bodyOutcome bus b.op b.insn b.operand c).out.trace) :
    (bodyOutcome bus b.op b.insn b.operand c).st.env = c.env :=
  readOperand_env (NoCalls.append.mp (NoCalls.cons.mp h).2).2

/-- Rounds without callbacks that begin with a body: the body makes none. -/
theorem noCalls_body {body : List BodyInsn} {c : Core σ} {br : Word} (fuel n : Nat)
    (hq : Quiet c) (hcode : BodyCode bus c.env.host body c.regs.pc br)
    (hcalls : NoCalls (rounds bus fuel (body.length + n) c).out.trace) :
    NoCalls (bodyProgram bus body c).out.trace := by
  induction body generalizing c with
  | nil => rfl
  | cons b body ih =>
    obtain ⟨hat, hrest⟩ := hcode
    rw [List.length_cons, Nat.add_right_comm, rounds_cons fuel _ hq hat] at hcalls
    obtain ⟨hb, hcalls'⟩ := NoCalls.append.mp hcalls
    have henv := bodyOutcome_env hb
    refine NoCalls.append.mpr ⟨hb, ih (hq.bodyOutcome hat.idle henv) ?_ hcalls'⟩
    rw [henv]
    exact hrest

/-- The rounds of a body, when they call nothing: the program of the body, and
then whatever follows at the branch. -/
theorem rounds_body {body : List BodyInsn} {c : Core σ} {br : Word} (fuel n : Nat)
    (hq : Quiet c) (hcode : BodyCode bus c.env.host body c.regs.pc br)
    (hcalls : NoCalls (bodyProgram bus body c).out.trace) :
    rounds bus fuel (body.length + n) c =
        (bodyProgram bus body >>= fun _ => rounds bus fuel n) c ∧
      Quiet (bodyProgram bus body c).st ∧
      (bodyProgram bus body c).st.regs.pc = br ∧
      (Steady bus fuel n (bodyProgram bus body c).st → Steady bus fuel (body.length + n) c) := by
  induction body generalizing c with
  | nil =>
    rw [List.length_nil, Nat.zero_add]
    exact ⟨by simp only [bodyProgram, pure_bind], hq, hcode, id⟩
  | cons b body ih =>
    obtain ⟨hat, hrest⟩ := hcode
    obtain ⟨hb, hcalls'⟩ := NoCalls.append.mp hcalls
    have henv := bodyOutcome_env hb
    obtain ⟨hrun, hquiet, hpc, hsteady⟩ :=
      ih (hq.bodyOutcome hat.idle henv) (by rw [henv]; exact hrest) hcalls'
    rw [List.length_cons, Nat.add_right_comm]
    refine ⟨?_, hquiet, hpc, fun hs => ?_⟩
    · rw [rounds_cons fuel _ hq hat, Act.bind_apply, hrun]
      simp only [bodyProgram, bind_assoc]
      rfl
    · obtain ⟨h1, h9⟩ := bodyCycles_bounds hat c.regs.native
      have hround := round_body fuel hq hat
      refine ⟨⟨.next, by rw [hround], by simp⟩, ?_, ?_, ?_⟩
      · rw [hround]; exact h1
      · rw [hround]; exact h9
      · rw [hround]; exact hsteady hs

/-! ## The branch -/

/-- The decision of a short branch moves PC and does nothing else. -/
theorem branchOn_spec (cond : Nat) (offset : Byte) (c : Core σ) :
    ∃ flow pc, flow ≠ .stuck ∧
      branchOn cond offset c = ⟨flow, 1, { c with regs := { c.regs with pc := pc } }⟩ := by
  unfold branchOn regs
  rw [Act.gets_bind, Act.ite_apply]
  by_cases hev : evalBranch cond c.regs.cc = true
  · rw [if_pos hev, addPc, setRegs, Act.modify_bind, Act.gets_bind, Act.ite_apply]
    by_cases hback : (offset.toInt < 0 && -(idleBodyMax + 2) ≤ offset.toInt) = true
    · rw [if_pos hback]
      exact ⟨_, c.regs.pc + sext offset, by simp, rfl⟩
    · rw [if_neg hback]
      exact ⟨.next, c.regs.pc + sext offset, by simp, rfl⟩
  · rw [if_neg hev]
    exact ⟨.next, c.regs.pc, by simp, rfl⟩

/-- A short branch in plain memory moves PC and does nothing else. -/
theorem executeOne_branch {c : Core σ} {top : Word} {bop boff : Byte} (fuel : Nat)
    (h : BranchAt bus c.env.host c.regs.pc top bop boff) :
    ∃ flow pc, flow ≠ .stuck ∧
      executeOne bus .hd6309 fuel c =
        ⟨flow, ⟨3, [.pageRead c.regs.pc bop, .pageRead (c.regs.pc + 1) boff]⟩,
          { c with regs := { c.regs with pc := pc } }⟩ := by
  let c₁ : Core σ := { c with regs := { c.regs with pc := c.regs.pc + 1 } }
  let c₂ : Core σ := { c₁ with regs := { c₁.regs with pc := c₁.regs.pc + 1 } }
  have hfetch : fetch8 bus c₁ = ⟨boff, ⟨0, [.pageRead c₁.regs.pc boff]⟩, c₂⟩ :=
    fetch8_peek (show peekAt bus c₁.env.host c₁.regs.pc = some boff from h.offset)
  have hbranch : executeOp bus .hd6309 fuel bop = shortBranch bus (bop &&& 0x0F).toNat := by
    unfold executeOp
    rw [h.entry]
  obtain ⟨flow, pc, hflow, hend⟩ := branchOn_spec (bop &&& 0x0F).toNat boff c₂
  refine ⟨flow, pc, hflow, ?_⟩
  simp only [executeOne, Act.bind_apply, fetch8_peek h.opcode, hbranch]
  rw [show ({ c with regs := { c.regs with pc := c.regs.pc + 1 } } : Core σ) = c₁ from rfl]
  simp only [shortBranch, Act.bind_apply, hfetch, tick, Act.emit_apply, hend, mul_one]
  rfl

/-- The round of the branch that closes a loop. -/
theorem round_branch {c : Core σ} {top : Word} {bop boff : Byte} (fuel : Nat) (hq : Quiet c)
    (h : BranchAt bus c.env.host c.regs.pc top bop boff) :
    Steady bus fuel 1 c ∧ (round bus .hd6309 fuel c).out.cycles = 3 ∧ ∃ pc,
      (round bus .hd6309 fuel c).st = { c with regs := { c.regs with pc := pc } } := by
  obtain ⟨flow, pc, hflow, hexec⟩ := executeOne_branch fuel h
  have hround := round_of_quiet bus fuel hq
  rw [hexec] at hround
  refine ⟨⟨⟨flow, by rw [hround], hflow⟩, ?_, ?_, trivial⟩, by rw [hround], pc, by rw [hround]⟩
  · rw [hround]
    show 1 ≤ (3 : Cycles).toNat
    decide
  · rw [hround]
    show (3 : Cycles).toNat ≤ 9
    decide

/-! ## One pass after another -/

/-- The registers of `k` are the same in both files. -/
structure Held (k : Known) (r r' : Regs) : Prop where
  a : k.a = true → r.a = r'.a
  b : k.b = true → r.b = r'.b
  x : k.x = true → r.x = r'.x

theorem RegsSame.union_held {k l : Known} {r r' : Regs} (h : RegsSame k r r')
    (hl : Held l r r') (hcc : l.cc = 0) : RegsSame (k.union l) r r' := by
  refine ⟨fun ha => ?_, fun hb => ?_, fun hx => ?_, ?_, h.rest⟩
  · exact (Bool.or_eq_true_iff.mp ha).elim h.a hl.a
  · exact (Bool.or_eq_true_iff.mp hb).elim h.b hl.b
  · exact (Bool.or_eq_true_iff.mp hx).elim h.x hl.x
  · simpa [Known.union, hcc] using h.cc

theorem readsFirst_cc (body : List BodyInsn) : (readsFirst body).cc = 0 := by
  cases body with
  | nil => rfl
  | cons b body =>
    have hb : b.reads.cc = 0 := by
      unfold BodyInsn.reads Insn.computesWith
      cases b.insn <;> rfl
    simp [readsFirst, Known.union, Known.minus, hb]

/-- What is written, and what is not. -/
theorem Known.compl_union_all (l m : Known) : (l.compl.union m).union l = .all := by
  have hbool : ∀ p q : Bool, (!p || q || p) = true := by decide
  have hcc : ~~~l.cc ||| m.cc ||| l.cc = 0xFF := by
    ext i hi
    have hones : (255#8)[i] = true := by
      revert i
      decide
    simp [hones]
    grind
  simp only [Known.union, Known.compl, Known.all, hbool, hcc]

theorem BodyCode.idle {h : σ} {body : List BodyInsn} {a br : Word}
    (hcode : BodyCode bus h body a br) : ∀ b ∈ body, b.insn.idle = true := by
  induction body generalizing a with
  | nil => intro b hb; exact absurd hb List.not_mem_nil
  | cons b body ih =>
    intro b' hb'
    rcases List.mem_cons.mp hb' with rfl | hb'
    · exact hcode.1.idle
    · exact ih hcode.2 b' hb'

/-- If a pass without callbacks led from `last` to `now` at the top of the loop, and
the registers the body reads first were the same, another pass leads from `now`
back to `now` at the same cost; the branch takes 3 cycles of it. -/
theorem pass_again {last now : Core σ} {body : List BodyInsn} {br top : Word} {bop boff : Byte}
    (fuel : Nat) (hq : Quiet last) (hcode : BodyCode bus last.env.host body last.regs.pc br)
    (hbr : BranchAt bus last.env.host br top bop boff)
    (hrun : (rounds bus fuel (body.length + 1) last).st = now)
    (hcalls : NoCalls (rounds bus fuel (body.length + 1) last).out.trace)
    (hpc : last.regs.pc = now.regs.pc) (hheld : Held (readsFirst body) last.regs now.regs) :
    (rounds bus fuel (body.length + 1) now).st = now ∧
      (rounds bus fuel (body.length + 1) now).out =
        (rounds bus fuel (body.length + 1) last).out ∧
      Steady bus fuel (body.length + 1) now ∧
      (round bus .hd6309 fuel (rounds bus fuel body.length last).st).out.cycles = 3 := by
  have hidle := hcode.idle
  have hno := noCalls_body fuel 1 hq hcode hcalls
  obtain ⟨hrounds, hquiet, hbrpc, -⟩ := rounds_body fuel 1 hq hcode hno
  -- `z` is where the first pass reaches the branch.
  let z := (bodyProgram bus body last).st
  have hzenv : z.env = last.env := bodyProgram_env hno
  have hbrz : BranchAt bus z.env.host z.regs.pc top bop boff := by
    rw [hzenv, hbrpc]
    exact hbr
  obtain ⟨hsteady, hcost, pc, hst⟩ := round_branch fuel hquiet hbrz
  have hz₀ : (rounds bus fuel body.length last).st = z := by
    have h₀ := congrArg Outcome.st (rounds_body fuel 0 hq hcode hno).1
    exact h₀
  have hnow : now = { z with regs := { z.regs with pc := pc } } := by
    rw [← hrun, hrounds]
    exact hst
  have henv : last.env = now.env := by
    rw [hnow]
    exact hzenv.symm
  have hsame : CoreSame ((loadsAll body).compl.union (readsFirst body)) last now := by
    refine ⟨RegsSame.union_held ?_ hheld (readsFirst_cc body), hpc, ?_, henv⟩
    · rw [hnow]
      exact (bodyProgram_frame hidle last).setPc last.regs.pc pc
    · rw [hnow]
      exact (bodyProgram_tfm body last).symm
  have hcovers : ((loadsAll body).compl.union (readsFirst body)).covers (readsFirst body) :=
    ⟨fun h => Bool.or_eq_true_iff.mpr (.inr h), fun h => Bool.or_eq_true_iff.mpr (.inr h),
      fun h => Bool.or_eq_true_iff.mpr (.inr h)⟩
  obtain ⟨hout, hz⟩ := bodyProgram_same bus hidle hsame hcovers
  rw [Known.compl_union_all] at hz
  have hzz : z = (bodyProgram bus body now).st := hz.eq
  have hqnow : Quiet now := by
    rw [hnow]
    exact hquiet.of_eq rfl rfl rfl rfl rfl
  have hcode' : BodyCode bus now.env.host body now.regs.pc br := by
    rw [← henv, ← hpc]
    exact hcode
  have hno' : NoCalls (bodyProgram bus body now).out.trace := by
    rw [← hout]
    exact hno
  obtain ⟨hrounds', -, -, hsteady'⟩ := rounds_body fuel 1 hqnow hcode' hno'
  refine ⟨?_, ?_, hsteady' (hzz ▸ hsteady), by rw [hz₀]; exact hcost⟩
  · rw [hrounds', Act.bind_st, ← hzz, hnow]
    exact hst
  · rw [hrounds', hrounds, Act.bind_out, Act.bind_out, ← hzz, hout]

end CocoEmulator.Cpu
