/-
  Cpu/CycleCounts.lean --- what an instruction adds to the cycle counter.

  A count is a sum of what the addressing mode, the operation and its outcome add, less an
  entry of a saving table in native mode.  The counter is unsigned and 32 bits wide, so the
  terms are bounded as integers (`Costs`) and the sum is looked at once.

  TFM takes back what its repeated prefix bytes have cost when it goes on with a transfer,
  so its count is bounded together with theirs.

      exec_costs            an instruction both builds execute
      hd6309Exec_costs      one of the 6309 only
      executeOne_counts     one instruction with its prefixes: at least one cycle, but for a
                            TFM that goes on with W zero

  Source: mc6809_core_impl.h, hd6309_ops.h.
-/
import CocoEmulator.Cpu.BlockMove
import CocoEmulator.Cpu.Division

set_option autoImplicit false

namespace CocoEmulator.Cpu

open CocoEmulator.Base

variable {σ α β : Type}

/-! ## Bounds on a count -/

/-- The program adds `lo` to `hi` cycles. -/
def Costs (lo hi : Int) (m : M σ α) : Prop :=
  ∀ c, ∃ n : Int, lo ≤ n ∧ n ≤ hi ∧ (m c).out.cycles = BitVec.ofInt 32 n

section

variable {lo hi lo' hi' : Int}

theorem Costs.mono {m : M σ α} (h : Costs lo hi m) (hlo : lo' ≤ lo) (hhi : hi ≤ hi') :
    Costs lo' hi' m := by
  intro c
  obtain ⟨n, hn, hn', hcost⟩ := h c
  exact ⟨n, by omega, by omega, hcost⟩

theorem Costs.pure (a : α) : Costs 0 0 (Pure.pure a : M σ α) :=
  fun _ => ⟨0, Int.le_refl _, Int.le_refl _, rfl⟩

theorem Costs.bind {m : M σ α} {f : α → M σ β} (h : Costs lo hi m)
    (h' : ∀ a, Costs lo' hi' (f a)) : Costs (lo + lo') (hi + hi') (m >>= f) := by
  intro c
  obtain ⟨n, hn, hn', hcost⟩ := h c
  obtain ⟨k, hk, hk', hcost'⟩ := h' (m c).val (m c).st
  refine ⟨n + k, by omega, by omega, ?_⟩
  rw [Act.bind_out, Cost.mul_cycles, hcost, hcost', BitVec.ofInt_add]

theorem Costs.seq {m : M σ α} {f : α → M σ β} {lo'' hi'' : Int} (h : Costs lo hi m)
    (h' : ∀ a, Costs lo' hi' (f a)) (hlo : lo'' ≤ lo + lo') (hhi : hi + hi' ≤ hi'') :
    Costs lo'' hi'' (m >>= f) :=
  (h.bind h').mono hlo hhi

/-- A first part that adds nothing. -/
theorem Costs.free {m : M σ α} {f : α → M σ β} (h : Costs 0 0 m) (h' : ∀ a, Costs lo hi (f a)) :
    Costs lo hi (m >>= f) :=
  h.seq h' (by omega) (by omega)

/-- A value after a count. -/
theorem Costs.value {m : M σ Unit} (h : Costs lo hi m) (a : α) :
    Costs lo hi (m >>= fun _ => Pure.pure a) :=
  h.seq (fun _ => .pure a) (by omega) (by omega)

theorem Costs.guarded {m : M σ Unit} {g : Bool} (h : Costs lo hi m) (hlo : lo ≤ 0) (hhi : 0 ≤ hi) :
    Costs lo hi (Act.guarded g m) := by
  cases g with
  | false => exact (Costs.pure ()).mono hlo hhi
  | true => exact h

theorem Costs.ite {g : Prop} [Decidable g] {m m' : M σ α} (h : Costs lo hi m)
    (h' : Costs lo hi m') : Costs lo hi (if g then m else m') := by
  split
  · exact h
  · exact h'

theorem Costs.gets (f : Core σ → α) : Costs 0 0 (Act.gets f : M σ α) :=
  fun _ => ⟨0, Int.le_refl _, Int.le_refl _, rfl⟩

theorem Costs.modify (f : Core σ → Core σ) : Costs 0 0 (Act.modify f : M σ Unit) :=
  fun _ => ⟨0, Int.le_refl _, Int.le_refl _, rfl⟩

theorem regs_free : Costs 0 0 (regs : M σ Regs) := .gets _

theorem setRegs_free (f : Regs → Regs) : Costs 0 0 (setRegs f : M σ Unit) := .modify _

theorem tick_costs {k : Cycles} {n : Int} (h : k = BitVec.ofInt 32 n) :
    Costs n n (tick k : M σ Unit) :=
  fun _ => ⟨n, Int.le_refl _, Int.le_refl _, h⟩

theorem tick_nat (n : Nat) : Costs n n (tick (n : Cycles) : M σ Unit) :=
  tick_costs (by rw [BitVec.ofInt_natCast]; rfl)

theorem tick_saves (n : Nat) : Costs (-n) (-n) (tick (-(n : Cycles)) : M σ Unit) :=
  tick_costs (by rw [BitVec.ofInt_neg, BitVec.ofInt_natCast]; rfl)

end

/-! ## The bus and the stacks -/

section

variable (bus : Bus σ)

theorem memRead_free (addr : Word) : Costs 0 0 (memRead bus addr) := by
  intro c
  refine ⟨0, Int.le_refl _, Int.le_refl _, ?_⟩
  rw [memRead_eq]
  rfl

theorem memWrite_free (addr : Word) (v : Byte) : Costs 0 0 (memWrite bus addr v) :=
  fun c => ⟨0, Int.le_refl _, Int.le_refl _, (memWrite_eq addr v c).1⟩

theorem memRead16_free (addr : Word) : Costs 0 0 (memRead16 bus addr) :=
  .free (memRead_free bus _) fun _ => .free (memRead_free bus _) fun _ => .pure _

theorem memWrite16_free (addr v : Word) : Costs 0 0 (memWrite16 bus addr v) :=
  .free (memWrite_free bus _ _) fun _ => memWrite_free bus _ _

theorem fetch8_free : Costs 0 0 (fetch8 bus) :=
  .free regs_free fun _ => .free (setRegs_free _) fun _ => memRead_free bus _

theorem fetch16_free : Costs 0 0 (fetch16 bus) :=
  .free (fetch8_free bus) fun _ => .free (fetch8_free bus) fun _ => .pure _

theorem push8_free (st : Stack) (v : Byte) : Costs 0 0 (push8 bus st v) :=
  .free (setRegs_free _) fun _ => .free regs_free fun _ => memWrite_free bus _ _

theorem push16_free (st : Stack) (v : Word) : Costs 0 0 (push16 bus st v) :=
  .free (push8_free bus st _) fun _ => push8_free bus st _

theorem pull8_free (st : Stack) : Costs 0 0 (pull8 bus st) :=
  .free regs_free fun _ => .free (memRead_free bus _) fun _ => .free (setRegs_free _) fun _ =>
    .pure _

theorem pullInto8_free (st : Stack) (put : Byte → Regs → Regs) :
    Costs 0 0 (pullInto8 bus st put) :=
  .free (pull8_free bus st) fun _ => setRegs_free _

theorem pullInto16_free (st : Stack) (put : Word → Regs → Regs) :
    Costs 0 0 (pullInto16 bus st put) :=
  .free (.free (pull8_free bus st) fun _ => .free (pull8_free bus st) fun _ => .pure _)
    fun _ => setRegs_free _

theorem pushEf_costs (b : Build) : Costs 0 2 (pushEf bus b) := by
  refine .free regs_free fun r => .guarded ?_ (by omega) (by omega)
  have htick : Costs 0 2 (tick 2 : M σ Unit) := (tick_nat 2).mono (by omega) (by omega)
  exact .free (push8_free bus .s _) fun _ => .free (push8_free bus .s _) fun _ => htick

theorem pullEf_costs (b : Build) : Costs 0 2 (pullEf bus b) := by
  refine .free regs_free fun r => .guarded ?_ (by omega) (by omega)
  have htick : Costs 0 2 (tick 2 : M σ Unit) := (tick_nat 2).mono (by omega) (by omega)
  exact .free (pullInto8_free bus .s _) fun _ => .free (pullInto8_free bus .s _) fun _ => htick

theorem pushEntire_costs (b : Build) : Costs 0 2 (pushEntire bus b) := by
  refine .free regs_free fun r => .free (push16_free bus .s _) fun _ =>
    .free (push16_free bus .s _) fun _ => .free (push16_free bus .s _) fun _ =>
    .free (push16_free bus .s _) fun _ => .free (push8_free bus .s _) fun _ => ?_
  have hrest : Costs 0 0
      (push8s bus r.b >>= fun _ => push8s bus r.a >>= fun _ => push8s bus r.cc) :=
    .free (push8_free bus .s _) fun _ => .free (push8_free bus .s _) fun _ => push8_free bus .s _
  exact ((pushEf_costs bus b).bind fun _ => hrest).mono (by omega) (by omega)

theorem softwareInterrupt_costs (b : Build) (mask : Byte) (vec : Word) (n : Nat) :
    Costs n (n + 2) (softwareInterrupt bus b mask vec n) := by
  have hrest : Costs n n (setCc mask >>= fun _ => memRead16 bus vec >>= fun pc =>
      setRegs (fun r => { r with pc := pc }) >>= fun _ => tick (n : Cycles) : M σ Unit) :=
    .free (setRegs_free _) fun _ => .free (memRead16_free bus _) fun _ =>
      .free (setRegs_free _) fun _ => tick_nat n
  exact (Costs.free (setRegs_free _) fun _ => (pushEntire_costs bus b).bind fun _ => hrest).mono
    (by omega) (by omega)

end

/-! ## Addressing -/

/-- What native mode takes off an addressing mode at most. -/
def Mode.dropped : Mode → Int
  | .indexed => 2
  | _ => 0

/-- What an addressing mode adds at most. -/
def Mode.added : Mode → Int
  | .indexed => 8
  | _ => 0

section

variable (bus : Bus σ)

theorem indexedPlus_costs (reg : Reg16) (offset : Regs → Word) (ind : Bool) {direct indirect : Nat}
    {lo hi : Int} (hlo : lo ≤ direct) (hhi : direct ≤ hi) (hlo' : lo ≤ indirect)
    (hhi' : indirect ≤ hi) :
    Costs lo hi (indexedPlus reg offset ind direct indirect : M σ Word) := by
  have htick : Costs lo hi (tick (if ind then (indirect : Cycles) else direct) : M σ Unit) := by
    cases ind with
    | false => exact (tick_nat direct).mono hlo hhi
    | true => exact (tick_nat indirect).mono hlo' hhi'
  exact .free regs_free fun r => htick.value _

theorem indexedW_costs (postbyte : Byte) : Costs (-2) 8 (indexedW bus postbyte) := by
  have htwo (a : Word) : Costs 0 2 (tick 2 >>= fun _ => pure a : M σ Word) :=
    ((tick_nat 2).mono (by omega) (by omega)).value a
  have hone (a : Word) : Costs 0 2 (tick 1 >>= fun _ => pure a : M σ Word) :=
    ((tick_nat 1).mono (by omega) (by omega)).value a
  have hbase : Costs 0 2 (indexedWBase bus postbyte) := by
    unfold indexedWBase
    split
    · exact .free regs_free fun _ => (Costs.pure _).mono (by omega) (by omega)
    · exact .free regs_free fun _ => .free (fetch16_free bus) fun _ => htwo _
    · exact .free regs_free fun _ => .free (setRegs_free _) fun _ => hone _
    · exact .free (setRegs_free _) fun _ => .free regs_free fun _ => hone _
  have hthree (a : Word) : Costs 0 3 (tick 3 >>= fun _ => pure a : M σ Word) :=
    ((tick_nat 3).mono (by omega) (by omega)).value a
  have hrest (ea : Word) : Costs 0 3 (if postbyte &&& 0x10 != 0 then
      memRead16 bus ea >>= fun ea => tick 3 >>= fun _ => pure ea else pure ea) :=
    .ite (.free (memRead16_free bus _) fun _ => hthree _)
      ((Costs.pure _).mono (by omega) (by omega))
  exact hbase.seq hrest (by omega) (by omega)

theorem indexedMode_costs (b : Build) (reg : Reg16) (mode : Nat) (ind : Bool) :
    Costs 0 8 (indexedMode bus b reg mode ind) := by
  have hcount {k : Nat} (hk : k ≤ 8) (a : Word) :
      Costs 0 8 (tick (k : Cycles) >>= fun _ => pure a : M σ Word) :=
    ((tick_nat k).mono (by omega) (by omega)).value a
  have hcounts {k k' : Nat} (hk : k ≤ 8) (hk' : k' ≤ 8) (a : Word) :
      Costs 0 8 (tick (if ind then (k : Cycles) else k') >>= fun _ => pure a : M σ Word) := by
    cases ind with
    | false => exact hcount hk' a
    | true => exact hcount hk a
  have hplus (offset : Regs → Word) {k k' : Nat} (hk : k ≤ 8) (hk' : k' ≤ 8) :
      Costs 0 8 (indexedPlus reg offset ind k k' : M σ Word) :=
    indexedPlus_costs reg offset ind (by omega) (by omega) (by omega) (by omega)
  unfold indexedMode
  split
  · exact .free regs_free fun _ => .free (setRegs_free _) fun _ => hcount (by decide) _
  · exact .free regs_free fun _ => .free (setRegs_free _) fun _ => hcounts (by decide) (by decide) _
  · exact .free (setRegs_free _) fun _ => .free regs_free fun _ => hcount (by decide) _
  · exact .free (setRegs_free _) fun _ => .free regs_free fun _ => hcounts (by decide) (by decide) _
  · exact hplus _ (by decide) (by decide)
  · exact hplus _ (by decide) (by decide)
  · exact hplus _ (by decide) (by decide)
  · cases b <;> exact hplus _ (by decide) (by decide)
  · exact .free (fetch8_free bus) fun _ => hplus _ (by decide) (by decide)
  · exact .free (fetch16_free bus) fun _ => hplus _ (by decide) (by decide)
  · cases b <;> exact hplus _ (by decide) (by decide)
  · exact hplus _ (by decide) (by decide)
  · exact .free (fetch8_free bus) fun _ => .free regs_free fun _ =>
      hcounts (by decide) (by decide) _
  · exact .free (fetch16_free bus) fun _ => .free regs_free fun _ =>
      hcounts (by decide) (by decide) _
  · cases b <;> exact hplus _ (by decide) (by decide)
  · exact .ite (.free (fetch16_free bus) fun _ => hcount (by decide) _)
      (hplus _ (by decide) (by decide))

theorem nativeSaveIndexed_le (mode : Nat) : nativeSaveIndexed.getD mode 0 ≤ 2 := by
  have hall : ∀ n ∈ nativeSaveIndexed, n ≤ 2 := by decide
  rw [List.getD_eq_getElem?_getD]
  cases h : nativeSaveIndexed[mode]? with
  | none => exact Nat.zero_le _
  | some n => exact hall n (List.mem_of_getElem? h)

theorem addrIndexed_costs (b : Build) : Costs (-2) 8 (addrIndexed bus b) := by
  refine .free (fetch8_free bus) fun postbyte => .ite ?_ (.ite ?_ ?_)
  · have hone : Costs (-2) 8 (tick 1 : M σ Unit) := (tick_nat 1).mono (by omega) (by omega)
    exact .free regs_free fun _ => hone.value _
  · exact indexedW_costs bus postbyte
  · have hsave : Costs (-2) 0 (indexedSave b (postbyte &&& 0x0F).toNat : M σ Unit) := by
      have hle := nativeSaveIndexed_le (postbyte &&& 0x0F).toNat
      exact .free regs_free fun _ => .guarded ((tick_saves _).mono (by omega) (by omega))
        (by omega) (by omega)
    have hmode : Costs 0 8 (indexedMode bus b (idxReg postbyte) (postbyte &&& 0x0F).toNat
        (postbyte &&& 0x10 != 0) >>= fun ea =>
          if indexedIndirect (postbyte &&& 0x0F).toNat (postbyte &&& 0x10 != 0) then
            memRead16 bus ea else pure ea) :=
      (indexedMode_costs bus b _ _ _).seq (fun _ => .ite (memRead16_free bus _) (.pure _))
        (by omega) (by omega)
    exact hsave.seq (fun _ => hmode) (by omega) (by omega)

theorem effAddr_costs (b : Build) (m : Mode) : Costs (-m.dropped) m.added (effAddr bus b m) := by
  cases m with
  | imm => exact fetch16_free bus
  | direct => exact .free regs_free fun _ => .free (fetch8_free bus) fun _ => .pure _
  | indexed => exact addrIndexed_costs bus b
  | extended => exact fetch16_free bus

theorem operand8_costs (b : Build) (m : Mode) : Costs (-m.dropped) m.added (operand8 bus b m) := by
  unfold operand8
  split
  · rename_i h
    subst h
    exact fetch8_free bus
  · exact (effAddr_costs bus b m).seq (fun _ => memRead_free bus _) (by omega) (by omega)

theorem operand16_costs (b : Build) (m : Mode) :
    Costs (-m.dropped) m.added (operand16 bus b m) := by
  unfold operand16
  split
  · rename_i h
    subst h
    exact fetch16_free bus
  · exact (effAddr_costs bus b m).seq (fun _ => memRead16_free bus _) (by omega) (by omega)

/-! ## Instructions -/

/-- The least and the most a base count of `n` comes to in a mode. -/
def Mode.counts (m : Mode) (n : Int) : Int × Int := (n - m.dropped, n + m.added)

/-- The least and the most an instruction adds before the saving. -/
def Insn.counts : Insn → Int × Int
  | .unaryMem _ m => m.counts (m.pick 0 6 6 7)
  | .unaryAcc _ _ => (2, 2)
  | .jmp m => m.counts (m.pick 0 3 3 4)
  | .jsr m => m.counts (m.pick 0 7 7 8)
  | .bsr => (7, 7)
  | .lbra => (5, 5)
  | .lbsr => (9, 9)
  | .lea _ => Mode.indexed.counts 4
  | .psh _ => (5, 17)
  | .pul _ => (5, 17)
  | .nop => (2, 2)
  | .sync => (4, 4)
  | .daa => (2, 2)
  | .orcc => (3, 3)
  | .andcc => (3, 3)
  | .sex => (2, 2)
  | .exg => (8, 8)
  | .tfr => (6, 6)
  | .rts => (5, 5)
  | .abx => (3, 3)
  | .rti => (6, 17)
  | .cwai => (20, 22)
  | .mul => (11, 11)
  | .swi => (19, 21)
  | .swi2 => (20, 22)
  | .swi3 => (20, 22)
  | .alu8 _ _ m => m.counts (m.pick 2 4 4 5)
  | .st8 _ m => m.counts (m.pick 0 4 4 5)
  | .ld16 _ m n => m.counts n
  | .st16 _ m n => m.counts n
  | .cmp16 _ m n => m.counts n
  | .subd m => m.counts (m.pick 4 6 6 7)
  | .addd m => m.counts (m.pick 4 6 6 7)

/-- An operand or an address, then a part that adds nothing, then the base count. -/
theorem Costs.counted {m : Mode} {n : Nat} {p : M σ α} {f : α → M σ β}
    (h : Costs (-m.dropped) m.added p) (h' : ∀ a, Costs n n (f a)) :
    Costs (m.counts n).1 (m.counts n).2 (p >>= f) := by
  unfold Mode.counts
  exact h.seq h' (by omega) (by omega)

theorem stackCount_le (postbyte : Byte) : stackCount postbyte ≤ 12 := by
  have hone (g : Bool) : (if g then 1 else 0) ≤ 1 := by cases g <;> decide
  unfold stackCount
  have h₁ := hone (postbyte &&& 0x80 != 0)
  have h₂ := hone (postbyte &&& 0x40 != 0)
  have h₃ := hone (postbyte &&& 0x20 != 0)
  have h₄ := hone (postbyte &&& 0x10 != 0)
  have h₅ := hone (postbyte &&& 0x08 != 0)
  have h₆ := hone (postbyte &&& 0x04 != 0)
  have h₇ := hone (postbyte &&& 0x02 != 0)
  have h₈ := hone (postbyte &&& 0x01 != 0)
  dsimp only
  omega

theorem doPsh_free (st : Stack) (postbyte : Byte) : Costs 0 0 (doPsh bus st postbyte) := by
  have h8 (g : Bool) (v : Byte) : Costs 0 0 (Act.guarded g (push8 bus st v)) :=
    .guarded (push8_free bus st v) (Int.le_refl _) (Int.le_refl _)
  have h16 (g : Bool) (v : Word) : Costs 0 0 (Act.guarded g (push16 bus st v)) :=
    .guarded (push16_free bus st v) (Int.le_refl _) (Int.le_refl _)
  exact .free regs_free fun _ => .free (h16 _ _) fun _ => .free (h16 _ _) fun _ =>
    .free (h16 _ _) fun _ => .free (h16 _ _) fun _ => .free (h8 _ _) fun _ =>
    .free (h8 _ _) fun _ => .free (h8 _ _) fun _ => h8 _ _

theorem doPul_free (st : Stack) (postbyte : Byte) : Costs 0 0 (doPul bus st postbyte) := by
  have h8 (g : Bool) (put : Byte → Regs → Regs) :
      Costs 0 0 (Act.guarded g (pullInto8 bus st put)) :=
    .guarded (pullInto8_free bus st put) (Int.le_refl _) (Int.le_refl _)
  have h16 (g : Bool) (put : Word → Regs → Regs) :
      Costs 0 0 (Act.guarded g (pullInto16 bus st put)) :=
    .guarded (pullInto16_free bus st put) (Int.le_refl _) (Int.le_refl _)
  exact .free (h8 _ _) fun _ => .free (h8 _ _) fun _ => .free (h8 _ _) fun _ =>
    .free (h8 _ _) fun _ => .free (h16 _ _) fun _ => .free (h16 _ _) fun _ =>
    .free (h16 _ _) fun _ => h16 _ _

theorem rti_costs (b : Build) : Costs 6 17 (rti bus b) := by
  have h8 (put : Byte → Regs → Regs) : Costs 0 0 (pullInto8 bus .s put) := pullInto8_free bus .s put
  have h16 (put : Word → Regs → Regs) : Costs 0 0 (pullInto16 bus .s put) :=
    pullInto16_free bus .s put
  refine .free (h8 _) fun _ => .free regs_free fun r => .ite ?_ ?_
  · refine .free (h8 _) fun _ => .free (h8 _) fun _ => ?_
    refine (pullEf_costs bus b).seq (fun _ => .free (h8 _) fun _ => .free (h16 _) fun _ =>
      .free (h16 _) fun _ => .free (h16 _) fun _ => .free (h16 _) fun _ => tick_nat 15)
      (by omega) (by omega)
  · exact .free (h16 _) fun _ => (tick_nat 6).mono (by omega) (by omega)

theorem cwai_costs (b : Build) : Costs 20 22 (cwai bus b) :=
  .free (fetch8_free bus) fun _ => .free (setRegs_free _) fun _ =>
    (pushEntire_costs bus b).seq (fun _ => .free (setRegs_free _) fun _ => tick_nat 20)
      (by omega) (by omega)

theorem exec_costs (b : Build) (i : Insn) : Costs i.counts.1 i.counts.2 (exec bus b i) := by
  have hpushPc : Costs 0 0 (pushPc bus) := .free regs_free fun _ => push16_free bus .s _
  cases i with
  | unaryMem op m =>
    have hat (ea : Word) : Costs 0 0 (unaryMemAt bus op ea) := by
      have hmodify (op : Unary) : Costs 0 0 (memRead bus ea >>= fun val => regs >>= fun r =>
          memWrite bus ea (unary8 op val r.cc).1 >>= fun _ =>
            setRegs (Regs.mapCc fun cc => (unary8 op val cc).2)) :=
        .free (memRead_free bus _) fun _ => .free regs_free fun _ =>
          .free (memWrite_free bus _ _) fun _ => setRegs_free _
      cases op with
      | clr => exact .free (memWrite_free bus _ _) fun _ => setRegs_free _
      | tst => exact .free (memRead_free bus _) fun _ => setRegs_free _
      | _ => exact hmodify _
    exact (effAddr_costs bus b m).counted fun ea => .free (hat ea) fun _ => tick_nat _
  | unaryAcc op acc => exact .free (setRegs_free _) fun _ => tick_nat 2
  | jmp m =>
    exact (effAddr_costs bus b m).counted fun _ => .free (setRegs_free _) fun _ => tick_nat _
  | jsr m =>
    exact (effAddr_costs bus b m).counted fun _ => .free hpushPc fun _ =>
      .free (setRegs_free _) fun _ => tick_nat _
  | bsr =>
    exact .free (fetch8_free bus) fun _ => .free hpushPc fun _ => .free (setRegs_free _) fun _ =>
      tick_nat 7
  | lbra => exact .free (fetch16_free bus) fun _ => .free (setRegs_free _) fun _ => tick_nat 5
  | lbsr =>
    exact .free (fetch16_free bus) fun _ => .free hpushPc fun _ => .free (setRegs_free _) fun _ =>
      tick_nat 9
  | lea reg =>
    exact (effAddr_costs bus b .indexed).counted fun _ => .free (setRegs_free _) fun _ => tick_nat 4
  | psh st =>
    refine .free (fetch8_free bus) fun postbyte => .free (doPsh_free bus st postbyte) fun _ => ?_
    have hle := stackCount_le postbyte
    exact (tick_nat _).mono (by show (5 : Int) ≤ _; omega) (by show _ ≤ (17 : Int); omega)
  | pul st =>
    refine .free (fetch8_free bus) fun postbyte => .free (doPul_free bus st postbyte) fun _ => ?_
    have hle := stackCount_le postbyte
    exact (tick_nat _).mono (by show (5 : Int) ≤ _; omega) (by show _ ≤ (17 : Int); omega)
  | nop => exact tick_nat 2
  | sync => exact .free (setRegs_free _) fun _ => tick_nat 4
  | daa => exact .free (setRegs_free _) fun _ => tick_nat 2
  | orcc => exact .free (fetch8_free bus) fun _ => .free (setRegs_free _) fun _ => tick_nat 3
  | andcc => exact .free (fetch8_free bus) fun _ => .free (setRegs_free _) fun _ => tick_nat 3
  | sex => exact .free (setRegs_free _) fun _ => tick_nat 2
  | exg => exact .free (fetch8_free bus) fun _ => .free (setRegs_free _) fun _ => tick_nat 8
  | tfr => exact .free (fetch8_free bus) fun _ => .free (setRegs_free _) fun _ => tick_nat 6
  | rts => exact .free (pullInto16_free bus .s _) fun _ => tick_nat 5
  | abx => exact .free (setRegs_free _) fun _ => tick_nat 3
  | rti => exact rti_costs bus b
  | cwai => exact cwai_costs bus b
  | mul => exact .free (setRegs_free _) fun _ => tick_nat 11
  | swi => exact softwareInterrupt_costs bus b _ _ 19
  | swi2 => exact softwareInterrupt_costs bus b _ _ 20
  | swi3 => exact softwareInterrupt_costs bus b _ _ 20
  | alu8 op acc m =>
    exact (operand8_costs bus b m).counted fun _ => .free (setRegs_free _) fun _ => tick_nat _
  | st8 acc m =>
    exact (effAddr_costs bus b m).counted fun _ => .free regs_free fun _ =>
      .free (memWrite_free bus _ _) fun _ => .free (setRegs_free _) fun _ => tick_nat _
  | ld16 reg m n =>
    have harm : Costs 0 0 (Act.guarded (reg == .s) (setRegs fun r => { r with nmiArmed := true }) :
        M σ Unit) := .guarded (setRegs_free _) (Int.le_refl _) (Int.le_refl _)
    have htick : Costs n n (tick (n : Cycles) >>= fun _ => Act.guarded (reg == .s)
        (setRegs fun r => { r with nmiArmed := true }) : M σ Unit) :=
      (tick_nat n).seq (fun _ => harm) (by omega) (by omega)
    exact (operand16_costs bus b m).counted fun _ => .free (setRegs_free _) fun _ => htick
  | st16 reg m n =>
    exact (effAddr_costs bus b m).counted fun _ => .free regs_free fun _ =>
      .free (memWrite16_free bus _ _) fun _ => .free (setRegs_free _) fun _ => tick_nat n
  | cmp16 reg m n =>
    exact (operand16_costs bus b m).counted fun _ => .free (setRegs_free _) fun _ => tick_nat n
  | subd m =>
    exact (operand16_costs bus b m).counted fun _ => .free (setRegs_free _) fun _ => tick_nat _
  | addd m =>
    exact (operand16_costs bus b m).counted fun _ => .free (setRegs_free _) fun _ => tick_nat _

/-! ## Instructions of the 6309 -/

/-- The same for these; TFM is counted together with its prefix bytes (`hTfm_counts`). -/
def HdInsn.counts : HdInsn → Int × Int
  | .memImm _ m => m.counts (m.pick 0 6 7 7)
  | .sexw => (4, 4)
  | .ldqImm => (5, 5)
  | .regReg _ => (4, 4)
  | .pshw _ => (6, 6)
  | .pulw _ => (6, 6)
  | .unaryD _ => (3, 3)
  | .unaryW _ => (3, 3)
  | .aluW _ m => m.counts (m.pick 5 7 7 8)
  | .aluD _ m => m.counts (m.pick 5 7 7 8)
  | .ldw m => m.counts (m.pick 4 6 6 7)
  | .stw m => m.counts (m.pick 4 6 6 7)
  | .ldq m => m.counts (m.pick 8 8 8 9)
  | .stq m => m.counts (m.pick 8 8 8 9)
  | .bitOp _ => (7, 8)
  | .tfm _ => (0, 0)
  | .bitmd => (4, 4)
  | .ldmd => (5, 5)
  | .unaryE _ => (3, 3)
  | .unaryF _ => (3, 3)
  | .aluE _ m => m.counts (m.pick 3 5 5 6)
  | .aluF _ m => m.counts (m.pick 3 5 5 6)
  | .ste m => m.counts (m.pick 3 5 5 6)
  | .stf m => m.counts (m.pick 3 5 5 6)
  | .divd m => (m.pick 25 27 27 28 - 13 - m.dropped, m.pick 25 27 27 28 + 2 + m.added)
  | .divq m => (m.pick 34 36 36 37 - 21 - m.dropped, m.pick 34 36 36 37 + 2 + m.added)
  | .muld m => m.counts (m.pick 28 30 30 31)

theorem hd6309Trap_costs (mdBit : Byte) : Costs 17 19 (hd6309Trap bus mdBit) :=
  .free (setRegs_free _) fun _ => .free (.modify _) fun _ =>
    softwareInterrupt_costs bus .hd6309 _ _ 17

theorem divdResult_cycles (v : Byte) (r : Regs) :
    -13 ≤ (divdResult v r).2 ∧ (divdResult v r).2 ≤ 2 := by
  have hn := r.d.msb.toNat_le
  have hv := v.msb.toNat_le
  rw [divdResult_eq]
  split
  · constructor <;> dsimp only <;> omega
  · dsimp only
    split
    · constructor <;> dsimp only <;> omega
    · constructor <;> dsimp only <;> omega

theorem divqResult_cycles (v : Word) (r : Regs) :
    -21 ≤ (divqResult v r).2 ∧ (divqResult v r).2 ≤ 2 := by
  have hv := v.msb.toNat_le
  have hn := (quad r).msb.toNat_le
  rw [divqResult_eq]
  split
  · constructor <;> dsimp only <;> omega
  · dsimp only
    split
    · constructor <;> dsimp only <;> omega
    · constructor <;> dsimp only <;> omega

/-- A division by zero, at `zero` below the base count, costs the trap as well. -/
theorem divide_costs {n : Nat} {operand : M σ (BitVec n)} {m : Mode}
    {result : BitVec n → Regs → Regs × Int} {base zero less : Int}
    (hoperand : Costs (-m.dropped) m.added operand)
    (hresult : ∀ v r, -less ≤ (result v r).2 ∧ (result v r).2 ≤ 2)
    (hzero : zero ≤ less + 17) (hzero' : 17 ≤ zero) :
    Costs (base - less - m.dropped) (base + 2 + m.added) (divide bus operand result base zero) := by
  have hrest (divisor : BitVec n) : Costs (base - less) (base + 2) (if divisor = 0 then do
        setRegs (Regs.mapCc fun cc => ccSet flagZ (ccClr (flagN ||| flagV) cc))
        tick (BitVec.ofInt 32 (base - zero))
        hd6309Trap bus 0x80
      else do
        let r ← regs
        setRegs fun r => (result divisor r).1
        tick (BitVec.ofInt 32 (base + (result divisor r).2)) : M σ Unit) := by
    refine .ite ?_ ?_
    · exact .free (setRegs_free _) fun _ =>
        (tick_costs rfl).seq (fun _ => hd6309Trap_costs bus _) (by omega) (by omega)
    · refine .free regs_free fun r => .free (setRegs_free _) fun _ => ?_
      obtain ⟨hlo, hhi⟩ := hresult divisor r
      exact (tick_costs rfl).mono (by omega) (by omega)
  exact hoperand.seq hrest (by omega) (by omega)

theorem hBitOp_costs (op : Nat) : Costs 7 8 (hBitOp bus op) := by
  refine .free (fetch8_free bus) fun _ =>
    .free (.free regs_free fun _ => .free (fetch8_free bus) fun _ => .pure _) fun _ =>
    .free (memRead_free bus _) fun _ => .free regs_free fun _ => .ite ?_ ?_
  · exact .free (memWrite_free bus _ _) fun _ => (tick_nat 8).mono (by omega) (by omega)
  · exact .free (setRegs_free _) fun _ => (tick_nat 7).mono (by omega) (by omega)

/-- The three tables hold TFM at `$38` to `$3B` of page 3 only. -/
theorem hd6309Exec_costs (insnPc : Word) {i : HdInsn} (h : ∀ op, i ≠ .tfm op) :
    Costs i.counts.1 i.counts.2 (hd6309Exec bus insnPc i) := by
  cases i with
  | tfm op => exact absurd rfl (h op)
  | memImm op m =>
    refine .free (fetch8_free bus) fun _ => (effAddr_costs bus .hd6309 m).counted fun _ => ?_
    exact (tick_nat _).seq (fun _ => .free (memRead_free bus _) fun _ => .free (setRegs_free _)
      fun _ => .guarded (memWrite_free bus _ _) (Int.le_refl _) (Int.le_refl _))
      (by omega) (by omega)
  | sexw => exact .free (setRegs_free _) fun _ => tick_nat 4
  | ldqImm =>
    exact .free (fetch16_free bus) fun _ => .free (fetch16_free bus) fun _ =>
      .free (setRegs_free _) fun _ => tick_nat 5
  | regReg op => exact .free (fetch8_free bus) fun _ => .free (setRegs_free _) fun _ => tick_nat 4
  | pshw st =>
    exact .free regs_free fun _ => .free (push8_free bus st _) fun _ =>
      .free (push8_free bus st _) fun _ => tick_nat 6
  | pulw st =>
    exact .free (pullInto8_free bus st _) fun _ => .free (pullInto8_free bus st _) fun _ =>
      tick_nat 6
  | unaryD op => exact .free (setRegs_free _) fun _ => tick_nat 3
  | unaryW op => exact .free (setRegs_free _) fun _ => tick_nat 3
  | aluW op m =>
    exact (operand16_costs bus .hd6309 m).counted fun _ => .free (setRegs_free _) fun _ =>
      tick_nat _
  | aluD op m =>
    exact (operand16_costs bus .hd6309 m).counted fun _ => .free (setRegs_free _) fun _ =>
      tick_nat _
  | ldw m =>
    exact (operand16_costs bus .hd6309 m).counted fun _ => .free (setRegs_free _) fun _ =>
      tick_nat _
  | stw m =>
    exact (effAddr_costs bus .hd6309 m).counted fun _ => .free regs_free fun _ =>
      .free (memWrite16_free bus _ _) fun _ => .free (setRegs_free _) fun _ => tick_nat _
  | ldq m =>
    exact (effAddr_costs bus .hd6309 m).counted fun _ => .free (memRead16_free bus _) fun _ =>
      .free (memRead16_free bus _) fun _ => .free (setRegs_free _) fun _ => tick_nat _
  | stq m =>
    exact (effAddr_costs bus .hd6309 m).counted fun _ => .free regs_free fun _ =>
      .free (memWrite16_free bus _ _) fun _ => .free (memWrite16_free bus _ _) fun _ =>
      .free (setRegs_free _) fun _ => tick_nat _
  | bitOp op => exact hBitOp_costs bus op
  | bitmd => exact .free (fetch8_free bus) fun _ => .free (setRegs_free _) fun _ => tick_nat 4
  | ldmd => exact .free (fetch8_free bus) fun _ => .free (setRegs_free _) fun _ => tick_nat 5
  | unaryE op => exact .free (setRegs_free _) fun _ => tick_nat 3
  | unaryF op => exact .free (setRegs_free _) fun _ => tick_nat 3
  | aluE op m =>
    exact (operand8_costs bus .hd6309 m).counted fun _ => .free (setRegs_free _) fun _ =>
      tick_nat _
  | aluF op m =>
    exact (operand8_costs bus .hd6309 m).counted fun _ => .free (setRegs_free _) fun _ =>
      tick_nat _
  | ste m =>
    exact (effAddr_costs bus .hd6309 m).counted fun _ => .free regs_free fun _ =>
      .free (memWrite_free bus _ _) fun _ => .free (setRegs_free _) fun _ => tick_nat _
  | stf m =>
    exact (effAddr_costs bus .hd6309 m).counted fun _ => .free regs_free fun _ =>
      .free (memWrite_free bus _ _) fun _ => .free (setRegs_free _) fun _ => tick_nat _
  | divd m =>
    exact divide_costs bus (operand8_costs bus .hd6309 m) divdResult_cycles (by decide) (by decide)
  | divq m =>
    exact divide_costs bus (operand16_costs bus .hd6309 m) divqResult_cycles (by decide) (by decide)
  | muld m =>
    exact (operand16_costs bus .hd6309 m).counted fun _ => .free (setRegs_free _) fun _ =>
      tick_nat _

/-! ## The savings -/

/-- The most an instruction adds after its prefix bytes. -/
def insnMost : Nat := 48

/-- The saving leaves a cycle. -/
def covers (save : Nat) (n : Int × Int) : Bool := decide ((save : Int) < n.1 ∧ n.2 ≤ insnMost)

def Op1.covers (save : Nat) : Op1 → Bool
  | .insn i => Cpu.covers save i.counts
  | _ => true

def HdInsn.isTfm : HdInsn → Bool
  | .tfm _ => true
  | _ => false

/-- TFM has no saving of its own. -/
def HdInsn.covers (save : Nat) (i : HdInsn) : Bool :=
  if i.isTfm then save == 0 else Cpu.covers save i.counts

theorem page1_covered (op : Byte) :
    (page1.get op).all (Op1.covers (nativeSaveP1.get op)) = true := by
  revert op
  decide +kernel

theorem page2_covered (op : Byte) :
    (page2.get op).all (fun i => covers (nativeSaveP2.get op) i.counts) = true := by
  revert op
  decide +kernel

theorem page3_covered (op : Byte) :
    (page3.get op).all (fun i => covers (nativeSaveP3.get op) i.counts) = true := by
  revert op
  decide +kernel

theorem hd6309Page1_covered (op : Byte) :
    (hd6309Page1.get op).all (fun i => !i.isTfm && i.covers (nativeSaveP1.get op)) = true := by
  revert op
  decide +kernel

theorem hd6309Page2_covered (op : Byte) :
    (hd6309Page2.get op).all (fun i => !i.isTfm && i.covers (nativeSaveP2.get op)) = true := by
  revert op
  decide +kernel

/-- On page 3 every TFM is an opcode the 6809 does not have. -/
theorem hd6309Page3_covered (op : Byte) :
    (hd6309Page3.get op).all (fun i => i.covers (nativeSaveP3.get op) &&
      (!i.isTfm || (page3.get op).isNone)) = true := by
  revert op
  decide +kernel

theorem nativeSave_costs (b : Build) (save : OpTable) (op : Byte) :
    Costs (-(save.get op : Nat)) 0 (nativeSave b save op : M σ Unit) :=
  .free regs_free fun _ =>
    .guarded ((tick_saves _).mono (by omega) (by omega)) (by omega) (by omega)

theorem Costs.saved {m : M σ Unit} {n : Int × Int} {b : Build} {save : OpTable} {op : Byte}
    (h : Costs n.1 n.2 m) (hc : covers (save.get op) n = true) :
    Costs 1 insnMost (m >>= fun _ => nativeSave b save op) := by
  obtain ⟨hlo, hhi⟩ := of_decide_eq_true hc
  exact h.seq (fun _ => nativeSave_costs b save op) (by omega) (by omega)

theorem hdCovered {save : Nat} {i : HdInsn} (h : (!i.isTfm && i.covers save) = true) :
    (∀ op, i ≠ .tfm op) ∧ covers save i.counts = true := by
  obtain ⟨htfm, hc⟩ := Bool.and_eq_true_iff.mp h
  refine ⟨?_, ?_⟩
  · rintro op rfl
    cases htfm
  · rw [HdInsn.covers, if_neg (by simpa using htfm)] at hc
    exact hc

/-- An opcode that is not TFM. -/
theorem executeDefault_costs (b : Build) {extra : OpMap HdInsn} {save : OpTable} {nop trap : Nat}
    (insnPc : Word) {op : Byte} (hnop : 1 ≤ nop ∧ nop ≤ 24) (htrap : 1 ≤ trap ∧ trap ≤ 24)
    (h : ∀ i, extra.get op = some i → (∀ t, i ≠ .tfm t) ∧ covers (save.get op) i.counts = true) :
    Costs 1 insnMost (executeDefault bus b extra save nop trap insnPc op) := by
  have hmost : (insnMost : Int) = 48 := rfl
  unfold executeDefault
  cases b with
  | mc6809 => exact (tick_nat nop).mono (by omega) (by omega)
  | hd6309 =>
    dsimp only
    split
    · rename_i i hi
      obtain ⟨htfm, hc⟩ := h i hi
      exact (hd6309Exec_costs bus insnPc htfm).saved hc
    · exact (tick_nat trap).seq (fun _ => hd6309Trap_costs bus _) (by omega) (by omega)

theorem executePage2_costs (b : Build) (op : Byte) : Costs 1 insnMost (executePage2 bus b op) := by
  have hmost : (insnMost : Int) = 48 := rfl
  unfold executePage2
  split
  · refine .free (fetch16_free bus) fun _ => .free regs_free fun r => .ite ?_ ?_
    · refine .free (setRegs_free _) fun _ => ?_
      split
      · exact (tick_nat 5).mono (by omega) (by omega)
      · exact (tick_nat 6).mono (by omega) (by omega)
    · exact (tick_nat 5).mono (by omega) (by omega)
  · split
    · rename_i i hi
      have hc := page2_covered op
      rw [hi] at hc
      exact (exec_costs bus b i).saved hc
    · refine executeDefault_costs bus b 0 (by decide) (by decide) fun i hi => hdCovered ?_
      have hc := hd6309Page2_covered op
      rw [hi] at hc
      exact hc

theorem executePage3_costs (b : Build) (insnPc : Word) {op : Byte}
    (h : ∀ t, hd6309Page3.get op ≠ some (.tfm t)) :
    Costs 1 insnMost (executePage3 bus b insnPc op) := by
  unfold executePage3
  split
  · rename_i i hi
    have hc := page3_covered op
    rw [hi] at hc
    exact (exec_costs bus b i).saved hc
  · refine executeDefault_costs bus b insnPc (by decide) (by decide) fun i hi => hdCovered ?_
    have hc := hd6309Page3_covered op
    rw [hi] at hc h
    have htfm : i.isTfm = false := by
      cases i with
      | tfm t => exact absurd rfl (h t)
      | _ => rfl
    simpa [htfm] using hc

/-! ## TFM and its prefix bytes -/

theorem fetch8_kept (c : Core σ) :
    (fetch8 bus c).out.cycles = 0 ∧
      (fetch8 bus c).st.regs = { c.regs with pc := c.regs.pc + 1 } ∧
      (fetch8 bus c).st.tfm = c.tfm := by
  unfold fetch8 regs setRegs
  rw [Act.gets_bind, Act.modify_bind, memRead_eq]
  exact ⟨rfl, rfl, rfl⟩

/-- Each prefix byte skipped costs a cycle and moves PC. -/
theorem skipPrefixes_counts (n : Nat) (op : Byte) (c : Core σ) :
    ∃ k ≤ n, (skipPrefixes bus n op c).out.cycles = BitVec.ofNat 32 k ∧
      (skipPrefixes bus n op c).st.regs =
        { c.regs with pc := c.regs.pc + BitVec.ofNat 16 k } ∧
      (skipPrefixes bus n op c).st.tfm = c.tfm := by
  have hstay : c.regs = { c.regs with pc := c.regs.pc + BitVec.ofNat 16 0 } := by
    rw [BitVec.add_zero]
  induction n generalizing op c with
  | zero => exact ⟨0, Nat.le_refl _, rfl, hstay, rfl⟩
  | succ n ih =>
    unfold skipPrefixes
    split
    · obtain ⟨hcost, hregs, htfm⟩ := fetch8_kept bus c
      obtain ⟨k, hk, hcost', hregs', htfm'⟩ := ih (fetch8 bus c).val (fetch8 bus c).st (by simp)
      refine ⟨k + 1, by omega, ?_, ?_, htfm'.trans htfm⟩
      · have hone : (tick 1 (fetch8 bus c).st : Outcome Cost (Core σ) Unit).out.cycles = 1 := rfl
        rw [Act.bind_out, Act.bind_out, Cost.mul_cycles, Cost.mul_cycles, hcost, hone]
        show (0 : Cycles) + (1 + (skipPrefixes bus n _ (fetch8 bus c).st).out.cycles) = _
        rw [hcost', BitVec.ofNat_add]
        bv_omega
      · refine hregs'.trans ?_
        rw [hregs, BitVec.ofNat_add]
        dsimp only
        congr 1
        bv_omega
    · exact ⟨0, Nat.zero_le _, rfl, hstay, rfl⟩

theorem prefixed_counts (b : Build) (fuel : Nat) (c : Core σ) :
    ∃ k, (b = .mc6809 → k = 0) ∧ k ≤ fuel ∧
      (prefixed bus b fuel c).out.cycles = BitVec.ofNat 32 k ∧
      (prefixed bus b fuel c).st.regs =
        { c.regs with pc := c.regs.pc + BitVec.ofNat 16 (k + 1) } ∧
      (prefixed bus b fuel c).st.tfm = c.tfm := by
  obtain ⟨hcost, hregs, htfm⟩ := fetch8_kept bus c
  unfold prefixed
  cases b with
  | mc6809 =>
    refine ⟨0, fun _ => rfl, Nat.zero_le _, ?_, hregs, htfm⟩
    rw [Act.bind_out, Cost.mul_cycles, hcost]
    rfl
  | hd6309 =>
    obtain ⟨k, hk, hcost', hregs', htfm'⟩ :=
      skipPrefixes_counts bus fuel (fetch8 bus c).val (fetch8 bus c).st
    refine ⟨k, nofun, hk, ?_, ?_, htfm'.trans htfm⟩
    · rw [Act.bind_out, Cost.mul_cycles, hcost]
      exact (BitVec.zero_add _).trans hcost'
    · rw [Act.bind_st]
      refine hregs'.trans ?_
      rw [hregs, BitVec.ofNat_add]
      dsimp only
      congr 1
      bv_omega

theorem tfmDone_free : Costs 0 0 (tfmDone : M σ Unit) :=
  .free (setRegs_free _) fun _ => .modify _

theorem tfmByte_costs (op : Nat) (start : Word) (src dst : Reg16) :
    Costs 3 3 (tfmByte bus op start src dst) := by
  refine .free regs_free fun _ => .free (memRead_free bus _) fun _ =>
    .free (memWrite_free bus _ _) fun _ => .free (setRegs_free _) fun _ => ?_
  exact (tick_nat 3).seq (fun _ => .free regs_free fun _ => .ite tfmDone_free (setRegs_free _))
    (by omega) (by omega)

/-- A TFM once its registers are decoded. -/
def tfmMove (op : Nat) (start : Word) (src dst : Option Reg16) : M σ Unit :=
  match src, dst with
  | some src, some dst => do
      let r ← regs
      if r.w = 0 then tfmDone else tfmByte bus op start src dst
  | _, _ => hd6309Trap bus 0x40

theorem tfmMove_counts (op : Nat) (start : Word) (src dst : Option Reg16) (c : Core σ) :
    ∃ n : Int, 0 ≤ n ∧ n ≤ 19 ∧ (tfmMove bus op start src dst c).out.cycles = BitVec.ofInt 32 n ∧
      (n = 0 → c.regs.w = 0 ∧ (tfmMove bus op start src dst c).st.tfm.busy = false) := by
  have htrap : ∃ n : Int, 0 ≤ n ∧ n ≤ 19 ∧
      (hd6309Trap bus 0x40 c).out.cycles = BitVec.ofInt 32 n ∧
      (n = 0 → c.regs.w = 0 ∧ (hd6309Trap bus 0x40 c).st.tfm.busy = false) := by
    obtain ⟨n, hlo, hhi, hcost⟩ := hd6309Trap_costs bus 0x40 c
    exact ⟨n, by omega, hhi, hcost, fun h => by omega⟩
  cases src with
  | none => exact htrap
  | some src =>
    cases dst with
    | none => exact htrap
    | some dst =>
      unfold tfmMove regs
      dsimp only
      rw [Act.gets_bind]
      split
      · rename_i hw
        exact ⟨0, by omega, by omega, rfl, fun _ => ⟨hw, rfl⟩⟩
      · obtain ⟨n, hlo, hhi, hcost⟩ := tfmByte_costs bus op start src dst c
        exact ⟨n, by omega, by omega, hcost, fun h => by omega⟩

/-- A sum of counts, one of which is taken back, is what it is without wrapping. -/
theorem sum_counts {k t : Nat} {p n : Int} (h : k + (p + n) = t) :
    BitVec.ofNat 32 k + (0 + (BitVec.ofInt 32 p + BitVec.ofInt 32 n)) = BitVec.ofNat 32 t := by
  have hzero : (0 : Cycles) + (BitVec.ofInt 32 p + BitVec.ofInt 32 n) =
      BitVec.ofInt 32 (p + n) := by
    rw [BitVec.ofInt_add]
    exact BitVec.zero_add _
  rw [hzero, ← BitVec.ofInt_natCast, ← BitVec.ofInt_add, h]
  rfl

/-- TFM behind `k` repeated prefix bytes: it takes back no more than they cost. -/
theorem hTfm_counts (op : Nat) {start : Word} {k : Nat} (hk : k ≤ 0x10000) {c : Core σ}
    (hpc : c.regs.pc = start + BitVec.ofNat 16 (k + 2)) :
    ∃ n : Nat, n ≤ 0x10000 + insnMost ∧
      BitVec.ofNat 32 k + (hTfm bus op start c).out.cycles = BitVec.ofNat 32 n ∧
      (n = 0 → c.tfm.busy = true ∧ c.tfm.pc = start ∧ c.regs.w = 0 ∧
        (hTfm bus op start c).st.tfm.busy = false) := by
  have hmost : insnMost = 48 := rfl
  obtain ⟨hcost, hregs, htfm⟩ := fetch8_kept bus c
  obtain ⟨hi, lo, hbody⟩ : ∃ src dst, hTfm bus op start c =
      (fetch8 bus >>= fun _ => tfmEnter start >>= fun _ => tfmMove bus op start src dst) c :=
    ⟨_, _, rfl⟩
  have hlen : (fetch8 bus c).st.regs.pc - start = BitVec.ofNat 16 (k + 3) := by
    rw [hregs, hpc, BitVec.ofNat_add (k + 2) 1]
    bv_omega
  rw [hbody, Act.bind_out, Act.bind_out, Act.bind_st, Act.bind_st, Cost.mul_cycles,
    Cost.mul_cycles, hcost]
  by_cases hresumes : c.tfm.busy = true ∧ c.tfm.pc = start
  · have hback : (3 : Cycles) - (BitVec.ofNat 16 (k + 3)).setWidth 32 =
        BitVec.ofInt 32 (3 - ((k + 3) % 0x10000 : Nat)) := by
      rw [Int.sub_eq_add_neg, BitVec.ofInt_add, BitVec.ofInt_neg, BitVec.ofInt_natCast,
        ← BitVec.sub_eq_add_neg]
      congr 1
      apply BitVec.eq_of_toNat_eq
      simp [BitVec.toNat_setWidth]
    have henter : tfmEnter start (fetch8 bus c).st =
        ⟨(), ⟨BitVec.ofInt 32 (3 - ((k + 3) % 0x10000 : Nat)), []⟩, (fetch8 bus c).st⟩ := by
      unfold tfmEnter getTfm regs
      rw [Act.gets_bind, Act.gets_bind, htfm, if_pos (by simp [hresumes]), hlen, hback]
      rfl
    obtain ⟨n, hlo, hhi, hmove, hzero⟩ := tfmMove_counts bus op start hi lo (fetch8 bus c).st
    rw [henter]
    dsimp only
    rw [hmove]
    refine ⟨((k + 3) / 0x10000 * 0x10000 + n).toNat, by omega, sum_counts (by omega), fun h => ?_⟩
    obtain ⟨hw, hbusy⟩ := hzero (by omega)
    rw [hregs] at hw
    exact ⟨hresumes.1, hresumes.2, hw, hbusy⟩
  · have henter : tfmEnter start (fetch8 bus c).st = ⟨(), ⟨BitVec.ofInt 32 6, []⟩,
        ⟨(fetch8 bus c).st.regs.mapCc (ccClr flagZ), ⟨true, start⟩, (fetch8 bus c).st.env⟩⟩ := by
      unfold tfmEnter getTfm regs
      rw [Act.gets_bind, Act.gets_bind, htfm, if_neg (by simpa using hresumes)]
      rfl
    obtain ⟨n, hlo, hhi, hmove, -⟩ := tfmMove_counts bus op start hi lo
      ⟨(fetch8 bus c).st.regs.mapCc (ccClr flagZ), ⟨true, start⟩, (fetch8 bus c).st.env⟩
    rw [henter]
    dsimp only
    rw [hmove]
    exact ⟨(k + (6 + n)).toNat, by omega, sum_counts (by omega), fun h => by omega⟩

/-! ## One instruction -/

/-- The most an instruction adds with its prefix bytes: the 6309 skips repeated ones, and
there are at most as many as bytes. -/
def insnMax : Build → Nat
  | .mc6809 => insnMost
  | .hd6309 => 0x10000 + insnMost

theorem executeDefault1_costs (b : Build) (op : Byte) :
    Costs 1 insnMost (executeDefault bus b hd6309Page1 nativeSaveP1 2 3 0 op) := by
  refine executeDefault_costs bus b 0 (by decide) (by decide) fun i hi => hdCovered ?_
  have hc := hd6309Page1_covered op
  rw [hi] at hc
  exact hc

theorem shortBranch_costs (cond : Nat) : Costs 3 3 (shortBranch bus cond) := by
  have hbranch (offset : Byte) : Costs 0 0 (branchOn cond offset : M σ Flow) := by
    refine .free regs_free fun _ => .ite ?_ (.pure _)
    exact .free (setRegs_free _) fun _ => .free regs_free fun _ => .ite (.pure _) (.pure _)
  exact .free (fetch8_free bus) fun offset =>
    (tick_nat 3).seq (fun _ => hbranch offset) (by omega) (by omega)

/-- Page 1 but for the prefixes. -/
theorem executeOp_costs (b : Build) (fuel : Nat) {op : Byte} (h2 : page1.get op ≠ some .page2)
    (h3 : page1.get op ≠ some .page3) : Costs 1 insnMost (executeOp bus b fuel op) := by
  have hmost : (insnMost : Int) = 48 := rfl
  unfold executeOp
  split
  · rename_i i hi
    have hc := page1_covered op
    rw [hi] at hc
    have hsaved := (exec_costs bus b i).saved (b := b) hc
    intro c
    obtain ⟨n, hlo, hhi, hcost⟩ := hsaved.value Flow.next c
    refine ⟨n, hlo, hhi, ?_⟩
    rw [← hcost, bind_assoc]
  · exact (shortBranch_costs bus _).mono (by omega) (by omega)
  · rename_i hi
    exact absurd hi h2
  · rename_i hi
    exact absurd hi h3
  · exact (executeDefault1_costs bus b op).value _

/-- A prefixed instruction that was reached. -/
theorem afterPrefix_reached {f : Byte → M σ Unit} {op : Option Byte} {c : Core σ}
    (h : (afterPrefix f op c).val ≠ .stuck) :
    ∃ v, op = some v ∧ (afterPrefix f op c).out.cycles = (f v c).out.cycles ∧
      (afterPrefix f op c).st = (f v c).st := by
  cases op with
  | none => exact absurd rfl h
  | some v =>
    refine ⟨v, rfl, ?_, rfl⟩
    unfold afterPrefix
    rw [Act.bind_out, Cost.mul_cycles]
    exact BitVec.add_zero _

/-- What an instruction that started at `c` and led to `c'` has added: never more than the
most, and nothing only if it was a TFM that went on with W zero, and that is the end of it. -/
def Counted (b : Build) (c c' : Core σ) (cycles : Cycles) : Prop :=
  ∃ n : Nat, n ≤ insnMax b ∧ cycles = BitVec.ofNat 32 n ∧
    (n = 0 → Resumes c ∧ c.regs.w = 0 ∧ c'.tfm.busy = false)

/-- A part that costs at least a cycle, behind `k` repeated prefix bytes. -/
theorem Counted.of_costs {b : Build} {m : M σ α} {c₀ c c' : Core σ} {k : Nat}
    (h : Costs 1 insnMost m) (hb : b = .mc6809 → k = 0) (hk : k ≤ 0x10000) :
    Counted b c₀ c' (BitVec.ofNat 32 k + (m c).out.cycles) := by
  obtain ⟨n, hlo, hhi, hcost⟩ := h c
  have hmax : k + insnMost ≤ insnMax b := by
    cases b with
    | mc6809 => rw [hb rfl, Nat.zero_add]; exact Nat.le_refl _
    | hd6309 => exact Nat.add_le_add_right hk _
  refine ⟨k + n.toNat, by omega, ?_, fun h => by omega⟩
  have hn : BitVec.ofInt 32 n = BitVec.ofNat 32 n.toNat := by
    rw [← BitVec.ofInt_natCast]
    congr 1
    omega
  rw [hcost, hn, BitVec.ofNat_add]

/-- TFM is not on page 3 of the 6809. -/
theorem executePage3_tfm {t : Nat} {op : Byte} (h : hd6309Page3.get op = some (.tfm t))
    (start : Word) (c : Core σ) :
    (executePage3 bus .hd6309 start op c).out.cycles = (hTfm bus t start c).out.cycles ∧
      (executePage3 bus .hd6309 start op c).st = (hTfm bus t start c).st ∧
      page3.get op = none := by
  have hc := hd6309Page3_covered op
  rw [h] at hc
  obtain ⟨hsave, hpage⟩ := Bool.and_eq_true_iff.mp hc
  have hnone : page3.get op = none := Option.isNone_iff_eq_none.mp hpage
  have hzero : nativeSaveP3.get op = 0 := beq_iff_eq.mp hsave
  unfold executePage3 executeDefault
  rw [hnone]
  dsimp only
  rw [h]
  dsimp only
  rw [Act.bind_out, Act.bind_st, nativeSave_apply, hzero]
  refine ⟨?_, rfl, rfl⟩
  rw [Cost.mul_cycles]
  split
  · exact BitVec.add_zero _
  · exact BitVec.add_zero _

theorem executeOne_counts (b : Build) {fuel : Nat} (hfuel : fuel ≤ 0x10000) (c : Core σ)
    (h : (executeOne bus b fuel c).val ≠ .stuck) :
    Counted b c (executeOne bus b fuel c).st (executeOne bus b fuel c).out.cycles := by
  obtain ⟨hcost, hregs, htfm⟩ := fetch8_kept bus c
  have hzero (n : Cycles) : 0 + n = n := BitVec.zero_add n
  unfold executeOne at h ⊢
  rw [Act.bind_val] at h
  rw [Act.bind_st, Act.bind_out, Cost.mul_cycles, hcost]
  generalize (fetch8 bus c).val = op at h ⊢
  by_cases h2 : page1.get op = some .page2
  · obtain ⟨k, hb, hk, hcost', hregs', htfm'⟩ := prefixed_counts bus b fuel (fetch8 bus c).st
    unfold executeOp at h ⊢
    rw [h2] at h ⊢
    dsimp only at h ⊢
    rw [Act.bind_val] at h
    rw [Act.bind_out, Act.bind_st, Cost.mul_cycles, hcost']
    obtain ⟨v, -, hv, -⟩ := afterPrefix_reached h
    rw [hv, hzero]
    exact .of_costs (executePage2_costs bus b v) hb (by omega)
  · by_cases h3 : page1.get op = some .page3
    · obtain ⟨k, hb, hk, hcost', hregs', htfm'⟩ := prefixed_counts bus b fuel (fetch8 bus c).st
      unfold executeOp regs at h ⊢
      rw [h3] at h ⊢
      dsimp only at h ⊢
      rw [Act.gets_bind] at h ⊢
      rw [Act.bind_val] at h
      rw [Act.bind_out, Act.bind_st, Cost.mul_cycles, hcost']
      obtain ⟨v, -, hv, hst⟩ := afterPrefix_reached h
      rw [hv, hst, hzero]
      by_cases ht : ∃ t, hd6309Page3.get v = some (.tfm t)
      · obtain ⟨t, ht⟩ := ht
        cases b with
        | mc6809 =>
          obtain ⟨-, -, hnone⟩ := executePage3_tfm bus ht 0 c
          have htwo : Costs 1 insnMost
              (executePage3 bus .mc6809 ((fetch8 bus c).st.regs.pc - 1) v) := by
            unfold executePage3
            rw [hnone]
            exact (tick_nat 2).mono (by omega) (by decide)
          exact .of_costs htwo hb (by omega)
        | hd6309 =>
          have hstart : (fetch8 bus c).st.regs.pc - 1 = c.regs.pc := by
            rw [hregs]
            exact BitVec.add_sub_cancel ..
          have hpc : (prefixed bus .hd6309 fuel (fetch8 bus c).st).st.regs.pc =
              c.regs.pc + BitVec.ofNat 16 (k + 2) := by
            rw [hregs', hregs, BitVec.ofNat_add (k + 1) 1, BitVec.ofNat_add k 1]
            bv_omega
          obtain ⟨hcycles, hlast, -⟩ := executePage3_tfm bus ht c.regs.pc
            (prefixed bus .hd6309 fuel (fetch8 bus c).st).st
          obtain ⟨n, hmax, hn, hfree⟩ := hTfm_counts bus t (by omega) hpc
          rw [hstart, hcycles, hlast, hn]
          refine ⟨n, hmax, rfl, fun h => ?_⟩
          obtain ⟨hbusy, hat, hw, hdone⟩ := hfree h
          rw [htfm', htfm] at hbusy hat
          rw [hregs', hregs] at hw
          exact ⟨⟨hbusy, hat⟩, hw, hdone⟩
      · exact .of_costs (executePage3_costs bus b _ fun t heq => ht ⟨t, heq⟩) hb (by omega)
    · exact Counted.of_costs (k := 0) (executeOp_costs bus b fuel h2 h3) (fun _ => rfl)
        (Nat.zero_le _)

end

end CocoEmulator.Cpu
