/-
  Cpu/BlockMove.lean --- TFM as a byte-by-byte block move under interruption.

  TFM runs one byte a pass and leaves PC at its first prefix byte while W is not
  zero.  Whether a pass pays the setup is decided by hidden state: a flag that a
  transfer is part-way through, and the address of its instruction.

  The reference loop (`moveAll`) moves W bytes and knows nothing of passes.  Between
  two bytes a handler may run (`Interruption`): it restores the registers, does what
  it likes to memory, and leaves any hidden state.

      executeOne_pass      one pass, from the bytes of the instruction
      runTransfer_moves       what a transfer comes to is what the reference loop comes to
      tfm_block_move       the same for every interruption, and the cost of an
                           uninterrupted transfer, which is the listed one exactly
                           if the flag was not left set for this address

  Source: hd6309_ops.h, mc6809_core_impl.h.
-/
import CocoEmulator.Cpu.IdleStep
import Mathlib.Data.BitVec

set_option autoImplicit false

namespace CocoEmulator.Cpu

open CocoEmulator.Base

variable {σ : Type} (bus : Bus σ)

/-! ## The instruction -/

/-- A TFM: its prefix bytes after the first, its mode and its two registers. -/
structure TfmInsn where
  extra : List Byte
  extra_prefix : ∀ p ∈ extra, isPrefix p = true
  mode : Fin 4
  postbyte : Byte
  src : Reg16
  dst : Reg16
  src_code : tfmReg (postbyte >>> 4).toNat = some src
  dst_code : tfmReg (postbyte &&& 0x0F).toNat = some dst

namespace TfmInsn

/-- `$38` to `$3B`. -/
def opcode (i : TfmInsn) : Byte := 0x38 + BitVec.ofNat 8 i.mode

/-- The bytes after the prefix that decides the page. -/
def tail (i : TfmInsn) : List Byte := i.extra ++ [i.opcode, i.postbyte]

def bytes (i : TfmInsn) : List Byte := 0x11 :: i.tail

/-- How far the pointers go after a byte, source first. -/
def steps (i : TfmInsn) : Word × Word :=
  match i.mode with
  | 0 => (1, 1)
  | 1 => (-1, -1)
  | 2 => (1, 0)
  | 3 => (0, 1)

end TfmInsn

/-- The bytes at an address, read without side effect. -/
def Stands (e : Env σ) : Word → List Byte → Prop
  | _, [] => True
  | a, b :: bs =>
    (readByte bus a e).val = b ∧ (readByte bus a e).env = e ∧ Stands e (a + 1) bs

/-! ## The reference loop -/

/-- What a write leaves behind the bus. -/
def writeByte (addr : Word) (v : Byte) (e : Env σ) : Env σ :=
  match bus.writeSlot e.host addr with
  | some p => { e with host := bus.store e.host p v }
  | none => bus.write addr v e

/-- Move one byte, step the pointers and count it. -/
def moveByte (i : TfmInsn) (m : Regs × Env σ) : Regs × Env σ :=
  let v := readByte bus (i.src.get m.1) m.2
  let r := i.src.put (i.src.get m.1 + i.steps.1) m.1
  let r := i.dst.put (i.dst.get r + i.steps.2) r
  ({ r with w := r.w - 1 }, writeByte bus (i.dst.get m.1) v.val v.env)

/-- Move `n` further bytes; what happens to memory before each is named by how many are
left. -/
def moveMore (i : TfmInsn) (between : Nat → Env σ → Env σ) : Nat → Regs × Env σ → Regs × Env σ
  | 0, m => m
  | n + 1, m => moveMore i between n (moveByte bus i (m.1, between (n + 1) m.2))

/-- Move W bytes. -/
def moveAll (i : TfmInsn) (between : Nat → Env σ → Env σ) (m : Regs × Env σ) : Regs × Env σ :=
  if m.1.w = 0 then m else moveMore bus i between (m.1.w.toNat - 1) (moveByte bus i m)

/-- The instruction stands, and the byte to come does not go into it. -/
def Clear (i : TfmInsn) (start : Word) (m : Regs × Env σ) : Prop :=
  Stands bus m.2 start i.bytes ∧
    ∀ j, j < i.bytes.length → i.dst.get m.1 ≠ start + BitVec.ofNat 16 j

/-- So before each of the further bytes. -/
def ClearMore (i : TfmInsn) (start : Word) (between : Nat → Env σ → Env σ) :
    Nat → Regs × Env σ → Prop
  | 0, _ => True
  | n + 1, m =>
    Clear bus i start (m.1, between (n + 1) m.2) ∧
      ClearMore i start between n (moveByte bus i (m.1, between (n + 1) m.2))

/-- The instruction stands at its address and does not overwrite itself. -/
def NotOverwritten (i : TfmInsn) (start : Word) (between : Nat → Env σ → Env σ)
    (m : Regs × Env σ) : Prop :=
  Stands bus m.2 start i.bytes ∧
    (m.1.w ≠ 0 → Clear bus i start m ∧
      ClearMore bus i start between (m.1.w.toNat - 1) (moveByte bus i m))

/-! ## The transfer -/

/-- What an interrupt handler leaves when it returns into a transfer: memory as it made it,
any hidden state, and the registers as they were, up to condition codes. -/
structure Interruption (σ : Type) where
  env : Env σ → Env σ
  tfm : Tfm
  cc : Byte → Byte

/-- The handler restores the condition codes of `kept`.  An interrupt that stacks the entire
state leaves E set. -/
def Interruption.Restores (kept : Byte) (g : Interruption σ) : Prop :=
  ∀ cc, g.cc cc &&& kept = cc &&& kept

/-- Between two bytes a handler runs, or none does. -/
def resumeFrom (g : Option (Interruption σ)) (c : Core σ) : Core σ :=
  match g with
  | none => c
  | some g => ⟨{ c.regs with cc := g.cc c.regs.cc }, g.tfm, g.env c.env⟩

/-- What that does to memory. -/
def envBetween (gaps : Nat → Option (Interruption σ)) (n : Nat) : Env σ → Env σ :=
  match gaps n with
  | none => id
  | some g => g.env

/-- `n` further passes of the instruction. -/
def passes (gaps : Nat → Option (Interruption σ)) (fuel : Nat) : Nat → M σ Unit
  | 0 => pure ()
  | n + 1 => do
    Act.modify (resumeFrom (gaps (n + 1)))
    let _ ← executeOne bus .hd6309 fuel
    passes gaps fuel n

/-- The passes of a transfer of `w` bytes; without a byte there is one. -/
def runTransfer (gaps : Nat → Option (Interruption σ)) (fuel w : Nat) : M σ Unit := do
  let _ ← executeOne bus .hd6309 fuel
  passes bus gaps fuel (w - 1)

/-! ## Fetching the instruction -/

section

variable {bus} {c : Core σ}

theorem fetch8_stands {b : Byte} {bs : List Byte} (h : Stands bus c.env c.regs.pc (b :: bs)) :
    (fetch8 bus c).val = b ∧ (fetch8 bus c).out.cycles = 0 ∧
      (fetch8 bus c).st = { c with regs := { c.regs with pc := c.regs.pc + 1 } } := by
  obtain ⟨hval, henv, _⟩ := h
  unfold fetch8 regs setRegs
  simp only [Act.bind_apply, Act.gets_apply, Act.modify_apply, memRead_eq, one_mul]
  refine ⟨hval, trivial, ?_⟩
  rw [henv]

theorem skipPrefixes_succ {op : Byte} (fuel : Nat) (h : isPrefix op = true) :
    skipPrefixes bus (fuel + 1) op = (do
      let opcode ← fetch8 bus
      tick 1
      skipPrefixes bus fuel opcode : M σ (Option Byte)) :=
  if_pos h

theorem skipPrefixes_done {op : Byte} (fuel : Nat) (h : isPrefix op = false) :
    skipPrefixes bus fuel op = (pure (some op) : M σ (Option Byte)) := by
  cases fuel <;> (unfold skipPrefixes; rw [h]; rfl)

/-- The loop over repeated prefix bytes, each of which costs a cycle. -/
theorem prefixed_stands {extra rest : List Byte} {op : Byte} {fuel : Nat}
    (hextra : ∀ p ∈ extra, isPrefix p = true) (hop : isPrefix op = false)
    (hfuel : extra.length ≤ fuel) (h : Stands bus c.env c.regs.pc (extra ++ op :: rest)) :
    (prefixed bus .hd6309 fuel c).val = some op ∧
      (prefixed bus .hd6309 fuel c).out.cycles = BitVec.ofNat 32 extra.length ∧
      (prefixed bus .hd6309 fuel c).st =
        { c with regs := { c.regs with pc := c.regs.pc + BitVec.ofNat 16 (extra.length + 1) } } := by
  induction extra generalizing c fuel with
  | nil =>
    obtain ⟨hval, hcost, hst⟩ := fetch8_stands h
    unfold prefixed
    rw [Act.bind_val, Act.bind_out, Act.bind_st, hval]
    dsimp only
    rw [skipPrefixes_done fuel hop, hst]
    refine ⟨rfl, ?_, rfl⟩
    rw [Act.pure_apply, mul_one, hcost]
    rfl
  | cons p extra ih =>
    obtain ⟨hval, hcost, hst⟩ := fetch8_stands h
    obtain ⟨fuel, rfl⟩ : ∃ f, fuel = f + 1 := ⟨fuel - 1, by rw [List.length_cons] at hfuel; omega⟩
    have hp := hextra p List.mem_cons_self
    obtain ⟨hval', hcost', hst'⟩ := @ih (fetch8 bus c).st fuel
      (fun q hq => hextra q (List.mem_cons_of_mem p hq)) (Nat.le_of_succ_le_succ hfuel)
      (by rw [hst]; exact h.2.2)
    unfold prefixed at hval' hcost' hst' ⊢
    rw [Act.bind_val, Act.bind_out, Act.bind_st, hval]
    dsimp only at hval' hcost' hst' ⊢
    rw [skipPrefixes_succ fuel hp]
    refine ⟨hval', ?_, hst'.trans ?_⟩
    · have hsum (a b : Cycles) : 0 + (a + (1 + b)) = a + b + 1 := by bv_omega
      rw [Act.bind_out, Cost.mul_cycles] at hcost'
      rw [List.length_cons, BitVec.ofNat_add, ← hcost', Cost.mul_cycles, hcost]
      exact hsum _ _
    · rw [hst, List.length_cons]
      congr 2
      rw [BitVec.ofNat_add (extra.length + 1) 1, BitVec.add_comm (BitVec.ofNat 16 _),
        ← BitVec.add_assoc]
      rfl

/-- The postbyte of the instruction is fetched next. -/
theorem stands_append {e : Env σ} {a : Word} {bs cs : List Byte} (h : Stands bus e a (bs ++ cs)) :
    Stands bus e (a + BitVec.ofNat 16 bs.length) cs := by
  induction bs generalizing a with
  | nil =>
    rw [List.length_nil, BitVec.add_zero]
    exact h
  | cons b bs ih =>
    have hrest := ih h.2.2
    rw [BitVec.add_assoc] at hrest
    rw [List.length_cons, BitVec.ofNat_add bs.length 1, BitVec.add_comm (BitVec.ofNat 16 _)]
    exact hrest

namespace TfmInsn

variable (i : TfmInsn)

theorem opcode_plain : isPrefix i.opcode = false ∧ page3.get i.opcode = none ∧
    hd6309Page3.get i.opcode = some (.tfm i.mode) ∧ nativeSaveP3.get i.opcode = 0 := by
  unfold opcode
  generalize i.mode = mode
  revert mode
  decide

/-- The address after the instruction. -/
def after (start : Word) : Word := start + BitVec.ofNat 16 i.bytes.length

theorem bytes_length : i.bytes.length = i.extra.length + 3 := by
  unfold bytes tail
  rw [List.length_cons, List.length_append]
  rfl

end TfmInsn

variable {i : TfmInsn} {fuel : Nat}

/-- The state in which TFM itself starts: PC at the postbyte. -/
def decoded (i : TfmInsn) (c : Core σ) : Core σ :=
  { c with regs := { c.regs with pc := c.regs.pc + BitVec.ofNat 16 (i.extra.length + 2) } }

/-- The instruction is decoded, and TFM runs. -/
theorem executeOne_tfm (hfuel : i.extra.length ≤ fuel)
    (h : Stands bus c.env c.regs.pc i.bytes) :
    (executeOne bus .hd6309 fuel c).val = .next ∧
      (executeOne bus .hd6309 fuel c).out.cycles =
        BitVec.ofNat 32 i.extra.length + (hTfm bus i.mode c.regs.pc (decoded i c)).out.cycles ∧
      (executeOne bus .hd6309 fuel c).st = (hTfm bus i.mode c.regs.pc (decoded i c)).st := by
  obtain ⟨hplain, hpage, hextra, hsave⟩ := i.opcode_plain
  obtain ⟨hval, hcost, hst⟩ := fetch8_stands h
  have hpages : page1.get 0x11 = some .page3 := rfl
  obtain ⟨hval', hcost', hst'⟩ := @prefixed_stands σ bus (fetch8 bus c).st i.extra [i.postbyte]
    i.opcode fuel i.extra_prefix hplain hfuel (by rw [hst]; exact h.2.2)
  have hpc : (fetch8 bus c).st.regs.pc - 1 = c.regs.pc := by
    rw [hst]
    exact BitVec.add_sub_cancel ..
  have hdecoded : (prefixed bus .hd6309 fuel (fetch8 bus c).st).st = decoded i c := by
    rw [hst', hst]
    unfold decoded
    congr 2
    rw [BitVec.ofNat_add (i.extra.length + 1) 1, BitVec.add_comm (BitVec.ofNat 16 _),
      ← BitVec.add_assoc]
    rfl
  have hrun (c' : Core σ) :
      (executePage3 bus .hd6309 c.regs.pc i.opcode c').out.cycles =
        (hTfm bus i.mode c.regs.pc c').out.cycles ∧
      (executePage3 bus .hd6309 c.regs.pc i.opcode c').st = (hTfm bus i.mode c.regs.pc c').st := by
    unfold executePage3 executeDefault
    rw [hpage]
    dsimp only
    rw [hextra]
    dsimp only
    rw [Act.bind_out, Act.bind_st, nativeSave_apply, hsave]
    refine ⟨?_, rfl⟩
    rw [Cost.mul_cycles]
    split <;> exact BitVec.add_zero _
  unfold executeOne
  rw [Act.bind_val, Act.bind_out, Act.bind_st, hval]
  unfold executeOp
  rw [hpages]
  dsimp only
  unfold regs
  rw [Act.gets_bind, Act.bind_val, Act.bind_out, Act.bind_st, hval', hdecoded, hpc]
  unfold afterPrefix
  rw [Act.bind_val, Act.bind_out, Act.bind_st]
  refine ⟨rfl, ?_, (hrun _).2⟩
  rw [Cost.mul_cycles, Cost.mul_cycles, Cost.mul_cycles, hcost, hcost', (hrun _).1]
  exact (BitVec.zero_add _).trans (congrArg _ (BitVec.add_zero _))

/-! ## One pass -/

/-- The hidden state says that this instruction is part-way through. -/
def Resumes (c : Core σ) : Prop := c.tfm.busy = true ∧ c.tfm.pc = c.regs.pc

instance (c : Core σ) : Decidable (Resumes c) := inferInstanceAs (Decidable (_ ∧ _))

/-- The registers after the setup: a first pass clears Z. -/
def enterRegs (i : TfmInsn) (c : Core σ) : Regs :=
  { c.regs with
    pc := i.after c.regs.pc
    cc := if Resumes c then c.regs.cc else ccClr flagZ c.regs.cc }

/-- The end of a transfer. -/
def finish (start : Word) (m : Regs × Env σ) : Core σ :=
  ⟨m.1.mapCc (ccSet flagZ), ⟨false, start⟩, m.2⟩

/-- What a pass comes to. -/
def passState (bus : Bus σ) (i : TfmInsn) (c : Core σ) : Core σ :=
  if c.regs.w = 0 then finish c.regs.pc (enterRegs i c, c.env)
  else
    let m := moveByte bus i (enterRegs i c, c.env)
    if m.1.w = 0 then finish c.regs.pc m
    else ⟨{ m.1 with pc := c.regs.pc }, ⟨true, c.regs.pc⟩, m.2⟩

/-- What the setup of a pass costs. -/
def setupCycles (i : TfmInsn) (c : Core σ) : Cycles :=
  if Resumes c then 3 - (i.after c.regs.pc - c.regs.pc).setWidth 32 else 6

theorem tfmEnter_apply {r : Regs} (hr : r = { c.regs with pc := i.after c.regs.pc }) :
    tfmEnter c.regs.pc { c with regs := r } =
      ⟨(), ⟨setupCycles i c, []⟩,
        { c with
          regs := enterRegs i c
          tfm := ⟨true, c.regs.pc⟩ }⟩ := by
  subst hr
  unfold tfmEnter getTfm regs setupCycles enterRegs
  rw [Act.gets_bind, Act.gets_bind]
  by_cases h : Resumes c
  · have htfm : c.tfm = ⟨true, c.regs.pc⟩ := by
      rw [← h.1, ← h.2]
    rw [if_pos h, if_pos h]
    dsimp only
    rw [htfm, Bool.true_and, beq_self_eq_true, if_pos rfl]
    rfl
  · have hfirst : (c.tfm.busy && c.tfm.pc == c.regs.pc) = false := by
      rw [Bool.and_eq_false_iff, beq_eq_false_iff_ne]
      by_cases hbusy : c.tfm.busy = true
      · exact .inr fun hpc => h ⟨hbusy, hpc⟩
      · exact .inl (Bool.eq_false_iff.mpr hbusy)
    rw [if_neg h, if_neg h]
    dsimp only
    rw [hfirst, if_neg Bool.false_ne_true]
    rfl

theorem memWrite_eq (addr : Word) (v : Byte) (c : Core σ) :
    (memWrite bus addr v c).out.cycles = 0 ∧
      (memWrite bus addr v c).st = { c with env := writeByte bus addr v c.env } := by
  unfold memWrite writeByte
  cases bus.writeSlot c.env.host addr <;> exact ⟨rfl, rfl⟩

theorem put_get (reg : Reg16) (r : Regs) : reg.put (reg.get r) r = r := by
  cases reg <;> rfl

/-- The pointers step as the mode says. -/
theorem tfmStep_eq (i : TfmInsn) (r : Regs) :
    tfmStep i.mode i.src i.dst r =
      i.dst.put (i.dst.get (i.src.put (i.src.get r + i.steps.1) r) + i.steps.2)
        (i.src.put (i.src.get r + i.steps.1) r) := by
  have hmode (mode : Fin 4) : mode = 0 ∨ mode = 1 ∨ mode = 2 ∨ mode = 3 := by
    revert mode
    decide
  have hzero (v : Word) : v + 0 = v := BitVec.add_zero v
  rcases hmode i.mode with h | h | h | h
  · have hsteps : i.steps = (1, 1) := by unfold TfmInsn.steps; rw [h]
    rw [h, hsteps]
    rfl
  · have hsteps : i.steps = (-1, -1) := by unfold TfmInsn.steps; rw [h]
    rw [h, hsteps, ← BitVec.sub_eq_add_neg, ← BitVec.sub_eq_add_neg]
    rfl
  · have hsteps : i.steps = (1, 0) := by unfold TfmInsn.steps; rw [h]
    rw [h, hsteps]
    dsimp only
    rw [hzero, put_get]
    rfl
  · have hsteps : i.steps = (0, 1) := by unfold TfmInsn.steps; rw [h]
    rw [h, hsteps]
    dsimp only
    rw [hzero, put_get]
    rfl

/-- Stepping and counting, and back to the instruction or on. -/
theorem tfmCount_eq (f : Regs → Regs) (start : Word) (c : Core σ) :
    let m : M σ Unit := do
      setRegs f
      tick 3
      let r ← regs
      if r.w = 0 then tfmDone else setPc start
    (m c).out.cycles = 3 ∧
      (m c).st =
        if (f c.regs).w = 0 then ⟨(f c.regs).mapCc (ccSet flagZ), { c.tfm with busy := false }, c.env⟩
        else { c with regs := { f c.regs with pc := start } } := by
  intro m
  have hbind : m c = (tick 3 >>= fun _ => Act.gets (fun c => c.regs) >>= fun r : Regs =>
      if r.w = 0 then tfmDone else setPc start : M σ Unit) { c with regs := f c.regs } :=
    Act.modify_bind ..
  have htick : (tick 3 : M σ Unit) { c with regs := f c.regs } =
      ⟨(), ⟨3, []⟩, { c with regs := f c.regs }⟩ := rfl
  rw [hbind, Act.bind_out, Act.bind_st, htick, Act.gets_bind, Cost.mul_cycles]
  dsimp only
  by_cases h : (f c.regs).w = 0
  · rw [if_pos h, if_pos h]
    exact ⟨rfl, rfl⟩
  · rw [if_neg h, if_neg h]
    exact ⟨rfl, rfl⟩

/-- A byte of the transfer is a byte of the reference loop. -/
theorem tfmByte_eq (i : TfmInsn) (c : Core σ) (start : Word) :
    let m := moveByte bus i (c.regs, c.env)
    (tfmByte bus i.mode start i.src i.dst c).out.cycles = 3 ∧
      (tfmByte bus i.mode start i.src i.dst c).st =
        if m.1.w = 0 then ⟨m.1.mapCc (ccSet flagZ), { c.tfm with busy := false }, m.2⟩
        else ⟨{ m.1 with pc := start }, c.tfm, m.2⟩ := by
  intro m
  have hread := memRead_eq bus (i.src.get c.regs) c
  obtain ⟨hfree, hwrite⟩ := @memWrite_eq σ bus (i.dst.get c.regs)
    (readByte bus (i.src.get c.regs) c.env).val
    { c with env := (readByte bus (i.src.get c.regs) c.env).env }
  have hcount := tfmCount_eq (σ := σ) (fun r =>
    let r := tfmStep i.mode i.src i.dst r
    { r with w := r.w - 1 }) start ⟨c.regs, c.tfm, m.2⟩
  unfold tfmByte regs
  rw [Act.gets_bind, Act.bind_out, Act.bind_st, hread]
  dsimp only
  rw [Act.bind_out, Act.bind_st, hwrite, Cost.mul_cycles, Cost.mul_cycles, hfree]
  unfold regs at hcount
  dsimp only at hcount
  rw [tfmStep_eq] at hcount
  obtain ⟨hcycles, hst⟩ := hcount
  have hsum (n : Cycles) : 0 + (0 + n) = n := by bv_omega
  exact ⟨(hsum _).trans hcycles, hst⟩

/-- TFM itself, from the postbyte on. -/
theorem hTfm_eq {i : TfmInsn} (h : Stands bus c.env c.regs.pc i.bytes) :
    (hTfm bus i.mode c.regs.pc (decoded i c)).out.cycles =
        setupCycles i c + (if c.regs.w = 0 then 0 else 3) ∧
      (hTfm bus i.mode c.regs.pc (decoded i c)).st = passState bus i c := by
  have hpost : Stands bus c.env (decoded i c).regs.pc [i.postbyte] := by
    have hbytes : i.bytes = (0x11 :: (i.extra ++ [i.opcode])) ++ [i.postbyte] := by
      unfold TfmInsn.bytes TfmInsn.tail
      simp
    rw [hbytes] at h
    have hlast := stands_append h
    rw [List.length_cons, List.length_append] at hlast
    exact hlast
  obtain ⟨hval, hcost, hst⟩ := @fetch8_stands σ bus (decoded i c) i.postbyte [] hpost
  have hafter : (decoded i c).regs.pc + 1 = i.after c.regs.pc := by
    unfold decoded TfmInsn.after
    rw [i.bytes_length, BitVec.ofNat_add (i.extra.length + 2) 1, ← BitVec.add_assoc]
    rfl
  have henter := @tfmEnter_apply σ c i _ rfl
  have hw : (enterRegs i c).w = c.regs.w := rfl
  have hsum (n : Cycles) : 0 + n = n := by bv_omega
  obtain ⟨hbyte, hmove⟩ := @tfmByte_eq σ bus i
    ⟨enterRegs i c, ⟨true, c.regs.pc⟩, c.env⟩ c.regs.pc
  unfold hTfm
  rw [Act.bind_out, Act.bind_st, Cost.mul_cycles, hcost, hval, hst, hafter, i.src_code, i.dst_code]
  unfold decoded regs passState
  dsimp only
  rw [Act.bind_out, Act.bind_st, Cost.mul_cycles, henter]
  dsimp only
  rw [Act.gets_bind]
  dsimp only
  rw [hw]
  by_cases hzero : c.regs.w = 0
  · rw [if_pos hzero, if_pos hzero, if_pos hzero]
    exact ⟨hsum _, rfl⟩
  · rw [if_neg hzero, if_neg hzero, if_neg hzero]
    refine ⟨?_, hmove⟩
    rw [hbyte]
    exact hsum _

/-- One pass, from the bytes of the instruction. -/
theorem executeOne_pass {i : TfmInsn} {fuel : Nat} (hfuel : i.extra.length ≤ fuel)
    (h : Stands bus c.env c.regs.pc i.bytes) :
    (executeOne bus .hd6309 fuel c).val = .next ∧
      (executeOne bus .hd6309 fuel c).out.cycles =
        BitVec.ofNat 32 i.extra.length + (setupCycles i c + if c.regs.w = 0 then 0 else 3) ∧
      (executeOne bus .hd6309 fuel c).st = passState bus i c := by
  obtain ⟨hval, hcost, hst⟩ := executeOne_tfm hfuel h
  obtain ⟨hcycles, hpass⟩ := hTfm_eq h
  rw [hcycles] at hcost
  exact ⟨hval, hcost, hst.trans hpass⟩

/-! ## In step with the reference loop -/

/-- The reference loop does not look at PC or the condition codes. -/
theorem moveByte_frame (i : TfmInsn) (r : Regs) (pc : Word) (cc : Byte) (e : Env σ) :
    moveByte bus i ({ r with pc := pc, cc := cc }, e) =
      ({ (moveByte bus i (r, e)).1 with pc := pc, cc := cc }, (moveByte bus i (r, e)).2) := by
  unfold moveByte
  generalize i.src = src
  generalize i.dst = dst
  cases src <;> cases dst <;> rfl

theorem moveByte_w (i : TfmInsn) (m : Regs × Env σ) : (moveByte bus i m).1.w = m.1.w - 1 := by
  unfold moveByte
  generalize i.src = src
  generalize i.dst = dst
  cases src <;> cases dst <;> rfl

/-- Two condition codes agree on `kept`, Z aside. -/
def SameCc (kept cc cc' : Byte) : Prop := cc &&& ~~~flagZ &&& kept = cc' &&& ~~~flagZ &&& kept

theorem sameCc_refl (kept cc : Byte) : SameCc kept cc cc := rfl

theorem SameCc.clear {kept cc cc' : Byte} (h : SameCc kept cc cc') :
    SameCc kept (ccClr flagZ cc) cc' := by
  have hzero (b : Byte) : b ||| 0 = b := BitVec.or_zero
  unfold SameCc ccClr putFlags at *
  rw [hzero, BitVec.and_assoc cc, BitVec.and_self]
  exact h

theorem SameCc.restored {kept cc cc' cc'' : Byte} (h : SameCc kept cc cc')
    (hkept : cc'' &&& kept = cc &&& kept) : SameCc kept cc'' cc' := by
  unfold SameCc at *
  rw [BitVec.and_assoc, BitVec.and_comm (~~~flagZ), ← BitVec.and_assoc, hkept, BitVec.and_assoc,
    BitVec.and_comm kept, ← BitVec.and_assoc]
  exact h

theorem SameCc.set {kept cc cc' : Byte} (h : SameCc kept cc cc') :
    ccSet flagZ cc &&& kept = ccSet flagZ cc' &&& kept := by
  have hdistrib (a : Byte) : (a ||| flagZ) &&& kept = a &&& kept ||| flagZ &&& kept := by
    rw [BitVec.and_comm, BitVec.and_or_distrib_left, BitVec.and_comm kept, BitVec.and_comm kept]
  unfold SameCc at h
  unfold ccSet putFlags
  rw [hdistrib, hdistrib, h]

/-- Between two bytes the CPU is where the reference loop is, at the instruction. -/
structure InStep (kept : Byte) (c₀ : Core σ) (m : Regs × Env σ) (c : Core σ) : Prop where
  regs : c.regs = { m.1 with pc := c₀.regs.pc, cc := c.regs.cc }
  env : c.env = m.2
  cc : SameCc kept c.regs.cc c₀.regs.cc

/-- The transfer is over, and comes to what the reference loop comes to. -/
structure Moved (i : TfmInsn) (kept : Byte) (c₀ : Core σ) (m : Regs × Env σ) (c : Core σ) : Prop where
  regs : c.regs = { m.1 with pc := i.after c₀.regs.pc, cc := c.regs.cc }
  env : c.env = m.2
  z : ccTst flagZ c.regs.cc = true
  cc : c.regs.cc &&& kept = ccSet flagZ c₀.regs.cc &&& kept

section

variable {kept : Byte} {c₀ : Core σ} {m : Regs × Env σ} {i : TfmInsn}

theorem ccTst_flagZ_ccSet (cc : Byte) : ccTst flagZ (ccSet flagZ cc) = true := by
  unfold ccSet ccTst putFlags
  revert cc
  decide

theorem finish_moved {r : Regs} {e : Env σ} (hr : r = { m.1 with pc := i.after c₀.regs.pc, cc := r.cc })
    (he : e = m.2) (hcc : SameCc kept r.cc c₀.regs.cc) :
    Moved i kept c₀ m (finish c₀.regs.pc (r, e)) where
  regs := by
    unfold finish Regs.mapCc
    dsimp only
    rw [hr]
  env := he
  z := ccTst_flagZ_ccSet r.cc
  cc := hcc.set

theorem enterRegs_cc (h : SameCc kept c.regs.cc c₀.regs.cc) :
    SameCc kept (enterRegs i c).cc c₀.regs.cc := by
  unfold enterRegs
  dsimp only
  split
  · exact h
  · exact h.clear

/-- A pass moves the byte the reference loop moves. -/
theorem InStep.pass (h : InStep kept c₀ m c) (hw : m.1.w ≠ 0) :
    if (moveByte bus i m).1.w = 0 then Moved i kept c₀ (moveByte bus i m) (passState bus i c)
    else InStep kept c₀ (moveByte bus i m) (passState bus i c) ∧
      (passState bus i c).tfm = ⟨true, c₀.regs.pc⟩ := by
  have hpc : c.regs.pc = c₀.regs.pc := by rw [h.regs]
  have hcw : c.regs.w ≠ 0 := by
    rw [h.regs]
    exact hw
  have henter : (enterRegs i c, c.env) =
      ({ m.1 with pc := i.after c₀.regs.pc, cc := (enterRegs i c).cc }, m.2) := by
    obtain ⟨cc, hregs⟩ : ∃ cc, c.regs = { m.1 with pc := c₀.regs.pc, cc := cc } := ⟨_, h.regs⟩
    rw [h.env]
    unfold enterRegs
    rw [hregs]
  have hcc := enterRegs_cc (i := i) h.cc
  generalize (enterRegs i c).cc = cc at henter hcc
  have hmove : moveByte bus i (enterRegs i c, c.env) =
      ({ (moveByte bus i m).1 with pc := i.after c₀.regs.pc, cc := cc }, (moveByte bus i m).2) := by
    rw [henter, moveByte_frame]
  unfold passState
  rw [if_neg hcw, hmove, hpc]
  dsimp only
  split
  · exact finish_moved rfl rfl hcc
  · exact ⟨⟨rfl, rfl, hcc⟩, rfl⟩

theorem InStep.resume (h : InStep kept c₀ m c) (gaps : Nat → Option (Interruption σ)) (n : Nat)
    (hkept : ∀ g ∈ gaps n, g.Restores kept) :
    InStep kept c₀ (m.1, envBetween gaps n m.2) (resumeFrom (gaps n) c) := by
  obtain ⟨cc, hregs⟩ : ∃ cc, c.regs = { m.1 with pc := c₀.regs.pc, cc := cc } := ⟨_, h.regs⟩
  unfold envBetween resumeFrom
  cases hgap : gaps n with
  | none => exact h
  | some g =>
    refine ⟨?_, congrArg g.env h.env, h.cc.restored (hkept g hgap c.regs.cc)⟩
    dsimp only
    rw [hregs]

/-! ## Whole transfers -/

theorem passes_succ (gaps : Nat → Option (Interruption σ)) (fuel n : Nat) (c : Core σ) :
    let r := executeOne bus .hd6309 fuel (resumeFrom (gaps (n + 1)) c)
    (passes bus gaps fuel (n + 1) c).st = (passes bus gaps fuel n r.st).st ∧
      (passes bus gaps fuel (n + 1) c).out.cycles =
        r.out.cycles + (passes bus gaps fuel n r.st).out.cycles := by
  intro r
  have hbody : passes bus gaps fuel (n + 1) =
      (Act.modify (resumeFrom (gaps (n + 1))) >>= fun _ => executeOne bus .hd6309 fuel >>= fun _ =>
        passes bus gaps fuel n) := rfl
  rw [hbody, Act.modify_bind]
  exact ⟨rfl, rfl⟩

theorem moveMore_succ (between : Nat → Env σ → Env σ) (n : Nat) (m : Regs × Env σ) :
    moveMore bus i between (n + 1) m =
      moveMore bus i between n (moveByte bus i (m.1, between (n + 1) m.2)) := rfl

/-- A pass with `n` bytes left after it. -/
theorem InStep.executeOne {fuel n : Nat} (h : InStep kept c₀ m c) (hfuel : i.extra.length ≤ fuel)
    (hstands : Stands bus m.2 c₀.regs.pc i.bytes) (hw : m.1.w = BitVec.ofNat 16 (n + 1))
    (hn : n + 1 < 2 ^ 16) :
    (executeOne bus .hd6309 fuel c).out.cycles =
        BitVec.ofNat 32 i.extra.length + (setupCycles i c + 3) ∧
      (moveByte bus i m).1.w = BitVec.ofNat 16 n ∧
      if n = 0 then Moved i kept c₀ (moveByte bus i m) (executeOne bus .hd6309 fuel c).st
      else InStep kept c₀ (moveByte bus i m) (executeOne bus .hd6309 fuel c).st ∧
        (executeOne bus .hd6309 fuel c).st.tfm = ⟨true, c₀.regs.pc⟩ := by
  have hpc : c.regs.pc = c₀.regs.pc := by rw [h.regs]
  have hcode : Stands bus c.env c.regs.pc i.bytes := by
    rw [h.env, hpc]
    exact hstands
  have hne : m.1.w ≠ 0 := by
    rw [hw]
    bv_omega
  have hcw : c.regs.w ≠ 0 := by
    rw [h.regs]
    exact hne
  have hleft : (moveByte bus i m).1.w = BitVec.ofNat 16 n := by
    rw [moveByte_w, hw]
    bv_omega
  have hzero : BitVec.ofNat 16 n = 0 ↔ n = 0 := by
    constructor
    · intro hz
      bv_omega
    · intro hz
      rw [hz]
      rfl
  obtain ⟨_, hcost, hst⟩ := executeOne_pass hfuel hcode
  have hpass := @InStep.pass σ bus _ _ _ _ i h hne
  rw [hleft] at hpass
  simp only [hzero] at hpass
  rw [if_neg hcw] at hcost
  rw [hst]
  exact ⟨hcost, hleft, hpass⟩

/-- From a byte on: `n` bytes are left after it. -/
theorem passes_moved {gaps : Nat → Option (Interruption σ)} {fuel n : Nat}
    (hfuel : i.extra.length ≤ fuel) (hkept : ∀ n, ∀ g ∈ gaps n, g.Restores kept)
    (h : InStep kept c₀ m c) (hw : m.1.w = BitVec.ofNat 16 (n + 1)) (hn : n + 1 < 2 ^ 16)
    (hstands : Stands bus m.2 c₀.regs.pc i.bytes)
    (hclear : ClearMore bus i c₀.regs.pc (envBetween gaps) n (moveByte bus i m)) :
    Moved i kept c₀ (moveMore bus i (envBetween gaps) n (moveByte bus i m))
      (passes bus gaps fuel n (executeOne bus .hd6309 fuel c).st).st := by
  induction n generalizing c m with
  | zero =>
    obtain ⟨_, _, hdone⟩ := h.executeOne hfuel hstands hw hn
    exact hdone
  | succ n ih =>
    obtain ⟨_, hleft, hgoes⟩ := h.executeOne hfuel hstands hw hn
    rw [if_neg (Nat.succ_ne_zero n)] at hgoes
    have hnext := hgoes.1.resume gaps (n + 1) (hkept (n + 1))
    rw [(passes_succ gaps fuel n _).1, moveMore_succ]
    exact ih hnext hleft (Nat.lt_of_succ_lt hn) hclear.1.1 hclear.2

theorem InStep.pc (h : InStep kept c₀ m c) : c.regs.pc = c₀.regs.pc := by rw [h.regs]

/-- A pass that goes on pays neither setup nor prefixes. -/
theorem setup_resumed (hlen : i.bytes.length < 2 ^ 16) (hpc : c.regs.pc = c₀.regs.pc)
    (htfm : c.tfm = ⟨true, c₀.regs.pc⟩) :
    BitVec.ofNat 32 i.extra.length + setupCycles i c = 0 := by
  have hresumes : Resumes c := by
    unfold Resumes
    rw [htfm, hpc]
    exact ⟨rfl, rfl⟩
  have hafter : i.after c.regs.pc - c.regs.pc = BitVec.ofNat 16 i.bytes.length := by
    unfold TfmInsn.after
    rw [BitVec.add_comm]
    exact BitVec.add_sub_cancel ..
  unfold setupCycles
  rw [if_pos hresumes, hafter]
  rw [i.bytes_length] at hlen ⊢
  have hwide : (BitVec.ofNat 16 (i.extra.length + 3)).setWidth 32 =
      BitVec.ofNat 32 (i.extra.length + 3) := by
    apply BitVec.eq_of_toNat_eq
    rw [BitVec.toNat_setWidth, BitVec.toNat_ofNat, BitVec.toNat_ofNat]
    omega
  rw [hwide]
  bv_omega

/-- A transfer that nothing interrupts pays three cycles for each further byte. -/
theorem passes_cycles {fuel n : Nat} (hfuel : i.extra.length ≤ fuel)
    (h : InStep kept c₀ m c) (hw : m.1.w = BitVec.ofNat 16 (n + 1)) (hn : n + 1 < 2 ^ 16)
    (hstands : Stands bus m.2 c₀.regs.pc i.bytes) (hlen : i.bytes.length < 2 ^ 16)
    (hclear : ClearMore bus i c₀.regs.pc (envBetween (σ := σ) fun _ => none) n (moveByte bus i m)) :
    (executeOne bus .hd6309 fuel c).out.cycles +
        (passes bus (fun _ => none) fuel n (executeOne bus .hd6309 fuel c).st).out.cycles =
      BitVec.ofNat 32 i.extra.length + setupCycles i c + BitVec.ofNat 32 (3 * (n + 1)) := by
  induction n generalizing c m with
  | zero =>
    obtain ⟨hcost, _, _⟩ := h.executeOne hfuel hstands hw hn
    rw [hcost, ← BitVec.add_assoc]
    exact BitVec.add_zero _
  | succ n ih =>
    obtain ⟨hcost, hleft, hgoes⟩ := h.executeOne hfuel hstands hw hn
    rw [if_neg (Nat.succ_ne_zero n)] at hgoes
    obtain ⟨hstep, htfm⟩ := hgoes
    have hrest := ih hstep hleft (Nat.lt_of_succ_lt hn) hclear.1.1 hclear.2
    rw [setup_resumed hlen (hstep.pc) htfm] at hrest
    have hsucc := (@passes_succ σ bus (fun _ => none) fuel n (executeOne bus .hd6309 fuel c).st).2
    have hnone (c : Core σ) : resumeFrom none c = c := rfl
    rw [hnone] at hsucc
    have hsum (a b : Cycles) : a + (b + 3) + (0 + BitVec.ofNat 32 (3 * (n + 1))) =
        a + b + BitVec.ofNat 32 (3 * (n + 1 + 1)) := by bv_omega
    rw [hsucc, hrest, hcost]
    exact hsum _ _

/-! ## The result -/

/-- The transfer moves the block: whatever handlers run between its bytes. -/
def MovesBlock (bus : Bus σ) (i : TfmInsn) (c : Core σ) : Prop :=
  ∀ (gaps : Nat → Option (Interruption σ)) (kept : Byte) (fuel : Nat),
    i.extra.length ≤ fuel → (∀ n, ∀ g ∈ gaps n, g.Restores kept) →
    NotOverwritten bus i c.regs.pc (envBetween gaps) (c.regs, c.env) →
      Moved i kept c (moveAll bus i (envBetween gaps) (c.regs, c.env))
        (runTransfer bus gaps fuel c.regs.w.toNat c).st

/-- An uninterrupted transfer costs 6 cycles, 3 a byte, and one for each extra prefix. -/
def CostsAsListed (bus : Bus σ) (i : TfmInsn) (c : Core σ) : Prop :=
  ∀ fuel : Nat, i.extra.length ≤ fuel →
    (runTransfer bus (fun _ => none) fuel c.regs.w.toNat c).out.cycles =
      BitVec.ofNat 32 (6 + 3 * c.regs.w.toNat + i.extra.length)

/-- There is an address outside the instruction to write to. -/
theorem clear_length {m : Regs × Env σ} {start : Word} (h : Clear bus i start m) :
    i.bytes.length < 2 ^ 16 := by
  apply Nat.lt_of_not_le
  intro hlong
  have hlt := (i.dst.get m.1 - start).isLt
  apply h.2 (i.dst.get m.1 - start).toNat (Nat.lt_of_lt_of_le hlt hlong)
  rw [BitVec.ofNat_toNat, BitVec.setWidth_eq, BitVec.add_comm, BitVec.sub_add_cancel]

theorem inStep_start (kept : Byte) (c : Core σ) : InStep kept c (c.regs, c.env) c where
  regs := rfl
  env := rfl
  cc := sameCc_refl kept c.regs.cc

theorem runTransfer_eq (gaps : Nat → Option (Interruption σ)) (fuel w : Nat) (c : Core σ) :
    let r := executeOne bus .hd6309 fuel c
    (runTransfer bus gaps fuel w c).st = (passes bus gaps fuel (w - 1) r.st).st ∧
      (runTransfer bus gaps fuel w c).out.cycles =
        r.out.cycles + (passes bus gaps fuel (w - 1) r.st).out.cycles := by
  intro r
  exact ⟨rfl, rfl⟩

/-- W as the number of bytes after the first. -/
theorem w_pred {w : Word} (h : w ≠ 0) :
    w = BitVec.ofNat 16 (w.toNat - 1 + 1) ∧ w.toNat - 1 + 1 < 2 ^ 16 := by
  have hlt := w.isLt
  have hpos : w.toNat ≠ 0 := fun hzero => h (BitVec.eq_of_toNat_eq hzero)
  have hpred : w.toNat - 1 + 1 = w.toNat := by omega
  rw [hpred, BitVec.ofNat_toNat, BitVec.setWidth_eq]
  exact ⟨rfl, hlt⟩

/-- What a transfer comes to is what the reference loop comes to. -/
theorem runTransfer_moves (bus : Bus σ) (i : TfmInsn) (c : Core σ) : MovesBlock bus i c := by
  intro gaps kept fuel hfuel hkept hclear
  rw [(runTransfer_eq gaps fuel c.regs.w.toNat c).1]
  unfold moveAll
  by_cases hzero : c.regs.w = 0
  · obtain ⟨_, _, hst⟩ := executeOne_pass hfuel hclear.1
    rw [if_pos hzero, hzero]
    change Moved i kept c (c.regs, c.env) (executeOne bus .hd6309 fuel c).st
    rw [hst]
    unfold passState
    rw [if_pos hzero]
    exact finish_moved rfl rfl (enterRegs_cc (sameCc_refl kept c.regs.cc))
  · obtain ⟨hw, hlt⟩ := w_pred hzero
    obtain ⟨hfirst, hmore⟩ := hclear.2 hzero
    rw [if_neg hzero]
    exact passes_moved hfuel hkept (inStep_start kept c) hw hlt hfirst.1 hmore

/-- The cost of an uninterrupted transfer. -/
theorem runTransfer_cycles {fuel : Nat} (hfuel : i.extra.length ≤ fuel)
    (hclear : NotOverwritten bus i c.regs.pc (envBetween (σ := σ) fun _ => none) (c.regs, c.env)) :
    (runTransfer bus (fun _ => none) fuel c.regs.w.toNat c).out.cycles =
      BitVec.ofNat 32 i.extra.length + setupCycles i c + BitVec.ofNat 32 (3 * c.regs.w.toNat) := by
  rw [(runTransfer_eq (fun _ => none) fuel c.regs.w.toNat c).2]
  by_cases hzero : c.regs.w = 0
  · obtain ⟨_, hcost, _⟩ := executeOne_pass hfuel hclear.1
    rw [if_pos hzero] at hcost
    rw [hcost, hzero, ← BitVec.add_assoc]
    exact BitVec.add_zero _
  · obtain ⟨hw, hlt⟩ := w_pred hzero
    obtain ⟨hfirst, hmore⟩ := hclear.2 hzero
    have hcost := passes_cycles hfuel (inStep_start 0 c) hw hlt hfirst.1 (clear_length hfirst) hmore
    have hpred : c.regs.w.toNat - 1 + 1 = c.regs.w.toNat := by
      have hpos : c.regs.w.toNat ≠ 0 := fun h => hzero (BitVec.eq_of_toNat_eq h)
      omega
    rw [hpred] at hcost
    exact hcost

/-- The setup is paid exactly by a pass that the hidden state does not take for a resumed
one. -/
theorem setupCycles_iff (n : Nat) :
    BitVec.ofNat 32 i.extra.length + setupCycles i c + BitVec.ofNat 32 (3 * n) =
      BitVec.ofNat 32 (6 + 3 * n + i.extra.length) ↔ ¬Resumes c := by
  have hsum : BitVec.ofNat 32 (6 + 3 * n + i.extra.length) =
      BitVec.ofNat 32 i.extra.length + 6 + BitVec.ofNat 32 (3 * n) := by bv_omega
  rw [hsum]
  unfold setupCycles
  constructor
  · intro h hresumes
    have hlt := (i.after c.regs.pc - c.regs.pc).isLt
    rw [if_pos hresumes] at h
    generalize i.after c.regs.pc - c.regs.pc = len at h hlt
    bv_omega
  · intro h
    rw [if_neg h]

/-- TFM moves W bytes one at a time as the reference loop does, whatever handlers run between
them.  Left alone it costs what is listed, exactly if the hidden state was not left saying that
this instruction is part-way through. -/
theorem tfm_block_move (bus : Bus σ) (i : TfmInsn) (c : Core σ)
    (hclear : NotOverwritten bus i c.regs.pc (fun _ => id) (c.regs, c.env)) :
    MovesBlock bus i c ∧ (CostsAsListed bus i c ↔ ¬Resumes c) := by
  refine ⟨runTransfer_moves bus i c, ?_⟩
  have hcycles := fun fuel hfuel => @runTransfer_cycles σ bus c i fuel hfuel hclear
  rw [← setupCycles_iff c.regs.w.toNat]
  constructor
  · intro h
    rw [← hcycles i.extra.length (Nat.le_refl _)]
    exact h i.extra.length (Nat.le_refl _)
  · intro h fuel hfuel
    rw [hcycles fuel hfuel]
    exact h

end

end

/-! ## A transfer, and a flag left behind -/

/-- `TFM X+,Y+` -/
def tfmXY : TfmInsn where
  extra := []
  extra_prefix := fun _ h => absurd h List.not_mem_nil
  mode := ⟨0, Nat.zero_lt_succ 3⟩
  postbyte := 0x12
  src := .x
  dst := .y
  src_code := rfl
  dst_code := rfl

/-- Two bytes to move from $2000 to $3000. -/
def tfmCore : Core (Nat → Byte) :=
  ⟨{ pc := 0x1000, x := 0x2000, y := 0x3000, w := 2 }, {}, ⟨{}, ramWith 0x1000 tfmXY.bytes⟩⟩

theorem readByte_ram (a : Word) (e : Env (Nat → Byte)) :
    readByte (ramBus 0) a e = ⟨e.host a.toNat, [.busRead a (e.host a.toNat)], e⟩ := rfl

/-- Three bytes in a memory without page tables. -/
theorem stands_ram {e : Env (Nat → Byte)} {a : Word} {b₀ b₁ b₂ : Byte}
    (h : e.host a.toNat = b₀ ∧ e.host (a + 1).toNat = b₁ ∧ e.host (a + 1 + 1).toNat = b₂) :
    Stands (ramBus 0) e a [b₀, b₁, b₂] := by
  simp only [Stands, readByte_ram, and_true, true_and]
  exact h

theorem tfmCore_clear : NotOverwritten (ramBus 0) tfmXY tfmCore.regs.pc (fun _ => id)
    (tfmCore.regs, tfmCore.env) := by
  have hstands : Stands (ramBus 0) tfmCore.env tfmCore.regs.pc tfmXY.bytes :=
    stands_ram (by decide)
  have hnext : Clear (ramBus 0) tfmXY tfmCore.regs.pc
      (moveByte (ramBus 0) tfmXY (tfmCore.regs, tfmCore.env)) :=
    ⟨stands_ram (by decide), by decide⟩
  exact ⟨hstands, fun _ => ⟨⟨hstands, by decide⟩, hnext, trivial⟩⟩

/-- A core that no transfer has touched moves its block and pays for it. -/
theorem tfm_block_move_two : MovesBlock (ramBus 0) tfmXY tfmCore ∧
    CostsAsListed (ramBus 0) tfmXY tfmCore :=
  have h := tfm_block_move (ramBus 0) tfmXY tfmCore tfmCore_clear
  ⟨h.1, h.2.mpr (by decide)⟩

/-- A program whose TFM writes a branch over itself with its first byte; where the branch
goes, the TFM is put back and entered anew. -/
def rewrittenMem : Nat → Byte := fun p =>
  if p < 0x103A then ramWith 0x1000 tfmXY.bytes p
  else if p < 0x2000 then
    -- LDA #$11, STA $1000, LDY #$3000, JMP $1000
    ramWith 0x103A [0x86, 0x11, 0xB7, 0x10, 0x00, 0x10, 0x8E, 0x30, 0x00, 0x7E, 0x10, 0x00] p
  else ramWith 0x2000 [0x20] p

/-- The start of the program, with no transfer under way. -/
def rewrittenStart : Core (Nat → Byte) :=
  ⟨{ pc := 0x1000, x := 0x2000, y := 0x1000, w := 2 }, {}, ⟨{}, rewrittenMem⟩⟩

/-- The core after `n` instructions. -/
def afterInsns : Nat → Core (Nat → Byte) → Core (Nat → Byte)
  | 0, c => c
  | n + 1, c => afterInsns n (executeOne (ramBus 0) .hd6309 0 c).st

/-- Where the TFM is entered anew, with one byte to move. -/
def rewritten : Core (Nat → Byte) := afterInsns 6 rewrittenStart

/-- The flag is still set for the address: the transfer moves its byte without the setup. -/
theorem stale_flag_skips_setup :
    NotOverwritten (ramBus 0) tfmXY rewritten.regs.pc (fun _ => id)
        (rewritten.regs, rewritten.env) ∧
      (runTransfer (ramBus 0) (fun _ => none) 0 rewritten.regs.w.toNat rewritten).out.cycles =
        3 ∧
      ¬CostsAsListed (ramBus 0) tfmXY rewritten := by
  have hcycles : (runTransfer (ramBus 0) (fun _ => none) 0 rewritten.regs.w.toNat
      rewritten).out.cycles = 3 := by decide +kernel
  have hstands : Stands (ramBus 0) rewritten.env rewritten.regs.pc tfmXY.bytes :=
    stands_ram (by decide +kernel)
  refine ⟨⟨hstands, fun _ => ⟨⟨hstands, by decide +kernel⟩, ?_⟩⟩, hcycles, ?_⟩
  · have hlast : rewritten.regs.w.toNat - 1 = 0 := by decide +kernel
    dsimp only
    rw [hlast]
    exact trivial
  · intro hcost
    have hlisted := hcost 0 (Nat.le_refl 0)
    rw [hcycles] at hlisted
    revert hlisted
    decide +kernel

end CocoEmulator.Cpu
