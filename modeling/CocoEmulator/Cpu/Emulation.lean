/-
  Cpu/Emulation.lean --- the 6309 build in emulation mode against the 6809 build.

  The source is compiled twice.  The builds differ in the operand decoder, in
  TFR and EXG, in the prefix loop, in the interrupt frame and in the cycle
  savings.  This file shows that none of the differences is visible to
  documented 6809 code while MD is 0 and NMI is armed:

      executeOne_agree      one documented instruction
      poll_agrees           the interrupt poll, whatever the lines
      emulation_exact       a whole call, for every budget and every bus

  `documentedNext` is the fuzz test's generator (`gen_legal_6809` in
  cpu_test.cpp) read as a predicate on the bytes the instruction fetches, with
  SYNC and CWAI let in.  The one field that is not compared is the resume point
  of a block transfer: taking an interrupt clears it in the 6309 build only.
-/
import CocoEmulator.Cpu.Run
import Mathlib.Tactic.IntervalCases

set_option autoImplicit false

namespace CocoEmulator.Cpu

open CocoEmulator.Base

/-! ## Documented code -/

/-- `mc6809_cycles_page1`; 0 is an undefined opcode, or a prefix. -/
def cyclesPage1 : OpTable := [
  [6, 0, 0, 6, 6, 0, 6, 6, 6, 6, 6, 0, 6, 6, 3, 6],
  [0, 0, 2, 4, 0, 0, 5, 9, 0, 2, 3, 0, 3, 2, 8, 6],
  [3, 3, 3, 3, 3, 3, 3, 3, 3, 3, 3, 3, 3, 3, 3, 3],
  [4, 4, 4, 4, 5, 5, 5, 5, 0, 5, 3, 6, 20, 11, 0, 19],
  [2, 0, 0, 2, 2, 0, 2, 2, 2, 2, 2, 0, 2, 2, 0, 2],
  [2, 0, 0, 2, 2, 0, 2, 2, 2, 2, 2, 0, 2, 2, 0, 2],
  [6, 0, 0, 6, 6, 0, 6, 6, 6, 6, 6, 0, 6, 6, 3, 6],
  [7, 0, 0, 7, 7, 0, 7, 7, 7, 7, 7, 0, 7, 7, 4, 7],
  [2, 2, 2, 4, 2, 2, 2, 0, 2, 2, 2, 2, 4, 7, 3, 0],
  [4, 4, 4, 6, 4, 4, 4, 4, 4, 4, 4, 4, 6, 7, 5, 5],
  [4, 4, 4, 6, 4, 4, 4, 4, 4, 4, 4, 4, 6, 7, 5, 5],
  [5, 5, 5, 7, 5, 5, 5, 5, 5, 5, 5, 5, 7, 8, 6, 6],
  [2, 2, 2, 4, 2, 2, 2, 0, 2, 2, 2, 2, 3, 0, 3, 0],
  [4, 4, 4, 6, 4, 4, 4, 4, 4, 4, 4, 4, 5, 5, 5, 5],
  [4, 4, 4, 6, 4, 4, 4, 4, 4, 4, 4, 4, 5, 5, 5, 5],
  [5, 5, 5, 7, 5, 5, 5, 5, 5, 5, 5, 5, 6, 6, 6, 6]]

/-- `legal_6809_p2`. -/
def legalP2 (op : Byte) : Bool :=
  (op ≥ 0x21 && op ≤ 0x2F) ||
    [0x3F, 0x83, 0x93, 0xA3, 0xB3, 0x8C, 0x9C, 0xAC, 0xBC, 0x8E, 0x9E, 0xAE, 0xBE,
     0x9F, 0xAF, 0xBF, 0xCE, 0xDE, 0xEE, 0xFE, 0xDF, 0xEF, 0xFF].contains op

/-- `legal_6809_p3`. -/
def legalP3 (op : Byte) : Bool :=
  [0x3F, 0x83, 0x93, 0xA3, 0xB3, 0x8C, 0x9C, 0xAC, 0xBC].contains op

/-- `legal_6809_index`: the postbytes the 6809 defines. -/
def legalIndex (pb : Byte) : Bool :=
  pb &&& 0x80 == 0 ||
    let ind := pb &&& 0x10 != 0
    match (pb &&& 0x0F).toNat with
    | 0x0 | 0x2 => !ind
    | 0x7 | 0xA | 0xE => false
    | 0xF => ind && pb &&& 0x60 == 0
    | _ => true

/-- `legal_6809_tfr`: both registers of 16 bits, or both of 8. -/
def legalTfr (pb : Byte) : Bool :=
  let s := (pb >>> 4).toNat
  let d := (pb &&& 0x0F).toNat
  (s ≤ 5 && d ≤ 5) || (8 ≤ s && s ≤ 0xB && 8 ≤ d && d ≤ 0xB)

/-- Does an indexed postbyte follow the page 1 opcode?  `has_postbyte_p1`. -/
def hasPostbyteP1 (op : Byte) : Bool :=
  op &&& 0xF0 == 0x60 || op &&& 0xF0 == 0xA0 || op &&& 0xF0 == 0xE0 || op &&& 0xFC == 0x30

/-- Does an indexed postbyte follow the prefixed opcode? -/
def hasPostbyteP2 (op : Byte) : Bool := op &&& 0xF0 == 0xA0 || op &&& 0xF0 == 0xE0

section
variable {σ : Type} (bus : Bus σ)

/-- The next byte is a documented indexed postbyte. -/
def nextLegalIndex (c : Core σ) : Bool := legalIndex (fetch8 bus c).val

/-- What follows a page 1 opcode, read from `c`, is documented. -/
def legalAfterP1 (op : Byte) (c : Core σ) : Bool :=
  cyclesPage1.get op != 0 &&
    (!(op == 0x1E || op == 0x1F) || legalTfr (fetch8 bus c).val) &&
    (!hasPostbyteP1 op || nextLegalIndex bus c)

/-- A prefixed opcode and what follows it, read from `c`, are documented. -/
def legalPrefixed (legal : Byte → Bool) (c : Core σ) : Bool :=
  let o := fetch8 bus c
  legal o.val && (!hasPostbyteP2 o.val || nextLegalIndex bus o.st)

/-- The instruction about to be executed is documented 6809 code. -/
def documentedNext (c : Core σ) : Bool :=
  let o := fetch8 bus c
  if o.val == 0x10 then legalPrefixed bus legalP2 o.st
  else if o.val == 0x11 then legalPrefixed bus legalP3 o.st
  else legalAfterP1 bus o.val o.st

/-- The instruction of the next round, if the poll lets one execute. -/
def documentedRound (c : Core σ) : Bool :=
  let p := poll bus .mc6809 c
  p.val == .burn || documentedNext bus p.st

/-- Every instruction of the next `n` rounds of the 6809 build is documented. -/
def documented (fuel : Nat) (budget : Cycles) : Nat → RunState σ → Bool
  | 0, _ => true
  | n + 1, s =>
      !s.cycles.slt budget ||
        (documentedRound bus s.core &&
          documented fuel budget n (s.perform (round bus .mc6809 fuel)).2)

end

/-! ## Related states -/

/-- Emulation mode with NMI armed. -/
def Emulating (r : Regs) : Prop := r.md = 0 ∧ r.nmiArmed = true

/-- The states of the two builds: equal but for the resume point of a TFM. -/
structure SameCore {σ : Type} (c c' : Core σ) : Prop where
  regs : c.regs = c'.regs
  env : c.env = c'.env
  emulating : Emulating c.regs

section
variable {σ : Type} (bus : Bus σ)

/-- A program that both builds share keeps the states related. -/
abbrev Shared {α : Type} (m : M σ α) : Prop := Act.Agrees SameCore m m

theorem Emulating.not_native {r : Regs} (h : Emulating r) : r.native = false := by
  simp [Regs.native, h.1]

theorem regs_shared : Shared (regs : M σ Regs) :=
  Act.Agrees.gets fun _ _ h => h.regs

/-- After reading the registers the continuation may use that they are those of
emulation mode. -/
theorem regs_then {α : Type} {f f' : Regs → M σ α}
    (hf : ∀ r, Emulating r → Act.Agrees SameCore (f r) (f' r)) :
    Act.Agrees SameCore (regs >>= f) (regs >>= f') :=
  fun c c' h => (regs_shared c c' h).bind (hf _ h.emulating c c' h)

theorem setRegs_agrees {f f' : Regs → Regs}
    (hf : ∀ r, Emulating r → f r = f' r ∧ Emulating (f r)) :
    Act.Agrees SameCore (setRegs f : M σ Unit) (setRegs f') := by
  refine Act.Agrees.modify fun c c' h => ?_
  obtain ⟨hfr, he⟩ := hf _ h.emulating
  exact ⟨by rw [hfr, h.regs], h.env, he⟩

/-- Most updates leave MD and the NMI arming alone, which `exact` sees. -/
theorem setRegs_shared {f : Regs → Regs}
    (hf : ∀ r, Emulating r → Emulating (f r)) :
    Shared (setRegs f : M σ Unit) :=
  setRegs_agrees fun r h => ⟨rfl, hf r h⟩

theorem tick_shared (n : Cycles) : Shared (tick n : M σ Unit) := Act.Agrees.emit _

theorem pure_shared {α : Type} (a : α) : Shared (pure a : M σ α) := Act.Agrees.pure a

theorem memRead_shared (addr : Word) : Shared (memRead bus addr) := by
  intro c c' h
  obtain ⟨r, t, e⟩ := c
  obtain ⟨r', t', e'⟩ := c'
  obtain ⟨rfl, rfl, hm⟩ := h
  unfold memRead
  constructor <;> dsimp only <;> cases bus.readSlot e.host addr
  all_goals first | rfl | exact ⟨rfl, rfl, hm⟩

theorem memWrite_shared (addr : Word) (val : Byte) : Shared (memWrite bus addr val) := by
  intro c c' h
  obtain ⟨r, t, e⟩ := c
  obtain ⟨r', t', e'⟩ := c'
  obtain ⟨rfl, rfl, hm⟩ := h
  unfold memWrite
  constructor <;> dsimp only <;> cases bus.writeSlot e.host addr
  all_goals first | rfl | exact ⟨rfl, rfl, hm⟩

theorem memRead16_shared (addr : Word) : Shared (memRead16 bus addr) :=
  .bind (memRead_shared bus _) fun _ => .bind (memRead_shared bus _) fun _ => pure_shared _

theorem memWrite16_shared (addr val : Word) : Shared (memWrite16 bus addr val) :=
  .bind (memWrite_shared bus _ _) fun _ => memWrite_shared bus _ _

theorem fetch8_shared : Shared (fetch8 bus) :=
  .bind regs_shared fun _ => .bind (setRegs_shared (by exact fun _ h => h)) fun _ =>
    memRead_shared bus _

theorem fetch16_shared : Shared (fetch16 bus) :=
  .bind (fetch8_shared bus) fun _ => .bind (fetch8_shared bus) fun _ => pure_shared _

/-! ## Stacks -/

theorem Emulating.setPtr {r : Regs} (h : Emulating r) (st : Stack) (v : Word) :
    Emulating (st.setPtr v r) := by
  cases st <;> exact h

theorem push8_shared (st : Stack) (val : Byte) : Shared (push8 bus st val) :=
  .bind (setRegs_shared fun _ h => h.setPtr st _) fun _ =>
    .bind regs_shared fun _ => memWrite_shared bus _ _

theorem push16_shared (st : Stack) (val : Word) : Shared (push16 bus st val) :=
  .bind (push8_shared bus st _) fun _ => push8_shared bus st _

theorem pull8_shared (st : Stack) : Shared (pull8 bus st) :=
  .bind regs_shared fun _ => .bind (memRead_shared bus _) fun _ =>
    .bind (setRegs_shared fun _ h => h.setPtr st _) fun _ => pure_shared _

theorem pull16_shared (st : Stack) : Shared (pull16 bus st) :=
  .bind (pull8_shared bus st) fun _ => .bind (pull8_shared bus st) fun _ => pure_shared _

theorem pullInto8_shared {st : Stack} {put : Byte → Regs → Regs}
    (hput : ∀ v r, Emulating r → Emulating (put v r)) : Shared (pullInto8 bus st put) :=
  .bind (pull8_shared bus st) fun v => setRegs_shared (hput v)

theorem pullInto16_shared {st : Stack} {put : Word → Regs → Regs}
    (hput : ∀ v r, Emulating r → Emulating (put v r)) : Shared (pullInto16 bus st put) :=
  .bind (pull16_shared bus st) fun v => setRegs_shared (hput v)

/-- In emulation mode E and F are not stacked. -/
theorem pushEf_agrees : Act.Agrees SameCore (pushEf bus .mc6809) (pushEf bus .hd6309) :=
  regs_then fun r h => by
    rw [h.not_native]
    exact pure_shared ()

theorem pullEf_agrees : Act.Agrees SameCore (pullEf bus .mc6809) (pullEf bus .hd6309) :=
  regs_then fun r h => by
    rw [h.not_native]
    exact pure_shared ()

theorem setCc_shared (f : Byte) : Shared (setCc f : M σ Unit) :=
  setRegs_shared (by exact fun _ h => h)

theorem pushEntire_agrees :
    Act.Agrees SameCore (pushEntire bus .mc6809) (pushEntire bus .hd6309) :=
  .bind regs_shared fun _ => .bind (push16_shared bus .s _) fun _ =>
    .bind (push16_shared bus .s _) fun _ => .bind (push16_shared bus .s _) fun _ =>
    .bind (push16_shared bus .s _) fun _ => .bind (push8_shared bus .s _) fun _ =>
    .bind (pushEf_agrees bus) fun _ => .bind (push8_shared bus .s _) fun _ =>
    .bind (push8_shared bus .s _) fun _ => push8_shared bus .s _

theorem doPsh_shared (st : Stack) (pb : Byte) : Shared (doPsh bus st pb) :=
  .bind regs_shared fun _ => .bind (push16_shared bus st _).guarded fun _ =>
    .bind (push16_shared bus st _).guarded fun _ => .bind (push16_shared bus st _).guarded fun _ =>
    .bind (push16_shared bus st _).guarded fun _ => .bind (push8_shared bus st _).guarded fun _ =>
    .bind (push8_shared bus st _).guarded fun _ => .bind (push8_shared bus st _).guarded fun _ =>
    (push8_shared bus st _).guarded

theorem doPul_shared (st : Stack) (pb : Byte) : Shared (doPul bus st pb) :=
  .bind (pullInto8_shared bus (by exact fun _ _ h => h)).guarded fun _ =>
    .bind (pullInto8_shared bus (by exact fun _ _ h => h)).guarded fun _ =>
    .bind (pullInto8_shared bus (by exact fun _ _ h => h)).guarded fun _ =>
    .bind (pullInto8_shared bus (by exact fun _ _ h => h)).guarded fun _ =>
    .bind (pullInto16_shared bus (by exact fun _ _ h => h)).guarded fun _ =>
    .bind (pullInto16_shared bus (by exact fun _ _ h => h)).guarded fun _ =>
    .bind (pullInto16_shared bus fun v _ h => h.setPtr st.other v).guarded fun _ =>
    (pullInto16_shared bus (by exact fun _ _ h => h)).guarded

/-! ## Addressing -/

theorem Emulating.put {r : Regs} (h : Emulating r) (reg : Reg16) (v : Word) :
    Emulating (reg.put v r) := by
  cases reg <;> exact h

theorem addrDirect_shared : Shared (addrDirect bus) :=
  .bind regs_shared fun _ => .bind (fetch8_shared bus) fun _ => pure_shared _

theorem indexedPlus_shared (reg : Reg16) (offset : Regs → Word) (ind : Bool) (m n : Cycles) :
    Shared (indexedPlus reg offset ind m n : M σ Word) :=
  .bind regs_shared fun _ => .bind (tick_shared _) fun _ => pure_shared _

/-- The modes the 6809 defines: not E, F or W as the offset. -/
theorem indexedMode_agrees (reg : Reg16) {mode : Nat} (ind : Bool)
    (h7 : mode ≠ 0x7) (hA : mode ≠ 0xA) (hE : mode ≠ 0xE) :
    Act.Agrees SameCore (indexedMode bus .mc6809 reg mode ind)
      (indexedMode bus .hd6309 reg mode ind) := by
  unfold indexedMode
  split
  · exact .bind regs_shared fun _ => .bind (setRegs_shared fun _ h => h.put reg _) fun _ =>
      .bind (tick_shared _) fun _ => pure_shared _
  · exact .bind regs_shared fun _ => .bind (setRegs_shared fun _ h => h.put reg _) fun _ =>
      .bind (tick_shared _) fun _ => pure_shared _
  · exact .bind (setRegs_shared fun _ h => h.put reg _) fun _ => .bind regs_shared fun _ =>
      .bind (tick_shared _) fun _ => pure_shared _
  · exact .bind (setRegs_shared fun _ h => h.put reg _) fun _ => .bind regs_shared fun _ =>
      .bind (tick_shared _) fun _ => pure_shared _
  · exact indexedPlus_shared reg _ ind _ _
  · exact indexedPlus_shared reg _ ind _ _
  · exact indexedPlus_shared reg _ ind _ _
  · exact absurd rfl h7
  · exact .bind (fetch8_shared bus) fun _ => indexedPlus_shared reg _ ind _ _
  · exact .bind (fetch16_shared bus) fun _ => indexedPlus_shared reg _ ind _ _
  · exact absurd rfl hA
  · exact indexedPlus_shared reg _ ind _ _
  · exact .bind (fetch8_shared bus) fun _ => .bind regs_shared fun _ =>
      .bind (tick_shared _) fun _ => pure_shared _
  · exact .bind (fetch16_shared bus) fun _ => .bind regs_shared fun _ =>
      .bind (tick_shared _) fun _ => pure_shared _
  · exact absurd rfl hE
  · split
    · exact .bind (fetch16_shared bus) fun _ => .bind (tick_shared _) fun _ => pure_shared _
    · exact indexedPlus_shared reg _ ind _ _

set_option maxRecDepth 4000 in
/-- A documented postbyte with bit 7 set selects neither W nor E, F, W as offset. -/
theorem legalIndex_spec : ∀ pb : Byte, legalIndex pb = true → (pb &&& 0x80 == 0) = false →
    isIndexedW pb = false ∧ (pb &&& 0x0F).toNat ≠ 0x7 ∧ (pb &&& 0x0F).toNat ≠ 0xA ∧
      (pb &&& 0x0F).toNat ≠ 0xE := by
  decide

/-- In emulation mode no saving is applied. -/
theorem indexedSave_agrees (mode : Nat) :
    Act.Agrees SameCore (indexedSave .mc6809 mode : M σ Unit) (indexedSave .hd6309 mode) :=
  regs_then fun r h => by
    rw [h.not_native]
    exact pure_shared ()

theorem addrIndexedAt_agrees {pb : Byte} (hpb : legalIndex pb = true) :
    Act.Agrees SameCore (addrIndexedAt bus .mc6809 pb) (addrIndexedAt bus .hd6309 pb) := by
  unfold addrIndexedAt
  by_cases h7 : (pb &&& 0x80 == 0) = true
  · rw [if_pos h7, if_pos h7]
    exact .bind regs_shared fun _ => .bind (tick_shared _) fun _ => pure_shared _
  · obtain ⟨hw, hm⟩ := legalIndex_spec pb hpb (by simpa using h7)
    rw [if_neg h7, if_neg h7, hw]
    refine .bind (indexedSave_agrees _) fun _ =>
      .bind (indexedMode_agrees bus _ _ hm.1 hm.2.1 hm.2.2) fun ea => ?_
    split
    · exact memRead16_shared bus ea
    · exact pure_shared ea

/-- The operand that follows is documented: it is not indexed, or its postbyte is. -/
def ModeOk (m : Mode) (c : Core σ) : Prop := m = .indexed → nextLegalIndex bus c = true

variable {bus} {c c' : Core σ}

theorem addrIndexed_agree (h : SameCore c c') (hpb : nextLegalIndex bus c = true) :
    Act.Agree SameCore (addrIndexed bus .mc6809) (addrIndexed bus .hd6309) c c' :=
  have hf := fetch8_shared bus c c' h
  hf.bind (addrIndexedAt_agrees bus hpb _ _ hf.st)

theorem effAddr_agree {m : Mode} (h : SameCore c c') (hm : ModeOk bus m c) :
    Act.Agree SameCore (effAddr bus .mc6809 m) (effAddr bus .hd6309 m) c c' := by
  cases m with
  | imm => exact fetch16_shared bus c c' h
  | direct => exact addrDirect_shared bus c c' h
  | indexed => exact addrIndexed_agree h (hm rfl)
  | extended => exact fetch16_shared bus c c' h

theorem operand8_agree {m : Mode} (h : SameCore c c') (hm : ModeOk bus m c) :
    Act.Agree SameCore (operand8 bus .mc6809 m) (operand8 bus .hd6309 m) c c' := by
  unfold operand8
  split
  · exact fetch8_shared bus c c' h
  · exact (effAddr_agree h hm).then fun _ => memRead_shared bus _

theorem operand16_agree {m : Mode} (h : SameCore c c') (hm : ModeOk bus m c) :
    Act.Agree SameCore (operand16 bus .mc6809 m) (operand16 bus .hd6309 m) c c' := by
  unfold operand16
  split
  · exact fetch16_shared bus c c' h
  · exact (effAddr_agree h hm).then fun _ => memRead16_shared bus _

/-! ## TFR and EXG -/

/-- Codes of the 16-bit registers of the 6809. -/
def Is16 (code : Nat) : Prop := code ≤ 5

/-- Codes of the 8-bit registers of the 6809. -/
def Is8 (code : Nat) : Prop := 8 ≤ code ∧ code ≤ 0xB

theorem legalTfr_spec {pb : Byte} (h : legalTfr pb = true) :
    (Is16 (pb >>> 4).toNat ∧ Is16 (pb &&& 0x0F).toNat) ∨
      (Is8 (pb >>> 4).toNat ∧ Is8 (pb &&& 0x0F).toNat) := by
  simp only [legalTfr, Bool.or_eq_true, Bool.and_eq_true, decide_eq_true_eq] at h
  unfold Is16 Is8
  omega

/-- Between 16-bit registers both builds copy the word; arming NMI again changes
nothing. -/
theorem read16 {code : Nat} (h : Is16 code) (r : Regs) : hTfrRead code r = tfrReadReg code r := by
  unfold Is16 at h
  interval_cases code <;> rfl

theorem write16 {code : Nat} (h : Is16 code) (v : Word) {r : Regs} (he : Emulating r) :
    hTfrWrite code v r = tfrWriteReg code v r := by
  unfold Is16 at h
  obtain ⟨-, hn⟩ := he
  interval_cases code <;>
    first
    | rfl
    | exact congrArg (fun b => { r with s := v, nmiArmed := b }) hn.symm

/-- The 6309 drives both halves of the bus with an 8-bit source, the 6809 the low one. -/
theorem read8 {src : Nat} (hs : Is8 src) (r : Regs) :
    hTfrRead src r = word (hGet8 src r) (hGet8 src r) ∧
      tfrReadReg src r = (hGet8 src r).setWidth 16 := by
  unfold Is8 at hs
  obtain ⟨hs, hs'⟩ := hs
  interval_cases src <;> exact ⟨rfl, rfl⟩

/-- An 8-bit destination takes one half of the bus on the 6309, and the low half on
the 6809. -/
theorem write8 {dst : Nat} (hd : Is8 dst) (v : Byte) (r : Regs) :
    hTfrWrite dst (word v v) r = hPut8 dst v r ∧
      tfrWriteReg dst (v.setWidth 16) r = hPut8 dst v r := by
  unfold Is8 at hd
  obtain ⟨hd, hd'⟩ := hd
  have hhi : hiByte (word v v) = v := hiByte_word v v
  have hlo : loByte (word v v) = v := loByte_word v v
  have hset : loByte (v.setWidth 16) = v := loByte_setWidth v
  interval_cases dst
  · exact ⟨congrArg r.setA hhi, congrArg r.setA hset⟩
  · exact ⟨congrArg r.setB hlo, congrArg r.setB hset⟩
  · exact ⟨congrArg (fun b => { r with cc := b }) hlo, congrArg (fun b => { r with cc := b }) hset⟩
  · exact ⟨congrArg (fun b => { r with dp := b }) hhi, congrArg (fun b => { r with dp := b }) hset⟩

/-- An 8-bit register is read as its value, on the half of the bus the destination
is wired to. -/
theorem transfer8 {src dst : Nat} (hs : Is8 src) (hd : Is8 dst) (r r' : Regs) :
    hTfrWrite dst (hTfrRead src r) r' = hPut8 dst (hGet8 src r) r' ∧
      tfrWriteReg dst (tfrReadReg src r) r' = hPut8 dst (hGet8 src r) r' := by
  rw [(read8 hs r).1, (read8 hs r).2]
  exact write8 hd _ r'

theorem put8_comm {i j : Nat} (hi : Is8 i) (hj : Is8 j) (hne : i ≠ j) (v w : Byte) (r : Regs) :
    hPut8 i v (hPut8 j w r) = hPut8 j w (hPut8 i v r) := by
  unfold Is8 at hi hj
  obtain ⟨hi, hi'⟩ := hi
  obtain ⟨hj, hj'⟩ := hj
  interval_cases i <;> interval_cases j <;>
    first
    | exact absurd rfl hne
    | rfl
    | exact (Regs.setA_setB_comm v w r).symm
    | exact Regs.setA_setB_comm w v r

theorem put16_comm {i j : Nat} (hi : Is16 i) (hj : Is16 j) (hne : i ≠ j) (v w : Word)
    (r : Regs) : tfrWriteReg i v (tfrWriteReg j w r) = tfrWriteReg j w (tfrWriteReg i v r) := by
  unfold Is16 at hi hj
  interval_cases i <;> interval_cases j <;> first | exact absurd rfl hne | rfl

theorem Emulating.tfrWriteReg {r : Regs} (h : Emulating r) (code : Nat) (v : Word) :
    Emulating (tfrWriteReg code v r) := by
  unfold CocoEmulator.Cpu.tfrWriteReg
  split <;> exact h

theorem transfer_agrees {src dst : Nat} (h : (Is16 src ∧ Is16 dst) ∨ (Is8 src ∧ Is8 dst))
    {r : Regs} (he : Emulating r) :
    transfer .mc6809 src dst r = transfer .hd6309 src dst r ∧
      Emulating (transfer .mc6809 src dst r) := by
  refine ⟨?_, he.tfrWriteReg _ _⟩
  rcases h with ⟨hs, hd⟩ | ⟨hs, hd⟩
  · exact (by rw [transfer, transfer, read16 hs, write16 hd _ he])
  · exact (transfer8 hs hd r r).2.trans (transfer8 hs hd r r).1.symm

/-- The builds store the two registers in opposite orders, which shows only if a
register is named twice; then both stores are the same. -/
theorem exchange_agrees {src dst : Nat} (h : (Is16 src ∧ Is16 dst) ∨ (Is8 src ∧ Is8 dst))
    {r : Regs} (he : Emulating r) :
    exchange .mc6809 src dst r = exchange .hd6309 src dst r ∧
      Emulating (exchange .mc6809 src dst r) := by
  refine ⟨?_, (he.tfrWriteReg _ _).tfrWriteReg _ _⟩
  unfold exchange
  dsimp only
  rcases h with ⟨hs, hd⟩ | ⟨hs, hd⟩
  · rw [read16 hs, read16 hd, write16 hd _ he, write16 hs _ (he.tfrWriteReg _ _)]
    by_cases hne : src = dst
    · rw [hne]
    · exact put16_comm hd hs (Ne.symm hne) _ _ r
  · rw [(transfer8 hd hs r _).2, (transfer8 hs hd r _).2, (transfer8 hs hd r _).1,
      (transfer8 hd hs r _).1]
    by_cases hne : src = dst
    · rw [hne]
    · exact put8_comm hd hs (Ne.symm hne) _ _ r

/-! ## Instructions -/

/-- Does the instruction read an indexed postbyte? -/
def Insn.indexed : Insn → Bool
  | .unaryMem _ m | .jmp m | .jsr m | .alu8 _ _ m | .st8 _ m | .ld16 _ m _ | .st16 _ m _
  | .cmp16 _ m _ | .subd m | .addd m => m == .indexed
  | .lea _ => true
  | _ => false

/-- Does a register-pair postbyte follow? -/
def Insn.regPair : Insn → Bool
  | .exg | .tfr => true
  | _ => false

/-- What follows the opcode is documented. -/
structure OperandOk (bus : Bus σ) (i : Insn) (c : Core σ) : Prop where
  index : i.indexed = true → nextLegalIndex bus c = true
  pair : i.regPair = true → legalTfr (fetch8 bus c).val = true

theorem unaryMemAt_shared (op : Unary) (ea : Word) : Shared (unaryMemAt bus op ea) := by
  unfold unaryMemAt
  split
  · exact .bind (memWrite_shared bus _ _) fun _ => setRegs_shared (by exact fun _ h => h)
  · exact .bind (memRead_shared bus _) fun _ => setRegs_shared (by exact fun _ h => h)
  · exact .bind (memRead_shared bus _) fun _ => .bind regs_shared fun _ =>
      .bind (memWrite_shared bus _ _) fun _ => setRegs_shared (by exact fun _ h => h)

theorem Emulating.accPut {r : Regs} (h : Emulating r) (acc : Acc) (v : Byte) :
    Emulating (acc.put v r) := by
  cases acc <;> exact h

theorem unaryAcc_shared (op : Unary) (acc : Acc) : Shared (unaryAcc op acc : M σ Unit) := by
  refine .bind (setRegs_shared fun r h => ?_) fun _ => tick_shared _
  dsimp only
  split
  · exact h
  · exact h.accPut acc _

theorem Emulating.leaPut {r : Regs} (h : Emulating r) (reg : Reg16) (ea : Word) :
    Emulating (leaPut reg ea r) := by
  cases reg with
  | s => exact ⟨h.1, rfl⟩
  | _ => exact h

theorem Emulating.accApply {r : Regs} (h : Emulating r) (acc : Acc) (p : Option Byte × Byte) :
    Emulating (acc.apply p r) := by
  unfold Acc.apply
  cases p.1 with
  | none => exact h
  | some v => exact h.accPut acc v

theorem softwareInterrupt_agrees (mask : Byte) (vec : Word) (n : Cycles) :
    Act.Agrees SameCore (softwareInterrupt bus .mc6809 mask vec n)
      (softwareInterrupt bus .hd6309 mask vec n) :=
  .bind (setCc_shared _) fun _ => .bind (pushEntire_agrees bus) fun _ =>
    .bind (setCc_shared _) fun _ => .bind (memRead16_shared bus _) fun _ =>
    .bind (setRegs_shared (by exact fun _ h => h)) fun _ => tick_shared _

theorem pushPc_shared : Shared (pushPc bus) :=
  .bind regs_shared fun _ => push16_shared bus .s _

theorem rti_agrees : Act.Agrees SameCore (rti bus .mc6809) (rti bus .hd6309) := by
  refine .bind (pullInto8_shared bus (by exact fun _ _ h => h)) fun _ =>
    .bind regs_shared fun r => ?_
  split
  · exact .bind (pullInto8_shared bus (by exact fun _ _ h => h)) fun _ =>
      .bind (pullInto8_shared bus (by exact fun _ _ h => h)) fun _ =>
      .bind (pullEf_agrees bus) fun _ =>
      .bind (pullInto8_shared bus (by exact fun _ _ h => h)) fun _ =>
      .bind (pullInto16_shared bus (by exact fun _ _ h => h)) fun _ =>
      .bind (pullInto16_shared bus (by exact fun _ _ h => h)) fun _ =>
      .bind (pullInto16_shared bus (by exact fun _ _ h => h)) fun _ =>
      .bind (pullInto16_shared bus (by exact fun _ _ h => h)) fun _ =>
      tick_shared _
  · exact .bind (pullInto16_shared bus (by exact fun _ _ h => h)) fun _ => tick_shared _

theorem cwai_agrees : Act.Agrees SameCore (cwai bus .mc6809) (cwai bus .hd6309) :=
  .bind (fetch8_shared bus) fun _ => .bind (setRegs_shared (by exact fun _ h => h)) fun _ =>
    .bind (pushEntire_agrees bus) fun _ => .bind (setRegs_shared (by exact fun _ h => h)) fun _ =>
    tick_shared _

/-- A register-pair instruction whose postbyte names registers of one width. -/
theorem regPair_agree {f f' : Nat → Nat → Regs → Regs} (n : Cycles) (h : SameCore c c')
    (hpb : legalTfr (fetch8 bus c).val = true)
    (hf : ∀ {src dst : Nat}, (Is16 src ∧ Is16 dst) ∨ (Is8 src ∧ Is8 dst) → ∀ {r : Regs},
      Emulating r → f src dst r = f' src dst r ∧ Emulating (f src dst r)) :
    Act.Agree SameCore (regPair bus f n) (regPair bus f' n) c c' :=
  have hfetch := fetch8_shared bus c c' h
  hfetch.bind ((Act.Agrees.bind (setRegs_agrees fun _ he => hf (legalTfr_spec hpb) he)
    fun _ => tick_shared n) _ _ hfetch.st)

/-- One documented instruction of either page. -/
theorem exec_agree (i : Insn) (h : SameCore c c') (ho : OperandOk bus i c) :
    Act.Agree SameCore (exec bus .mc6809 i) (exec bus .hd6309 i) c c' := by
  have hm {m : Mode} (hi : i.indexed = (m == .indexed)) : ModeOk bus m c :=
    fun he => ho.index (by rw [hi, he]; rfl)
  cases i with
  | unaryMem op m =>
    exact (effAddr_agree h (hm rfl)).then fun _ =>
      .bind (unaryMemAt_shared op _) fun _ => tick_shared _
  | unaryAcc op acc => exact unaryAcc_shared op acc c c' h
  | jmp m =>
    exact (effAddr_agree h (hm rfl)).then fun _ =>
      .bind (setRegs_shared (by exact fun _ h => h)) fun _ => tick_shared _
  | jsr m =>
    exact (effAddr_agree h (hm rfl)).then fun _ => .bind pushPc_shared fun _ =>
      .bind (setRegs_shared (by exact fun _ h => h)) fun _ => tick_shared _
  | bsr =>
    exact (fetch8_shared bus c c' h).then fun _ => .bind pushPc_shared fun _ =>
      .bind (setRegs_shared (by exact fun _ h => h)) fun _ => tick_shared _
  | lbra =>
    exact (fetch16_shared bus c c' h).then fun _ =>
      .bind (setRegs_shared (by exact fun _ h => h)) fun _ => tick_shared _
  | lbsr =>
    exact (fetch16_shared bus c c' h).then fun _ => .bind pushPc_shared fun _ =>
      .bind (setRegs_shared (by exact fun _ h => h)) fun _ => tick_shared _
  | lea reg =>
    exact (addrIndexed_agree h (ho.index rfl)).then fun _ =>
      .bind (setRegs_shared fun _ he => he.leaPut reg _) fun _ => tick_shared _
  | psh st =>
    exact (fetch8_shared bus c c' h).then fun _ => .bind (doPsh_shared bus st _) fun _ =>
      tick_shared _
  | pul st =>
    exact (fetch8_shared bus c c' h).then fun _ => .bind (doPul_shared bus st _) fun _ =>
      tick_shared _
  | nop => exact tick_shared _ c c' h
  | sync =>
    exact Act.Agrees.bind (setRegs_shared (by exact fun _ h => h)) (fun _ => tick_shared _) c c' h
  | daa =>
    exact Act.Agrees.bind (setRegs_shared (by exact fun _ h => h)) (fun _ => tick_shared _) c c' h
  | orcc =>
    exact (fetch8_shared bus c c' h).then fun _ =>
      .bind (setRegs_shared (by exact fun _ h => h)) fun _ => tick_shared _
  | andcc =>
    exact (fetch8_shared bus c c' h).then fun _ =>
      .bind (setRegs_shared (by exact fun _ h => h)) fun _ => tick_shared _
  | sex =>
    exact Act.Agrees.bind (setRegs_shared (by exact fun _ h => h)) (fun _ => tick_shared _) c c' h
  | exg => exact regPair_agree 8 h (ho.pair rfl) exchange_agrees
  | tfr => exact regPair_agree 6 h (ho.pair rfl) transfer_agrees
  | rts =>
    exact Act.Agrees.bind (pullInto16_shared bus (by exact fun _ _ h => h))
      (fun _ => tick_shared _) c c' h
  | abx =>
    exact Act.Agrees.bind (setRegs_shared (by exact fun _ h => h)) (fun _ => tick_shared _) c c' h
  | rti => exact rti_agrees c c' h
  | cwai => exact cwai_agrees c c' h
  | mul =>
    exact Act.Agrees.bind (setRegs_shared (by exact fun _ h => h)) (fun _ => tick_shared _) c c' h
  | swi => exact softwareInterrupt_agrees _ _ _ c c' h
  | swi2 => exact softwareInterrupt_agrees _ _ _ c c' h
  | swi3 => exact softwareInterrupt_agrees _ _ _ c c' h
  | alu8 op acc m =>
    exact (operand8_agree h (hm rfl)).then fun _ =>
      .bind (setRegs_shared fun _ he => he.accApply acc _) fun _ => tick_shared _
  | st8 acc m =>
    exact (effAddr_agree h (hm rfl)).then fun _ => .bind regs_shared fun _ =>
      .bind (memWrite_shared bus _ _) fun _ =>
      .bind (setRegs_shared (by exact fun _ h => h)) fun _ => tick_shared _
  | ld16 reg m n =>
    exact (operand16_agree h (hm rfl)).then fun _ =>
      .bind (setRegs_shared fun _ he => he.put reg _) fun _ => .bind (tick_shared _) fun _ =>
      Act.Agrees.guarded (setRegs_shared fun _ he => ⟨he.1, rfl⟩)
  | st16 reg m n =>
    exact (effAddr_agree h (hm rfl)).then fun _ => .bind regs_shared fun _ =>
      .bind (memWrite16_shared bus _ _) fun _ =>
      .bind (setRegs_shared (by exact fun _ h => h)) fun _ => tick_shared _
  | cmp16 reg m n =>
    exact (operand16_agree h (hm rfl)).then fun _ =>
      .bind (setRegs_shared (by exact fun _ h => h)) fun _ =>
      tick_shared _
  | subd m =>
    exact (operand16_agree h (hm rfl)).then fun _ =>
      .bind (setRegs_shared (by exact fun _ h => h)) fun _ =>
      tick_shared _
  | addd m =>
    exact (operand16_agree h (hm rfl)).then fun _ =>
      .bind (setRegs_shared (by exact fun _ h => h)) fun _ =>
      tick_shared _

/-! ## Opcode pages -/

/-- A documented page 1 opcode selects a short branch, or an instruction that reads
the postbytes the generator thinks it reads. -/
def entryOk (op : Byte) : Option Op1 → Bool
  | some (.insn i) =>
      i.indexed == hasPostbyteP1 op && i.regPair == (op == 0x1E || op == 0x1F)
  | some (.branch _) => true
  | _ => false

/-- The same for a prefixed opcode that is not a long branch. -/
def prefixedEntryOk (op : Byte) : Option Insn → Bool
  | some i => i.indexed == hasPostbyteP2 op && !i.regPair
  | none => false

set_option maxRecDepth 8000 in
/-- What the opcode tables say about documented opcodes, read off all 256 entries of
each at once. -/
theorem documented_tables :
    (∀ op : Byte, (cyclesPage1.get op != 0) = true → entryOk op (page1.get op) = true) ∧
    (∀ op : Byte, legalP2 op = true →
      isPrefix op = false ∧ isLongBranch .mc6809 op = isLongBranch .hd6309 op ∧
        (isLongBranch .mc6809 op || prefixedEntryOk op (page2.get op)) = true) ∧
    (∀ op : Byte, legalP3 op = true →
      isPrefix op = false ∧ prefixedEntryOk op (page3.get op) = true) ∧
    page1.get 0x10 = some .page2 ∧ page1.get 0x11 = some .page3 := by
  decide

theorem page1_documented (op : Byte) (h : (cyclesPage1.get op != 0) = true) :
    entryOk op (page1.get op) = true :=
  documented_tables.1 op h

theorem page2_documented (op : Byte) (h : legalP2 op = true) :
    isPrefix op = false ∧ isLongBranch .mc6809 op = isLongBranch .hd6309 op ∧
      (isLongBranch .mc6809 op || prefixedEntryOk op (page2.get op)) = true :=
  documented_tables.2.1 op h

theorem page3_documented (op : Byte) (h : legalP3 op = true) :
    isPrefix op = false ∧ prefixedEntryOk op (page3.get op) = true :=
  documented_tables.2.2.1 op h

theorem page1_prefixes : page1.get 0x10 = some .page2 ∧ page1.get 0x11 = some .page3 :=
  documented_tables.2.2.2

theorem nativeSave_agrees (save : OpTable) (op : Byte) :
    Act.Agrees SameCore (nativeSave .mc6809 save op : M σ Unit) (nativeSave .hd6309 save op) :=
  regs_then fun r h => by
    rw [h.not_native]
    exact pure_shared ()

theorem longBranch_agrees (cond : Nat) :
    Act.Agrees SameCore (longBranch bus .mc6809 cond) (longBranch bus .hd6309 cond) := by
  refine .bind (fetch16_shared bus) fun _ => regs_then fun r h => ?_
  rw [h.not_native]
  split
  · exact .bind (setRegs_shared (by exact fun _ h => h)) fun _ => tick_shared _
  · exact tick_shared _

theorem branchOn_shared (cond : Nat) (offset : Byte) :
    Shared (branchOn cond offset : M σ Flow) := by
  refine .bind regs_shared fun r => ?_
  split
  · refine .bind (setRegs_shared (by exact fun _ h => h)) fun _ => .bind regs_shared fun _ => ?_
    split
    · exact pure_shared _
    · exact pure_shared _
  · exact pure_shared _

theorem shortBranch_shared (cond : Nat) : Shared (shortBranch bus cond) :=
  .bind (fetch8_shared bus) fun offset => .bind (tick_shared _) fun _ => branchOn_shared cond offset

/-- The prefix loop of the 6309 ends at once at a documented opcode. -/
theorem skipPrefixes_of_not_prefix {op : Byte} (h : isPrefix op = false) (fuel : Nat) :
    skipPrefixes bus fuel op = pure (some op) := by
  cases fuel <;> simp [skipPrefixes, h]

/-- The entry of a prefixed page, executed from the state after the opcode. -/
theorem prefixedInsn_agree {op : Byte} {i : Insn} (save : OpTable) (h : SameCore c c')
    (hi : prefixedEntryOk op (some i) = true)
    (hx : hasPostbyteP2 op = true → nextLegalIndex bus c = true) :
    Act.Agree SameCore (do exec bus .mc6809 i; nativeSave .mc6809 save op)
      (do exec bus .hd6309 i; nativeSave .hd6309 save op) c c' := by
  simp only [prefixedEntryOk, Bool.and_eq_true, beq_iff_eq, Bool.not_eq_true'] at hi
  refine (exec_agree i h ⟨fun hidx => hx (hi.1 ▸ hidx), fun hp => ?_⟩).then fun _ =>
    nativeSave_agrees save op
  rw [hi.2] at hp
  exact absurd hp (by decide)

theorem executePage2_agree {op : Byte} (h : SameCore c c') (hop : legalP2 op = true)
    (hx : hasPostbyteP2 op = true → nextLegalIndex bus c = true) :
    Act.Agree SameCore (executePage2 bus .mc6809 op) (executePage2 bus .hd6309 op) c c' := by
  obtain ⟨-, hb, he⟩ := page2_documented op hop
  unfold executePage2
  rw [← hb]
  split
  · exact longBranch_agrees _ c c' h
  · rename_i hn
    rw [Bool.not_eq_true] at hn
    rw [hn, Bool.false_or] at he
    cases hi : page2.get op with
    | none => rw [hi] at he; exact absurd he Bool.false_ne_true
    | some i => exact prefixedInsn_agree _ h (hi ▸ he) hx

theorem executePage3_agree {op : Byte} (pc : Word) (h : SameCore c c') (hop : legalP3 op = true)
    (hx : hasPostbyteP2 op = true → nextLegalIndex bus c = true) :
    Act.Agree SameCore (executePage3 bus .mc6809 pc op) (executePage3 bus .hd6309 pc op)
      c c' := by
  obtain ⟨-, he⟩ := page3_documented op hop
  unfold executePage3
  cases hi : page3.get op with
  | none => rw [hi] at he; exact absurd he Bool.false_ne_true
  | some i => exact prefixedInsn_agree _ h (hi ▸ he) hx

/-- A documented prefixed instruction, given how its page executes the opcode. -/
theorem afterPrefix_agree {k k' : Byte → M σ Unit} (fuel : Nat) (legal : Byte → Bool)
    (h : SameCore c c') (hdoc : legalPrefixed bus legal c = true)
    (hnp : ∀ op, legal op = true → isPrefix op = false)
    (hk : ∀ op (d d' : Core σ), SameCore d d' → legal op = true →
      (hasPostbyteP2 op = true → nextLegalIndex bus d = true) →
      Act.Agree SameCore (k op) (k' op) d d') :
    Act.Agree SameCore (prefixed bus .mc6809 fuel >>= afterPrefix k)
      (prefixed bus .hd6309 fuel >>= afterPrefix k') c c' := by
  have hf := fetch8_shared bus c c' h
  simp only [legalPrefixed, Bool.and_eq_true, Bool.or_eq_true, Bool.not_eq_true'] at hdoc
  obtain ⟨hop, hx⟩ := hdoc
  have hskip : skipPrefixes bus fuel (fetch8 bus c).val = pure (some (fetch8 bus c).val) :=
    skipPrefixes_of_not_prefix (hnp _ hop) fuel
  refine Act.Agree.bind (hf.bind ?_) ?_
  · dsimp only
    rw [hskip]
    exact pure_shared _ _ _ hf.st
  · have hval : (prefixed bus .mc6809 fuel c).val = some (fetch8 bus c).val := rfl
    have hst : (prefixed bus .mc6809 fuel c).st = (fetch8 bus c).st := rfl
    have hst' : (prefixed bus .hd6309 fuel c').st = (fetch8 bus c').st := by
      show (skipPrefixes bus fuel (fetch8 bus c').val (fetch8 bus c').st).st = _
      rw [← hf.val, hskip]
      rfl
    rw [hval, hst, hst']
    refine (hk _ _ _ hf.st hop fun hp => ?_).then fun _ => pure_shared _
    rcases hx with hx | hx
    · rw [hx] at hp
      exact absurd hp (by decide)
    · exact hx

/-- One documented instruction: the builds do the same. -/
theorem executeOne_agree (fuel : Nat) (h : SameCore c c') (hdoc : documentedNext bus c = true) :
    Act.Agree SameCore (executeOne bus .mc6809 fuel) (executeOne bus .hd6309 fuel) c c' := by
  have hf := fetch8_shared bus c c' h
  refine hf.bind ?_
  unfold documentedNext at hdoc
  dsimp only at hdoc
  generalize (fetch8 bus c).val = op at hdoc
  split at hdoc
  · rename_i h10
    obtain rfl : op = 0x10 := by simpa using h10
    unfold executeOp
    rw [page1_prefixes.1]
    exact afterPrefix_agree fuel legalP2 hf.st hdoc (fun op hop => (page2_documented op hop).1)
      fun _ _ _ hd hop hx => executePage2_agree hd hop hx
  split at hdoc
  · rename_i h11
    obtain rfl : op = 0x11 := by simpa using h11
    unfold executeOp
    rw [page1_prefixes.2]
    refine (regs_shared _ _ hf.st).bind ?_
    exact afterPrefix_agree fuel legalP3 hf.st hdoc (fun op hop => (page3_documented op hop).1)
      fun _ _ _ hd hop hx => executePage3_agree _ hd hop hx
  · simp only [legalAfterP1, Bool.and_eq_true, Bool.or_eq_true, Bool.not_eq_true'] at hdoc
    obtain ⟨⟨hcyc, hpair⟩, hidx⟩ := hdoc
    have he := page1_documented op hcyc
    unfold executeOp
    cases hi : page1.get op with
    | none => rw [hi] at he; exact absurd he Bool.false_ne_true
    | some e =>
      rw [hi] at he
      cases e with
      | branch cond => exact shortBranch_shared cond _ _ hf.st
      | page2 => exact absurd he Bool.false_ne_true
      | page3 => exact absurd he Bool.false_ne_true
      | insn i =>
        simp only [entryOk, Bool.and_eq_true, beq_iff_eq] at he
        refine (exec_agree i hf.st ⟨fun hx => ?_, fun hp => ?_⟩).then fun _ =>
          .bind (nativeSave_agrees _ _) fun _ => pure_shared _
        · rw [he.1] at hx
          exact hidx.resolve_left (by rw [hx]; decide)
        · rw [he.2] at hp
          exact hpair.resolve_left (by rw [hp]; decide)

/-! ## The poll -/

theorem getPins_shared : Shared (getPins : M σ Pins) :=
  Act.Agrees.gets fun _ _ h => by rw [h.env]

theorem setPins_shared (f : Pins → Pins) : Shared (setPins f : M σ Unit) :=
  Act.Agrees.modify fun _ _ h => ⟨h.regs, by rw [h.env], h.emulating⟩

/-- The one effect of the 6309 build that the 6809 build lacks. -/
theorem irqEntry_agrees :
    Act.Agrees SameCore (irqEntry .mc6809 : M σ Unit) (irqEntry .hd6309) :=
  fun _ _ h => ⟨rfl, rfl, h.regs, h.env, h.emulating⟩

theorem stackEntire_agrees :
    Act.Agrees SameCore (stackEntire bus .mc6809) (stackEntire bus .hd6309) := by
  refine .bind regs_shared fun r => ?_
  split
  · exact tick_shared _
  · exact .bind (setCc_shared _) fun _ => .bind (pushEntire_agrees bus) fun _ => tick_shared _

theorem stackFirq_agrees :
    Act.Agrees SameCore (stackFirq bus .mc6809) (stackFirq bus .hd6309) := by
  refine regs_then fun r h => ?_
  split
  · exact tick_shared _
  · rw [h.1]
    exact .bind (setRegs_shared (by exact fun _ h => h)) fun _ =>
      .bind (push16_shared bus .s _) fun _ =>
      .bind regs_shared fun _ => .bind (push8_shared bus .s _) fun _ => tick_shared _

theorem enterHandler_shared (mask : Byte) (vec : Word) : Shared (enterHandler bus mask vec) :=
  .bind (setCc_shared _) fun _ => .bind (memRead16_shared bus _) fun _ =>
    setRegs_shared (by exact fun _ h => h)

theorem checkInterrupts_agrees :
    Act.Agrees SameCore (checkInterrupts bus .mc6809) (checkInterrupts bus .hd6309) := by
  refine .bind regs_shared fun r => .bind getPins_shared fun p => ?_
  cases pendingService r p with
  | none => exact pure_shared ()
  | some sv =>
    cases sv with
    | nmi =>
      exact .bind (setPins_shared _) fun _ => .bind irqEntry_agrees fun _ =>
        .bind stackEntire_agrees fun _ => enterHandler_shared _ _
    | firq =>
      exact .bind irqEntry_agrees fun _ => .bind stackFirq_agrees fun _ =>
        enterHandler_shared _ _
    | irq =>
      exact .bind irqEntry_agrees fun _ => .bind stackEntire_agrees fun _ =>
        enterHandler_shared _ _

theorem pollAll_agrees : Act.Agrees SameCore (pollAll bus .mc6809) (pollAll bus .hd6309) := by
  refine .bind getPins_shared fun p => ?_
  split
  · exact pure_shared _
  · refine .bind checkInterrupts_agrees fun _ => .bind regs_shared fun r =>
      .bind getPins_shared fun p => ?_
    split
    · split
      · exact .bind (setRegs_shared (by exact fun _ h => h)) fun _ => pure_shared _
      · exact pure_shared _
    · exact pure_shared _

/-- Where the 6309 build skips the poll, the poll does nothing. -/
theorem pollAll_of_guard_false (b : Build) (h : pollGuard c = false) :
    pollAll bus b c = ⟨.execute, 1, c⟩ := by
  simp only [pollGuard, Bool.or_eq_false_iff] at h
  obtain ⟨⟨⟨⟨hhalt, hwait⟩, hnmi⟩, hfirq⟩, hirq⟩ := h
  have hnone : pendingService c.regs c.env.pins = none := by
    simp [pendingService, hnmi, hfirq, hirq]
  have hcheck : checkInterrupts bus b c = ⟨(), 1, c⟩ := by
    simp [checkInterrupts, regs, getPins, Act.bind_apply, hnone]
  simp [pollAll, getPins, regs, Act.bind_apply, hhalt, hcheck, hwait]

theorem poll_agrees : Act.Agrees SameCore (poll bus .mc6809) (poll bus .hd6309) := by
  intro c c' h
  have hg : pollGuard c = pollGuard c' := by simp only [pollGuard, h.env, h.regs]
  cases hb : pollGuard c' with
  | false =>
    rw [hb] at hg
    have hp : poll bus .mc6809 c = ⟨.execute, 1, c⟩ := pollAll_of_guard_false .mc6809 hg
    have hp' : poll bus .hd6309 c' = ⟨.execute, 1, c'⟩ := by
      simp [poll, Act.bind_apply, hb]
    exact ⟨by rw [hp, hp'], by rw [hp, hp'], by rw [hp, hp']; exact h⟩
  | true =>
    have hp' : poll bus .hd6309 c' = pollAll bus .hd6309 c' := by
      simp [poll, Act.bind_apply, hb]
    have ha : Act.Agree SameCore (pollAll bus .mc6809) (pollAll bus .hd6309) c c' :=
      pollAll_agrees c c' h
    exact ⟨by rw [hp']; exact ha.val, by rw [hp']; exact ha.out, by rw [hp']; exact ha.st⟩

/-- One round on documented code. -/
theorem round_agree (fuel : Nat) (h : SameCore c c') (hdoc : documentedRound bus c = true) :
    Act.Agree SameCore (round bus .mc6809 fuel) (round bus .hd6309 fuel) c c' := by
  have hp : Act.Agree SameCore (poll bus .mc6809) (poll bus .hd6309) c c' :=
    poll_agrees c c' h
  refine hp.bind ?_
  simp only [documentedRound, Bool.or_eq_true, beq_iff_eq] at hdoc
  cases hv : (poll bus .mc6809 c).val with
  | burn => exact pure_shared _ _ _ hp.st
  | execute =>
    rw [hv] at hdoc
    have hnext := hdoc.resolve_left (by simp)
    exact (executeOne_agree fuel hp.st hnext).then fun _ => pure_shared _

/-! ## Runs -/

/-- The calls of the two builds, at the same point: the machines are related, the
cycle counts and the accesses so far are the same. -/
structure SameRun (s s' : RunState σ) : Prop where
  core : SameCore s.core s'.core
  cycles : s.cycles = s'.cycles
  trace : s.trace = s'.trace

theorem SameRun.perform {α : Type} {m m' : M σ α} {s s' : RunState σ} (h : SameRun s s')
    (hm : Act.Agree SameCore m m' s.core s'.core) :
    (s.perform m).1 = (s'.perform m').1 ∧ SameRun (s.perform m).2 (s'.perform m').2 :=
  ⟨hm.val, hm.st, by simp only [RunState.perform, hm.out, h.cycles],
    by simp only [RunState.perform, hm.out, h.trace]⟩

/-- One round of both loops on documented code. -/
theorem runBody_agree (fuel : Nat) (budget : Cycles) (n : Nat) {s s' : RunState σ}
    (h : SameRun s s') (hdoc : documented bus fuel budget (n + 1) s = true) :
    MoveRel (fun s s' => SameRun s s' ∧ documented bus fuel budget n s = true) SameRun
      (runBody bus .mc6809 false fuel budget s) (runBody bus .hd6309 false fuel budget s') := by
  unfold runBody
  rw [← h.cycles]
  split
  · rename_i hlt
    have hd := hdoc
    simp only [documented, hlt, Bool.not_true, Bool.false_or] at hd
    obtain ⟨hnext, hrest⟩ := Bool.and_eq_true_iff.mp hd
    obtain ⟨hv, hs⟩ := h.perform (round_agree fuel h.core hnext)
    unfold runRound
    rcases hp : s.perform (round bus .mc6809 fuel) with ⟨v, t⟩
    rcases hp' : s'.perform (round bus .hd6309 fuel) with ⟨v', t'⟩
    rw [hp, hp'] at hv hs
    obtain rfl : v = v' := hv
    rw [hp] at hrest
    rcases v with _ | w
    · exact .stop ⟨hs.core, rfl, hs.trace⟩
    · cases w with
      | stuck => exact .stuck
      | next => exact .go ⟨hs, hrest⟩
      | branchBack br => exact .go ⟨hs, hrest⟩
  · exact .stop h

end

/-! ## The builds return the same -/

/-- What the two builds leave behind at the end of a call: every register the 6809
has, the wait and CWAI state, the machine behind the bus, the accesses in order,
and the returned cycle count. -/
structure SameResult {σ : Type} (t t' : RunState σ) : Prop where
  a : t.core.regs.a = t'.core.regs.a
  b : t.core.regs.b = t'.core.regs.b
  x : t.core.regs.x = t'.core.regs.x
  y : t.core.regs.y = t'.core.regs.y
  u : t.core.regs.u = t'.core.regs.u
  s : t.core.regs.s = t'.core.regs.s
  pc : t.core.regs.pc = t'.core.regs.pc
  dp : t.core.regs.dp = t'.core.regs.dp
  cc : t.core.regs.cc = t'.core.regs.cc
  wait : t.core.regs.waitForInterrupt = t'.core.regs.waitForInterrupt
  cwai : t.core.regs.cwaiState = t'.core.regs.cwaiState
  env : t.core.env = t'.core.env
  trace : t.trace = t'.trace
  cycles : t.cycles = t'.cycles

theorem SameRun.result {σ : Type} {s s' : RunState σ} (h : SameRun s s') : SameResult s s' := by
  have hr := h.core.regs
  constructor <;> first | exact h.core.env | exact h.trace | exact h.cycles | rw [hr]

/-- A call of either build on documented 6809 code, from any state with MD = 0 and
NMI armed: for every budget, every bus and every number of rounds, both return or
neither does, and they return the same. -/
theorem emulation_exact {σ : Type} (bus : Bus σ) (c : Core σ) (budget : Cycles)
    (rej : Option Word) (fuel n : Nat) (hmd : c.regs.md = 0) (hnmi : c.regs.nmiArmed = true)
    (hdoc : documented bus fuel budget n (.start c none) = true) :
    Option.Rel SameResult (mc6809Run bus fuel n budget c)
      (hd6309Run bus false rej fuel n budget c) := by
  have hstart : SameRun (RunState.start c none) (RunState.start c rej) :=
    ⟨⟨rfl, rfl, hmd, hnmi⟩, rfl, rfl⟩
  unfold mc6809Run hd6309Run
  split
  · have hrel := loop_rel (fun n s s' h => runBody_agree fuel budget n h.1 h.2) n
      (And.intro hstart hdoc)
    generalize loop (runBody bus .mc6809 false fuel budget) n (.start c none) = o at hrel
    generalize loop (runBody bus .hd6309 false fuel budget) n (.start c rej) = o' at hrel
    cases hrel with
    | none => exact Option.Rel.none
    | some h => exact Option.Rel.some h.result
  · exact Option.Rel.some hstart.result

/-- `ORCC #$50 / LDD #$1234 / STD ,-S / BRA *` on plain RAM, for 40 cycles. -/
def emulationCode : List Byte :=
  [0x1A, 0x50, 0xCC, 0x12, 0x34, 0xED, 0xE3, 0x20, 0xFE]

def emulationCore : Core (Nat → Byte) :=
  ⟨{ pc := 0x1000, s := 0x8000, nmiArmed := true }, {}, ⟨{}, ramWith 0x1000 emulationCode⟩⟩

theorem emulation_exact_ram :
    Option.Rel SameResult (mc6809Run (ramBus 0xFF00) 0 20 40 emulationCore)
        (hd6309Run (ramBus 0xFF00) false none 0 20 40 emulationCore) ∧
      (mc6809Run (ramBus 0xFF00) 0 20 40 emulationCore).isSome = true :=
  ⟨emulation_exact (ramBus 0xFF00) emulationCore 40 none 0 20 rfl rfl (by decide +kernel),
    by decide +kernel⟩

end CocoEmulator.Cpu
