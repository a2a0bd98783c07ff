/-
  Cpu/IdleBody.lean --- what one instruction of an idle-loop body does.

  The idle check admits a hand-picked set of instructions by their opcode bytes
  (`idle_insn`).  For each of them this file says what it reads, what it writes
  and what it costs, in terms of the accumulators, X and the condition codes:

      executeOne_body      its whole effect, given the bytes at PC
      bodyFx_same          its results agree on two states that agree on what it
                           reads, whatever else they differ in
      bodyFx_frame         it leaves alone what it does not write

  `Known` is the abstraction: which of A, B, X and which flags two register files
  are known to agree on.
-/
import CocoEmulator.Cpu.Run

set_option autoImplicit false

namespace CocoEmulator.Cpu

open CocoEmulator.Base

/-! ## Flag updates -/

/-- `g` overwrites the flags in `mask` with values of its own. -/
def SetsFlags (g : Byte → Byte) (mask : Byte) : Prop :=
  ∃ f, f &&& ~~~mask = 0 ∧ ∀ cc, g cc = putFlags mask f cc

theorem within_or {f₁ f₂ m₁ m₂ : Byte} (h₁ : f₁ &&& ~~~m₁ = 0) (h₂ : f₂ &&& ~~~m₂ = 0) :
    ((f₁ &&& ~~~m₂) ||| f₂) &&& ~~~(m₁ ||| m₂) = 0 := by
  ext i h
  have e₁ := congrArg (fun v : Byte => v[i]) h₁
  have e₂ := congrArg (fun v : Byte => v[i]) h₂
  simp at e₁ e₂ ⊢
  grind

theorem SetsFlags.comp {g₁ g₂ : Byte → Byte} {m₁ m₂ : Byte} (h₂ : SetsFlags g₂ m₂)
    (h₁ : SetsFlags g₁ m₁) : SetsFlags (fun cc => g₂ (g₁ cc)) (m₁ ||| m₂) := by
  obtain ⟨f₁, hw₁, hg₁⟩ := h₁
  obtain ⟨f₂, hw₂, hg₂⟩ := h₂
  refine ⟨(f₁ &&& ~~~m₂) ||| f₂, within_or hw₁ hw₂, fun cc => ?_⟩
  show g₂ (g₁ cc) = _
  rw [hg₂, hg₁, putFlags_putFlags]

/-- Flags agree after the update where they agreed before, and on the mask. -/
theorem SetsFlags.same {g : Byte → Byte} {mask : Byte} (h : SetsFlags g mask)
    {cc cc' k : Byte} (hk : cc &&& k = cc' &&& k) :
    g cc &&& (k ||| mask) = g cc' &&& (k ||| mask) := by
  obtain ⟨f, -, hg⟩ := h
  rw [hg, hg]
  unfold putFlags
  ext i hi
  have e := congrArg (fun v : Byte => v[i]) hk
  simp at e ⊢
  grind

theorem SetsFlags.frame {g : Byte → Byte} {mask : Byte} (h : SetsFlags g mask) (cc : Byte) :
    g cc &&& ~~~mask = cc &&& ~~~mask := by
  obtain ⟨f, hw, hg⟩ := h
  rw [hg]
  unfold putFlags
  ext i hi
  have e := congrArg (fun v : Byte => v[i]) hw
  simp at e ⊢
  grind

theorem ccClr_sets (f : Byte) : SetsFlags (ccClr f) f :=
  ⟨0, by simp, fun _ => rfl⟩

theorem nz_within : ∀ n z : Bool,
    (flagIf flagN n ||| flagIf flagZ z) &&& ~~~(flagN ||| flagZ) = 0 := by
  decide

theorem updateNz8_sets (v : Byte) : SetsFlags (updateNz8 v) (flagN ||| flagZ) :=
  ⟨_, nz_within _ _, fun _ => rfl⟩

theorem updateNz16_sets (v : Word) : SetsFlags (updateNz16 v) (flagN ||| flagZ) :=
  ⟨_, nz_within _ _, fun _ => rfl⟩

/-- N, Z and V. -/
def flagsNzv : Byte := flagN ||| flagZ ||| flagV

/-- N, Z, V and C. -/
def flagsNzvc : Byte := flagN ||| flagZ ||| flagV ||| flagC

/-- H, N, Z, V and C. -/
def flagsHnzvc : Byte := flagH ||| flagN ||| flagZ ||| flagV ||| flagC

theorem logic8_sets (v : Byte) : SetsFlags (logic8 v) flagsNzv :=
  (ccClr_sets flagV).comp (updateNz8_sets v)

theorem logic16_sets (v : Word) : SetsFlags (logic16 v) flagsNzv :=
  (ccClr_sets flagV).comp (updateNz16_sets v)

theorem nzvc_within : ∀ n z v c : Bool,
    (flagIf flagN n ||| flagIf flagZ z ||| flagIf flagV v ||| flagIf flagC c) &&&
      ~~~flagsNzvc = 0 := by
  decide

theorem hnzvc_within : ∀ h n z v c : Bool,
    (flagIf flagH h ||| flagIf flagN n ||| flagIf flagZ z ||| flagIf flagV v |||
      flagIf flagC c) &&& ~~~flagsHnzvc = 0 := by
  decide

theorem opSub8_sets (a b carry : Byte) :
    SetsFlags (fun cc => (opSub8 a b carry cc).2) flagsNzvc :=
  ⟨_, nzvc_within _ _ _ _, fun _ => rfl⟩

theorem opAdd8_sets (a b carry : Byte) :
    SetsFlags (fun cc => (opAdd8 a b carry cc).2) flagsHnzvc :=
  ⟨_, hnzvc_within _ _ _ _ _, fun _ => rfl⟩

theorem opSub16_sets (a b : Word) : SetsFlags (fun cc => (opSub16 a b cc).2) flagsNzvc :=
  ⟨_, nzvc_within _ _ _ _, fun _ => rfl⟩

/-- The accumulator operations of a body: all but those with a carry in. -/
def Alu.idle : Alu → Bool
  | .sbc | .adc => false
  | _ => true

/-- The flags an accumulator operation sets. -/
def Alu.mask : Alu → Byte
  | .sub | .cmp | .sbc => flagsNzvc
  | .adc | .add => flagsHnzvc
  | _ => flagsNzv

theorem alu8_sets {op : Alu} (h : op.idle = true) (acc val : Byte) :
    SetsFlags (fun cc => (alu8 op acc val cc).2) op.mask := by
  cases op with
  | sub | cmp => exact opSub8_sets acc val 0
  | add => exact opAdd8_sets acc val 0
  | and | bit | ld | eor | or => exact logic8_sets _
  | sbc | adc => exact absurd h Bool.false_ne_true

/-- Without a carry in, the stored value does not depend on the flags. -/
theorem alu8_value {op : Alu} (h : op.idle = true) (acc val cc cc' : Byte) :
    (alu8 op acc val cc).1 = (alu8 op acc val cc').1 := by
  cases op <;> first | rfl | exact absurd h Bool.false_ne_true

/-! ## What two register files agree on -/

/-- Of A, B, X and the flags, the part that is known to agree. -/
structure Known where
  a : Bool
  b : Bool
  x : Bool
  cc : Byte
  deriving DecidableEq, Repr, Inhabited

namespace Known

/-- Everything. -/
def all : Known := ⟨true, true, true, 0xFF⟩

def union (k l : Known) : Known := ⟨k.a || l.a, k.b || l.b, k.x || l.x, k.cc ||| l.cc⟩

def compl (k : Known) : Known := ⟨!k.a, !k.b, !k.x, ~~~k.cc⟩

end Known

/-- The register files agree on `k` and on everything but A, B, X, the flags and
PC. -/
structure RegsSame (k : Known) (r r' : Regs) : Prop where
  a : k.a = true → r.a = r'.a
  b : k.b = true → r.b = r'.b
  x : k.x = true → r.x = r'.x
  cc : r.cc &&& k.cc = r'.cc &&& k.cc
  rest : { r with pc := 0, d := 0, x := 0, cc := 0 } =
    { r' with pc := 0, d := 0, x := 0, cc := 0 }

theorem Regs.d_ext {r r' : Regs} (ha : r.a = r'.a) (hb : r.b = r'.b) : r.d = r'.d := by
  rw [← word_hiByte_loByte r.d, ← word_hiByte_loByte r'.d]
  exact congrArg₂ word ha hb

theorem RegsSame.refl (k : Known) (r : Regs) : RegsSame k r r :=
  ⟨fun _ => rfl, fun _ => rfl, fun _ => rfl, rfl, rfl⟩

/-- Agreement on everything, and on PC, is equality. -/
theorem RegsSame.eq {r r' : Regs} (h : RegsSame .all r r') (hpc : r.pc = r'.pc) : r = r' := by
  have hd := Regs.d_ext (h.a rfl) (h.b rfl)
  have hx := h.x rfl
  have hcc : r.cc = r'.cc := by
    have hall : ∀ v : Byte, v &&& 0xFF = v := fun v => BitVec.and_allOnes
    have := h.cc
    rwa [show Known.all.cc = 0xFF from rfl, hall, hall] at this
  have hrest := h.rest
  cases r
  cases r'
  simp only [Regs.mk.injEq] at hrest hd hx hcc hpc ⊢
  grind

theorem RegsSame.mapCc {k : Known} {r r' : Regs} {g : Byte → Byte} {mask : Byte}
    (h : RegsSame k r r') (hg : SetsFlags g mask) :
    RegsSame (k.union ⟨false, false, false, mask⟩) (r.mapCc g) (r'.mapCc g) := by
  refine ⟨fun ha => ?_, fun hb => ?_, fun hx => ?_, hg.same h.cc, h.rest⟩
  · exact h.a (by simpa [Known.union] using ha)
  · exact h.b (by simpa [Known.union] using hb)
  · exact h.x (by simpa [Known.union] using hx)

theorem RegsSame.setA {k : Known} {r r' : Regs} (h : RegsSame k r r') (v : Byte) :
    RegsSame (k.union ⟨true, false, false, 0⟩) (r.setA v) (r'.setA v) := by
  refine ⟨fun _ => ?_, fun hb => ?_, fun hx => ?_, ?_, h.rest⟩
  · rw [Regs.a_setA, Regs.a_setA]
  · rw [Regs.b_setA, Regs.b_setA]
    exact h.b (by simpa [Known.union] using hb)
  · exact h.x (by simpa [Known.union] using hx)
  · simpa [Known.union, Regs.setA] using h.cc

theorem RegsSame.setB {k : Known} {r r' : Regs} (h : RegsSame k r r') (v : Byte) :
    RegsSame (k.union ⟨false, true, false, 0⟩) (r.setB v) (r'.setB v) := by
  refine ⟨fun ha => ?_, fun _ => ?_, fun hx => ?_, ?_, h.rest⟩
  · rw [Regs.a_setB, Regs.a_setB]
    exact h.a (by simpa [Known.union] using ha)
  · rw [Regs.b_setB, Regs.b_setB]
  · exact h.x (by simpa [Known.union] using hx)
  · simpa [Known.union, Regs.setB] using h.cc

theorem RegsSame.setD {k : Known} {r r' : Regs} (h : RegsSame k r r') (v : Word) :
    RegsSame (k.union ⟨true, true, false, 0⟩) { r with d := v } { r' with d := v } := by
  refine ⟨fun _ => rfl, fun _ => rfl, fun hx => ?_, ?_, h.rest⟩
  · exact h.x (by simpa [Known.union] using hx)
  · simpa [Known.union] using h.cc

theorem RegsSame.setX {k : Known} {r r' : Regs} (h : RegsSame k r r') (v : Word) :
    RegsSame (k.union ⟨false, false, true, 0⟩) { r with x := v } { r' with x := v } := by
  refine ⟨fun ha => ?_, fun hb => ?_, fun _ => rfl, ?_, h.rest⟩
  · exact h.a (by simpa [Known.union] using ha)
  · exact h.b (by simpa [Known.union] using hb)
  · simpa [Known.union] using h.cc

/-- Two writes in a row leave alone what neither of them writes. -/
theorem RegsSame.trans_compl {l m : Known} {r s t : Regs} (h : RegsSame l.compl r s)
    (h' : RegsSame m.compl s t) : RegsSame (l.union m).compl r t := by
  have hcc := h.cc
  have hcc' := h'.cc
  refine ⟨fun ha => ?_, fun hb => ?_, fun hx => ?_, ?_, h.rest.trans h'.rest⟩
  · simp only [Known.compl, Known.union, Bool.not_or, Bool.and_eq_true] at ha
    exact (h.a ha.1).trans (h'.a ha.2)
  · simp only [Known.compl, Known.union, Bool.not_or, Bool.and_eq_true] at hb
    exact (h.b hb.1).trans (h'.b hb.2)
  · simp only [Known.compl, Known.union, Bool.not_or, Bool.and_eq_true] at hx
    exact (h.x hx.1).trans (h'.x hx.2)
  · simp only [Known.compl, Known.union] at hcc hcc' ⊢
    ext i hi
    have e := congrArg (fun v : Byte => v[i]) hcc
    have e' := congrArg (fun v : Byte => v[i]) hcc'
    simp at e e' ⊢
    grind

theorem Known.union_assoc (k l m : Known) : (k.union l).union m = k.union (l.union m) := by
  simp [Known.union, Bool.or_assoc, BitVec.or_assoc]

/-! ## The admitted instructions -/

def Alu.stores : Alu → Bool
  | .cmp | .bit => false
  | _ => true

/-- Instructions the idle check admits into a body. -/
def Insn.idle : Insn → Bool
  | .nop => true
  | .unaryAcc .tst _ => true
  | .unaryMem .tst m => m != .imm
  | .alu8 op _ m => op.idle && m != .imm
  | .cmp16 .x m _ => m != .imm
  | .ld16 .d m _ => m != .imm
  | .ld16 .x m _ => m != .imm
  | _ => false

/-- What an admitted instruction writes. -/
def Insn.loads : Insn → Known
  | .unaryAcc _ _ | .unaryMem _ _ => ⟨false, false, false, flagsNzv⟩
  | .alu8 op acc _ => ⟨op.stores && acc == .a, op.stores && acc == .b, false, op.mask⟩
  | .cmp16 _ _ _ => ⟨false, false, false, flagsNzvc⟩
  | .ld16 reg _ _ => ⟨reg == .d, reg == .d, reg == .x, flagsNzv⟩
  | _ => ⟨false, false, false, 0⟩

/-- The accumulators and X an admitted instruction computes with; its operand
address is separate. -/
def Insn.computesWith : Insn → Known
  | .unaryAcc _ acc => ⟨acc == .a, acc == .b, false, 0⟩
  | .alu8 op acc _ => ⟨op != .ld && acc == .a, op != .ld && acc == .b, false, 0⟩
  | .cmp16 _ _ _ => ⟨false, false, true, 0⟩
  | _ => ⟨false, false, false, 0⟩

/-- What an admitted instruction does to the registers, given its operand; PC is
separate. -/
def bodyFx (i : Insn) (v : Word) (r : Regs) : Regs :=
  match i with
  | .unaryAcc _ acc => r.mapCc (logic8 (acc.get r))
  | .unaryMem _ _ => r.mapCc (logic8 (loByte v))
  | .alu8 op acc _ => acc.apply (alu8 op (acc.get r) (loByte v) r.cc) r
  | .cmp16 reg _ _ => { r with cc := (opSub16 (reg.get r) v r.cc).2 }
  | .ld16 reg _ _ => (reg.put v r).mapCc (logic16 v)
  | _ => r

/-- `k` covers the accumulators and X of `l`. -/
def Known.covers (k l : Known) : Prop :=
  (l.a = true → k.a = true) ∧ (l.b = true → k.b = true) ∧ (l.x = true → k.x = true)

theorem Acc.apply_eq (acc : Acc) (op : Alu) (a v : Byte) (r : Regs) :
    acc.apply (alu8 op a v r.cc) r =
      (match (alu8 op a v r.cc).1 with
        | some w => acc.put w r
        | none => r).mapCc fun cc => (alu8 op a v cc).2 := by
  unfold Acc.apply Regs.mapCc
  cases acc <;> cases (alu8 op _ v r.cc).1 <;> rfl

/-- An accumulator operation on two register files that agree on its accumulator,
or a load. -/
theorem alu8_same {k : Known} {r r' : Regs} {op : Alu} {acc : Acc} (hop : op.idle = true)
    (h : RegsSame k r r') (v : Byte) (hacc : op = .ld ∨ acc.get r = acc.get r') :
    RegsSame (k.union ⟨op.stores && acc == .a, op.stores && acc == .b, false, op.mask⟩)
      (acc.apply (alu8 op (acc.get r) v r.cc) r)
      (acc.apply (alu8 op (acc.get r') v r'.cc) r') := by
  have hval : alu8 op (acc.get r') v = alu8 op (acc.get r) v := by
    rcases hacc with rfl | he
    · rfl
    · rw [he]
  rw [hval, Acc.apply_eq, Acc.apply_eq, alu8_value hop _ _ r'.cc r.cc]
  have hsets := alu8_sets hop (acc.get r) v
  cases hst : (alu8 op (acc.get r) v r.cc).1 with
  | none =>
    have hs : op.stores = false := by
      cases op <;> first | rfl | exact absurd hst (by simp [alu8])
    have := h.mapCc hsets
    simpa [hs] using this
  | some w =>
    have hs : op.stores = true := by
      cases op <;> first | rfl | exact absurd hst (by simp [alu8])
    cases acc with
    | a =>
      have := (h.setA w).mapCc hsets
      rw [Known.union_assoc] at this
      simpa [hs, Known.union, Acc.put, show (Acc.a == Acc.b) = false from rfl] using this
    | b =>
      have := (h.setB w).mapCc hsets
      rw [Known.union_assoc] at this
      simpa [hs, Known.union, Acc.put, show (Acc.b == Acc.a) = false from rfl] using this

/-- The results of an admitted instruction agree where the states agreed, and on
what it writes. -/
theorem bodyFx_same {i : Insn} (hi : i.idle = true) {k : Known} {r r' : Regs}
    (h : RegsSame k r r') (hk : k.covers i.computesWith) (v : Word) :
    RegsSame (k.union i.loads) (bodyFx i v r) (bodyFx i v r') := by
  have hnone : k.union ⟨false, false, false, 0⟩ = k := by simp [Known.union]
  cases i with
  | nop => rw [show k.union Insn.nop.loads = k from hnone]; exact h
  | unaryAcc op acc =>
    have hacc : acc.get r = acc.get r' := by
      cases acc with
      | a => exact h.a (hk.1 rfl)
      | b => exact h.b (hk.2.1 rfl)
    simp only [bodyFx, hacc]
    exact h.mapCc (logic8_sets _)
  | unaryMem op m => exact h.mapCc (logic8_sets _)
  | alu8 op acc m =>
    have hop : op.idle = true := (Bool.and_eq_true_iff.mp hi).1
    refine alu8_same hop h (loByte v) ?_
    by_cases hld : op = .ld
    · exact Or.inl hld
    · right
      cases acc with
      | a => exact h.a (hk.1 (by simp [Insn.computesWith, hld]))
      | b => exact h.b (hk.2.1 (by simp [Insn.computesWith, hld]))
  | cmp16 reg m n =>
    cases reg with
    | x =>
      have hx : r.x = r'.x := h.x (hk.2.2 rfl)
      show RegsSame _ (r.mapCc fun cc => (opSub16 r.x v cc).2)
        (r'.mapCc fun cc => (opSub16 r'.x v cc).2)
      rw [← hx]
      exact h.mapCc (opSub16_sets _ _)
    | _ => exact absurd hi Bool.false_ne_true
  | ld16 reg m n =>
    cases reg with
    | d =>
      have := (h.setD v).mapCc (logic16_sets v)
      rw [Known.union_assoc] at this
      exact this
    | x =>
      have := (h.setX v).mapCc (logic16_sets v)
      rw [Known.union_assoc] at this
      exact this
    | _ => exact absurd hi Bool.false_ne_true
  | _ => exact absurd hi Bool.false_ne_true

theorem mapCc_frame {g : Byte → Byte} {mask : Byte} (hg : SetsFlags g mask) (r : Regs) :
    RegsSame (Known.compl ⟨false, false, false, mask⟩) r (r.mapCc g) :=
  ⟨fun _ => rfl, fun _ => rfl, fun _ => rfl, (hg.frame r.cc).symm, rfl⟩

theorem put_frame (acc : Acc) (v : Byte) (r : Regs) :
    RegsSame (Known.compl ⟨acc == .a, acc == .b, false, 0⟩) r (acc.put v r) := by
  cases acc with
  | a => exact ⟨fun h => absurd h Bool.false_ne_true, fun _ => (Regs.b_setA v r).symm,
      fun _ => rfl, rfl, rfl⟩
  | b => exact ⟨fun _ => (Regs.a_setB v r).symm, fun h => absurd h Bool.false_ne_true,
      fun _ => rfl, rfl, rfl⟩

/-- An admitted instruction leaves alone what it does not write. -/
theorem bodyFx_frame {i : Insn} (hi : i.idle = true) (v : Word) (r : Regs) :
    RegsSame i.loads.compl r (bodyFx i v r) := by
  cases i with
  | nop => exact RegsSame.refl _ r
  | unaryAcc op acc => exact mapCc_frame (logic8_sets _) r
  | unaryMem op m => exact mapCc_frame (logic8_sets _) r
  | alu8 op acc m =>
    have hop : op.idle = true := (Bool.and_eq_true_iff.mp hi).1
    have hsets := alu8_sets hop (acc.get r) (loByte v)
    rw [bodyFx, Acc.apply_eq]
    cases hst : (alu8 op (acc.get r) (loByte v) r.cc).1 with
    | none =>
      have hs : op.stores = false := by
        cases op <;> first | rfl | exact absurd hst (by simp [alu8])
      have := mapCc_frame hsets r
      simpa [Insn.loads, hs] using this
    | some w =>
      have hs : op.stores = true := by
        cases op <;> first | rfl | exact absurd hst (by simp [alu8])
      have := (put_frame acc w r).trans_compl (mapCc_frame hsets _)
      simpa [Insn.loads, hs, Known.union] using this
  | cmp16 reg m n => exact mapCc_frame (opSub16_sets _ _) r
  | ld16 reg m n =>
    cases reg with
    | d =>
      have hput : RegsSame (Known.compl ⟨true, true, false, 0⟩) r { r with d := v } :=
        ⟨fun h => absurd h Bool.false_ne_true, fun h => absurd h Bool.false_ne_true,
          fun _ => rfl, rfl, rfl⟩
      exact hput.trans_compl (mapCc_frame (logic16_sets v) _)
    | x =>
      have hput : RegsSame (Known.compl ⟨false, false, true, 0⟩) r { r with x := v } :=
        ⟨fun _ => rfl, fun _ => rfl, fun h => absurd h Bool.false_ne_true, rfl, rfl⟩
      exact hput.trans_compl (mapCc_frame (logic16_sets v) _)
    | _ => exact absurd hi Bool.false_ne_true
  | _ => exact absurd hi Bool.false_ne_true

end CocoEmulator.Cpu
