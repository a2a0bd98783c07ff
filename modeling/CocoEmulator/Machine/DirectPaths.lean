/-
  Machine/DirectPaths.lean --- the direct paths of the CoCo 3's bus against its chain.

  Two machines see the same accesses, one with the direct paths and one without.  The
  first is at most one edge detection behind (`Lag`): a direct path skips it, and the
  next access that is decoded makes up for it, with the edges that were there.  They also
  differ in the decode that the last cycle left in S, Z and RAS, which no access reads.

      directRead_lag     a direct read against the chain
      directWrite_lag    a direct write against the chain
      direct_paths       the two machines along any run

  Source: machine.cpp, tcc1014.cpp.
-/
import Mathlib.Data.Option.Defs
import CocoEmulator.Machine.Coco3Bus

set_option autoImplicit false

namespace CocoEmulator.Machine

open CocoEmulator.Base CocoEmulator.Chip CocoEmulator.Gime
open Tcc1014 (slotOf physical)

variable {δ : Type}

namespace Coco3Machine

/-- The machine after an edge detection. -/
def settle (m : Coco3Machine δ) : Coco3Machine δ :=
  { m with gime := m.gime.edgeDetectIl, detected := m.detected ++ m.gime.risen }

/-- The same machine with another decode left behind. -/
def decoded (m : Coco3Machine δ) (s : Select) (z : Unsigned) (ras : Bool) : Coco3Machine δ :=
  { m with gime := m.gime.decoded s z ras }

end Coco3Machine

/-- Two machines that differ in the decode left behind. -/
def Same (d c : Coco3Machine δ) : Prop := ∃ s z ras, c = d.decoded s z ras

/-- The first machine is level with the second, or one edge detection behind. -/
inductive Lag (d c : Coco3Machine δ) : Prop
  | level (h : Same d c)
  | behind (h : Same d.settle c)

section

variable {d c e m : Coco3Machine δ}

theorem Same.refl (m : Coco3Machine δ) : Same m m := ⟨m.gime.s, m.gime.z, m.gime.ras, rfl⟩

theorem Same.trans (h : Same d c) (h' : Same c e) : Same d e := by
  obtain ⟨_, _, _, rfl⟩ := h
  obtain ⟨s, z, ras, rfl⟩ := h'
  exact ⟨s, z, ras, rfl⟩

theorem settle_decoded (m : Coco3Machine δ) (s : Select) (z : Unsigned) (ras : Bool) :
    (m.decoded s z ras).settle = m.settle.decoded s z ras := by
  unfold Coco3Machine.settle Coco3Machine.decoded
  rw [edgeDetectIl_decoded]
  rfl

theorem Same.settle (h : Same d c) : Same d.settle c.settle := by
  obtain ⟨s, z, ras, rfl⟩ := h
  exact ⟨s, z, ras, settle_decoded d s z ras⟩

theorem risen_edgeDetectIl (g : Tcc1014) : g.edgeDetectIl.risen = [] := by
  unfold Tcc1014.risen
  rw [edges_edgeDetectIl]
  decide

theorem settle_twice (m : Coco3Machine δ) : m.settle.settle = m.settle := by
  unfold Coco3Machine.settle
  dsimp only
  rw [edgeDetectIl_twice, risen_edgeDetectIl, List.append_nil]

theorem Lag.refl (m : Coco3Machine δ) : Lag m m := .level (Same.refl m)

theorem Lag.trans (h : Lag d c) (h' : Lag c e) : Lag d e := by
  cases h with
  | level h =>
    cases h' with
    | level h' => exact .level (h.trans h')
    | behind h' => exact .behind (h.settle.trans h')
  | behind h =>
    cases h' with
    | level h' => exact .behind (h.trans h')
    | behind h' =>
      have hsettle := h.settle
      rw [settle_twice] at hsettle
      exact .behind (hsettle.trans h')

/-! ## Operations -/

/-- An operation that may come before an edge detection or after it, or that makes one. -/
structure Postponable {α : Type} (f : Coco3Machine δ → α × Coco3Machine δ) : Prop where
  same : ∀ {d c}, Same d c → (f c).1 = (f d).1 ∧ Same (f d).2 (f c).2
  settle : ∀ m, (f m.settle).1 = (f m).1 ∧ Lag (f m).2 (f m.settle).2

theorem Postponable.lag {α : Type} {f : Coco3Machine δ → α × Coco3Machine δ} (hf : Postponable f)
    (h : Lag d c) : (f c).1 = (f d).1 ∧ Lag (f d).2 (f c).2 := by
  cases h with
  | level h => exact ⟨(hf.same h).1, .level (hf.same h).2⟩
  | behind h =>
    obtain ⟨hval, hst⟩ := hf.same h
    obtain ⟨hval', hst'⟩ := hf.settle d
    exact ⟨hval.trans hval', hst'.trans (.level hst)⟩

/-- An operation that neither looks at the chip nor changes it. -/
structure Apart {α : Type} (f : Coco3Machine δ → α × Coco3Machine δ) : Prop where
  apart : ∀ m g l, f { m with gime := g, detected := l } =
    ((f m).1, { (f m).2 with gime := g, detected := l })

theorem Apart.postponable {α : Type} {f : Coco3Machine δ → α × Coco3Machine δ} (hf : Apart f) :
    Postponable f := by
  have hkept (m : Coco3Machine δ) :
      (f m).2 = { (f m).2 with gime := m.gime, detected := m.detected } :=
    congrArg Prod.snd (hf.apart m m.gime m.detected)
  constructor
  · rintro d _ ⟨s, z, ras, rfl⟩
    have hdecoded : f (d.decoded s z ras) =
        ((f d).1, { (f d).2 with gime := d.gime.decoded s z ras, detected := d.detected }) :=
      hf.apart d (d.gime.decoded s z ras) d.detected
    rw [hdecoded]
    refine ⟨rfl, s, z, ras, ?_⟩
    conv_rhs => rw [hkept d]
    rfl
  · intro m
    have hsettled : f m.settle = ((f m).1, { (f m).2 with
        gime := m.gime.edgeDetectIl, detected := m.detected ++ m.gime.risen }) :=
      hf.apart m m.gime.edgeDetectIl (m.detected ++ m.gime.risen)
    have hsettle : { (f m).2 with
        gime := m.gime.edgeDetectIl, detected := m.detected ++ m.gime.risen } = (f m).2.settle := by
      conv_rhs => rw [hkept m]
      rfl
    rw [hsettled, hsettle]
    exact ⟨rfl, .behind (Same.refl _)⟩

theorem apart_answer (port : δ → Byte × δ) : Apart (Coco3Machine.answer (δ := δ) · port) :=
  ⟨fun _ _ _ => rfl⟩

/-- The same of a change that returns nothing. -/
def unit (f : Coco3Machine δ → Coco3Machine δ) (m : Coco3Machine δ) : Unit × Coco3Machine δ :=
  ((), f m)

theorem apart_orch90Write (addr : Word) (val : Byte) :
    Apart (unit (Coco3Machine.orch90Write (δ := δ) · addr val)) := by
  constructor
  intro m g l
  unfold unit Coco3Machine.orch90Write
  dsimp only
  split
  · rfl
  split
  · rfl
  · rfl

/-! ## Decoded accesses -/

theorem cycle_settle (m : Coco3Machine δ) (addr : Word) (rnw : Bool) (val : Byte) :
    m.settle.cycle addr rnw val = m.cycle addr rnw val := by
  have hcycle : m.gime.edgeDetectIl.memCycle addr rnw val = m.gime.memCycle addr rnw val := by
    unfold Tcc1014.memCycle
    rw [edgeDetectIl_twice]
  unfold Coco3Machine.cycle Coco3Machine.settle
  dsimp only
  rw [hcycle, risen_edgeDetectIl, List.append_nil]

/-- The outcome of a cycle on two machines that differ in the decode left behind. -/
theorem cycle_same (h : Same d c) (addr : Word) (rnw : Bool) (val : Byte) :
    SameCycle (d.cycle addr rnw val).1 (c.cycle addr rnw val).1 ∧
      Same (d.cycle addr rnw val).2 (c.cycle addr rnw val).2 := by
  obtain ⟨s, z, ras, rfl⟩ := h
  have hcycle := memCycle_decoded s z ras d.gime addr rnw val
  obtain ⟨s', z', ras', hgime⟩ := hcycle.gime
  refine ⟨hcycle, s', z', ras', ?_⟩
  unfold Coco3Machine.cycle Coco3Machine.decoded at *
  dsimp only at *
  rw [hgime]
  rfl

/-- An operation that the decode left behind passes by. -/
structure Blind {α : Type} (f : Coco3Machine δ → α × Coco3Machine δ) : Prop where
  blind : ∀ m s z ras, f (m.decoded s z ras) = ((f m).1, (f m).2.decoded s z ras)

theorem Blind.same {α : Type} {f : Coco3Machine δ → α × Coco3Machine δ} (hf : Blind f)
    (h : Same d c) : (f c).1 = (f d).1 ∧ Same (f d).2 (f c).2 := by
  obtain ⟨s, z, ras, rfl⟩ := h
  rw [hf.blind]
  exact ⟨rfl, s, z, ras, rfl⟩

theorem Blind.ite {α : Type} {p : Prop} [Decidable p] {f f' : Coco3Machine δ → α × Coco3Machine δ}
    (hf : Blind f) (hf' : Blind f') : Blind (fun m => if p then f m else f' m) := by
  constructor
  intro m s z ras
  split
  · exact hf.blind m s z ras
  · exact hf'.blind m s z ras

variable (devs : Devices δ)

theorem blind_answer (port : δ → Byte × δ) : Blind (Coco3Machine.answer (δ := δ) · port) :=
  ⟨fun _ _ _ _ => rfl⟩

theorem blind_readPia0 (reg : Byte) : Blind (Coco3Machine.readPia0 devs · reg) := by
  constructor
  intro m s z ras
  unfold Coco3Machine.readPia0
  by_cases hscan : scansKeyboard m.pia0 reg = true
  · have hscan' : scansKeyboard (m.decoded s z ras).pia0 reg = true := hscan
    rw [if_pos hscan, if_pos hscan']
    rfl
  · have hscan' : ¬scansKeyboard (m.decoded s z ras).pia0 reg = true := hscan
    rw [if_neg hscan, if_neg hscan']
    rfl

theorem blind_readPia1 (reg : Byte) : Blind (Coco3Machine.readPia1 (δ := δ) · reg) :=
  ⟨fun _ _ _ _ => rfl⟩

/-- A change that the decode left behind passes by. -/
theorem Blind.unit {f : Coco3Machine δ → Coco3Machine δ}
    (hf : ∀ s z ras, Function.Commute (Coco3Machine.decoded · s z ras) f) : Blind (unit f) := by
  constructor
  intro m s z ras
  exact congrArg (Prod.mk ()) (hf s z ras m).symm

theorem blind_writePia0 (reg val : Byte) :
    Blind (unit (Coco3Machine.writePia0 (δ := δ) · reg val)) := by
  refine .unit fun s z ras => ?_
  have hsound : Function.Commute (Coco3Machine.decoded (δ := δ) · s z ras)
      (Coco3Machine.soundPia0Written · reg) :=
    commute_ite (c := fun _ => reg = 1 ∨ reg = 3) (fun _ => Iff.rfl) (fun _ => rfl) fun _ => rfl
  intro m
  exact hsound { m with pia0 := (Mc6821.mc6821Write reg val m.pia0).st }

theorem blind_writePia1 (reg val : Byte) :
    Blind (unit (Coco3Machine.writePia1 (δ := δ) · reg val)) :=
  ⟨fun _ _ _ _ => rfl⟩

theorem blind_readScs (addr : Word) : Blind (Coco3Machine.readScs devs · addr) :=
  .ite (blind_answer _) (.ite (blind_answer _) (blind_answer _))

theorem blind_writeScs (addr : Word) (val : Byte) :
    Blind (unit (Coco3Machine.writeScs devs · addr val)) := by
  refine .unit fun s z ras => ?_
  refine commute_ite (c := fun _ => _) (fun _ => Iff.rfl) ?_ ?_
  · exact commute_ite (c := fun _ => _) (fun _ => Iff.rfl) (fun _ => rfl) fun _ => rfl
  refine commute_ite (c := fun m : Coco3Machine δ => m.cartBank.isSome = true)
    (fun _ => Iff.rfl) ?_ fun _ => rfl
  exact commute_ite (c := fun _ => _) (fun _ => Iff.rfl) (fun _ => rfl) fun _ => rfl

theorem blind_storeRam (z : Unsigned) (val : Byte) :
    Blind (unit (Coco3Machine.storeRam (δ := δ) · z val)) :=
  ⟨fun _ _ _ _ => rfl⟩

/-- What a decoded read finds, on two machines whose cycles decoded the same. -/
theorem readSelected_same (h : Same d c) (hs : c.gime.s = d.gime.s)
    (hras : c.gime.ras = d.gime.ras) (hz : d.gime.ras = true → c.gime.z = d.gime.z)
    (addr : Word) : (c.readSelected devs addr).1 = (d.readSelected devs addr).1 ∧
      Same (d.readSelected devs addr).2 (c.readSelected devs addr).2 := by
  unfold Coco3Machine.readSelected
  rw [hs, hras]
  by_cases hram : d.gime.ras = true
  · rw [if_pos hram, if_pos hram, hz hram]
    obtain ⟨s, z, ras, rfl⟩ := h
    exact ⟨rfl, s, z, ras, rfl⟩
  rw [if_neg hram, if_neg hram]
  cases d.gime.s with
  | rom =>
    obtain ⟨s, z, ras, rfl⟩ := h
    exact ⟨rfl, s, z, ras, rfl⟩
  | cts =>
    obtain ⟨s, z, ras, rfl⟩ := h
    exact ⟨rfl, s, z, ras, rfl⟩
  | pia =>
    dsimp only
    split
    · exact (blind_readPia0 devs _).same h
    · exact (blind_readPia1 _).same h
  | scs => exact (blind_readScs devs addr).same h
  | none => exact ⟨rfl, h⟩

/-- Where a decoded write goes, on two machines whose cycles decoded the same. -/
theorem writeSelected_same (h : Same d c) (hs : c.gime.s = d.gime.s)
    (hras : c.gime.ras = d.gime.ras) (hz : d.gime.ras = true → c.gime.z = d.gime.z)
    (addr : Word) (val : Byte) :
    Same (d.writeSelected devs addr val) (c.writeSelected devs addr val) := by
  unfold Coco3Machine.writeSelected
  rw [hs, hras]
  by_cases hram : d.gime.ras = true
  · rw [if_pos hram, if_pos hram, hz hram]
    exact ((blind_storeRam d.gime.z val).same h).2
  rw [if_neg hram, if_neg hram]
  cases d.gime.s with
  | pia =>
    dsimp only
    split
    · exact ((blind_writePia0 _ val).same h).2
    · exact ((blind_writePia1 _ val).same h).2
  | scs => exact ((blind_writeScs devs addr val).same h).2
  | rom => exact h
  | cts => exact h
  | none => exact h

theorem decodedRead_same (h : Same d c) (addr : Word) :
    (c.decodedRead devs addr).1 = (d.decodedRead devs addr).1 ∧
      Same (d.decodedRead devs addr).2 (c.decodedRead devs addr).2 := by
  obtain ⟨hcycle, hsame⟩ := cycle_same h addr true 0
  unfold Coco3Machine.decodedRead
  dsimp only
  rw [hcycle.isReg]
  split
  · exact ⟨hcycle.data, hsame⟩
  next hmemory =>
  obtain ⟨hs, hras, hz⟩ := hcycle.select (Bool.eq_false_iff.mpr hmemory)
  exact readSelected_same devs hsame hs hras hz addr

theorem decodedWrite_same (h : Same d c) (addr : Word) (val : Byte) :
    Same (d.decodedWrite devs addr val) (c.decodedWrite devs addr val) := by
  obtain ⟨hcycle, hsame⟩ := cycle_same h addr false val
  unfold Coco3Machine.decodedWrite
  dsimp only
  rw [hcycle.isReg]
  split
  · exact hsame
  next hmemory =>
  obtain ⟨hs, hras, hz⟩ := hcycle.select (Bool.eq_false_iff.mpr hmemory)
  exact writeSelected_same devs hsame hs hras hz addr val

/-- A decoded access makes the detection that was behind: it levels the machines. -/
theorem decodedRead_level (h : Lag d c) (addr : Word) :
    (c.decodedRead devs addr).1 = (d.decodedRead devs addr).1 ∧
      Same (d.decodedRead devs addr).2 (c.decodedRead devs addr).2 := by
  have hsettle : d.settle.decodedRead devs addr = d.decodedRead devs addr := by
    unfold Coco3Machine.decodedRead
    rw [cycle_settle]
  cases h with
  | level h => exact decodedRead_same devs h addr
  | behind h =>
    have hsame := decodedRead_same devs h addr
    rw [hsettle] at hsame
    exact hsame

theorem decodedWrite_level (h : Lag d c) (addr : Word) (val : Byte) :
    Same (d.decodedWrite devs addr val) (c.decodedWrite devs addr val) := by
  have hsettle : d.settle.decodedWrite devs addr val = d.decodedWrite devs addr val := by
    unfold Coco3Machine.decodedWrite
    rw [cycle_settle]
  cases h with
  | level h => exact decodedWrite_same devs h addr val
  | behind h =>
    have hsame := decodedWrite_same devs h addr val
    rw [hsettle] at hsame
    exact hsame

/-! ## The chain of devices -/

theorem Postponable.ite {α : Type} {p : Prop} [Decidable p]
    {f f' : Coco3Machine δ → α × Coco3Machine δ} (hf : Postponable f) (hf' : Postponable f') :
    Postponable (fun m => if p then f m else f' m) := by
  constructor
  · intro d c h
    split
    · exact hf.same h
    · exact hf'.same h
  · intro m
    split
    · exact hf.settle m
    · exact hf'.settle m

theorem postponable_decodedRead (addr : Word) :
    Postponable (Coco3Machine.decodedRead devs · addr) := by
  refine ⟨fun h => decodedRead_same devs h addr, ?_⟩
  intro m
  obtain ⟨hval, hsame⟩ := decodedRead_level devs (.behind (Same.refl m.settle)) addr
  exact ⟨hval, .level hsame⟩

theorem postponable_genericRead (addr : Word) :
    Postponable (Coco3Machine.genericRead devs · addr) :=
  .ite (apart_answer _).postponable <| .ite (apart_answer _).postponable <|
    .ite (apart_answer _).postponable (postponable_decodedRead devs addr)

/-- An address below the ports of the cartridges ahead of the decode, or above them. -/
structure NoPort (addr : Word) : Prop where
  rs232 : addr &&& 0xFFFC ≠ 0xFF68
  orch90 : addr &&& 0xFFFE ≠ 0xFF7A
  ssc : Coco3Machine.sscPort addr = false
  vhd : Coco3Machine.vhdPort addr = false

/-- The upper bits of an address under a mask. -/
theorem shiftRight_of_masked {addr mask port : Word} {k : Nat} (hk : k ≤ 16)
    (hmask : mask.toNat >>> k = 0x10000 / 2 ^ k - 1) (h : addr &&& mask = port) :
    addr.toNat / 2 ^ k = port.toNat / 2 ^ k := by
  have hpow : 0x10000 / 2 ^ k = 2 ^ (16 - k) := Nat.pow_div hk Nat.two_pos
  have hlt : addr.toNat >>> k < 2 ^ (16 - k) := by
    rw [Nat.shiftRight_eq_div_pow, ← hpow]
    exact Nat.div_lt_div_of_lt_of_dvd (Nat.pow_dvd_pow 2 hk) addr.isLt
  rw [hpow] at hmask
  rw [← Nat.shiftRight_eq_div_pow, ← Nat.shiftRight_eq_div_pow, ← h, BitVec.toNat_and,
    Nat.shiftRight_and_distrib, hmask, Nat.and_two_pow_sub_one_eq_mod, Nat.mod_eq_of_lt hlt]

theorem noPort_of {addr : Word} (h : addr < 0xFF40 ∨ 0xFF90 ≤ addr) : NoPort addr := by
  have hport : addr.toNat < 0xFF40 ∨ 0xFF90 ≤ addr.toNat := by
    simpa [BitVec.lt_def, BitVec.le_def] using h
  refine ⟨?_, ?_, ?_, ?_⟩
  · intro hrs232
    have hupper := shiftRight_of_masked (k := 2) (by decide) (by decide) hrs232
    simp at hupper
    omega
  · intro horch90
    have hupper := shiftRight_of_masked (k := 1) (by decide) (by decide) horch90
    simp at hupper
    omega
  · simp [Coco3Machine.sscPort]
    bv_omega
  · simp [Coco3Machine.vhdPort, BitVec.le_def]
    omega

variable {addr : Word}

theorem genericRead_noPort (h : NoPort addr) (m : Coco3Machine δ) :
    m.genericRead devs addr = m.decodedRead devs addr := by
  unfold Coco3Machine.genericRead
  rw [if_neg (fun hport => h.rs232 hport.2), if_neg (fun hport => by simp [h.ssc] at hport),
    if_neg (fun hport => by simp [h.vhd] at hport)]

theorem genericWrite_noPort (h : NoPort addr)
    (run : BusProg δ → Coco3Machine δ → Option (Coco3Machine δ)) (val : Byte)
    (m : Coco3Machine δ) :
    m.genericWrite devs run addr val = some (m.decodedWrite devs addr val) := by
  unfold Coco3Machine.genericWrite
  rw [if_neg (fun hport => h.rs232 hport.2), if_neg (fun hport => h.orch90 hport.2),
    if_neg (fun hport => by simp [h.ssc] at hport), if_neg (fun hport => by simp [h.vhd] at hport)]

/-! ## The direct paths against the decode -/

theorem settle_gime (m : Coco3Machine δ) : m.settle.gime = m.gime.edgeDetectIl := rfl

/-- A change of the chip that an edge detection may follow. -/
theorem settle_postpones {f : Tcc1014 → Tcc1014} (hf : Postpones f) (m : Coco3Machine δ) :
    { m with gime := f m.gime }.settle = { m.settle with gime := f m.settle.gime } := by
  have hrisen : (f m.gime).risen = m.gime.risen := by
    unfold Tcc1014.risen
    rw [hf.edges]
  have hgime : (f m.gime).edgeDetectIl = f m.gime.edgeDetectIl := hf.commute m.gime
  unfold Coco3Machine.settle
  dsimp only
  rw [hrisen, hgime]

theorem postponable_gime {f : Tcc1014 → Tcc1014} (hf : Postpones f)
    (hblind : ∀ g s z ras, f (g.decoded s z ras) = (f g).decoded s z ras) :
    Postponable (unit fun m : Coco3Machine δ => { m with gime := f m.gime }) := by
  constructor
  · intro d c h
    refine (Blind.unit ?_).same h
    intro s z ras m
    exact congrArg (fun g => { m with gime := g }) (hblind m.gime s z ras).symm
  · intro m
    refine ⟨rfl, .behind ?_⟩
    have hsettle := settle_postpones hf m
    exact hsettle ▸ Same.refl _

theorem postpones_dirty : Postpones fun g => { g with dirtyFrame := true } :=
  .of_latch (fun _ => rfl) fun _ _ => rfl

theorem settle_ramMask (m : Coco3Machine δ) : m.settle.gime.ramMask = m.gime.ramMask := by
  rw [settle_gime, edgeDetectIl_eq]
  rfl

theorem load_settle (m : Coco3Machine δ) (z : Unsigned) : m.settle.load z = m.load z := by
  unfold Coco3Machine.load Coco3.ramIndex
  rw [settle_ramMask]
  rfl

theorem storeRam_settle (m : Coco3Machine δ) (z : Unsigned) (val : Byte) :
    (m.storeRam z val).settle = m.settle.storeRam z val := by
  have hindex : m.settle.ramIndex z = m.ramIndex z := by
    unfold Coco3.ramIndex
    rw [settle_ramMask]
  have hdirty := settle_postpones postpones_dirty
    { m with ramPhysical := Function.update m.ramPhysical (m.ramIndex z) val }
  unfold Coco3Machine.storeRam Coco3.store
  rw [hindex]
  exact hdirty

theorem postponable_storeRam (z : Unsigned) (val : Byte) :
    Postponable (unit (Coco3Machine.storeRam (δ := δ) · z val)) := by
  refine ⟨fun h => (blind_storeRam z val).same h, ?_⟩
  intro m
  refine ⟨rfl, .behind ?_⟩
  have hsettle : (unit (Coco3Machine.storeRam · z val) m.settle).2 = (m.storeRam z val).settle :=
    (storeRam_settle m z val).symm
  rw [hsettle]
  exact Same.refl _

/-- A cycle on the constant page. -/
theorem memCycle_constant {g : Tcc1014} (hlow : 0xFE00 ≤ addr) (hhigh : addr < 0xFF00)
    (hmc3 : g.mc3 = true) (rnw : Bool) (val : Byte) : ∃ s,
    g.memCycle addr rnw val = { gime := g.edgeDetectIl.decoded s (physical 0x3F addr) true } := by
  have hmc3' : g.edgeDetectIl.mc3 = true := by
    rw [edgeDetectIl_eq]
    exact hmc3
  have hbank : g.edgeDetectIl.decodeBank addr = 0x3F := decodeBank_constant hlow hmc3'
  have hconstant : g.edgeDetectIl.constantRam addr = true := by
    unfold Tcc1014.constantRam
    rw [decide_eq_true hlow, hmc3']
    rfl
  let bank := g.edgeDetectIl.decodeBank addr
  let s := if g.edgeDetectIl.romMapped bank = true then g.edgeDetectIl.romSelect bank else .none
  have hdecode : { g.edgeDetectIl with s := .none, ras := false }.decodeMemory addr =
      g.edgeDetectIl.decoded s (physical (g.edgeDetectIl.decodeBank addr) addr)
        (!g.edgeDetectIl.romMapped bank || g.edgeDetectIl.constantRam addr) := rfl
  rw [hbank, hconstant, Bool.or_true] at hdecode
  refine ⟨s, ?_⟩
  unfold Tcc1014.memCycle
  dsimp only
  rw [if_pos hhigh, hdecode]

/-- The cycle that a direct path skips, where the address is none of the GIME's registers. -/
theorem cycle_of_memCycle {rnw : Bool} {val : Byte} {s : Select} {z : Unsigned} {ras : Bool}
    (h : m.gime.memCycle addr rnw val = { gime := m.gime.edgeDetectIl.decoded s z ras }) :
    m.cycle addr rnw val =
      ({ gime := m.gime.edgeDetectIl.decoded s z ras }, m.settle.decoded s z ras) := by
  unfold Coco3Machine.cycle
  rw [h]
  rfl

theorem constantRead_lag (hlow : 0xFE00 ≤ addr) (hhigh : addr < 0xFF00)
    (hmc3 : m.gime.mc3 = true) : (m.decodedRead devs addr).1 = m.load (physical 0x3F addr) ∧
      Lag m (m.decodedRead devs addr).2 := by
  obtain ⟨s, hs⟩ := memCycle_constant hlow hhigh hmc3 true 0
  have hread : m.decodedRead devs addr =
      (m.settle.load (physical 0x3F addr), m.settle.decoded s (physical 0x3F addr) true) := by
    unfold Coco3Machine.decodedRead
    rw [cycle_of_memCycle hs]
    rfl
  rw [hread, load_settle]
  exact ⟨rfl, .behind ⟨s, _, true, rfl⟩⟩

theorem constantWrite_lag (hlow : 0xFE00 ≤ addr) (hhigh : addr < 0xFF00)
    (hmc3 : m.gime.mc3 = true) (val : Byte) :
    Lag (m.storeRam (physical 0x3F addr) val) (m.decodedWrite devs addr val) := by
  obtain ⟨s, hs⟩ := memCycle_constant hlow hhigh hmc3 false val
  have hwrite : m.decodedWrite devs addr val =
      (m.settle.storeRam (physical 0x3F addr) val).decoded s (physical 0x3F addr) true := by
    unfold Coco3Machine.decodedWrite
    rw [cycle_of_memCycle hs]
    rfl
  rw [hwrite, ← storeRam_settle]
  exact .behind ⟨s, _, true, rfl⟩

theorem vectorRead_lag (haddr : 0xFFE0 ≤ addr) :
    (m.decodedRead devs addr).1 = m.readRom addr ∧ Lag m (m.decodedRead devs addr).2 := by
  have hnot {bound : Word} (hbound : bound ≤ 0xFFE0) : ¬addr < bound :=
    BitVec.not_lt.mpr (BitVec.le_trans hbound haddr)
  have hs : m.gime.memCycle addr true 0 =
      { gime := m.gime.edgeDetectIl.decoded .rom m.gime.edgeDetectIl.z false } := by
    unfold Tcc1014.memCycle
    dsimp only
    rw [if_neg (hnot (by decide)), if_neg (hnot (by decide)), if_neg (hnot (by decide)),
      if_neg (hnot (by decide)), if_neg (hnot (by decide)), if_neg (hnot (by decide)),
      if_neg (hnot (by decide)), if_neg (hnot (by decide))]
    rfl
  have hread : m.decodedRead devs addr =
      (m.readRom addr, m.settle.decoded .rom m.gime.edgeDetectIl.z false) := by
    unfold Coco3Machine.decodedRead
    rw [cycle_of_memCycle hs]
    rfl
  rw [hread]
  exact ⟨rfl, .behind ⟨.rom, _, false, rfl⟩⟩

theorem statusRead_lag (haddr : addr = 0xFF92 ∨ addr = 0xFF93) :
    (m.decodedRead devs addr).1 = (m.readStatus addr).1 ∧
      Lag (m.readStatus addr).2 (m.decodedRead devs addr).2 := by
  have hread : m.decodedRead devs addr = ((m.readStatus addr).1,
      (m.readStatus addr).2.decoded .none m.gime.edgeDetectIl.z false) := by
    rcases haddr with rfl | rfl
    · rfl
    · rfl
  rw [hread]
  exact ⟨rfl, .level ⟨.none, _, false, rfl⟩⟩

theorem dacWrite_lag (val : Byte) : Lag (m.writePia1 0 val) (m.decodedWrite devs 0xFF20 val) := by
  have hs : m.gime.memCycle 0xFF20 false val =
      { gime := m.gime.edgeDetectIl.decoded .pia m.gime.edgeDetectIl.z false } := rfl
  have hwrite : m.decodedWrite devs 0xFF20 val =
      (m.writePia1 0 val).settle.decoded .pia m.gime.edgeDetectIl.z false := by
    unfold Coco3Machine.decodedWrite
    rw [cycle_of_memCycle hs]
    rfl
  rw [hwrite]
  exact .behind ⟨.pia, _, false, rfl⟩

theorem init1Write_lag (val : Byte) :
    Lag { m with gime := m.gime.writeRegister 1 val } (m.decodedWrite devs 0xFF91 val) := by
  have hinit1 := settle_postpones (postpones_writeInit1 val) m
  have hwrite : m.decodedWrite devs 0xFF91 val = { m.settle with
      gime := (m.gime.edgeDetectIl.decoded .none m.gime.edgeDetectIl.z false).writeRegister 1 val } :=
    rfl
  rw [writeRegister_decoded] at hwrite
  refine .behind ⟨.none, m.gime.edgeDetectIl.z, false, ?_⟩
  rw [hwrite, hinit1]
  rfl

/-- A direct read against the chain of devices and the decode. -/
theorem directRead_lag {r : Byte × Coco3Machine δ} (h : m.directRead addr = some r) :
    (m.genericRead devs addr).1 = r.1 ∧ Lag r.2 (m.genericRead devs addr).2 := by
  unfold Coco3Machine.directRead at h
  split at h
  next hupper =>
    rw [genericRead_noPort devs (noPort_of (.inr hupper))]
    split at h
    next hstatus =>
      obtain rfl := Option.some.inj h
      exact statusRead_lag devs hstatus
    split at h
    next hvector =>
      obtain rfl := Option.some.inj h
      exact vectorRead_lag devs hvector
    · cases h
  split at h
  next hconstant =>
    obtain ⟨hlow, hhigh, hmc3⟩ := hconstant
    obtain rfl := Option.some.inj h
    have hport : addr < 0xFF40 := BitVec.lt_def.mpr ((BitVec.lt_def.mp hhigh).trans (by decide))
    rw [genericRead_noPort devs (noPort_of (.inl hport))]
    exact constantRead_lag devs hlow hhigh hmc3
  · cases h

/-- A direct write against them. -/
theorem directWrite_lag (haddr : ¬addr < 0xFE00) {val : Byte} {m' : Coco3Machine δ}
    (h : m.directWrite addr val = some m') :
    NoPort addr ∧ Lag m' (m.decodedWrite devs addr val) := by
  have hlow : 0xFE00 ≤ addr := BitVec.not_lt.mp haddr
  unfold Coco3Machine.directWrite at h
  split at h
  next hdac =>
    subst hdac
    obtain rfl := Option.some.inj h
    exact ⟨noPort_of (.inl (by decide)), dacWrite_lag devs val⟩
  split at h
  next hinit1 =>
    subst hinit1
    obtain rfl := Option.some.inj h
    exact ⟨noPort_of (.inr (by decide)), init1Write_lag devs val⟩
  split at h
  next hconstant =>
    obtain ⟨hhigh, hmc3⟩ := hconstant
    obtain rfl := Option.some.inj h
    have hport : addr < 0xFF40 := BitVec.lt_def.mpr ((BitVec.lt_def.mp hhigh).trans (by decide))
    exact ⟨noPort_of (.inl hport), constantWrite_lag devs hlow hhigh hmc3 val⟩
  · cases h

/-! ## What the two machines share -/

/-- A field of the chip that neither a detection nor a decode moves. -/
theorem Lag.field {α : Type} (h : Lag d c) {p : Tcc1014 → α}
    (hlatch : ∀ g e, p (Tcc1014.record (Tcc1014.latch g e)) = p g)
    (hdecoded : ∀ g s z ras, p (Tcc1014.decoded g s z ras) = p g) : p c.gime = p d.gime := by
  cases h with
  | level h =>
    obtain ⟨s, z, ras, rfl⟩ := h
    exact hdecoded d.gime s z ras
  | behind h =>
    obtain ⟨s, z, ras, rfl⟩ := h
    have hsettle : p d.settle.gime = p d.gime := by
      rw [settle_gime, edgeDetectIl_eq]
      exact hlatch d.gime d.gime.edges
    exact (hdecoded d.settle.gime s z ras).trans hsettle

theorem Lag.ramPhysical (h : Lag d c) : c.ramPhysical = d.ramPhysical := by
  cases h with
  | level h =>
    obtain ⟨_, _, _, rfl⟩ := h
    rfl
  | behind h =>
    obtain ⟨_, _, _, rfl⟩ := h
    rfl

theorem Lag.dev (h : Lag d c) : c.dev = d.dev := by
  cases h with
  | level h =>
    obtain ⟨_, _, _, rfl⟩ := h
    rfl
  | behind h =>
    obtain ⟨_, _, _, rfl⟩ := h
    rfl

theorem Lag.load (h : Lag d c) (z : Unsigned) : c.load z = d.load z := by
  have hmask : c.gime.ramMask = d.gime.ramMask :=
    h.field (p := Tcc1014.ramMask) (fun _ _ => rfl) fun _ _ _ _ => rfl
  unfold Coco3Machine.load Coco3.ramIndex
  rw [hmask, h.ramPhysical]

theorem Lag.activeBanks (h : Lag d c) : c.gime.activeBanks = d.gime.activeBanks :=
  h.field (p := Tcc1014.activeBanks) (fun _ _ => rfl) fun _ _ _ _ => rfl

theorem Lag.ty (h : Lag d c) : c.gime.ty = d.gime.ty :=
  h.field (p := Tcc1014.ty) (fun _ _ => rfl) fun _ _ _ _ => rfl

theorem Lag.rdPage (h : Lag d c) : c.gime.rdPage = d.gime.rdPage :=
  h.field (p := Tcc1014.rdPage) (fun _ _ => rfl) fun _ _ _ _ => rfl

theorem Lag.wrPage (h : Lag d c) : c.gime.wrPage = d.gime.wrPage :=
  h.field (p := Tcc1014.wrPage) (fun _ _ => rfl) fun _ _ _ _ => rfl

theorem apart_storePage (base : Unsigned) (addr : Word) (val : Byte) :
    Apart (unit (Coco3Machine.storePage (δ := δ) · base addr val)) :=
  ⟨fun _ _ _ => rfl⟩

theorem apart_setDev (dev : δ) :
    Apart (unit fun m : Coco3Machine δ => { m with dev := dev }) :=
  ⟨fun _ _ _ => rfl⟩

theorem apart_mapDev (f : δ → δ) :
    Apart (unit fun m : Coco3Machine δ => { m with dev := f m.dev }) :=
  ⟨fun _ _ _ => rfl⟩

/-! ## One access -/

theorem machineRead_lag (h : Lag d c) (addr : Word) :
    (c.machineReadCoco3 devs .generic addr).1 = (d.machineReadCoco3 devs .direct addr).1 ∧
      Lag (d.machineReadCoco3 devs .direct addr).2 (c.machineReadCoco3 devs .generic addr).2 := by
  obtain ⟨hval, hlag⟩ := (postponable_genericRead devs addr).lag h
  unfold Coco3Machine.machineReadCoco3
  dsimp only
  rw [h.activeBanks, h.ty]
  split
  · exact ⟨h.load _, h⟩
  change (c.genericRead devs addr).1 = ((d.directRead addr).getD _).1 ∧
    Lag ((d.directRead addr).getD _).2 (c.genericRead devs addr).2
  cases hdirect : d.directRead addr with
  | some r =>
    obtain ⟨hval', hlag'⟩ := directRead_lag devs hdirect
    exact ⟨hval.trans hval', hlag'.trans hlag⟩
  | none => exact ⟨hval, hlag⟩

theorem cpuRead_lag (h : Lag d c) (addr : Word) :
    (c.cpuRead devs .generic addr).1 = (d.cpuRead devs .direct addr).1 ∧
      Lag (d.cpuRead devs .direct addr).2 (c.cpuRead devs .generic addr).2 := by
  unfold Coco3Machine.cpuRead
  split
  · rw [h.rdPage]
    cases d.gime.rdPage (slotOf addr) with
    | some base => exact ⟨congrFun h.ramPhysical _, h⟩
    | none => exact machineRead_lag devs h addr
  · exact machineRead_lag devs h addr

/-- Programs that run alike. -/
def RunsAlike (run run' : BusProg δ → Coco3Machine δ → Option (Coco3Machine δ)) : Prop :=
  ∀ prog {d c}, Lag d c → Option.Rel Lag (run prog d) (run' prog c)

variable {run run' : BusProg δ → Coco3Machine δ → Option (Coco3Machine δ)}

theorem genericWrite_lag (hrun : RunsAlike run run') (h : Lag d c) (addr : Word) (val : Byte) :
    Option.Rel Lag (d.genericWrite devs run addr val) (c.genericWrite devs run' addr val) := by
  unfold Coco3Machine.genericWrite
  split
  · exact .some ((apart_mapDev _).postponable.lag h).2
  split
  · exact .some ((apart_orch90Write addr val).postponable.lag h).2
  split
  · exact .some ((apart_mapDev _).postponable.lag h).2
  split
  · exact hrun _ h
  · exact .some (.level (decodedWrite_level devs h addr val))

theorem writeWith_lag (hrun : RunsAlike run run') (h : Lag d c) (addr : Word) (val : Byte) :
    Option.Rel Lag (d.writeWith devs .direct run addr val)
      (c.writeWith devs .generic run' addr val) := by
  unfold Coco3Machine.writeWith
  split
  · rw [h.activeBanks]
    exact .some ((postponable_storeRam _ val).lag h).2
  next hlow =>
  dsimp only [Coco3Machine.directWrite?]
  cases hdirect : d.directWrite addr val with
  | some d' =>
    obtain ⟨hport, hlag⟩ := directWrite_lag devs hlow hdirect
    rw [genericWrite_noPort devs hport run' val c]
    exact .some (hlag.trans (.level (decodedWrite_level devs h addr val)))
  | none => exact genericWrite_lag devs hrun h addr val

/-- A program runs alike when its writes do. -/
theorem runProg_lag {write write' : Word → Byte → Coco3Machine δ → Option (Coco3Machine δ)}
    (hwrite : ∀ addr val {d c}, Lag d c → Option.Rel Lag (write addr val d) (write' addr val c)) :
    RunsAlike (Coco3Machine.runProg devs .direct write)
      (Coco3Machine.runProg devs .generic write') := by
  intro prog
  induction prog with
  | done => exact fun h => .some h
  | look next ih =>
    intro d c h
    unfold Coco3Machine.runProg
    rw [h.dev]
    exact ih d.dev h
  | set dev next ih =>
    intro d c h
    exact ih ((apart_setDev dev).postponable.lag h).2
  | read addr next ih =>
    intro d c h
    obtain ⟨hval, hlag⟩ := machineRead_lag devs h addr
    unfold Coco3Machine.runProg
    dsimp only
    rw [hval]
    exact ih _ hlag
  | write addr val next ih =>
    intro d c h
    have hnext := hwrite addr val h
    unfold Coco3Machine.runProg
    cases hd : write addr val d with
    | none =>
      rw [hd] at hnext
      cases hnext' : write' addr val c with
      | none => exact .none
      | some _ =>
        rw [hnext'] at hnext
        cases hnext
    | some d' =>
      rw [hd] at hnext
      cases hnext' : write' addr val c with
      | none =>
        rw [hnext'] at hnext
        cases hnext
      | some c' =>
        rw [hnext'] at hnext
        cases hnext with
        | some hlag => exact ih hlag

/-- The writes of the two machines, however deep the programs of the hard disk nest. -/
theorem machineWrite_lag (depth : Nat) : ∀ (addr : Word) (val : Byte) {d c : Coco3Machine δ},
    Lag d c → Option.Rel Lag (Coco3Machine.machineWriteCoco3 devs .direct depth addr val d)
      (Coco3Machine.machineWriteCoco3 devs .generic depth addr val c) := by
  induction depth with
  | zero =>
    intro addr val d c h
    exact writeWith_lag devs (fun _ _ _ _ => .none) h addr val
  | succ depth ih =>
    intro addr val d c h
    exact writeWith_lag devs (runProg_lag devs ih) h addr val

theorem cpuWrite_lag (depth : Nat) (h : Lag d c) (addr : Word) (val : Byte) :
    Option.Rel Lag (d.cpuWrite devs .direct depth addr val)
      (c.cpuWrite devs .generic depth addr val) := by
  unfold Coco3Machine.cpuWrite
  split
  · rw [h.wrPage]
    cases d.gime.wrPage (slotOf addr) with
    | some base => exact .some ((apart_storePage base addr val).postponable.lag h).2
    | none => exact machineWrite_lag devs depth addr val h
  · exact machineWrite_lag devs depth addr val h

/-! ## The model of memory alone -/

/-- Below $FF00 the read is that of `Coco3`, whatever the I/O. -/
theorem machineRead_memory (m : Coco3Machine δ) (io : Io) (haddr : addr < 0xFF00) :
    Prod.map id Coco3Machine.toCoco3 (m.machineReadCoco3 devs .direct addr) =
      m.toCoco3.machineReadCoco3 io addr := by
  have hport : addr < 0xFF40 := BitVec.lt_def.mpr ((BitVec.lt_def.mp haddr).trans (by decide))
  have hlow : ¬0xFF90 ≤ addr :=
    BitVec.not_le.mpr (BitVec.lt_def.mpr ((BitVec.lt_def.mp haddr).trans (by decide)))
  unfold Coco3Machine.machineReadCoco3 Coco3.machineReadCoco3
  dsimp only [Coco3Machine.directRead?]
  split
  · rfl
  rw [if_neg (BitVec.not_le.mpr haddr)]
  unfold Coco3Machine.directRead
  rw [if_neg hlow]
  by_cases hconstant : 0xFE00 ≤ addr ∧ m.gime.mc3 = true
  · rw [if_pos ⟨hconstant.1, haddr, hconstant.2⟩, if_pos hconstant]
    rfl
  rw [if_neg (fun h => hconstant ⟨h.1, h.2.2⟩), if_neg hconstant]
  dsimp only [Option.getD_none]
  rw [genericRead_noPort devs (noPort_of (.inl hport))]
  obtain ⟨i, hi⟩ := memCycle_memory (g := m.gime) haddr true 0
  unfold Coco3Machine.decodedRead Coco3Machine.cycle
  rw [hi]
  unfold Coco3Machine.readSelected
  dsimp only
  split
  · rfl
  split
  · rfl
  next hras =>
  have hmapped : m.gime.romMapped (m.gime.decodeBank addr) = true := by
    simpa using (Bool.or_eq_false_iff.mp (Bool.eq_false_iff.mpr hras)).1
  rw [if_pos hmapped]
  rcases romSelect_cases (g := m.gime) (m.gime.decodeBank addr) with hs | hs
  · rw [hs]
    rfl
  · rw [hs]
    rfl

/-! ## Runs -/

theorem postponable_timer :
    Postponable (unit fun m : Coco3Machine δ => { m with gime := m.gime.tickScanline }) :=
  postponable_gime postpones_tickScanline fun g s z ras => tickScanline_decoded s z ras g

theorem postponable_interrupt (source : Source) :
    Postponable (unit fun m : Coco3Machine δ =>
      { m with gime := m.gime.setInterrupt source.flag }) :=
  postponable_gime (postpones_setInterrupt source) fun g s z ras =>
    setInterrupt_decoded s z ras g source.flag

theorem postponable_picture (p : Picture) :
    Postponable (unit (Coco3Machine.setPicture (δ := δ) · p)) :=
  postponable_gime
    (f := fun g => { g with
      row := p.row, b := p.b, xoff := p.xoff, rowStride := p.rowStride, vertical := p.vertical
      borderColour := p.borderColour, dirtyFrame := p.dirtyFrame })
    (.of_latch (fun _ => rfl) fun _ _ => rfl) fun _ _ _ _ => rfl

/-- The same bytes, and machines in a relation. -/
def Outcome (R : Coco3Machine δ → Coco3Machine δ → Prop)
    (r r' : List Byte × Coco3Machine δ) : Prop := r'.1 = r.1 ∧ R r.2 r'.2

/-- A step that returns nothing. -/
theorem outcome_unit {f : Coco3Machine δ → Coco3Machine δ} (hf : Postponable (unit f))
    (h : Lag d c) : Option.Rel (Outcome Lag) (some ([], f d)) (some ([], f c)) :=
  .some ⟨rfl, (hf.lag h).2⟩

theorem stepBus_lag (depth : Nat) (h : Lag d c) (event : BusEvent δ) :
    Option.Rel (Outcome Lag) (d.stepBus devs .direct depth event)
      (c.stepBus devs .generic depth event) := by
  cases event with
  | read addr =>
    obtain ⟨hval, hlag⟩ := cpuRead_lag devs h addr
    exact .some ⟨congrArg (fun v => [v]) hval, hlag⟩
  | write addr val =>
    have hwrite := cpuWrite_lag devs depth h addr val
    unfold Coco3Machine.stepBus
    dsimp only
    generalize d.cpuWrite devs .direct depth addr val = r at hwrite ⊢
    generalize c.cpuWrite devs .generic depth addr val = r' at hwrite ⊢
    cases hwrite with
    | some hlag => exact .some ⟨rfl, hlag⟩
    | none => exact .none
  | timer => exact outcome_unit postponable_timer h
  | interrupt source => exact outcome_unit (postponable_interrupt source) h
  | picture p => exact outcome_unit (postponable_picture p) h
  | devices f => exact outcome_unit (apart_mapDev f).postponable h

theorem runBus_lag (depth : Nat) (events : List (BusEvent δ)) : ∀ {d c : Coco3Machine δ},
    Lag d c → Option.Rel (Outcome Lag) (Coco3Machine.runBus devs .direct depth events d)
      (Coco3Machine.runBus devs .generic depth events c) := by
  induction events with
  | nil => exact fun h => .some ⟨rfl, h⟩
  | cons event events ih =>
    intro d c h
    have hstep := stepBus_lag devs depth h event
    unfold Coco3Machine.runBus
    generalize d.stepBus devs .direct depth event = r at hstep ⊢
    generalize c.stepBus devs .generic depth event = r' at hstep ⊢
    cases hstep with
    | none => exact .none
    | @some r r' houtcome =>
      obtain ⟨hval, hlag⟩ := houtcome
      have hrest := ih hlag
      dsimp only [Option.bind_some]
      generalize Coco3Machine.runBus devs .direct depth events r.2 = rest at hrest ⊢
      generalize Coco3Machine.runBus devs .generic depth events r'.2 = rest' at hrest ⊢
      cases hrest with
      | none => exact .none
      | some hend => exact .some ⟨congrArg₂ (· ++ ·) hval hend.1, hend.2⟩

/-- An access that the GIME decodes in either machine: no RAM, no port of a cartridge ahead of
the decode, no direct path. -/
inductive Decoded : BusEvent δ → Prop
  | read {addr : Word} (hport : NoPort addr) (hlow : 0xFF00 ≤ addr) (hhigh : addr < 0xFFE0)
      (h92 : addr ≠ 0xFF92) (h93 : addr ≠ 0xFF93) : Decoded (.read addr)
  | write {addr : Word} {val : Byte} (hport : NoPort addr) (hlow : 0xFF00 ≤ addr)
      (h20 : addr ≠ 0xFF20) (h91 : addr ≠ 0xFF91) : Decoded (.write addr val)

theorem cpuRead_decoded (m : Coco3Machine δ) (paths : Paths) (hport : NoPort addr)
    (hlow : 0xFF00 ≤ addr) (hhigh : addr < 0xFFE0) (h92 : addr ≠ 0xFF92) (h93 : addr ≠ 0xFF93) :
    m.cpuRead devs paths addr = m.decodedRead devs addr := by
  have hram : ¬addr < 0xFE00 := BitVec.not_lt.mpr (BitVec.le_trans (by decide) hlow)
  have hio : ¬addr < 0xFF00 := BitVec.not_lt.mpr hlow
  have hdirect : m.directRead addr = none := by
    unfold Coco3Machine.directRead
    split
    · rw [if_neg (fun hstatus => hstatus.elim h92 h93), if_neg (BitVec.not_le.mpr hhigh)]
    · rw [if_neg (fun hconstant => hio hconstant.2.1)]
  unfold Coco3Machine.cpuRead Coco3Machine.machineReadCoco3
  dsimp only
  rw [if_neg hram, if_neg (fun h => hram h.1), ← genericRead_noPort devs hport]
  cases paths with
  | direct => exact congrArg (Option.getD · (m.genericRead devs addr)) hdirect
  | generic => rfl

theorem cpuWrite_decoded (m : Coco3Machine δ) (paths : Paths) (depth : Nat) (hport : NoPort addr)
    (hlow : 0xFF00 ≤ addr) (h20 : addr ≠ 0xFF20) (h91 : addr ≠ 0xFF91) (val : Byte) :
    m.cpuWrite devs paths depth addr val = some (m.decodedWrite devs addr val) := by
  have hram : ¬addr < 0xFE00 := BitVec.not_lt.mpr (BitVec.le_trans (by decide) hlow)
  have hio : ¬addr < 0xFF00 := BitVec.not_lt.mpr hlow
  have hdirect : m.directWrite addr val = none := by
    unfold Coco3Machine.directWrite
    rw [if_neg h20, if_neg h91, if_neg (fun hconstant => hio hconstant.1)]
  have hwith (run : BusProg δ → Coco3Machine δ → Option (Coco3Machine δ)) :
      m.writeWith devs paths run addr val = some (m.decodedWrite devs addr val) := by
    unfold Coco3Machine.writeWith
    rw [if_neg hram, genericWrite_noPort devs hport]
    cases paths with
    | direct =>
      dsimp only [Coco3Machine.directWrite?]
      rw [hdirect]
    | generic => rfl
  unfold Coco3Machine.cpuWrite
  rw [if_neg hram]
  cases depth with
  | zero => exact hwith _
  | succ depth => exact hwith _

theorem stepBus_level (depth : Nat) (h : Lag d c) {event : BusEvent δ} (hevent : Decoded event) :
    Option.Rel (Outcome Same) (d.stepBus devs .direct depth event)
      (c.stepBus devs .generic depth event) := by
  cases hevent with
  | read hport hlow hhigh h92 h93 =>
    unfold Coco3Machine.stepBus
    dsimp only
    rw [cpuRead_decoded devs d .direct hport hlow hhigh h92 h93,
      cpuRead_decoded devs c .generic hport hlow hhigh h92 h93]
    obtain ⟨hval, hsame⟩ := decodedRead_level devs h _
    exact .some ⟨congrArg (fun v => [v]) hval, hsame⟩
  | write hport hlow h20 h91 =>
    unfold Coco3Machine.stepBus
    dsimp only
    rw [cpuWrite_decoded devs d .direct depth hport hlow h20 h91,
      cpuWrite_decoded devs c .generic depth hport hlow h20 h91]
    exact .some ⟨rfl, decodedWrite_level devs h _ _⟩

/-- Along any run, the direct paths read the bytes that the chain reads; the machine is level
with the chain's or one edge detection behind, and the next decoded access makes it level.  Below
the I/O page neither is anything but memory: a read is the one of the RAM, the map and the ROMs
alone, whatever the devices. -/
theorem direct_paths (depth : Nat) (events : List (BusEvent δ)) (m : Coco3Machine δ) :
    Option.Rel
      (Outcome fun d c => Lag d c ∧ ∀ event, Decoded event →
        Option.Rel (Outcome Same) (d.stepBus devs .direct depth event)
          (c.stepBus devs .generic depth event))
      (m.runBus devs .direct depth events) (m.runBus devs .generic depth events) ∧
    ∀ (io : Io) (addr : Word), addr < 0xFF00 →
      Prod.map id Coco3Machine.toCoco3 (m.machineReadCoco3 devs .direct addr) =
        m.toCoco3.machineReadCoco3 io addr := by
  refine ⟨?_, fun io _ haddr => machineRead_memory devs m io haddr⟩
  have hrun := runBus_lag devs depth events (Lag.refl m)
  generalize m.runBus devs .direct depth events = r at hrun ⊢
  generalize m.runBus devs .generic depth events = r' at hrun ⊢
  cases hrun with
  | none => exact .none
  | some houtcome =>
    obtain ⟨hval, hlag⟩ := houtcome
    exact .some ⟨hval, hlag, fun _ hevent => stepBus_level devs depth hlag hevent⟩

end

end CocoEmulator.Machine
