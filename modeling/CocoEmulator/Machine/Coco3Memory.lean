/-
  Machine/Coco3Memory.lean --- the CoCo 3's memory below the I/O page.

  A CPU access below $FE00 goes through the page tables; what they do not answer goes
  to the callbacks of machine.cpp, which have a fast path for RAM, one for the constant
  page at $FE00 and the full decode of the GIME.  RAM is addressed by the offset into
  `ram_physical`.

      page_tables_coherent   the tables, the callbacks and the decode agree
      writes_reach_ram       a write reaches the byte under a ROM exactly when it is not
                             left to the full decode with a ROM mapped there
-/
import CocoEmulator.Base.Run
import CocoEmulator.Gime.Pages

set_option autoImplicit false

namespace CocoEmulator.Machine

open CocoEmulator.Base CocoEmulator.Gime
open Tcc1014 (slotOf physical)

/-- `COCO3_ROM_SIZE`. -/
def coco3RomSize : Nat := 32768

/-- `CART_BANK_SIZE`. -/
def cartBankSize : Nat := 16384

/-- The chip, RAM and ROMs of the machine; `cartBank` is where the selected bank of a
bank-switched cartridge starts in `romDisk`. -/
structure Coco3 where
  gime : Tcc1014
  ramPhysical : Unsigned → Byte := fun _ => 0
  romCoco3 : Nat → Byte := fun _ => 0xFF
  romCoco3Loaded : Bool := false
  romDisk : Nat → Byte := fun _ => 0xFF
  romDiskLoaded : Bool := false
  romDiskEnd : Nat := 0xE000
  cartBank : Option Nat := none

/-- The devices at $FF00 and above. -/
structure Io where
  read : Word → Coco3 → Byte × Coco3
  write : Word → Byte → Coco3 → Coco3

namespace Coco3

variable (m : Coco3) (io : Io)

/-- A byte of RAM at a decoded address. -/
def ramIndex (z : Unsigned) : Unsigned := z &&& m.gime.ramMask

/-- Store into RAM. -/
def store (z : Unsigned) (val : Byte) : Coco3 :=
  { m with
    ramPhysical := Function.update m.ramPhysical (m.ramIndex z) val
    gime := { m.gime with dirtyFrame := true } }

/-- The ROM at $8000-$FFFF. -/
def readRom (addr : Word) : Byte :=
  let romOff := (addr &&& 0x7FFF).toNat
  if m.romCoco3Loaded = true ∧ romOff < coco3RomSize then m.romCoco3 romOff else 0xFF

/-- The cartridge select. -/
def readCts (addr : Word) : Byte :=
  match m.cartBank with
  | some bank => m.romDisk (bank + addr.toNat % cartBankSize)
  | none =>
    if m.romDiskLoaded = true ∧ 0xC000 ≤ addr.toNat ∧ addr.toNat < m.romDiskEnd then
      m.romDisk (addr.toNat - 0xC000)
    else m.readRom addr

/-- `machine_read_coco3`. -/
def machineReadCoco3 (addr : Word) : Byte × Coco3 :=
  let bank := m.gime.activeBanks (slotOf addr)
  if addr < 0xFE00 ∧ (m.gime.ty = true ∨ bank &&& 0x3F < 0x3C) then
    (m.ramPhysical (m.ramIndex (physical bank addr)), m)
  else if 0xFF00 ≤ addr then io.read addr m
  else if 0xFE00 ≤ addr ∧ m.gime.mc3 = true then
    (m.ramPhysical (m.ramIndex (physical 0x3F addr)), m)
  else
    let cycle := m.gime.memCycle addr true 0
    let m := { m with gime := cycle.gime }
    if cycle.isReg = true then (cycle.data, m)
    else if m.gime.ras = true then (m.ramPhysical (m.ramIndex m.gime.z), m)
    else match m.gime.s with
      | .rom => (m.readRom addr, m)
      | .cts => (m.readCts addr, m)
      | .pia | .scs => io.read addr m
      | .none => (0xFF, m)

/-- `machine_write_coco3`. -/
def machineWriteCoco3 (addr : Word) (val : Byte) : Coco3 :=
  if addr < 0xFE00 then m.store (physical (m.gime.activeBanks (slotOf addr)) addr) val
  else if 0xFF00 ≤ addr then io.write addr val m
  else if m.gime.mc3 = true then m.store (physical 0x3F addr) val
  else
    let cycle := m.gime.memCycle addr false val
    let m := { m with gime := cycle.gime }
    if cycle.isReg = true then m
    else if m.gime.ras = true then m.store m.gime.z val
    else match m.gime.s with
      | .pia | .scs => io.write addr val m
      | .rom | .cts | .none => m

/-- Where a page of the CPU's tables holds an address. -/
def pageIndex (base : Unsigned) (addr : Word) : Unsigned := base + (addr &&& 0x1FFF).setWidth 32

/-- `mem_read` of the CPU. -/
def cpuRead (addr : Word) : Byte × Coco3 :=
  if addr < 0xFE00 then
    match m.gime.rdPage (slotOf addr) with
    | some base => (m.ramPhysical (pageIndex base addr), m)
    | none => m.machineReadCoco3 io addr
  else m.machineReadCoco3 io addr

/-- `mem_write` of the CPU. -/
def cpuWrite (addr : Word) (val : Byte) : Coco3 :=
  if addr < 0xFE00 then
    match m.gime.wrPage (slotOf addr) with
    | some base =>
      { m with ramPhysical := Function.update m.ramPhysical (pageIndex base addr) val }
    | none => m.machineWriteCoco3 io addr val
  else m.machineWriteCoco3 io addr val

end Coco3

/-! ## Reading and writing -/

namespace Coco3

/-- The byte of RAM under an address. -/
def target (m : Coco3) (addr : Word) : Unsigned :=
  m.ramIndex (physical (m.gime.decodeBank addr) addr)

/-- A ROM at $FE00 is left to the full decode, which has no RAM to write to. -/
def hidden (m : Coco3) (addr : Word) : Prop :=
  0xFE00 ≤ addr ∧ m.gime.mc3 = false ∧ m.gime.romMapped (m.gime.decodeBank addr) = true

instance (m : Coco3) (addr : Word) : Decidable (m.hidden addr) :=
  inferInstanceAs (Decidable (_ ∧ _ ∧ _))

/-- The machine once TY is set. -/
def setTy (m : Coco3) : Coco3 := { m with gime := m.gime.writeSam 0x1F }

end Coco3

section

variable {m : Coco3} {io : Io} {addr : Word}

/-- The bank of an address below $FE00, as the fast paths have it. -/
theorem target_low (h : PageInv m.gime) (haddr : addr < 0xFE00) :
    m.target addr = m.ramIndex (physical (m.gime.activeBanks (slotOf addr)) addr) := by
  unfold Coco3.target
  rw [decodeBank_low haddr, h.active]

theorem page_target (h : PageInv m.gime) (haddr : addr < 0xFE00) :
    Coco3.pageIndex (m.gime.bankBase (m.gime.slotBank (slotOf addr))) addr = m.target addr := by
  unfold Coco3.target
  rw [decodeBank_low haddr]
  exact h.toRamInv.pageIndex_eq _ addr

theorem target_constant (haddr : 0xFE00 ≤ addr) (hmc3 : m.gime.mc3 = true) :
    m.ramIndex (physical 0x3F addr) = m.target addr := by
  unfold Coco3.target
  rw [decodeBank_constant haddr hmc3]

/-- With RAM mapped, the callback reads the byte under the address. -/
theorem machineRead_ram (h : PageInv m.gime) (haddr : addr < 0xFF00)
    (hram : m.gime.romMapped (m.gime.decodeBank addr) = false) :
    (m.machineReadCoco3 io addr).1 = m.ramPhysical (m.target addr) := by
  unfold Coco3.machineReadCoco3
  dsimp only
  by_cases hlow : addr < 0xFE00
  · rw [decodeBank_low hlow] at hram
    rw [if_pos ⟨hlow, by rw [h.active]; exact romMapped_eq_false.mp hram⟩, target_low h hlow]
  · have hhigh : 0xFE00 ≤ addr := BitVec.not_lt.mp hlow
    rw [if_neg (fun hfast => hlow hfast.1), if_neg (BitVec.not_le.mpr haddr)]
    by_cases hmc3 : m.gime.mc3 = true
    · rw [if_pos ⟨hhigh, hmc3⟩, target_constant hhigh hmc3]
    · rw [if_neg (fun hconst => hmc3 hconst.2)]
      obtain ⟨i, hcycle⟩ := memCycle_memory (g := m.gime) haddr true 0
      rw [hcycle, hram]
      rfl

theorem cpuRead_ram (h : PageInv m.gime) (haddr : addr < 0xFF00)
    (hram : m.gime.romMapped (m.gime.decodeBank addr) = false) :
    (m.cpuRead io addr).1 = m.ramPhysical (m.target addr) := by
  unfold Coco3.cpuRead
  split
  · next hlow =>
    rw [decodeBank_low hlow] at hram
    rw [h.rd, if_pos (romMapped_eq_false.mp hram)]
    exact congrArg m.ramPhysical (page_target h hlow)
  · exact machineRead_ram h haddr hram

/-- The callback writes the byte under the address, unless a ROM hides it. -/
theorem machineWrite_ram (h : PageInv m.gime) (haddr : addr < 0xFF00) (hseen : ¬m.hidden addr)
    (val : Byte) : (m.machineWriteCoco3 io addr val).ramPhysical =
      Function.update m.ramPhysical (m.target addr) val := by
  unfold Coco3.machineWriteCoco3
  dsimp only
  by_cases hlow : addr < 0xFE00
  · rw [if_pos hlow, target_low h hlow]
    rfl
  · have hhigh : 0xFE00 ≤ addr := BitVec.not_lt.mp hlow
    rw [if_neg hlow, if_neg (BitVec.not_le.mpr haddr)]
    by_cases hmc3 : m.gime.mc3 = true
    · rw [if_pos hmc3, ← target_constant hhigh hmc3]
      rfl
    · have hram : m.gime.romMapped (m.gime.decodeBank addr) = false := by
        rw [← Bool.not_eq_true]
        intro hrom
        exact hseen ⟨hhigh, Bool.eq_false_iff.mpr hmc3, hrom⟩
      rw [if_neg hmc3]
      obtain ⟨i, hcycle⟩ := memCycle_memory (g := m.gime) haddr false val
      rw [hcycle, hram]
      rfl

/-- Otherwise the write is lost. -/
theorem machineWrite_hidden (haddr : addr < 0xFF00) (hhidden : m.hidden addr) (val : Byte) :
    (m.machineWriteCoco3 io addr val).ramPhysical = m.ramPhysical := by
  obtain ⟨hhigh, hmc3, hrom⟩ := hhidden
  have hconst : m.gime.constantRam addr = false := by
    unfold Tcc1014.constantRam
    rw [hmc3, Bool.and_false]
  unfold Coco3.machineWriteCoco3
  dsimp only
  rw [if_neg (BitVec.not_lt.mpr hhigh), if_neg (BitVec.not_le.mpr haddr), if_neg (by simp [hmc3])]
  obtain ⟨i, hcycle⟩ := memCycle_memory (g := m.gime) haddr false val
  rw [hcycle, hrom, hconst]
  rcases romSelect_cases (g := m.gime) (m.gime.decodeBank addr) with hs | hs
  · rw [hs]
    rfl
  · rw [hs]
    rfl

theorem cpuWrite_ram (h : PageInv m.gime) (haddr : addr < 0xFF00) (hseen : ¬m.hidden addr)
    (val : Byte) : (m.cpuWrite io addr val).ramPhysical =
      Function.update m.ramPhysical (m.target addr) val := by
  unfold Coco3.cpuWrite
  split
  · next hlow =>
    rw [h.wr]
    dsimp only
    rw [page_target h hlow]
  · exact machineWrite_ram h haddr hseen val

theorem cpuWrite_hidden (haddr : addr < 0xFF00) (hhidden : m.hidden addr) (val : Byte) :
    (m.cpuWrite io addr val).ramPhysical = m.ramPhysical := by
  unfold Coco3.cpuWrite
  rw [if_neg (BitVec.not_lt.mpr hhidden.1)]
  exact machineWrite_hidden haddr hhidden val

/-! ## All-RAM mode -/

theorem setSamRegister_ty (g : Tcc1014) (val : Word) : (g.setSamRegister val).ty = bit val 15 := rfl

theorem writeSam_ty (g : Tcc1014) : (g.writeSam 0x1F).ty = true := by
  have hmask : (1 : Word) <<< ((0x1F : BitVec 5).toNat >>> 1) = 0x8000 := by decide
  have hbit : (0x8000 : Word).getLsbD 15 = true := by decide
  unfold Tcc1014.writeSam
  dsimp only
  rw [setSamRegister_ty, if_pos (by decide), hmask, bit, BitVec.getLsbD_or, hbit, Bool.or_true]

theorem setTy_ram (m : Coco3) (bank : Byte) : m.setTy.gime.romMapped bank = false :=
  romMapped_eq_false.mpr (.inl (writeSam_ty m.gime))

/-- Once TY is set, both kinds of read find the byte under the address. -/
theorem setTy_reads (h : PageInv m.gime) (haddr : addr < 0xFF00) :
    (m.setTy.machineReadCoco3 io addr).1 = m.ramPhysical (m.target addr) ∧
      (m.setTy.cpuRead io addr).1 = m.ramPhysical (m.target addr) := by
  have hty : PageInv m.setTy.gime := h.setSamRegister _
  exact ⟨machineRead_ram hty haddr (setTy_ram m _), cpuRead_ram hty haddr (setTy_ram m _)⟩

/-- A write below $FF00 moves no register of the map. -/
def SameMap (g g' : Tcc1014) : Prop :=
  ∃ i s ras z dirtyFrame, g' = { g.withInts i with s, ras, z, dirtyFrame }

theorem SameMap.refl (g : Tcc1014) : SameMap g g := by
  obtain ⟨i, hi⟩ := OnlyInts.refl g
  exact ⟨i, g.s, g.ras, g.z, g.dirtyFrame, hi⟩

theorem SameMap.dirty {g g' : Tcc1014} (h : SameMap g g') :
    SameMap g { g' with dirtyFrame := true } := by
  obtain ⟨i, s, ras, z, _, rfl⟩ := h
  exact ⟨i, s, ras, z, true, rfl⟩

theorem machineWrite_sameMap (haddr : addr < 0xFF00) (val : Byte) :
    SameMap m.gime (m.machineWriteCoco3 io addr val).gime := by
  have hsame := SameMap.refl m.gime
  unfold Coco3.machineWriteCoco3
  dsimp only
  split
  · exact hsame.dirty
  · rw [if_neg (BitVec.not_le.mpr haddr)]
    split
    · exact hsame.dirty
    · obtain ⟨i, hcycle⟩ := memCycle_memory (g := m.gime) haddr false val
      have hdecoded : SameMap m.gime (m.gime.memCycle addr false val).gime := by
        rw [hcycle]
        exact ⟨i, _, _, _, m.gime.dirtyFrame, rfl⟩
      have hs : (m.gime.memCycle addr false val).gime.s ≠ .pia ∧
          (m.gime.memCycle addr false val).gime.s ≠ .scs := by
        rw [hcycle]
        dsimp only
        split
        · rcases romSelect_cases (g := m.gime) (m.gime.decodeBank addr) with hs | hs <;> simp [hs]
        · simp
      split
      · exact hdecoded
      · split
        · exact hdecoded.dirty
        · split
          · next hpia => exact absurd hpia hs.1
          · next hscs => exact absurd hscs hs.2
          · exact hdecoded
          · exact hdecoded
          · exact hdecoded

theorem cpuWrite_sameMap (haddr : addr < 0xFF00) (val : Byte) :
    SameMap m.gime (m.cpuWrite io addr val).gime := by
  unfold Coco3.cpuWrite
  split
  · split
    · exact SameMap.refl m.gime
    · exact machineWrite_sameMap haddr val
  · exact machineWrite_sameMap haddr val

/-! ## The two laws -/

/-- The tables and the callbacks agree with the decode at an address. -/
structure PagesAgree (io : Io) (m : Coco3) (addr : Word) : Prop where
  read : ∀ base, m.gime.rdPage (slotOf addr) = some base →
    (m.machineReadCoco3 io addr).1 = m.ramPhysical (Coco3.pageIndex base addr) ∧
      (m.gime.memCycle addr true 0).gime.ras = true ∧
      Coco3.pageIndex base addr = m.ramIndex (m.gime.memCycle addr true 0).gime.z
  rom : m.gime.rdPage (slotOf addr) = none →
    (m.gime.memCycle addr true 0).gime.ras = false ∧
      ((m.gime.memCycle addr true 0).gime.s = .rom ∨ (m.gime.memCycle addr true 0).gime.s = .cts)
  write : ∃ base, m.gime.wrPage (slotOf addr) = some base ∧
    ∀ val, (m.machineWriteCoco3 io addr val).ramPhysical =
      Function.update m.ramPhysical (Coco3.pageIndex base addr) val

theorem pagesAgree (h : PageInv m.gime) (io : Io) (haddr : addr < 0xFE00) :
    PagesAgree io m addr := by
  have hbelow : addr < 0xFF00 :=
    BitVec.lt_def.mpr (Nat.lt_trans (BitVec.lt_def.mp haddr) (by decide))
  have hseen : ¬m.hidden addr := fun hhidden => BitVec.not_le.mpr haddr hhidden.1
  obtain ⟨i, hcycle⟩ := memCycle_memory (g := m.gime) hbelow true 0
  have hmapped : m.gime.romMapped (m.gime.decodeBank addr) = false ↔
      m.gime.ty = true ∨ m.gime.slotBank (slotOf addr) &&& 0x3F < 0x3C := by
    rw [decodeBank_low haddr]
    exact romMapped_eq_false
  constructor
  · intro base hbase
    rw [h.rd] at hbase
    split at hbase
    · next hram =>
      have hpage : Coco3.pageIndex base addr = m.target addr := by
        rw [← Option.some.inj hbase]
        exact page_target h haddr
      refine ⟨?_, ?_, ?_⟩
      · rw [hpage]
        exact machineRead_ram h hbelow (hmapped.mpr hram)
      · rw [hcycle, hmapped.mpr hram]
        rfl
      · rw [hcycle, hpage]
        rfl
    · exact absurd hbase (by simp)
  · intro hnone
    rw [h.rd] at hnone
    split at hnone
    · exact absurd hnone (by simp)
    · next hrom =>
      have htrue : m.gime.romMapped (m.gime.decodeBank addr) = true := by
        rw [← Bool.not_eq_false, hmapped]
        exact hrom
      rw [hcycle, htrue, constantRam_low haddr]
      exact ⟨rfl, romSelect_cases _⟩
  · refine ⟨_, h.wr _, ?_⟩
    intro val
    rw [page_target h haddr]
    exact machineWrite_ram h hbelow hseen val

/-- The write changes one byte of RAM, the one that reads of the address return once TY is
set, whatever RAM holds. -/
def Reaches (io : Io) (m m' : Coco3) (addr : Word) (val : Byte) : Prop :=
  ∃ z, z < m.gime.ramSize ∧ m'.ramPhysical = Function.update m.ramPhysical z val ∧
    ∀ ram, ({ m' with ramPhysical := ram }.setTy.machineReadCoco3 io addr).1 = ram z ∧
      ({ m' with ramPhysical := ram }.setTy.cpuRead io addr).1 = ram z

/-- Which byte the reads return does not depend on what RAM holds. -/
theorem reads_target (h : PageInv m.gime) (haddr : addr < 0xFF00) {m' : Coco3}
    (hmap : SameMap m.gime m'.gime) (ram : Unsigned → Byte) :
    ({ m' with ramPhysical := ram }.setTy.machineReadCoco3 io addr).1 = ram (m.target addr) ∧
      ({ m' with ramPhysical := ram }.setTy.cpuRead io addr).1 = ram (m.target addr) := by
  obtain ⟨i, s, ras, z, dirtyFrame, hgime⟩ := hmap
  have hpages : PageInv m'.gime := by
    rw [hgime]
    exact { h with }
  have htarget : { m' with ramPhysical := ram }.target addr = m.target addr := by
    unfold Coco3.target Coco3.ramIndex
    dsimp only
    rw [hgime]
    rfl
  rw [← htarget]
  exact setTy_reads (m := { m' with ramPhysical := ram }) hpages haddr

theorem reaches_of_update (h : PageInv m.gime) (haddr : addr < 0xFF00) {m' : Coco3} {val : Byte}
    (hmap : SameMap m.gime m'.gime)
    (hram : m'.ramPhysical = Function.update m.ramPhysical (m.target addr) val) :
    Reaches io m m' addr val :=
  ⟨m.target addr, h.toRamInv.masked_lt _, hram, reads_target h haddr hmap⟩

/-- A write that changes nothing reaches the byte under the address only with the value it
holds. -/
theorem not_reaches_of_same (h : PageInv m.gime) (haddr : addr < 0xFF00) {m' : Coco3} {val : Byte}
    (hmap : SameMap m.gime m'.gime) (hram : m'.ramPhysical = m.ramPhysical)
    (hval : val ≠ m.ramPhysical (m.target addr)) : ¬Reaches io m m' addr val := by
  rintro ⟨z, _, hupdate, hreads⟩
  have hz : m.ramPhysical z = val := by
    rw [← hram, hupdate, Function.update_self]
  have htarget : m.target addr = z := by
    by_contra hne
    -- a RAM that tells the two bytes apart
    have hmark := hreads fun a => if a = z then 1 else 0
    have hread := hmark.1.symm.trans
      (reads_target h haddr hmap fun a => if a = z then 1 else 0).1
    rw [if_pos rfl, if_neg hne] at hread
    exact absurd hread (by decide)
  rw [htarget] at hval
  exact hval hz.symm

/-! ## Reachable machines -/

/-- The chip after power-on with RAM attached, and then any events. -/
def gimeAfter (size : Unsigned) (events : List Event) : Tcc1014 :=
  runAll Event.step events (({} : Tcc1014).reset.setRam size)

theorem pageInv_after {size : Unsigned} (hsize : Supported size) {events : List Event}
    (hfits : ∀ e ∈ events, e.Fits) : PageInv (gimeAfter size events) := by
  have hstart : PageInv (({} : Tcc1014).reset.setRam size) := PageInv.setRam _ hsize
  have hinv : Always Event.step PageInv events (({} : Tcc1014).reset.setRam size) :=
    Always.of_step (C := fun e _ => e.Fits) hstart (fun _ _ h hc => h.step hc)
      (EachStep.of_forall fun e he _ => hfits e he)
  exact hinv.last

/-- After power-on and any events, with any supported RAM: at every address below $FE00 the page
tables, the callbacks and the decode agree.  An entry of the read table is the byte of RAM that
the callback reads and the decode selects, a missing one is an address that the decode leaves to
a ROM, and the entry of the write table is where the callback writes. -/
theorem page_tables_coherent (io : Io) (size : Unsigned) (hsize : Supported size)
    (events : List Event) (hfits : ∀ e ∈ events, e.Fits) (m : Coco3)
    (hm : m.gime = gimeAfter size events) (addr : Word) (haddr : addr < 0xFE00) :
    PagesAgree io m addr := by
  have hpages : PageInv m.gime := hm ▸ pageInv_after hsize hfits
  exact pagesAgree hpages io haddr

/-- In the same states every write below $FF00, by the tables or by the callback, reaches the RAM
under its address, whatever is mapped there for reads, exactly when the address is not left to
the full decode with a ROM at $FE00. -/
theorem writes_reach_ram (io : Io) (size : Unsigned) (hsize : Supported size)
    (events : List Event) (hfits : ∀ e ∈ events, e.Fits) (m : Coco3)
    (hm : m.gime = gimeAfter size events) (addr : Word) (haddr : addr < 0xFF00) :
    (∀ val, Reaches io m (m.cpuWrite io addr val) addr val ∧
      Reaches io m (m.machineWriteCoco3 io addr val) addr val) ↔ ¬m.hidden addr := by
  have hpages : PageInv m.gime := hm ▸ pageInv_after hsize hfits
  constructor
  · intro hall hhidden
    -- a value other than the one the byte holds
    have hne : ~~~m.ramPhysical (m.target addr) ≠ m.ramPhysical (m.target addr) := by
      intro heq
      have hbit := congrArg (fun x : Byte => x.getLsbD 0) heq
      simp at hbit
    exact not_reaches_of_same hpages haddr (machineWrite_sameMap haddr _)
      (machineWrite_hidden haddr hhidden _) hne (hall _).2
  · intro hseen val
    exact ⟨reaches_of_update hpages haddr (cpuWrite_sameMap haddr val)
        (cpuWrite_ram hpages haddr hseen val),
      reaches_of_update hpages haddr (machineWrite_sameMap haddr val)
        (machineWrite_ram hpages haddr hseen val)⟩

end

/-! ## Instances -/

/-- No device answers. -/
def noIo : Io where
  read _ m := (0xFF, m)
  write _ _ m := m

/-- The MMU is given page 5 for $0000 and page $3C, the ROM, for $8000; it is turned on, with MC3,
by a write of INIT0; and the SAM's TY is set and cleared again. -/
def mapEvents : List Event :=
  [.cycle 0xFFA0 false 0x05, .cycle 0xFFA4 false 0x3C, .write 0 0x48, .cycle 0xFFDF false 0,
    .cycle 0xFFDE false 0]

/-- A CoCo 3 with 512 KB and so mapped, whose ROM counts up. -/
def mappedCoco3 : Coco3 where
  gime := gimeAfter 0x80000 mapEvents
  romCoco3 i := BitVec.ofNat 8 i
  romCoco3Loaded := true

/-- One address is RAM in the tables, the other is left to the ROM. -/
theorem page_tables_coherent_mapped :
    mappedCoco3.gime.rdPage (slotOf 0x1234) = some 0xA000 ∧
      mappedCoco3.gime.rdPage (slotOf 0x8123) = none ∧
      PagesAgree noIo mappedCoco3 0x1234 ∧ PagesAgree noIo mappedCoco3 0x8123 := by
  have hsize : Supported 0x80000 := by decide
  have hfits : ∀ e ∈ mapEvents, e.Fits := by decide
  have hagree (addr : Word) (haddr : addr < 0xFE00) : PagesAgree noIo mappedCoco3 addr :=
    page_tables_coherent noIo 0x80000 hsize mapEvents hfits mappedCoco3 rfl addr haddr
  exact ⟨by decide +kernel, by decide +kernel, hagree 0x1234 (by decide), hagree 0x8123 (by decide)⟩

/-- A write to an address where the ROM is read goes to the RAM under it. -/
theorem writes_reach_ram_mapped :
    (mappedCoco3.cpuRead noIo 0x8123).1 = 0x23 ∧
      Reaches noIo mappedCoco3 (mappedCoco3.cpuWrite noIo 0x8123 1) 0x8123 1 := by
  have hlaw := writes_reach_ram noIo 0x80000 (by decide) mapEvents (by decide) mappedCoco3 rfl
    0x8123 (by decide)
  exact ⟨by decide +kernel, (hlaw.mpr (by decide +kernel) 1).1⟩

/-- A CoCo 3 with 512 KB, after power-on. -/
def freshCoco3 : Coco3 where
  gime := gimeAfter 0x80000 []

/-- After power-on the internal ROM is mapped at $FE00 and MC3 is clear. -/
theorem fresh_write_lost :
    (freshCoco3.cpuWrite noIo 0xFE00 1).ramPhysical = freshCoco3.ramPhysical ∧
      ¬Reaches noIo freshCoco3 (freshCoco3.cpuWrite noIo 0xFE00 1) 0xFE00 1 := by
  have hpages : PageInv freshCoco3.gime := pageInv_after (by decide) (by simp)
  have hlost : (freshCoco3.cpuWrite noIo 0xFE00 1).ramPhysical = freshCoco3.ramPhysical :=
    cpuWrite_hidden (by decide) (by decide +kernel) 1
  refine ⟨hlost, ?_⟩
  exact not_reaches_of_same hpages (by decide) (cpuWrite_sameMap (by decide) 1) hlost (by decide)

end CocoEmulator.Machine
