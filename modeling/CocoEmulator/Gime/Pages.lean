/-
  Gime/Pages.lean --- the CPU's page tables follow the memory map.

  The tables cache a decode that depends on the MMU, the task, the map type and the
  RAM fitted, and different register writes rebuild them.

      PageInv.step         every event keeps the tables as a rebuild would make them
      RamInv.pageIndex_eq  an entry plus the offset in the page is the decoded address,
                           wrapped into RAM
-/
import CocoEmulator.Gime.Events

set_option autoImplicit false

namespace CocoEmulator.Gime

open Tcc1014 (slotOf physical)

/-- 128 KB, 512 KB, 1 MB and 2 MB. -/
def Supported (size : Unsigned) : Prop :=
  size = 0x20000 ∨ size = 0x80000 ∨ size = 0x100000 ∨ size = 0x200000

instance (size : Unsigned) : Decidable (Supported size) := inferInstanceAs (Decidable (_ ∨ _))

/-- RAM is attached in a supported size. -/
def Event.Fits : Event → Prop
  | .setRam size => Supported size
  | _ => True

instance : (e : Event) → Decidable e.Fits
  | .setRam size => inferInstanceAs (Decidable (Supported size))
  | .interrupt _ | .il0 _ | .il1 _ | .il2 _ | .tick | .cycle _ _ _ | .write _ _ | .read _ | .reset =>
    isTrue trivial

/-! ## The invariant -/

/-- RAM of a supported size is attached. -/
structure RamInv (g : Tcc1014) : Prop where
  ram : g.ram = true
  mask : g.ramMask = g.ramSize - 1
  size : Supported g.ramSize

/-- The tables are as a rebuild would make them. -/
structure PageInv (g : Tcc1014) : Prop extends RamInv g where
  active : g.activeBanks = g.slotBank
  wr : ∀ slot, g.wrPage slot = some (g.bankBase (g.slotBank slot))
  rd : ∀ slot, g.rdPage slot =
    if g.ty = true ∨ g.slotBank slot &&& 0x3F < 0x3C then some (g.bankBase (g.slotBank slot))
    else none

section

variable {g : Tcc1014}

/-- The tables do not depend on what interrupts and the timer move. -/
theorem PageInv.onlyInts (h : PageInv g) {g' : Tcc1014} (hints : OnlyInts g g') : PageInv g' := by
  obtain ⟨i, rfl⟩ := hints
  exact { h with }

/-- A rebuild from the selected banks makes the tables what the invariant says, slot by slot. -/
theorem RamInv.updateFastPages (h : RamInv g) (hactive : g.activeBanks = g.slotBank) :
    PageInv g.updateFastPages := by
  refine { h with active := hactive, wr := ?_, rd := ?_ }
  · intro slot
    change (if g.ram = true then some (g.bankBase (g.activeBanks slot)) else none) = _
    rw [if_pos h.ram, hactive]
    rfl
  · intro slot
    change (if g.ty = true ∨ g.activeBanks slot &&& 0x3F < 0x3C then
      (if g.ram = true then some (g.bankBase (g.activeBanks slot)) else none) else none) = _
    rw [if_pos h.ram, hactive]
    rfl

/-- Whatever was in the tables before, selecting the banks and rebuilding restores the invariant. -/
theorem RamInv.updateActiveBanks (h : RamInv g) : PageInv g.updateActiveBanks := by
  have hactive : RamInv { g with activeBanks := g.slotBank } := { h with }
  exact hactive.updateFastPages rfl

/-! ## Registers -/

theorem PageInv.selectTimer (h : PageInv g) (tins : Bool) : PageInv (g.selectTimer tins) := by
  unfold Tcc1014.selectTimer
  split
  · exact { h with }
  · exact h

/-- A change of task selects other banks, so it rebuilds; the same task again does nothing. -/
theorem PageInv.selectTask (h : PageInv g) (tr : BitVec 4) : PageInv (g.selectTask tr) := by
  unfold Tcc1014.selectTask
  split
  · have hram : RamInv { g with tr } := { h with }
    exact hram.updateActiveBanks
  · exact h

/-- A write of $FF9B moves the base of the picture, where the RAM is larger than 512 KB, and not the
map. -/
theorem PageInv.writeVbank (h : PageInv g) (val : Byte) : PageInv (g.writeVbank val) := by
  unfold Tcc1014.writeVbank
  split
  · exact { h with }
  · exact h

/-- TY and the map type decide which slots are ROM, so the tables are rebuilt. -/
theorem PageInv.setSamRegister (h : PageInv g) (val : Word) : PageInv (g.setSamRegister val) := by
  have hram : RamInv { g with
      samRegister := val
      ty := bit val 15
      r1 := bit val 12
      samF := (val >>> 3).setWidth 7
      samV := val.setWidth 3 } := { h with }
  exact { hram.updateFastPages h.active with }

/-- INIT0 turns the MMU on or off and sets the map of the ROMs. -/
theorem RamInv.writeInit0 (h : RamInv g) (val : Byte) : PageInv (g.writeInit0 val) := by
  have hram : RamInv { g with
      coco := bit val 7
      mmuen := bit val 6
      mc3 := bit val 3
      mc2 := bit val 2
      mc1 := bit val 1
      mc0 := bit val 0
      irq := Tcc1014.irqLine val g.irqState
      firq := Tcc1014.firqLine val g.firqState } := { h with }
  exact { hram.updateActiveBanks with }

/-- The map depends on INIT0 and, by the task, on INIT1; the other registers leave the tables. -/
theorem PageInv.writeRegister (h : PageInv g) (reg : BitVec 4) (val : Byte) :
    PageInv (g.writeRegister reg val) := by
  have hstore : PageInv { g with registers := Function.update g.registers reg val } := { h with }
  unfold Tcc1014.writeRegister
  dsimp only
  split
  · exact hstore.toRamInv.writeInit0 val
  · exact (hstore.selectTimer _).selectTask _
  all_goals first | exact { hstore with } | exact hstore.writeVbank val

/-- A write of the MMU changes one bank register, of either task, and rebuilds. -/
theorem RamInv.writeMmu (h : RamInv g) (offset : BitVec 4) (val : Byte) :
    PageInv (g.writeMmu offset val) := by
  have hram : RamInv { g with
      mmuBank := Function.update g.mmuBank offset (val &&& g.bankMask) } := { h with }
  exact hram.updateActiveBanks

theorem PageInv.snoopPia1b (h : PageInv g) (addr : Word) (val : Byte) :
    PageInv (g.snoopPia1b addr val) := by
  unfold Tcc1014.snoopPia1b
  split
  · split
    · exact { h with }
    · exact h
  · split
    · exact { h with }
    · exact h

/-- Among the accesses of a cycle only those of a register, the MMU and the SAM rebuild. -/
theorem PageInv.memCycle (h : PageInv g) (addr : Word) (rnw : Bool) (data : Byte) :
    PageInv (g.memCycle addr rnw data).gime :=
  memCycle_keeps addr rnw data (h.onlyInts (onlyInts_edgeDetectIl g)) {
    select := fun _ _ _ _ h => { h with }
    snoop := fun _ addr val h => h.snoopPia1b addr val
    register := fun _ reg val h => h.writeRegister reg val
    ackIrq := fun _ h => { h with }
    ackFirq := fun _ h => { h with }
    mmu := fun _ offset val h => h.toRamInv.writeMmu offset val
    palette := fun _ _ _ h => { h with }
    sam := fun _ _ h => h.setSamRegister _ }

/-- The first loop of a reset writes zero to each register in turn. -/
theorem PageInv.clearRegisters (h : PageInv g) : PageInv g.clearRegisters := by
  unfold Tcc1014.clearRegisters
  generalize List.range 16 = is
  induction is generalizing g with
  | nil => exact h
  | cons i is ih =>
    apply ih
    exact { h.writeRegister (BitVec.ofNat 4 i) 0 with }

/-- A reset ends with the banks $38-$3F in both tasks and a rebuild. -/
theorem PageInv.reset (h : PageInv g) : PageInv g.reset := by
  have hram : RamInv { g.clearRegisters.setSamRegister 0 with
      mmuBank := fun i => 0x38 ||| (i &&& 7).setWidth 8 } :=
    { h.clearRegisters.setSamRegister 0 with }
  exact { hram.updateActiveBanks with }

/-- From any state, RAM of a supported size gives tables that follow the map. -/
theorem PageInv.setRam (g : Tcc1014) {size : Unsigned} (hsize : Supported size) :
    PageInv (g.setRam size) :=
  RamInv.updateActiveBanks ⟨rfl, rfl, hsize⟩

/-- Every event keeps the tables as a rebuild would make them, as long as the RAM that is fitted has
a supported size. -/
theorem PageInv.step (h : PageInv g) {e : Event} (hfits : e.Fits) : PageInv (e.step g) := by
  cases e with
  | interrupt source => exact { h with }
  | il0 high => exact { h with }
  | il1 high => exact { h with }
  | il2 high => exact { h with }
  | tick => exact h.onlyInts (onlyInts_tickScanline g)
  | cycle addr rnw data => exact h.memCycle addr rnw data
  | write reg val => exact h.writeRegister reg val
  | read reg => exact h.onlyInts (onlyInts_readRegister g reg)
  | setRam size => exact PageInv.setRam g hfits
  | reset => exact h.reset

end

/-! ## Addresses -/

section

variable {g : Tcc1014}

/-- A bank starts at a multiple of 8 KB. -/
theorem shifted_low (b : Unsigned) : (b <<< 13) &&& 0x1FFF = 0 := by
  apply BitVec.eq_of_toNat_eq
  have hmask : (0x1FFF : Unsigned).toNat = 2 ^ 13 - 1 := by decide
  rw [BitVec.toNat_and, hmask, Nat.and_two_pow_sub_one_eq_mod, BitVec.toNat_shiftLeft,
    Nat.shiftLeft_eq]
  simp

/-- The mask of the RAM keeps every offset in a page. -/
theorem RamInv.mask_low (h : RamInv g) : 0x1FFF &&& g.ramMask = 0x1FFF := by
  rw [h.mask]
  rcases h.size with hs | hs | hs | hs <;> rw [hs] <;> decide

/-- A table entry plus the offset in the page is the decoded address, wrapped into RAM. -/
theorem RamInv.pageIndex_eq (h : RamInv g) (bank : Byte) (addr : Word) :
    g.bankBase bank + (addr &&& 0x1FFF).setWidth 32 = physical bank addr &&& g.ramMask := by
  have hlow := shifted_low (bank.setWidth 32)
  have hoff : (addr &&& 0x1FFF).setWidth 32 = addr.setWidth 32 &&& (0x1FFF : Unsigned) :=
    BitVec.setWidth_and ..
  have hdisjoint : (bank.setWidth 32 <<< 13 &&& g.ramMask) &&&
      (addr.setWidth 32 &&& (0x1FFF : Unsigned)) = 0 := by
    calc _ = (bank.setWidth 32 <<< 13 &&& 0x1FFF) &&& (addr.setWidth 32 &&& g.ramMask) := by
          ac_rfl
      _ = 0 := by rw [hlow]; exact BitVec.zero_and
  unfold Tcc1014.bankBase physical
  rw [hoff, BitVec.add_eq_or_of_and_eq_zero _ _ hdisjoint, BitVec.and_or_distrib_right,
    BitVec.and_assoc (addr.setWidth 32), h.mask_low]

/-- A masked address is inside the RAM. -/
theorem RamInv.masked_lt (h : RamInv g) (z : Unsigned) : z &&& g.ramMask < g.ramSize := by
  have hle : (z &&& g.ramMask).toNat ≤ g.ramMask.toNat := by
    rw [BitVec.toNat_and]
    exact Nat.and_le_right
  have hlt : g.ramMask.toNat < g.ramSize.toNat := by
    rw [h.mask]
    rcases h.size with hs | hs | hs | hs <;> rw [hs] <;> decide
  exact BitVec.lt_def.mpr (Nat.lt_of_le_of_lt hle hlt)

/-- The constant page is at $FE00 and nowhere below. -/
theorem constantRam_low {addr : Word} (haddr : addr < 0xFE00) : g.constantRam addr = false := by
  unfold Tcc1014.constantRam
  rw [decide_eq_false (BitVec.not_le.mpr haddr), Bool.false_and]

/-- Below $FE00 the decode takes the bank of the slot. -/
theorem decodeBank_low {addr : Word} (haddr : addr < 0xFE00) :
    g.decodeBank addr = g.slotBank (slotOf addr) := by
  unfold Tcc1014.decodeBank Tcc1014.slotBank
  rw [constantRam_low haddr, Bool.not_false, Bool.and_true]

/-- The constant page is in the top bank. -/
theorem decodeBank_constant {addr : Word} (haddr : 0xFE00 ≤ addr) (hmc3 : g.mc3 = true) :
    g.decodeBank addr = 0x3F := by
  have hslot : slotOf addr = 7 := by
    apply BitVec.eq_of_toNat_eq
    have hlow := BitVec.le_def.mp haddr
    have hhigh := addr.isLt
    unfold Tcc1014.slotOf
    rw [BitVec.toNat_setWidth, BitVec.toNat_ushiftRight, Nat.shiftRight_eq_div_pow]
    simp at hlow ⊢
    omega
  unfold Tcc1014.decodeBank Tcc1014.constantRam
  rw [decide_eq_true haddr, hmc3, hslot]
  simp

/-- A ROM is mapped at the last four of each 64 banks, unless TY maps RAM everywhere. -/
theorem romMapped_eq_false {bank : Byte} :
    g.romMapped bank = false ↔ g.ty = true ∨ bank &&& 0x3F < 0x3C := by
  unfold Tcc1014.romMapped
  rw [Bool.and_eq_false_iff, decide_eq_false_iff_not, BitVec.not_le]
  simp

/-- Where a ROM is mapped, one of the two ROM selects is active. -/
theorem romSelect_cases (bank : Byte) : g.romSelect bank = .rom ∨ g.romSelect bank = .cts := by
  unfold Tcc1014.romSelect
  split
  · split
    · exact .inr rfl
    · exact .inl rfl
  · split
    · exact .inr rfl
    · exact .inl rfl

/-- A cycle below $FF00 decodes the address and moves nothing but interrupts. -/
theorem memCycle_memory {addr : Word} (haddr : addr < 0xFF00) (rnw : Bool) (data : Byte) :
    ∃ i, g.memCycle addr rnw data = { gime := { g.withInts i with
      s := if g.romMapped (g.decodeBank addr) = true then g.romSelect (g.decodeBank addr) else .none
      ras := !g.romMapped (g.decodeBank addr) || g.constantRam addr
      z := physical (g.decodeBank addr) addr } } := by
  obtain ⟨i, hi⟩ := onlyInts_edgeDetectIl g
  refine ⟨i, ?_⟩
  unfold Tcc1014.memCycle
  rw [hi]
  dsimp only
  rw [if_pos haddr]
  rfl

end

end CocoEmulator.Gime
