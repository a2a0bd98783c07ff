/-
  Base/Packing.lean --- fields packed side by side into a number.

  A field is a width and a value, and the first field is in the low place.  When every
  value fits its width, the number is below the power of two of the whole width and says
  what each field was.

      pack_lt      the number takes the widths together, and no more
      pack_inj     packed fields are read back
      digit_pack   fields of one width are digits

  In a machine word they are read back while there is room for all of them.

  This file names nothing of the emulator.
-/
import Mathlib.Algebra.Group.Nat.Defs
import Mathlib.Data.List.Basic

set_option autoImplicit false

namespace CocoEmulator.Base.Packing

/-- The fields, by width and value, from the low end. -/
def pack : List (Nat × Nat) → Nat
  | [] => 0
  | (w, v) :: fields => v ||| (pack fields <<< w)

/-- The width of all the fields. -/
def width : List (Nat × Nat) → Nat
  | [] => 0
  | (w, _) :: fields => w + width fields

/-- Every value fits its width. -/
def Fit (fields : List (Nat × Nat)) : Prop := ∀ f ∈ fields, f.2 < 2 ^ f.1

instance : DecidablePred Fit := fun fields => inferInstanceAs (Decidable (∀ f ∈ fields, _))

section

variable {w v : Nat} {fields fields' : List (Nat × Nat)}

theorem fit_cons : Fit ((w, v) :: fields) ↔ v < 2 ^ w ∧ Fit fields := by
  simp [Fit]

/-- A value below a shifted one is added to it. -/
theorem or_shiftLeft {a : Nat} (b : Nat) (ha : a < 2 ^ w) : a ||| (b <<< w) = b * 2 ^ w + a := by
  rw [Nat.or_comm, ← Nat.shiftLeft_add_eq_or_of_lt ha, Nat.shiftLeft_eq]

/-- Both are read back. -/
theorem or_shiftLeft_inj {a b c d : Nat} (ha : a < 2 ^ w) (hc : c < 2 ^ w)
    (h : a ||| (b <<< w) = c ||| (d <<< w)) : a = c ∧ b = d := by
  rw [or_shiftLeft b ha, or_shiftLeft d hc] at h
  have hlow : a = c := by
    have hmod := congrArg (· % 2 ^ w) h
    simpa [Nat.mod_eq_of_lt ha, Nat.mod_eq_of_lt hc] using hmod
  rw [hlow, Nat.add_right_cancel_iff] at h
  exact ⟨hlow, Nat.eq_of_mul_eq_mul_right (Nat.two_pow_pos w) h⟩

/-- The first field is the remainder, and the others are the quotient. -/
theorem pack_cons {v : Nat} (fields : List (Nat × Nat)) (hv : v < 2 ^ w) :
    pack ((w, v) :: fields) = pack fields * 2 ^ w + v :=
  or_shiftLeft _ hv

/-- The number takes the widths together, and no more. -/
theorem pack_lt (h : Fit fields) : pack fields < 2 ^ width fields := by
  induction fields with
  | nil => exact Nat.one_pos
  | cons f fields ih =>
    obtain ⟨w, v⟩ := f
    obtain ⟨hv, hrest⟩ := fit_cons.mp h
    have hmul : (pack fields + 1) * 2 ^ w ≤ 2 ^ width fields * 2 ^ w :=
      Nat.mul_le_mul_right _ (ih hrest)
    rw [pack_cons _ hv, width, Nat.add_comm w, Nat.pow_add]
    rw [Nat.add_mul, Nat.one_mul] at hmul
    exact Nat.lt_of_lt_of_le (Nat.add_lt_add_left hv _) hmul

/-- Packed fields are read back. -/
theorem pack_inj (hwidths : fields.map Prod.fst = fields'.map Prod.fst) (hfit : Fit fields)
    (hfit' : Fit fields') (h : pack fields = pack fields') : fields = fields' := by
  induction fields generalizing fields' with
  | nil => exact (List.map_eq_nil_iff.mp hwidths.symm).symm
  | cons f fields ih =>
    cases fields' with
    | nil => exact absurd hwidths (by simp)
    | cons f' fields' =>
      obtain ⟨w, v⟩ := f
      obtain ⟨w', v'⟩ := f'
      rw [List.map_cons, List.map_cons, List.cons.injEq] at hwidths
      obtain ⟨hw, hrest⟩ := hwidths
      obtain rfl : w = w' := hw
      obtain ⟨hv, hfields⟩ := fit_cons.mp hfit
      obtain ⟨hv', hfields'⟩ := fit_cons.mp hfit'
      obtain ⟨rfl, hpack⟩ := or_shiftLeft_inj hv hv' h
      rw [ih hrest hfields hfields' hpack]

theorem width_congr (h : fields.map Prod.fst = fields'.map Prod.fst) :
    width fields = width fields' := by
  induction fields generalizing fields' with
  | nil =>
    rw [List.map_eq_nil_iff.mp h.symm]
  | cons f fields ih =>
    cases fields' with
    | nil => exact absurd h (by simp)
    | cons f' fields' =>
      rw [List.map_cons, List.map_cons, List.cons.injEq] at h
      rw [width, width, ih h.2, h.1]

/-- They are read back from a machine word that is as wide as they are together. -/
theorem ofNat_pack_inj {n : Nat} (hwidths : fields.map Prod.fst = fields'.map Prod.fst)
    (hn : width fields ≤ n) (hfit : Fit fields) (hfit' : Fit fields')
    (h : BitVec.ofNat n (pack fields) = BitVec.ofNat n (pack fields')) : fields = fields' := by
  have hn' : width fields' ≤ n := by
    rwa [← width_congr hwidths]
  have hlt : pack fields < 2 ^ n :=
    Nat.lt_of_lt_of_le (pack_lt hfit) (Nat.pow_le_pow_right Nat.two_pos hn)
  have hlt' : pack fields' < 2 ^ n :=
    Nat.lt_of_lt_of_le (pack_lt hfit') (Nat.pow_le_pow_right Nat.two_pos hn')
  have hnat := congrArg BitVec.toNat h
  rw [BitVec.toNat_ofNat, BitVec.toNat_ofNat, Nat.mod_eq_of_lt hlt, Nat.mod_eq_of_lt hlt'] at hnat
  exact pack_inj hwidths hfit hfit' hnat

/-- Fields of one width are the digits of the number. -/
theorem digit_pack {values : List Nat} (h : ∀ v ∈ values, v < 2 ^ w) (j : Nat) :
    pack (values.map fun v => (w, v)) / 2 ^ (w * j) % 2 ^ w = values.getD j 0 := by
  induction values generalizing j with
  | nil => simp [pack]
  | cons v values ih =>
    obtain ⟨hv, hrest⟩ := List.forall_mem_cons.mp h
    rw [List.map_cons, pack_cons _ hv]
    cases j with
    | zero => simp [Nat.mod_eq_of_lt hv]
    | succ j =>
      rw [Nat.mul_succ, Nat.pow_add, Nat.mul_comm (2 ^ (w * j)), ← Nat.div_div_eq_div_mul,
        Nat.mul_comm (pack _),
        Nat.mul_add_div (Nat.two_pow_pos w), Nat.div_eq_of_lt hv, Nat.add_zero]
      exact ih hrest j

end

end CocoEmulator.Base.Packing
