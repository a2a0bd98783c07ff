/-
  Cpu/Division.lean --- DIVD and DIVQ divide as signed integers do.

  Both strip the signs, divide the magnitudes in a register twice as wide as the
  quotient, and put the signs back (Base/Signed.lean).  A quotient whose magnitude
  is the largest, negative or not, counts as an overflow: the sign is not put back,
  and the stored byte only happens to be right when the quotient is negative.
-/
import CocoEmulator.Base.Signed
import CocoEmulator.Cpu.Run

set_option autoImplicit false

namespace CocoEmulator.Cpu

open CocoEmulator.Base

/-! ## Flags -/

/-- A flag inside the mask of an update. -/
theorem ccTst_putFlags {f m : Byte} (h : f &&& ~~~m = 0) (g cc : Byte) :
    ccTst f (putFlags m g cc) = ccTst f g := by
  have hmask : (cc &&& ~~~m ||| g) &&& f = g &&& f := by
    have hzero : cc &&& ~~~m &&& f = 0 := by
      rw [BitVec.and_assoc, BitVec.and_comm (~~~m), h]
      exact BitVec.and_zero
    rw [BitVec.and_comm, BitVec.and_or_distrib_left, BitVec.and_comm f, hzero, BitVec.and_comm f]
    exact BitVec.zero_or
  unfold ccTst putFlags
  rw [hmask]

/-- N, Z, V and C as a division leaves them. -/
structure DivFlags (n z v c : Bool) (cc : Byte) : Prop where
  n : ccTst flagN cc = n
  z : ccTst flagZ cc = z
  v : ccTst flagV cc = v
  c : ccTst flagC cc = c

/-- All four flags at once. -/
theorem DivFlags.put (n z v c : Bool) (cc : Byte) :
    DivFlags n z v c (putFlags 0x0F
      (flagIf flagN n ||| flagIf flagZ z ||| flagIf flagV v ||| flagIf flagC c) cc) := by
  constructor <;>
    (rw [ccTst_putFlags (by decide)]; cases n <;> cases z <;> cases v <;> cases c <;> decide)

/-- The flags once the quotient is known. -/
def divCc (c : Bool) (cc : Byte) : Byte :=
  if c then ccSet flagC (ccClr (flagN ||| flagZ ||| flagV ||| flagC) cc)
  else ccClr (flagN ||| flagZ ||| flagV ||| flagC) cc

theorem divCc_nz (n z c : Bool) (cc : Byte) :
    DivFlags n z false c (putFlags (flagN ||| flagZ) (flagIf flagN n ||| flagIf flagZ z)
      (divCc c cc)) := by
  have hput := DivFlags.put n z false c cc
  unfold divCc ccSet ccClr
  cases c with
  | false =>
    rw [if_neg Bool.false_ne_true, putFlags_putFlags]
    cases n <;> cases z <;> exact hput
  | true =>
    rw [if_pos rfl, putFlags_putFlags, putFlags_putFlags]
    cases n <;> cases z <;> exact hput

theorem divCc_overflow (c : Bool) (cc : Byte) :
    DivFlags true false true c (ccSet (flagN ||| flagV) (divCc c cc)) := by
  have hput := DivFlags.put true false true c cc
  unfold divCc ccSet ccClr
  cases c with
  | false =>
    rw [if_neg Bool.false_ne_true, putFlags_putFlags]
    exact hput
  | true =>
    rw [if_pos rfl, putFlags_putFlags, putFlags_putFlags]
    exact hput

theorem ccSet_flagV (n : Bool) (cc : Byte) : ccTst flagV (ccSet (flagV ||| flagIf flagN n) cc) = true := by
  cases n <;> (unfold ccSet; rw [ccTst_putFlags (by decide)]; decide)

/-! ## Masks -/

theorem sign8 (x : Byte) : (x &&& 0x80 != 0) = x.msb := @and_twoPow_ne 8 x 7 (by decide)

theorem sign16 (x : Word) : (x &&& 0x8000 != 0) = x.msb := @and_twoPow_ne 16 x 15 (by decide)

theorem sign32 (x : BitVec 32) : (x &&& 0x80000000 != 0) = x.msb :=
  @and_twoPow_ne 32 x 31 (by decide)

theorem bit7 (x : Word) : (x &&& 0x80 != 0) = x.getLsbD 7 ∧ (x &&& 0x80 == 0) = !x.getLsbD 7 := by
  have h := @and_twoPow_ne 16 x 7 (by decide)
  refine ⟨h, ?_⟩
  rw [← h]
  exact (Bool.not_not _).symm

theorem bit15 (x : BitVec 32) :
    (x &&& 0x8000 != 0) = x.getLsbD 15 ∧ (x &&& 0x8000 == 0) = !x.getLsbD 15 := by
  have h := @and_twoPow_ne 32 x 15 (by decide)
  refine ⟨h, ?_⟩
  rw [← h]
  exact (Bool.not_not _).symm

theorem low8 (x : Byte) : (x &&& 1 != 0) = x.getLsbD 0 := @and_twoPow_ne 8 x 0 (by decide)

theorem low16 (x : Word) : (x &&& 1 != 0) = x.getLsbD 0 := @and_twoPow_ne 16 x 0 (by decide)

theorem sameSign8 (q : Word) (b : Byte) :
    ((q >>> 15 ^^^ (b >>> 7).setWidth 16) &&& 1 == 0) = decide (q.msb = b.msb) := by
  have hq : q >>> 15 = if q.msb then 1 else 0 := ushiftRight_last q
  have hb : b >>> 7 = if b.msb then 1 else 0 := ushiftRight_last b
  rw [hq, hb]
  cases q.msb <;> cases b.msb <;> decide

theorem sameSign16 (q : BitVec 32) (w : Word) :
    ((q >>> 31 ^^^ (w >>> 15).setWidth 32) &&& 1 == 0) = decide (q.msb = w.msb) := by
  have hq : q >>> 31 = if q.msb then 1 else 0 := ushiftRight_last q
  have hw : w >>> 15 = if w.msb then 1 else 0 := ushiftRight_last w
  rw [hq, hw]
  cases q.msb <;> cases w.msb <;> decide

/-! ## Truncated division -/

/-- What a division of `a` by `v` leaves in a destination with sign bit `k`: the true
quotient is stored wherever it fits, and V says that its magnitude does not. -/
structure Divided (k : Nat) (a v q r : Int) (cc : Byte) : Prop where
  stored : -2 ^ k ≤ a.tdiv v → a.tdiv v < 2 ^ k →
    q = a.tdiv v ∧ a = q * v + r ∧ r.natAbs < v.natAbs ∧ (r ≠ 0 → (r < 0 ↔ a < 0)) ∧
      ccTst flagN cc = decide (q < 0) ∧ ccTst flagZ cc = decide (q = 0) ∧
      ccTst flagC cc = decide (q % 2 = 1)
  overflow : ccTst flagV cc = true ↔ ¬(-2 ^ k < a.tdiv v ∧ a.tdiv v < 2 ^ k)

theorem signed_neg {s : Bool} {m : Nat} (h : signed s m ≠ 0) : signed s m < 0 ↔ s = true := by
  unfold signed at h ⊢
  cases s with
  | false => exact iff_of_false (Int.not_lt.mpr (Int.natCast_nonneg m)) Bool.false_ne_true
  | true =>
    simp only [if_true] at h ⊢
    exact iff_of_true (by omega) trivial

theorem signed_natAbs (s : Bool) (m : Nat) : (signed s m).natAbs = m := by
  unfold signed
  cases s with
  | false => exact Int.natAbs_natCast m
  | true => exact (Int.natAbs_neg m).trans (Int.natAbs_natCast m)

/-- The remainder: smaller than the divisor, with the dividend's sign. -/
theorem signed_rem {s t : Bool} {m n : Nat} (hn : 0 < n) :
    (signed s (m % n)).natAbs < (signed t n).natAbs ∧
      (signed s (m % n) ≠ 0 → (signed s (m % n) < 0 ↔ signed s m < 0)) := by
  constructor
  · rw [signed_natAbs, signed_natAbs]
    exact Nat.mod_lt m hn
  · intro hne
    have hm : signed s m ≠ 0 := by
      intro hzero
      have habs := congrArg Int.natAbs hzero
      rw [signed_natAbs] at habs
      rw [show m = 0 from habs, Nat.zero_mod] at hne
      apply hne
      unfold signed
      split <;> rfl
    rw [signed_neg hne, signed_neg hm]

section
variable {k : Nat} {s t : Bool} {m n : Nat} {q r : Int} {cc : Byte}

/-- A quotient with more bits than the destination. -/
theorem Divided.wide (h : 2 ^ (k + 1) ≤ m / n) (hcc : ccTst flagV cc = true) :
    Divided k (signed s m) (signed t n) q r cc := by
  have hk : 2 ^ (k + 1) = 2 ^ k * 2 := Nat.pow_succ ..
  have hpos := Nat.two_pow_pos k
  have hcast : ((2 ^ k : Nat) : Int) = 2 ^ k := Int.natCast_pow 2 k
  have habs := signed_natAbs (s != t) (m / n)
  constructor
  · intro hlo hhi
    rw [signed_tdiv] at hlo hhi
    omega
  · rw [signed_tdiv]
    refine iff_of_true hcc ?_
    rintro ⟨hlo, hhi⟩
    omega

/-- A quotient that the destination has the bits for. -/
theorem Divided.narrow (hn : 0 < n)
    (hq : m / n < 2 ^ k ∨ (s != t) = true ∧ m / n = 2 ^ k → q = signed (s != t) (m / n))
    (hr : r = signed s (m % n))
    (hfits : m / n < 2 ^ k →
      DivFlags (decide (q < 0)) (decide (q = 0)) false (decide (q % 2 = 1)) cc)
    (hover : ¬m / n < 2 ^ k → DivFlags true false true (decide (q % 2 = 1)) cc) :
    Divided k (signed s m) (signed t n) q r cc := by
  have hcast : ((2 ^ k : Nat) : Int) = 2 ^ k := Int.natCast_pow 2 k
  have habs := signed_natAbs (s != t) (m / n)
  have hpos := Nat.two_pow_pos k
  constructor
  · intro hlo hhi
    rw [signed_tdiv] at hlo hhi ⊢
    have hplace : m / n < 2 ^ k ∨ (s != t) = true ∧ m / n = 2 ^ k := by
      cases hst : (s != t) with
      | false =>
        rw [hst] at hhi
        have hlt : ((m / n : Nat) : Int) < 2 ^ k := hhi
        exact .inl (by omega)
      | true =>
        rw [hst] at habs hlo
        have hle : m / n ≤ 2 ^ k := by
          unfold signed at hlo
          simp only [if_true] at hlo
          omega
        rcases Nat.lt_or_eq_of_le hle with hlt | heq
        · exact .inl hlt
        · exact .inr ⟨rfl, heq⟩
    have hq' := hq hplace
    obtain ⟨hsmall, hsign⟩ := @signed_rem s t m n hn
    refine ⟨hq', ?_, by rw [hr]; exact hsmall, by rw [hr]; exact hsign, ?_⟩
    · rw [hq', hr, ← signed_tdiv, ← signed_tmod s t, Int.mul_comm]
      exact (Int.mul_tdiv_add_tmod _ _).symm
    · by_cases hfit : m / n < 2 ^ k
      · have hflags := hfits hfit
        exact ⟨hflags.n, hflags.z, hflags.c⟩
      · have hflags := hover hfit
        obtain ⟨hst, htop⟩ := hplace.resolve_left hfit
        have hneg : q < 0 := by
          rw [hq', hst, htop]
          unfold signed
          simp only [if_true]
          omega
        exact ⟨hflags.n.trans (decide_eq_true hneg).symm,
          hflags.z.trans (decide_eq_false (by omega)).symm, hflags.c⟩
  · rw [signed_tdiv]
    by_cases hfit : m / n < 2 ^ k
    · rw [(hfits hfit).v]
      refine iff_of_false Bool.false_ne_true (not_not_intro ⟨?_, ?_⟩)
      · omega
      · omega
    · rw [(hover hfit).v]
      refine iff_of_true rfl ?_
      rintro ⟨hlo, hhi⟩
      omega

end

/-- The flags read off a stored quotient. -/
theorem storedFlags {w : Nat} (q : BitVec (w + 1)) :
    q.msb = decide (q.toInt < 0) ∧ (q == 0) = decide (q.toInt = 0) ∧
      q.getLsbD 0 = decide (q.toInt % 2 = 1) := by
  refine ⟨BitVec.msb_eq_toInt, ?_, ?_⟩
  · rw [Bool.eq_iff_iff, beq_iff_eq, decide_eq_true_eq]
    constructor
    · intro hq
      rw [hq]
      exact BitVec.toInt_zero
    · intro hq
      exact BitVec.eq_of_toInt_eq (hq.trans BitVec.toInt_zero.symm)
  · have hbit : q.getLsbD 0 = decide (q.toNat % 2 = 1) := by
      unfold BitVec.getLsbD
      rw [Nat.testBit_zero]
    have hpow : 2 ^ (w + 1) = 2 ^ w * 2 := Nat.pow_succ ..
    rw [hbit, BitVec.toInt_eq_toNat_cond]
    congr 1
    split
    · exact propext (by omega)
    · exact propext (by omega)

/-- A magnitude below the sign bit, with its sign. -/
theorem negate_toInt {w : Nat} {x : BitVec (w + 1)} (h : x.toNat < 2 ^ w) (neg : Bool) :
    (if neg then 0 - x else x).toInt = signed neg x.toNat := by
  have hpow : 2 ^ (w + 1) = 2 ^ w * 2 := Nat.pow_succ ..
  unfold signed
  cases neg with
  | false =>
    rw [if_neg Bool.false_ne_true, if_neg Bool.false_ne_true, BitVec.toInt_eq_toNat_cond,
      if_pos (by omega)]
  | true =>
    rw [if_pos rfl, if_pos rfl, zero_sub_eq, BitVec.toInt_eq_toNat_cond, BitVec.toNat_neg]
    rcases Nat.eq_zero_or_pos x.toNat with hzero | hpos
    · rw [hzero, Nat.sub_zero, Nat.mod_self, if_pos (by omega)]
      rfl
    · rw [Nat.mod_eq_of_lt (by omega), if_neg (by omega)]
      omega

/-! ## DIVD -/

def divdQuotient (v : Byte) (r : Regs) : Word := magnitude r.d / (magnitude v).setWidth 16

def divdRemainder (v : Byte) (r : Regs) : Byte :=
  (magnitude r.d % (magnitude v).setWidth 16).setWidth 8

/-- The quotient with its sign. -/
def divdSigned (v : Byte) (r : Regs) : Word :=
  restoreSign 7 (r.d.msb != v.msb) (divdQuotient v r)

theorem divdResult_eq (v : Byte) (r : Regs) : divdResult v r =
    if divdQuotient v r >>> 8 != 0 then
      ({ r with
          d := magnitude r.d
          cc := ccSet (flagV ||| flagIf flagN r.d.msb)
            (ccClr (flagN ||| flagZ ||| flagV ||| flagC) r.cc) },
        (r.d.msb.toNat + v.msb.toNat : Int) - 13)
    else
      let b : Byte := (divdSigned v r).setWidth 8
      let rem := divdRemainder v r
      let r' := ({ r with d := magnitude r.d }.setA (if r.d.msb then 0 - rem else rem)).setB b
      if (divdSigned v r).msb = b.msb then
        ({ r' with cc := updateNz8 b (divCc (b.getLsbD 0) r.cc) }, r.d.msb.toNat + v.msb.toNat)
      else
        ({ r' with cc := ccSet (flagN ||| flagV) (divCc (b.getLsbD 0) r.cc) },
          (r.d.msb.toNat + v.msb.toNat : Int) - 1) := by
  unfold divdResult
  simp only [sign16, sign8, (bit7 _).1, (bit7 _).2, low8, loByte, sameSign8, decide_eq_true_eq]
  rfl

theorem magnitude8_wide (v : Byte) : ((magnitude v).setWidth 16).toNat = (magnitude v).toNat := by
  have hlt := (magnitude v).isLt
  rw [BitVec.toNat_setWidth, Nat.mod_eq_of_lt (by omega)]

/-- The flags of a quotient in B. -/
theorem updateNz8_flags (b cc : Byte) :
    DivFlags (decide (b.toInt < 0)) (decide (b.toInt = 0)) false (decide (b.toInt % 2 = 1))
      (updateNz8 b (divCc (b.getLsbD 0) cc)) := by
  obtain ⟨hn, hz, hc⟩ := storedFlags b
  have hflags := divCc_nz b.msb (b == 0) (b.getLsbD 0) cc
  unfold updateNz8
  rw [sign8]
  rw [← hn, ← hz, ← hc]
  exact hflags

/-- The result of a division whose quotient has no more than eight bits. -/
theorem divdResult_narrow {v : Byte} {r : Regs} (h : (divdQuotient v r).toNat < 2 ^ 8) :
    (divdResult v r).1.b = (divdSigned v r).setWidth 8 ∧
      (divdResult v r).1.a = (if r.d.msb then 0 - divdRemainder v r else divdRemainder v r) ∧
      (divdResult v r).1.cc =
        if (divdSigned v r).msb = ((divdSigned v r).setWidth 8).msb then
          updateNz8 ((divdSigned v r).setWidth 8)
            (divCc (((divdSigned v r).setWidth 8).getLsbD 0) r.cc)
        else ccSet (flagN ||| flagV) (divCc (((divdSigned v r).setWidth 8).getLsbD 0) r.cc) := by
  have hshift : ¬(divdQuotient v r >>> 8 != 0) = true := by
    rw [bne_iff_ne, ne_eq, not_not, ← BitVec.toNat_inj, BitVec.toNat_ushiftRight,
      Nat.shiftRight_eq_div_pow]
    exact Nat.div_eq_of_lt h
  rw [divdResult_eq, if_neg hshift]
  dsimp only
  split
  · exact ⟨Regs.b_setB _ _, (Regs.a_setB _ _).trans (Regs.a_setA _ _), rfl⟩
  · exact ⟨Regs.b_setB _ _, (Regs.a_setB _ _).trans (Regs.a_setA _ _), rfl⟩

theorem divdResult_wide {v : Byte} {r : Regs} (h : 2 ^ 8 ≤ (divdQuotient v r).toNat) :
    ccTst flagV (divdResult v r).1.cc = true := by
  have hshift : (divdQuotient v r >>> 8 != 0) = true := by
    rw [bne_iff_ne, ne_eq, ← BitVec.toNat_inj, BitVec.toNat_ushiftRight,
      Nat.shiftRight_eq_div_pow]
    exact (Nat.div_pos h (Nat.two_pow_pos 8)).ne'
  rw [divdResult_eq, if_pos hshift]
  exact ccSet_flagV _ _

theorem divd_divided {v : Byte} (hv : v ≠ 0) (r : Regs) :
    Divided 7 r.d.toInt v.toInt (divdResult v r).1.b.toInt (divdResult v r).1.a.toInt
      (divdResult v r).1.cc := by
  have hpos := magnitude_pos hv
  have hvle : (magnitude v).toNat ≤ 2 ^ 7 := magnitude_le v
  have hmod := Nat.mod_lt (magnitude r.d).toNat hpos
  have hq : (divdQuotient v r).toNat = (magnitude r.d).toNat / (magnitude v).toNat := by
    unfold divdQuotient
    rw [BitVec.toNat_udiv, magnitude8_wide]
  have hr : (divdRemainder v r).toNat = (magnitude r.d).toNat % (magnitude v).toNat := by
    unfold divdRemainder
    rw [BitVec.toNat_setWidth, BitVec.toNat_umod, magnitude8_wide, Nat.mod_eq_of_lt (by omega)]
  rw [toInt_eq_signed r.d, toInt_eq_signed v]
  by_cases hwide : 2 ^ 8 ≤ (divdQuotient v r).toNat
  · exact .wide (hq ▸ hwide) (divdResult_wide hwide)
  · have hnarrow : (divdQuotient v r).toNat < 2 ^ 8 := Nat.lt_of_not_le hwide
    have hsame : (divdSigned v r).msb = ((divdSigned v r).setWidth 8).msb ↔
        (divdQuotient v r).toNat < 2 ^ 7 := restoreSign_msb (by decide) _ hnarrow
    have hvalue : (divdQuotient v r).toNat < 2 ^ 7 ∨
        (r.d.msb != v.msb) = true ∧ (divdQuotient v r).toNat = 2 ^ 7 →
        ((divdSigned v r).setWidth 8).toInt =
          signed (r.d.msb != v.msb) (divdQuotient v r).toNat := restoreSign_toInt (by decide)
    obtain ⟨hb, ha, hcc⟩ := divdResult_narrow hnarrow
    rw [hq] at hvalue hsame
    rw [hb, ha, hcc]
    refine .narrow hpos hvalue ?_ (fun hfit => ?_) (fun hover => ?_)
    · rw [negate_toInt (by omega), hr]
    · rw [if_pos (hsame.mpr hfit)]
      exact updateNz8_flags _ r.cc
    · rw [if_neg fun hmsb => hover (hsame.mp hmsb), ← (storedFlags _).2.2]
      exact divCc_overflow _ r.cc

/-! ## DIVQ -/

/-- Q: D and W as one register. -/
def quad (r : Regs) : BitVec 32 := r.d.setWidth 32 <<< 16 ||| r.w.setWidth 32

theorem quad_toNat (r : Regs) : (quad r).toNat = r.d.toNat * 65536 + r.w.toNat := by
  have hd := r.d.isLt
  have hw := r.w.isLt
  unfold quad
  have hlow : (r.w.setWidth 32).toNat = r.w.toNat := by
    rw [BitVec.toNat_setWidth, Nat.mod_eq_of_lt (by omega)]
  have hhigh : (r.d.setWidth 32 <<< 16).toNat = r.d.toNat <<< 16 := by
    have hwide : (r.d.setWidth 32).toNat = r.d.toNat := by
      rw [BitVec.toNat_setWidth, Nat.mod_eq_of_lt (by omega)]
    rw [BitVec.toNat_shiftLeft, hwide, Nat.mod_eq_of_lt]
    rw [Nat.shiftLeft_eq]
    omega
  rw [BitVec.toNat_or, hlow, hhigh, ← Nat.shiftLeft_add_eq_or_of_lt hw, Nat.shiftLeft_eq]

/-- As a signed number: the signed high word and the unsigned low word. -/
theorem quad_toInt (r : Regs) : (quad r).toInt = r.d.toInt * 65536 + r.w.toNat := by
  have hd := r.d.isLt
  have hw := r.w.isLt
  rw [BitVec.toInt_eq_toNat_cond, BitVec.toInt_eq_toNat_cond, quad_toNat]
  split
  · rw [if_pos (by omega)]
    omega
  · rw [if_neg (by omega)]
    omega

def divqQuotient (v : Word) (r : Regs) : BitVec 32 :=
  magnitude (quad r) / (magnitude v).setWidth 32

def divqRemainder (v : Word) (r : Regs) : Word :=
  (magnitude (quad r) % (magnitude v).setWidth 32).setWidth 16

def divqSigned (v : Word) (r : Regs) : BitVec 32 :=
  restoreSign 15 ((quad r).msb != v.msb) (divqQuotient v r)

theorem divqResult_eq (v : Word) (r : Regs) : divqResult v r =
    if divqQuotient v r >>> 16 != 0 then
      ({ r with
          d := (magnitude (quad r) >>> 16).setWidth 16
          w := (magnitude (quad r)).setWidth 16
          cc := ccSet (flagV ||| flagIf flagN (quad r).msb)
            (ccClr (flagN ||| flagZ ||| flagV ||| flagC) r.cc) },
        ((quad r).msb.toNat + v.msb.toNat : Int) - 21)
    else
      let w : Word := (divqSigned v r).setWidth 16
      let rem := divqRemainder v r
      let r' : Regs := { r with d := if (quad r).msb then 0 - rem else rem, w := w }
      if (divqSigned v r).msb = w.msb then
        ({ r' with cc := updateNz16 w (divCc (w.getLsbD 0) r.cc) },
          (quad r).msb.toNat + v.msb.toNat)
      else
        ({ r' with cc := ccSet (flagN ||| flagV) (divCc (w.getLsbD 0) r.cc) },
          (quad r).msb.toNat + v.msb.toNat) := by
  unfold divqResult
  simp only [sign32, sign16, (bit15 _).1, (bit15 _).2, low16, sameSign16, decide_eq_true_eq]
  rfl

/-- The result of a division whose quotient has no more than sixteen bits. -/
theorem divqResult_narrow {v : Word} {r : Regs} (h : (divqQuotient v r).toNat < 2 ^ 16) :
    (divqResult v r).1.w = (divqSigned v r).setWidth 16 ∧
      (divqResult v r).1.d = (if (quad r).msb then 0 - divqRemainder v r else divqRemainder v r) ∧
      (divqResult v r).1.cc =
        if (divqSigned v r).msb = ((divqSigned v r).setWidth 16).msb then
          updateNz16 ((divqSigned v r).setWidth 16)
            (divCc (((divqSigned v r).setWidth 16).getLsbD 0) r.cc)
        else ccSet (flagN ||| flagV) (divCc (((divqSigned v r).setWidth 16).getLsbD 0) r.cc) := by
  have hshift : ¬(divqQuotient v r >>> 16 != 0) = true := by
    rw [bne_iff_ne, ne_eq, not_not, ← BitVec.toNat_inj, BitVec.toNat_ushiftRight,
      Nat.shiftRight_eq_div_pow]
    exact Nat.div_eq_of_lt h
  rw [divqResult_eq, if_neg hshift]
  dsimp only
  split
  · exact ⟨rfl, rfl, rfl⟩
  · exact ⟨rfl, rfl, rfl⟩

theorem divqResult_wide {v : Word} {r : Regs} (h : 2 ^ 16 ≤ (divqQuotient v r).toNat) :
    ccTst flagV (divqResult v r).1.cc = true := by
  have hshift : (divqQuotient v r >>> 16 != 0) = true := by
    rw [bne_iff_ne, ne_eq, ← BitVec.toNat_inj, BitVec.toNat_ushiftRight,
      Nat.shiftRight_eq_div_pow]
    exact (Nat.div_pos h (Nat.two_pow_pos 16)).ne'
  rw [divqResult_eq, if_pos hshift]
  exact ccSet_flagV _ _

theorem magnitude16_wide (v : Word) :
    ((magnitude v).setWidth 32).toNat = (magnitude v).toNat := by
  have hlt := (magnitude v).isLt
  rw [BitVec.toNat_setWidth, Nat.mod_eq_of_lt (by omega)]

/-- The flags of a quotient in W. -/
theorem updateNz16_flags (w : Word) (cc : Byte) :
    DivFlags (decide (w.toInt < 0)) (decide (w.toInt = 0)) false (decide (w.toInt % 2 = 1))
      (updateNz16 w (divCc (w.getLsbD 0) cc)) := by
  obtain ⟨hn, hz, hc⟩ := storedFlags w
  have hflags := divCc_nz w.msb (w == 0) (w.getLsbD 0) cc
  unfold updateNz16
  rw [sign16, ← hn, ← hz, ← hc]
  exact hflags

theorem divq_divided {v : Word} (hv : v ≠ 0) (r : Regs) :
    Divided 15 (r.d.toInt * 65536 + r.w.toNat) v.toInt (divqResult v r).1.w.toInt
      (divqResult v r).1.d.toInt (divqResult v r).1.cc := by
  have hpos := magnitude_pos hv
  have hvle : (magnitude v).toNat ≤ 2 ^ 15 := magnitude_le v
  have hmod := Nat.mod_lt (magnitude (quad r)).toNat hpos
  have hq : (divqQuotient v r).toNat = (magnitude (quad r)).toNat / (magnitude v).toNat := by
    unfold divqQuotient
    rw [BitVec.toNat_udiv, magnitude16_wide]
  have hr : (divqRemainder v r).toNat = (magnitude (quad r)).toNat % (magnitude v).toNat := by
    unfold divqRemainder
    rw [BitVec.toNat_setWidth, BitVec.toNat_umod, magnitude16_wide, Nat.mod_eq_of_lt (by omega)]
  rw [← quad_toInt, toInt_eq_signed (quad r), toInt_eq_signed v]
  by_cases hwide : 2 ^ 16 ≤ (divqQuotient v r).toNat
  · exact .wide (hq ▸ hwide) (divqResult_wide hwide)
  · have hnarrow : (divqQuotient v r).toNat < 2 ^ 16 := Nat.lt_of_not_le hwide
    have hsame : (divqSigned v r).msb = ((divqSigned v r).setWidth 16).msb ↔
        (divqQuotient v r).toNat < 2 ^ 15 := restoreSign_msb (by decide) _ hnarrow
    have hvalue : (divqQuotient v r).toNat < 2 ^ 15 ∨
        ((quad r).msb != v.msb) = true ∧ (divqQuotient v r).toNat = 2 ^ 15 →
        ((divqSigned v r).setWidth 16).toInt =
          signed ((quad r).msb != v.msb) (divqQuotient v r).toNat := restoreSign_toInt (by decide)
    obtain ⟨hw, hd, hcc⟩ := divqResult_narrow hnarrow
    rw [hq] at hvalue hsame
    rw [hw, hd, hcc]
    refine .narrow hpos hvalue ?_ (fun hfit => ?_) (fun hover => ?_)
    · rw [negate_toInt (by omega), hr]
    · rw [if_pos (hsame.mpr hfit)]
      exact updateNz16_flags _ r.cc
    · rw [if_neg fun hmsb => hover (hsame.mp hmsb), ← (storedFlags _).2.2]
      exact divCc_overflow _ r.cc

/-! ## The instructions -/

section
variable {σ : Type} {bus : Bus σ}

/-- D, W, MD and the state of a block transfer. -/
def Accs (d w : Word) (md : Byte) (busy : Bool) (c : Core σ) : Prop :=
  c.regs.d = d ∧ c.regs.w = w ∧ c.regs.md = md ∧ c.tfm.busy = busy

variable {d w : Word} {md : Byte} {busy : Bool}

theorem memRead_accs (addr : Word) : Act.Keeps (Accs d w md busy) (memRead bus addr) := by
  intro c h
  unfold memRead
  cases bus.readSlot c.env.host addr with
  | some p => exact h
  | none => exact h

theorem memWrite_accs (addr : Word) (v : Byte) :
    Act.Keeps (Accs d w md busy) (memWrite bus addr v) := by
  intro c h
  unfold memWrite
  cases bus.writeSlot c.env.host addr with
  | some p => exact h
  | none => exact h

theorem setRegs_accs {g : Regs → Regs}
    (h : ∀ r, (g r).d = r.d ∧ (g r).w = r.w ∧ (g r).md = r.md) :
    Act.Keeps (Accs d w md busy) (setRegs g : M σ Unit) := by
  intro c hc
  obtain ⟨hd, hw, hmd⟩ := h c.regs
  exact ⟨hd.trans hc.1, hw.trans hc.2.1, hmd.trans hc.2.2.1, hc.2.2.2⟩

theorem regs_accs : Act.Keeps (Accs d w md busy) (regs : M σ Regs) := .gets _

theorem tick_accs (n : Cycles) : Act.Keeps (Accs d w md busy) (tick n : M σ Unit) := .emit _

theorem fetch8_accs : Act.Keeps (Accs d w md busy) (fetch8 bus) :=
  .bind regs_accs fun _ => .bind (setRegs_accs fun _ => ⟨rfl, rfl, rfl⟩) fun _ => memRead_accs _

theorem fetch16_accs : Act.Keeps (Accs d w md busy) (fetch16 bus) :=
  .bind fetch8_accs fun _ => .bind fetch8_accs fun _ => .pure _

theorem memRead16_accs (addr : Word) : Act.Keeps (Accs d w md busy) (memRead16 bus addr) :=
  .bind (memRead_accs _) fun _ => .bind (memRead_accs _) fun _ => .pure _

theorem push8_accs (st : Stack) (v : Byte) : Act.Keeps (Accs d w md busy) (push8 bus st v) := by
  refine .bind (setRegs_accs fun r => ?_) fun _ => .bind regs_accs fun _ => memWrite_accs _ _
  cases st <;> exact ⟨rfl, rfl, rfl⟩

theorem push16_accs (st : Stack) (v : Word) : Act.Keeps (Accs d w md busy) (push16 bus st v) :=
  .bind (push8_accs st _) fun _ => push8_accs st _

theorem pushEntire_accs (b : Build) : Act.Keeps (Accs d w md busy) (pushEntire bus b) := by
  have hef : Act.Keeps (Accs d w md busy) (pushEf bus b) :=
    .bind regs_accs fun _ => .guarded <|
      .bind (push8_accs .s _) fun _ => .bind (push8_accs .s _) fun _ => tick_accs _
  exact .bind regs_accs fun _ =>
    .bind (push16_accs .s _) fun _ => .bind (push16_accs .s _) fun _ =>
    .bind (push16_accs .s _) fun _ => .bind (push16_accs .s _) fun _ =>
    .bind (push8_accs .s _) fun _ => .bind hef fun _ =>
    .bind (push8_accs .s _) fun _ => .bind (push8_accs .s _) fun _ => push8_accs .s _

theorem setCc_accs (m : Byte) : Act.Keeps (Accs d w md busy) (setCc m : M σ Unit) :=
  setRegs_accs fun _ => ⟨rfl, rfl, rfl⟩

theorem softwareInterrupt_accs (b : Build) (mask : Byte) (vec : Word) (n : Cycles) :
    Act.Keeps (Accs d w md busy) (softwareInterrupt bus b mask vec n) :=
  .bind (setCc_accs _) fun _ => .bind (pushEntire_accs b) fun _ => .bind (setCc_accs _) fun _ =>
    .bind (memRead16_accs _) fun _ => .bind (setRegs_accs fun _ => ⟨rfl, rfl, rfl⟩) fun _ =>
    tick_accs _

/-- The trap sets its bit of MD and abandons a block transfer; D and W stay. -/
theorem hd6309Trap_accs (mdBit : Byte) (c : Core σ) :
    Accs c.regs.d c.regs.w (c.regs.md ||| mdBit) false (hd6309Trap bus mdBit c).st := by
  unfold hd6309Trap
  rw [Act.bind_st, Act.bind_st]
  apply softwareInterrupt_accs
  exact ⟨rfl, rfl, rfl, rfl⟩

/-- A division by a divisor other than zero stores the result. -/
theorem divide_nonzero {n : Nat} {operand : M σ (BitVec n)}
    {result : BitVec n → Regs → Regs × Int} {base zero : Int} {c : Core σ}
    (h : (operand c).val ≠ 0) :
    (divide bus operand result base zero c).st.regs =
      (result (operand c).val (operand c).st.regs).1 := by
  unfold divide
  rw [Act.bind_st, if_neg h]
  rfl

/-- A division by zero traps, with N and V clear and Z set. -/
theorem divide_zero {n : Nat} {operand : M σ (BitVec n)}
    {result : BitVec n → Regs → Regs × Int} {base zero : Int} {c : Core σ}
    (h : (operand c).val = 0) :
    (divide bus operand result base zero c).st =
      (hd6309Trap bus 0x80 { (operand c).st with
        regs := (operand c).st.regs.mapCc fun cc => ccSet flagZ (ccClr (flagN ||| flagV) cc) }).st := by
  unfold divide
  rw [Act.bind_st, if_pos h]
  rfl

theorem divide_zero_accs {n : Nat} {operand : M σ (BitVec n)}
    {result : BitVec n → Regs → Regs × Int} {base zero : Int} {c : Core σ}
    (h : (operand c).val = 0) :
    Accs (operand c).st.regs.d (operand c).st.regs.w ((operand c).st.regs.md ||| 0x80) false
      (divide bus operand result base zero c).st := by
  rw [divide_zero h]
  exact hd6309Trap_accs 0x80 { (operand c).st with
    regs := (operand c).st.regs.mapCc fun cc => ccSet flagZ (ccClr (flagN ||| flagV) cc) }

/-! ## Operands -/

/-- The index registers are X, Y, U and S. -/
theorem idxReg_put (postbyte : Byte) (v : Word) (r : Regs) :
    ((idxReg postbyte).put v r).d = r.d ∧ ((idxReg postbyte).put v r).w = r.w ∧
      ((idxReg postbyte).put v r).md = r.md := by
  unfold idxReg
  split <;> exact ⟨rfl, rfl, rfl⟩

theorem indexedPlus_accs (reg : Reg16) (offset : Regs → Word) (ind : Bool) (m n : Cycles) :
    Act.Keeps (Accs d w md busy) (indexedPlus reg offset ind m n : M σ Word) :=
  .bind regs_accs fun _ => .bind (tick_accs _) fun _ => .pure _

theorem indexedMode_accs (postbyte : Byte) (mode : Nat) (ind : Bool) :
    Act.Keeps (Accs d w md busy) (indexedMode bus .hd6309 (idxReg postbyte) mode ind) := by
  unfold indexedMode
  split
  · exact .bind regs_accs fun _ => .bind (setRegs_accs fun _ => idxReg_put _ _ _) fun _ =>
      .bind (tick_accs _) fun _ => .pure _
  · exact .bind regs_accs fun _ => .bind (setRegs_accs fun _ => idxReg_put _ _ _) fun _ =>
      .bind (tick_accs _) fun _ => .pure _
  · exact .bind (setRegs_accs fun _ => idxReg_put _ _ _) fun _ => .bind regs_accs fun _ =>
      .bind (tick_accs _) fun _ => .pure _
  · exact .bind (setRegs_accs fun _ => idxReg_put _ _ _) fun _ => .bind regs_accs fun _ =>
      .bind (tick_accs _) fun _ => .pure _
  · exact indexedPlus_accs _ _ _ _ _
  · exact indexedPlus_accs _ _ _ _ _
  · exact indexedPlus_accs _ _ _ _ _
  · exact indexedPlus_accs _ _ _ _ _
  · exact .bind fetch8_accs fun _ => indexedPlus_accs _ _ _ _ _
  · exact .bind fetch16_accs fun _ => indexedPlus_accs _ _ _ _ _
  · exact indexedPlus_accs _ _ _ _ _
  · exact indexedPlus_accs _ _ _ _ _
  · exact .bind fetch8_accs fun _ => .bind regs_accs fun _ => .bind (tick_accs _) fun _ => .pure _
  · exact .bind fetch16_accs fun _ => .bind regs_accs fun _ => .bind (tick_accs _) fun _ => .pure _
  · exact indexedPlus_accs _ _ _ _ _
  · split
    · exact .bind fetch16_accs fun _ => .bind (tick_accs _) fun _ => .pure _
    · exact indexedPlus_accs _ _ _ _ _

/-- Does the operand's address step W?  Only the postbytes that index by W do. -/
def StepsW (bus : Bus σ) (m : Mode) (c : Core σ) : Prop :=
  m = .indexed ∧ isIndexedW (fetch8 bus c).val = true

theorem addrIndexed_accs {c : Core σ} (hw : isIndexedW (fetch8 bus c).val = false)
    (h : Accs d w md busy c) : Accs d w md busy (addrIndexed bus .hd6309 c).st := by
  have hfetch := @fetch8_accs σ bus d w md busy c h
  have hsave : Act.Keeps (Accs d w md busy)
      (indexedSave .hd6309 ((fetch8 bus c).val &&& 0x0F).toNat : M σ Unit) :=
    .bind regs_accs fun _ => .guarded (tick_accs _)
  unfold addrIndexed
  rw [Act.bind_st]
  unfold addrIndexedAt
  rw [hw]
  split
  · exact hfetch
  · refine Act.Keeps.bind hsave (fun _ => .bind (indexedMode_accs _ _ _) fun _ => ?_) _ hfetch
    split
    · exact memRead16_accs _
    · exact .pure _

theorem effAddr_accs {m : Mode} {c : Core σ} (hw : ¬StepsW bus m c) (h : Accs d w md busy c) :
    Accs d w md busy (effAddr bus .hd6309 m c).st := by
  cases m with
  | imm => exact fetch16_accs c h
  | direct => exact Act.Keeps.bind regs_accs (fun _ => .bind fetch8_accs fun _ => .pure _) c h
  | indexed => exact addrIndexed_accs (by simpa [StepsW] using hw) h
  | extended => exact fetch16_accs c h

theorem operand8_accs {m : Mode} {c : Core σ} (hw : ¬StepsW bus m c) (h : Accs d w md busy c) :
    Accs d w md busy (operand8 bus .hd6309 m c).st := by
  unfold operand8
  split
  · exact fetch8_accs c h
  · exact memRead_accs _ _ (effAddr_accs hw h)

theorem operand16_accs {m : Mode} {c : Core σ} (hw : ¬StepsW bus m c) (h : Accs d w md busy c) :
    Accs d w md busy (operand16 bus .hd6309 m c).st := by
  unfold operand16
  split
  · exact fetch16_accs c h
  · exact memRead16_accs _ _ (effAddr_accs hw h)

/-! ## The result -/

/-- What a division by zero does: D and W stay as the operand found them, and the trap is
taken, with the bit for it set in MD. -/
structure TrapsByZero (bus : Bus σ) (found c' : Core σ) : Prop where
  d : c'.regs.d = found.regs.d
  w : c'.regs.w = found.regs.w
  md : c'.regs.md = found.regs.md ||| 0x80
  trap : c' = (hd6309Trap bus 0x80 { found with
    regs := found.regs.mapCc fun cc => ccSet flagZ (ccClr (flagN ||| flagV) cc) }).st

theorem divide_traps {n : Nat} {operand : M σ (BitVec n)}
    {result : BitVec n → Regs → Regs × Int} {base zero : Int} {c : Core σ}
    (h : (operand c).val = 0) :
    TrapsByZero bus (operand c).st (divide bus operand result base zero c).st := by
  obtain ⟨hd, hw, hmd, _⟩ := @divide_zero_accs σ bus n operand result base zero c h
  exact ⟨hd, hw, hmd, divide_zero h⟩

/-- DIVD and DIVQ truncate, from any state and with any operand, and a zero divisor traps.  The
dividend is read once the operand is there; D and W are then as before, unless the address mode
steps W. -/
theorem division_truncates (bus : Bus σ) (insnPc : Word) (m : Mode) (c : Core σ) :
    let o := operand8 bus .hd6309 m c
    let q := operand16 bus .hd6309 m c
    let divd := (hd6309Exec bus insnPc (.divd m) c).st
    let divq := (hd6309Exec bus insnPc (.divq m) c).st
    (o.val ≠ 0 →
      Divided 7 o.st.regs.d.toInt o.val.toInt divd.regs.b.toInt divd.regs.a.toInt divd.regs.cc) ∧
    (q.val ≠ 0 →
      Divided 15 (q.st.regs.d.toInt * 65536 + q.st.regs.w.toNat) q.val.toInt divq.regs.w.toInt
        divq.regs.d.toInt divq.regs.cc) ∧
    (o.val = 0 → TrapsByZero bus o.st divd) ∧ (q.val = 0 → TrapsByZero bus q.st divq) ∧
    (¬StepsW bus m c → o.st.regs.d = c.regs.d ∧ o.st.regs.w = c.regs.w ∧
      q.st.regs.d = c.regs.d ∧ q.st.regs.w = c.regs.w) := by
  intro o q divd divq
  refine ⟨fun hv => ?_, fun hv => ?_, fun hv => divide_traps hv, fun hv => divide_traps hv,
    fun hw => ?_⟩
  · have hregs : divd.regs = (divdResult o.val o.st.regs).1 := divide_nonzero hv
    rw [hregs]
    exact divd_divided hv o.st.regs
  · have hregs : divq.regs = (divqResult q.val q.st.regs).1 := divide_nonzero hv
    rw [hregs]
    exact divq_divided hv q.st.regs
  · have h : Accs c.regs.d c.regs.w c.regs.md c.tfm.busy c := ⟨rfl, rfl, rfl, rfl⟩
    obtain ⟨hd, hw8, _, _⟩ := operand8_accs hw h
    obtain ⟨hd', hw16, _, _⟩ := operand16_accs hw h
    exact ⟨hd, hw8, hd', hw16⟩

end

/-- -128 divided by 1: the quotient fits B and is stored, and V is set. -/
theorem divd_least_overflows :
    let c : Core Unit := ⟨{ d := 0xFF80 }, {}, ⟨{}, ()⟩⟩
    let divd := (hd6309Exec (romBus 0xFE00 fun _ => 1) 0 (.divd .imm) c).st
    c.regs.d.toInt.tdiv (operand8 (romBus 0xFE00 fun _ => 1) .hd6309 .imm c).val.toInt = -128 ∧
      divd.regs.b.toInt = -128 ∧ ccTst flagV divd.regs.cc = true := by
  intro c divd
  exact ⟨by decide, by decide, by decide⟩

end CocoEmulator.Cpu
