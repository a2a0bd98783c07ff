/-
  Audio/LineAverage.lean --- one sound sample per scanline, the level averaged over it.

  The level is piecewise constant.  Every change adds the time since the last one to a
  sum, and the end of the line divides.  A position of zero doubles as "no change yet",
  a level that does not change is dropped, and a position at or before the last one
  adds no time.

      noteAll_area           the sum and what is left of the line make its area
      noteAll_between        at any positions the sum stays between the extreme levels
      line_average_exact     the sample is the average, rounded

  The sum has 32 bits: `Fits` is the length of line that it holds.

  Source: audio_capture.h.
-/
import CocoEmulator.Audio.AudioFeed
import Mathlib.Algebra.BigOperators.Intervals

set_option autoImplicit false

namespace CocoEmulator.Audio

abbrev Count : Type := BitVec 32

/-- `AudioLineAverage` -/
structure AudioLineAverage where
  level : Byte
  sum : Count := 0
  at' : Count := 0
deriving DecidableEq, Repr

namespace AudioLineAverage

variable (a : AudioLineAverage)

/-- `audio_line_note` -/
def note (level : Byte) (cycle : Count) : AudioLineAverage :=
  if level = a.level then a
  else
    let a := if a.at' < cycle then
        { a with sum := a.sum + a.level.setWidth 32 * (cycle - a.at'), at' := cycle }
      else a
    { a with level }

/-- The end of the line, which is not before the last change. -/
def lineEnd (lineCycles : Count) : Count := if a.at' < lineCycles then lineCycles else a.at'

/-- `audio_line_take`: the sample, and the start of the next line. -/
def take (lineCycles : Count) : Byte × AudioLineAverage :=
  if a.at' = 0 then (a.level, a)
  else
    let lineEnd := a.lineEnd lineCycles
    let sum := a.sum + a.level.setWidth 32 * (lineEnd - a.at')
    (((sum + lineEnd / 2) / lineEnd).setWidth 8, { a with sum := 0, at' := 0 })

/-- The changes of a line, in the order they are made. -/
def noteAll (notes : List (Byte × Count)) : AudioLineAverage :=
  notes.foldl (fun a n => a.note n.1 n.2) a

end AudioLineAverage

/-! ## The piecewise constant level -/

/-- The level in cycle `t` of a line. -/
def levelAt (level : Byte) (notes : List (Byte × Count)) (t : Nat) : Byte :=
  notes.foldl (fun l n => if n.2.toNat ≤ t then n.1 else l) level

/-- The area under it from cycle `k` to the end of a line. -/
def areaFrom (k : Nat) (level : Byte) (notes : List (Byte × Count)) (lineCycles : Nat) : Nat :=
  ∑ t ∈ Finset.Ico k lineCycles, (levelAt level notes t).toNat

/-- The quotient, rounded to the nearest, halves up. -/
def rounded (n d : Nat) : Nat := (2 * n + d) / (2 * d)

/-- A position that the sum can hold. -/
def Fits (c : Count) : Prop := 255 * c.toNat + c.toNat / 2 < 0x100000000

instance : DecidablePred Fits := fun _ => inferInstanceAs (Decidable (_ < _))

/-- Positions in order, from `k` on and not past `lineCycles`. -/
def InOrder (lineCycles : Nat) : Nat → List (Byte × Count) → Prop
  | k, [] => k ≤ lineCycles
  | k, n :: notes => k ≤ n.2.toNat ∧ InOrder lineCycles n.2.toNat notes

instance InOrder.decidable (lineCycles : Nat) :
    (k : Nat) → (notes : List (Byte × Count)) → Decidable (InOrder lineCycles k notes)
  | _, [] => inferInstanceAs (Decidable (_ ≤ _))
  | k, n :: notes =>
    @instDecidableAnd _ _ (Nat.decLe k n.2.toNat) (InOrder.decidable lineCycles n.2.toNat notes)

section

variable {level : Byte} {notes : List (Byte × Count)} {lineCycles k : Nat}

theorem InOrder.le (h : InOrder lineCycles k notes) : k ≤ lineCycles := by
  induction notes generalizing k with
  | nil => exact h
  | cons n notes ih => exact Nat.le_trans h.1 (ih h.2)

/-- Before the first change the level is the one the line starts with. -/
theorem levelAt_before (h : InOrder lineCycles k notes) {t : Nat} (ht : t < k) :
    levelAt level notes t = level := by
  induction notes generalizing k level with
  | nil => rfl
  | cons n notes ih =>
    unfold levelAt
    rw [List.foldl_cons, if_neg (by have := h.1; omega)]
    exact ih h.2 (Nat.lt_of_lt_of_le ht h.1)

/-- A change splits the area. -/
theorem areaFrom_cons (v : Byte) {c : Count}
    (h : InOrder lineCycles k ((v, c) :: notes)) :
    areaFrom k level ((v, c) :: notes) lineCycles =
      level.toNat * (c.toNat - k) + areaFrom c.toNat v notes lineCycles := by
  obtain ⟨hk, hrest⟩ := h
  have hstep (t : Nat) : levelAt level ((v, c) :: notes) t =
      levelAt (if c.toNat ≤ t then v else level) notes t := rfl
  unfold areaFrom
  rw [← Finset.sum_Ico_consecutive _ hk hrest.le]
  congr 1
  · have hconst : ∀ t ∈ Finset.Ico k c.toNat,
        (levelAt level ((v, c) :: notes) t).toNat = level.toNat := by
      intro t ht
      have hlt := (Finset.mem_Ico.mp ht).2
      rw [hstep, if_neg (by omega), levelAt_before hrest hlt]
    rw [Finset.sum_const_nat hconst, Nat.card_Ico, Nat.mul_comm]
  · apply Finset.sum_congr rfl
    intro t ht
    have hge := (Finset.mem_Ico.mp ht).1
    rw [hstep, if_pos hge]

end

/-! ## What a line keeps -/

namespace AudioLineAverage

variable {a : AudioLineAverage}

/-- The sum covers the line up to `at'` and no more, at a level below 256. -/
structure Covers (a : AudioLineAverage) : Prop where
  sum_le : a.sum.toNat ≤ 255 * a.at'.toNat
  fits : Fits a.at'

/-- Neither product nor sum wraps. -/
theorem Covers.extend (ha : a.Covers) {c : Count} (hc : Fits c) (hlt : a.at'.toNat ≤ c.toNat) :
    (a.sum + a.level.setWidth 32 * (c - a.at')).toNat =
      a.sum.toNat + a.level.toNat * (c.toNat - a.at'.toNat) := by
  have hlevel : a.level.toNat ≤ 255 := by have := a.level.isLt; omega
  have hprod : a.level.toNat * (c.toNat - a.at'.toNat) ≤ 255 * (c.toNat - a.at'.toNat) :=
    Nat.mul_le_mul_right _ hlevel
  have hsum := ha.sum_le
  have hsub : (c - a.at').toNat = c.toNat - a.at'.toNat :=
    BitVec.toNat_sub_of_le (BitVec.le_def.mpr hlt)
  unfold Fits at hc
  rw [BitVec.toNat_add, BitVec.toNat_mul, hsub, BitVec.toNat_setWidth,
    Nat.mod_eq_of_lt (show a.level.toNat < 0x100000000 by omega),
    Nat.mod_eq_of_lt (show a.level.toNat * (c.toNat - a.at'.toNat) < 0x100000000 by omega),
    Nat.mod_eq_of_lt (by omega)]

/-- A change that is dropped and one that is not are the same to the sum and the level. -/
theorem note_spec (ha : a.Covers) {v : Byte} {c : Count} (hc : Fits c) :
    (a.note v c).level = v ∧ (a.note v c).Covers ∧
      (a.note v c).at'.toNat ≤ max a.at'.toNat c.toNat ∧
      ∃ d, (a.note v c).at'.toNat = a.at'.toNat + d ∧
        (a.note v c).sum.toNat = a.sum.toNat + a.level.toNat * d := by
  unfold note
  split
  next heq => exact ⟨heq.symm, ha, Nat.le_max_left _ _, 0, rfl, rfl⟩
  next =>
    split
    next hlt =>
      have hle : a.at'.toNat ≤ c.toNat := Nat.le_of_lt (BitVec.lt_def.mp hlt)
      have hsum := ha.extend hc hle
      have hprod : a.level.toNat * (c.toNat - a.at'.toNat) ≤ 255 * (c.toNat - a.at'.toNat) :=
        Nat.mul_le_mul_right _ (by have := a.level.isLt; omega)
      refine ⟨rfl, ⟨?_, hc⟩, Nat.le_max_right _ _, c.toNat - a.at'.toNat, ?_, hsum⟩
      · have := ha.sum_le
        simp only [hsum]
        omega
      · exact (Nat.add_sub_cancel' hle).symm
    next => exact ⟨rfl, ⟨ha.sum_le, ha.fits⟩, Nat.le_max_left _ _, 0, rfl, rfl⟩

theorem eq_start (hsum : a.sum = 0) (hat : a.at' = 0) : a = { level := a.level } := by
  obtain ⟨level, sum, at'⟩ := a
  subst hsum hat
  rfl

/-- From its position on, a change leaves the area as it was. -/
theorem note_area (ha : a.Covers) {v : Byte} {c : Count} (hc : Fits c)
    (hle : a.at'.toNat ≤ c.toNat) :
    (a.note v c).sum.toNat + v.toNat * (c.toNat - (a.note v c).at'.toNat) =
      a.sum.toNat + a.level.toNat * (c.toNat - a.at'.toNat) := by
  unfold note
  split
  next heq => rw [heq]
  next =>
    split
    next => simp only [ha.extend hc hle, Nat.sub_self, Nat.mul_zero, Nat.add_zero]
    next hge =>
      have heq : c.toNat - a.at'.toNat = 0 := by
        have := mt BitVec.lt_def.mpr hge
        omega
      simp only [heq, Nat.mul_zero]

/-- The positions of a line fit the sum. -/
def NotesFit (notes : List (Byte × Count)) : Prop := ∀ n ∈ notes, Fits n.2

instance : DecidablePred NotesFit := fun notes => List.decidableBAll _ notes

/-- The levels of a line lie between `lo` and `hi`. -/
def LevelsIn (lo hi : Nat) (notes : List (Byte × Count)) : Prop :=
  ∀ n ∈ notes, lo ≤ n.1.toNat ∧ n.1.toNat ≤ hi

instance (lo hi : Nat) : DecidablePred (LevelsIn lo hi) := fun notes => List.decidableBAll _ notes

theorem noteAll_covers {notes : List (Byte × Count)} (ha : a.Covers) (hfit : NotesFit notes) :
    (a.noteAll notes).Covers := by
  induction notes generalizing a with
  | nil => exact ha
  | cons n notes ih =>
    have hn := note_spec ha (v := n.1) (hfit n List.mem_cons_self)
    exact ih hn.2.1 (fun m hm => hfit m (List.mem_cons_of_mem n hm))

@[simp] theorem note_level (v : Byte) (c : Count) : (a.note v c).level = v := by
  unfold note
  split
  next heq => exact heq.symm
  next => rfl

/-- The level is the last one noted. -/
theorem noteAll_level (notes : List (Byte × Count)) :
    (a.noteAll notes).level = (notes.getLast?.map Prod.fst).getD a.level := by
  rcases List.eq_nil_or_concat notes with rfl | ⟨rest, n, rfl⟩
  · rfl
  · simp [noteAll]

/-- Changes in order: the sum and what is left of the line make its area. -/
theorem noteAll_area {notes : List (Byte × Count)} {lineCycles k : Nat} (ha : a.Covers)
    (hfit : NotesFit notes) (hk : a.at'.toNat ≤ k) (hord : InOrder lineCycles k notes) :
    (a.noteAll notes).at'.toNat ≤ lineCycles ∧
      (a.noteAll notes).sum.toNat +
          (a.noteAll notes).level.toNat * (lineCycles - (a.noteAll notes).at'.toNat) =
        a.sum.toNat + a.level.toNat * (k - a.at'.toNat) + areaFrom k a.level notes lineCycles := by
  induction notes generalizing a k with
  | nil =>
    have hkl : k ≤ lineCycles := hord
    refine ⟨Nat.le_trans hk hkl, ?_⟩
    have hconst : areaFrom k a.level [] lineCycles = a.level.toNat * (lineCycles - k) := by
      have hlevel : ∀ t ∈ Finset.Ico k lineCycles, (levelAt a.level [] t).toNat = a.level.toNat :=
        fun _ _ => rfl
      unfold areaFrom
      rw [Finset.sum_const_nat hlevel, Nat.card_Ico, Nat.mul_comm]
    rw [hconst, Nat.add_assoc, ← Nat.mul_add]
    have hsplit : k - a.at'.toNat + (lineCycles - k) = lineCycles - a.at'.toNat := by omega
    rw [hsplit]
    rfl
  | cons n notes ih =>
    obtain ⟨v, c⟩ := n
    have hc : Fits c := hfit (v, c) List.mem_cons_self
    have hkc : k ≤ c.toNat := hord.1
    obtain ⟨hlevel, hcovers, hat, -⟩ := note_spec ha (v := v) hc
    have hat' : (a.note v c).at'.toNat ≤ c.toNat := by omega
    obtain ⟨hend, harea⟩ :=
      ih hcovers (fun m hm => hfit m (List.mem_cons_of_mem _ hm)) hat' hord.2
    refine ⟨hend, ?_⟩
    rw [hlevel, note_area ha hc (Nat.le_trans hk hkc)] at harea
    have hsplit : a.level.toNat * (c.toNat - a.at'.toNat) =
        a.level.toNat * (k - a.at'.toNat) + a.level.toNat * (c.toNat - k) := by
      rw [← Nat.mul_add]
      congr 1
      omega
    rw [areaFrom_cons v hord]
    rw [hsplit] at harea
    exact harea.trans (by omega)

/-- At any positions the sum stays between the extreme levels. -/
theorem noteAll_between {notes : List (Byte × Count)} {lo hi : Nat} (ha : a.Covers)
    (hfit : NotesFit notes) (hlevel : lo ≤ a.level.toNat ∧ a.level.toNat ≤ hi)
    (hsum : lo * a.at'.toNat ≤ a.sum.toNat ∧ a.sum.toNat ≤ hi * a.at'.toNat)
    (hnotes : LevelsIn lo hi notes) :
    (lo ≤ (a.noteAll notes).level.toNat ∧ (a.noteAll notes).level.toNat ≤ hi) ∧
      lo * (a.noteAll notes).at'.toNat ≤ (a.noteAll notes).sum.toNat ∧
      (a.noteAll notes).sum.toNat ≤ hi * (a.noteAll notes).at'.toNat := by
  induction notes generalizing a with
  | nil => exact ⟨hlevel, hsum⟩
  | cons n notes ih =>
    obtain ⟨v, c⟩ := n
    obtain ⟨hv, hcovers, -, d, hat, hsum'⟩ :=
      note_spec ha (v := v) (hfit (v, c) List.mem_cons_self)
    have hlo : lo * d ≤ a.level.toNat * d := Nat.mul_le_mul_right d hlevel.1
    have hhi : a.level.toNat * d ≤ hi * d := Nat.mul_le_mul_right d hlevel.2
    apply ih hcovers (fun m hm => hfit m (List.mem_cons_of_mem _ hm))
    · rw [hv]
      exact hnotes (v, c) List.mem_cons_self
    · rw [hat, hsum', Nat.mul_add, Nat.mul_add]
      omega
    · exact fun m hm => hnotes m (List.mem_cons_of_mem _ hm)

/-! ## The sample -/

theorem rounded_eq (n d : Nat) : (n + d / 2) / d = rounded n d := by
  have hhalf : (2 * n + d) / 2 = n + d / 2 := by omega
  unfold rounded
  rw [← Nat.div_div_eq_div_mul, hhalf]

theorem rounded_const (v : Nat) {d : Nat} (hd : 0 < d) : rounded (v * d) d = v := by
  rw [← rounded_eq, Nat.mul_comm, Nat.mul_add_div hd, Nat.div_eq_of_lt (by omega), Nat.add_zero]

/-- A sum between two levels rounds to a level between them. -/
theorem rounded_between {n d lo hi : Nat} (hd : 0 < d) (hlo : lo * d ≤ n) (hhi : n ≤ hi * d) :
    lo ≤ rounded n d ∧ rounded n d ≤ hi := by
  rw [← rounded_eq]
  refine ⟨(Nat.le_div_iff_mul_le hd).mpr (by omega), Nat.lt_succ_iff.mp ?_⟩
  rw [Nat.div_lt_iff_lt_mul hd, Nat.succ_mul]
  omega

theorem lineEnd_toNat (L : Count) : (a.lineEnd L).toNat = max a.at'.toNat L.toNat := by
  unfold lineEnd
  split
  next h => have := BitVec.lt_def.mp h; omega
  next h => have := mt BitVec.lt_def.mpr h; omega

/-- A line with a change in it: the quotient, and the next line starts from zero. -/
theorem take_spec (ha : a.Covers) {L : Count} (hL : Fits L) (hat : a.at' ≠ 0) :
    0 < (a.lineEnd L).toNat ∧
      (a.take L).1.toNat = rounded (a.sum.toNat +
        a.level.toNat * ((a.lineEnd L).toNat - a.at'.toNat)) (a.lineEnd L).toNat ∧
      (a.take L).2 = { level := a.level } := by
  have hpos : 0 < a.at'.toNat := by
    rcases Nat.eq_zero_or_pos a.at'.toNat with h | h
    · exact absurd (BitVec.eq_of_toNat_eq h) hat
    · exact h
  have hend : (a.lineEnd L).toNat = max a.at'.toNat L.toNat := lineEnd_toNat L
  have hfit : Fits (a.lineEnd L) := by
    unfold lineEnd
    split
    · exact hL
    · exact ha.fits
  have hle : a.at'.toNat ≤ (a.lineEnd L).toNat := by omega
  have hsum := ha.extend hfit hle
  have hprod : a.level.toNat * ((a.lineEnd L).toNat - a.at'.toNat) ≤
      255 * ((a.lineEnd L).toNat - a.at'.toNat) :=
    Nat.mul_le_mul_right _ (by have := a.level.isLt; omega)
  have hcov := ha.sum_le
  have hbound := hfit
  unfold Fits at hbound
  have hround : ((a.sum + a.level.setWidth 32 * (a.lineEnd L - a.at') + a.lineEnd L / 2) /
      a.lineEnd L).toNat = rounded (a.sum.toNat +
        a.level.toNat * ((a.lineEnd L).toNat - a.at'.toNat)) (a.lineEnd L).toNat := by
    rw [BitVec.toNat_udiv, BitVec.toNat_add, hsum, BitVec.toNat_udiv,
      show (2 : Count).toNat = 2 from rfl, Nat.mod_eq_of_lt (by omega), ← rounded_eq]
  have hbyte : rounded (a.sum.toNat + a.level.toNat * ((a.lineEnd L).toNat - a.at'.toNat))
      (a.lineEnd L).toNat ≤ 255 :=
    (@rounded_between _ _ 0 255 (by omega) (by omega) (by omega)).2
  unfold take
  rw [if_neg hat]
  refine ⟨by omega, ?_, rfl⟩
  simp only [BitVec.toNat_setWidth, hround]
  omega

end AudioLineAverage

open AudioLineAverage in
/-- The sample of a line is the average of its levels, rounded, when the changes come in
order; at any positions it lies between the extreme levels and the division is defined.
The next line starts at the last level with nothing summed. -/
theorem line_average_exact (level : Byte) (notes : List (Byte × Count)) (lineCycles : Count)
    (hL : Fits lineCycles) (hfit : NotesFit notes) :
    let a := noteAll { level } notes
    let sample := (a.take lineCycles).1.toNat
    (InOrder lineCycles.toNat 0 notes → lineCycles ≠ 0 →
        sample = rounded (areaFrom 0 level notes lineCycles.toNat) lineCycles.toNat) ∧
      (∀ lo hi : Nat, lo ≤ level.toNat ∧ level.toNat ≤ hi → LevelsIn lo hi notes →
        lo ≤ sample ∧ sample ≤ hi) ∧
      (a.at' ≠ 0 → a.lineEnd lineCycles ≠ 0) ∧
      (a.take lineCycles).2 = { level := (notes.getLast?.map Prod.fst).getD level } := by
  intro a sample
  have hstart : Covers { level } := ⟨Nat.zero_le _, show Fits 0 by decide⟩
  have hcovers : a.Covers := noteAll_covers hstart hfit
  have hzero : a.at' = 0 → a.sum.toNat = 0 := by
    intro hat
    have := hcovers.sum_le
    rw [hat] at this
    exact Nat.le_zero.mp this
  have hlevel : a.level = (notes.getLast?.map Prod.fst).getD level := noteAll_level notes
  refine ⟨?_, ?_, ?_, ?_⟩
  · intro hord hne
    have hpos : 0 < lineCycles.toNat := by
      rcases Nat.eq_zero_or_pos lineCycles.toNat with h | h
      · exact absurd (BitVec.eq_of_toNat_eq h) hne
      · exact h
    obtain ⟨hend, harea⟩ := noteAll_area hstart hfit (Nat.le_refl _) hord
    have htotal : a.sum.toNat + a.level.toNat * (lineCycles.toNat - a.at'.toNat) =
        areaFrom 0 level notes lineCycles.toNat := by
      refine harea.trans ?_
      simp
    by_cases hat : a.at' = 0
    · -- every change came at cycle 0: the area is the last level's
      have hconst : a.level.toNat * lineCycles.toNat =
          areaFrom 0 level notes lineCycles.toNat := by
        rw [← htotal, hzero hat, hat]
        simp
      rw [← hconst, rounded_const _ hpos]
      simp only [sample, take, if_pos hat]
    · have hle : (a.lineEnd lineCycles).toNat = lineCycles.toNat := by
        rw [lineEnd_toNat]
        exact Nat.max_eq_right hend
      have hsample := (take_spec hcovers hL hat).2.1
      rw [hle, htotal] at hsample
      exact hsample
  · intro lo hi hbounds hnotes
    obtain ⟨hin, hlo, hhi⟩ :=
      noteAll_between hstart hfit hbounds ⟨Nat.zero_le _, Nat.zero_le _⟩ hnotes
    by_cases hat : a.at' = 0
    · simp only [sample, take, if_pos hat]
      exact hin
    · obtain ⟨hpos, hsample, -⟩ := take_spec hcovers hL hat
      have hle : a.at'.toNat ≤ (a.lineEnd lineCycles).toNat := by
        rw [lineEnd_toNat]
        exact Nat.le_max_left _ _
      have hrest : (a.lineEnd lineCycles).toNat =
          a.at'.toNat + ((a.lineEnd lineCycles).toNat - a.at'.toNat) := by omega
      have hlo' := Nat.mul_le_mul_right ((a.lineEnd lineCycles).toNat - a.at'.toNat) hin.1
      have hhi' := Nat.mul_le_mul_right ((a.lineEnd lineCycles).toNat - a.at'.toNat) hin.2
      simp only [sample, hsample]
      apply rounded_between hpos
      · rw [hrest, Nat.mul_add, Nat.add_sub_cancel_left]
        exact Nat.add_le_add hlo hlo'
      · rw [hrest, Nat.mul_add, Nat.add_sub_cancel_left]
        exact Nat.add_le_add hhi hhi'
  · intro hat hend
    have := (take_spec hcovers hL hat).1
    rw [hend] at this
    exact absurd this (Nat.lt_irrefl 0)
  · rw [← hlevel]
    by_cases hat : a.at' = 0
    · have hsum : a.sum = 0 := BitVec.eq_of_toNat_eq (hzero hat)
      simp only [take, if_pos hat]
      exact eq_start hsum hat
    · exact (take_spec hcovers hL hat).2.2

open AudioLineAverage in
/-- Half a line at 255 and half at 0; and a change noted after the line's end. -/
theorem line_average_exact_square :
    ((noteAll { level := 0 } [(255, 0), (0, 20)]).take 40).1.toNat =
        rounded (areaFrom 0 0 [(255, 0), (0, 20)] 40) 40 ∧
      ((noteAll { level := 9 } [(200, 90)]).take 57).1.toNat ≤ 200 :=
  ⟨(line_average_exact 0 [(255, 0), (0, 20)] 40 (by decide +kernel) (by decide +kernel)).1
      (by decide +kernel) (by decide +kernel),
    ((line_average_exact 9 [(200, 90)] 57 (by decide +kernel) (by decide +kernel)).2.1
      9 200 (by decide +kernel) (by decide +kernel)).2⟩

open AudioLineAverage in
/-- The sum has 32 bits: on a line this long, at 255 up to its last cycle, it wraps to a sample
of 0. -/
theorem line_average_wraps :
    InOrder 16843010 0 [(254, 16843010)] ∧ LevelsIn 254 255 [(254, 16843010)] ∧
      ((noteAll { level := 255 } [(254, 16843010)]).take 16843010).1.toNat = 0 := by
  decide +kernel

end CocoEmulator.Audio
