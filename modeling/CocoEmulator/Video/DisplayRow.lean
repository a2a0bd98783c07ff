/-
  Video/DisplayRow.lean --- which row of the viewport shows a line of the picture.

  A picture that is shorter than the viewport is centred.  Of one that is taller, the
  last line of every so many is dropped, until there are no more lines than rows.

      gimeDisplayY_tall       a line that is kept goes to the row that counts the lines
                              kept before it
      display_rows_cover      what is dropped is the excess, and every row is covered

  Source: hal_video.cpp.
-/
import Mathlib.Data.Nat.Nth

set_option autoImplicit false

namespace CocoEmulator.Video

/-- `gime_display_y`; -1 is a line that is dropped. -/
def gimeDisplayY (line totalLines vpH : Int) : Int :=
  if line < 0 then -1
  else
    let totalLines := if totalLines ≤ 0 then vpH else totalLines
    if totalLines ≤ vpH then
      let y := line + (vpH - totalLines).tdiv 2
      if y < vpH then y else -1
    else
      let excess := totalLines - vpH
      let period := totalLines.tdiv excess
      let dropped := (line + 1).tdiv period
      if dropped ≤ excess ∧ (line + 1).tmod period = 0 then -1
      else
        let dropped := if dropped > excess then excess else dropped
        let y := line - dropped
        if y < vpH then y else -1

/-! ## Lines of a tall picture -/

/-- How often a line is dropped. -/
def dropPeriod (total rows : Nat) : Nat := total / (total - rows)

/-- A line that is dropped. -/
def Dropped (total rows line : Nat) : Prop :=
  (line + 1) / dropPeriod total rows ≤ total - rows ∧ (line + 1) % dropPeriod total rows = 0

instance (total rows : Nat) : DecidablePred (Dropped total rows) :=
  fun _ => inferInstanceAs (Decidable (_ ∧ _))

section

variable {total rows : Nat}

theorem dropPeriod_pos (hrows : 0 < rows) (htall : rows < total) : 0 < dropPeriod total rows :=
  Nat.div_pos (by omega) (by omega)

/-- The lines dropped so far. -/
theorem count_dropped (n : Nat) :
    Nat.count (Dropped total rows) n = min (n / dropPeriod total rows) (total - rows) := by
  induction n with
  | zero => simp
  | succ n ih =>
    rw [Nat.count_succ, ih]
    by_cases hlast : (n + 1) % dropPeriod total rows = 0
    · have hnext := Nat.succ_div_of_mod_eq_zero hlast
      split
      · next hdropped =>
        have hroom := hdropped.1
        omega
      · next hkept =>
        have hfull : ¬(n + 1) / dropPeriod total rows ≤ total - rows := fun h => hkept ⟨h, hlast⟩
        omega
    · have hsame := Nat.succ_div_of_mod_ne_zero hlast
      rw [if_neg (fun h : Dropped total rows n => hlast h.2), hsame, Nat.add_zero]

/-- What is dropped is the excess. -/
theorem count_dropped_total (hrows : 0 < rows) (htall : rows < total) :
    Nat.count (Dropped total rows) total = total - rows := by
  have hexcess : (total - rows) * dropPeriod total rows ≤ total := Nat.mul_div_le _ _
  have henough : total - rows ≤ total / dropPeriod total rows :=
    (Nat.le_div_iff_mul_le (dropPeriod_pos hrows htall)).mpr hexcess
  rw [count_dropped]
  omega

theorem count_kept (n : Nat) :
    Nat.count (fun l => ¬Dropped total rows l) n =
      n - min (n / dropPeriod total rows) (total - rows) := by
  have hall : Nat.count (Dropped total rows) n +
      Nat.count (fun l => ¬Dropped total rows l) n = n := by
    induction n with
    | zero => simp
    | succ n ih =>
      rw [Nat.count_succ, Nat.count_succ]
      split <;> simp_all <;> omega
  rw [← count_dropped]
  omega

theorem count_kept_total (hrows : 0 < rows) (htall : rows < total) :
    Nat.count (fun l => ¬Dropped total rows l) total = rows := by
  have hdropped := count_dropped_total hrows htall
  rw [count_dropped] at hdropped
  rw [count_kept, hdropped]
  omega

/-- A line that is kept goes to the row that counts the lines kept before it. -/
theorem gimeDisplayY_tall (hrows : 0 < rows) (htall : rows < total) {line : Nat}
    (hline : line < total) :
    gimeDisplayY line total rows =
      if Dropped total rows line then -1
      else (Nat.count (fun l => ¬Dropped total rows l) line : Int) := by
  have hexcess : (total : Int) - rows = (total - rows : Nat) := by omega
  have hperiod : (total : Int).tdiv (total - rows : Nat) = dropPeriod total rows := rfl
  have hnext : (line : Int) + 1 = (line + 1 : Nat) := rfl
  unfold gimeDisplayY
  dsimp only
  rw [if_neg (by omega), if_neg (by omega : ¬(total : Int) ≤ 0), if_neg (by omega), hexcess, hperiod,
    hnext]
  change (if (((line + 1) / dropPeriod total rows : Nat) : Int) ≤ (total - rows : Nat) ∧
      (((line + 1) % dropPeriod total rows : Nat) : Int) = 0 then _ else _) = _
  by_cases hdropped : Dropped total rows line
  · have hcast : (((line + 1) / dropPeriod total rows : Nat) : Int) ≤ (total - rows : Nat) ∧
        (((line + 1) % dropPeriod total rows : Nat) : Int) = 0 := by
      have hroom := hdropped.1
      have hlast := hdropped.2
      omega
    rw [if_pos hcast, if_pos hdropped]
  · have hcast : ¬((((line + 1) / dropPeriod total rows : Nat) : Int) ≤ (total - rows : Nat) ∧
        (((line + 1) % dropPeriod total rows : Nat) : Int) = 0) :=
      fun h => hdropped ⟨by omega, by omega⟩
    have hsame : min ((line + 1) / dropPeriod total rows) (total - rows) =
        min (line / dropPeriod total rows) (total - rows) := by
      by_cases hlast : (line + 1) % dropPeriod total rows = 0
      · have hnext := Nat.succ_div_of_mod_eq_zero hlast
        have hfull : ¬(line + 1) / dropPeriod total rows ≤ total - rows :=
          fun h => hdropped ⟨h, hlast⟩
        omega
      · rw [Nat.succ_div_of_mod_ne_zero hlast]
    have hrow := @count_kept total rows line
    have hfew : min (line / dropPeriod total rows) (total - rows) ≤ line :=
      Nat.le_trans (Nat.min_le_left _ _) (Nat.div_le_self _ _)
    have hbelow : Nat.count (fun l => ¬Dropped total rows l) line < rows := by
      have hmono := Nat.count_strict_mono (p := fun l => ¬Dropped total rows l) hdropped hline
      rw [count_kept_total hrows htall] at hmono
      exact hmono
    have htdiv : ((line + 1 : Nat) : Int).tdiv (dropPeriod total rows) =
        ((line + 1) / dropPeriod total rows : Nat) := rfl
    rw [if_neg hcast, if_neg hdropped, htdiv]
    split <;> split <;> omega

end

/-! ## The mapping -/

/-- What a mapping of `total` lines to `rows` rows should do. -/
structure LosesExcess (total rows : Int) (row : Int → Int) : Prop where
  inside : ∀ line, 0 ≤ line → line < total → row line = -1 ∨ 0 ≤ row line ∧ row line < rows
  increasing : ∀ line line', 0 ≤ line → line < line' → line' < total →
    row line ≠ -1 → row line' ≠ -1 → row line < row line'
  short_kept : total ≤ rows → ∀ line, 0 ≤ line → line < total → row line ≠ -1
  tall_dropped : rows < total →
    (Nat.count (fun l => row l = -1) total.toNat : Int) = total - rows
  tall_covered : rows < total → ∀ r, 0 ≤ r → r < rows →
    ∃ line, (0 ≤ line ∧ line < total ∧ row line = r) ∧
      ∀ line', 0 ≤ line' ∧ line' < total ∧ row line' = r → line' = line

theorem display_rows_short {total rows : Int} (htotal : 0 < total) (hshort : total ≤ rows) :
    LosesExcess total rows (gimeDisplayY · total rows) := by
  have hrow (line : Int) (hpos : 0 ≤ line) (hline : line < total) :
      gimeDisplayY line total rows = line + (rows - total) / 2 := by
    unfold gimeDisplayY
    dsimp only
    rw [if_neg (by omega), if_neg (by omega : ¬total ≤ 0), if_pos hshort,
      Int.tdiv_eq_ediv_of_nonneg (by omega), if_pos (by omega)]
  constructor
  · intro line hpos hline
    rw [hrow line hpos hline]
    omega
  · intro line line' hpos hlt hline _ _
    rw [hrow line hpos (by omega), hrow line' (by omega) hline]
    omega
  · intro _ line hpos hline
    rw [hrow line hpos hline]
    omega
  · omega
  · omega

/-- A row below the number kept is the row of some line. -/
theorem exists_kept {p : Nat → Prop} [DecidablePred p] {n r : Nat} (h : r < Nat.count p n) :
    ∃ line, line < n ∧ p line ∧ Nat.count p line = r := by
  have hcard (hf : (Set.ofPred p).Finite) : r < hf.toFinset.card :=
    Nat.lt_of_lt_of_le h (Nat.count_le_card hf n)
  exact ⟨Nat.nth p r, Nat.nth_lt_of_lt_count h, Nat.nth_mem r hcard, Nat.count_nth hcard⟩

theorem display_rows_tall {total rows : Nat} (hrows : 0 < rows) (htall : rows < total) :
    LosesExcess total rows (gimeDisplayY · total rows) := by
  have hrow (line : Int) (hpos : 0 ≤ line) (hline : line < total) :
      ∃ l : Nat, line = l ∧ l < total ∧ gimeDisplayY line total rows =
        if Dropped total rows l then -1
        else (Nat.count (fun l => ¬Dropped total rows l) l : Int) := by
    obtain ⟨l, rfl⟩ := Int.eq_ofNat_of_zero_le hpos
    exact ⟨l, rfl, by omega, gimeDisplayY_tall hrows htall (by omega)⟩
  have hkept {l : Nat} (h : l < total) :
      gimeDisplayY l total rows ≠ -1 ↔ ¬Dropped total rows l := by
    rw [gimeDisplayY_tall hrows htall h]
    split
    · next hdropped => simp [hdropped]
    · next hdropped =>
      simp only [hdropped, not_false_eq_true, iff_true]
      omega
  have hbelow {l l' : Nat} (h : ¬Dropped total rows l) (hlt : l < l') :
      Nat.count (fun l => ¬Dropped total rows l) l < Nat.count (fun l => ¬Dropped total rows l) l' :=
    Nat.count_strict_mono (p := fun l => ¬Dropped total rows l) h hlt
  constructor
  · intro line hpos hline
    obtain ⟨l, rfl, hl, hy⟩ := hrow line hpos hline
    rw [hy]
    split
    · exact .inl rfl
    · next h =>
      have hlt := hbelow h hl
      rw [count_kept_total hrows htall] at hlt
      omega
  · intro line line' hpos hlt hline hk hk'
    obtain ⟨l, rfl, hl, hy⟩ := hrow line hpos (by omega)
    obtain ⟨l', rfl, hl', hy'⟩ := hrow line' (by omega) hline
    have hup := hbelow ((hkept hl).mp hk) (by omega : l < l')
    rw [hy, hy', if_neg ((hkept hl).mp hk), if_neg ((hkept hl').mp hk')]
    omega
  · omega
  · intro _
    have hsame : Nat.count (fun l : Nat => gimeDisplayY l total rows = -1) total =
        Nat.count (Dropped total rows) total := by
      apply Nat.le_antisymm
      · apply Nat.count_mono_left
        intro l hl h
        exact Decidable.not_not.mp fun hd => (hkept hl).mpr hd h
      · apply Nat.count_mono_left
        intro l hl h
        exact Decidable.not_not.mp fun hy => (hkept hl).mp hy h
    rw [Int.toNat_natCast, hsame, count_dropped_total hrows htall]
    omega
  · intro _ r hpos hr
    obtain ⟨k, rfl⟩ := Int.eq_ofNat_of_zero_le hpos
    have hk : k < Nat.count (fun l => ¬Dropped total rows l) total := by
      rw [count_kept_total hrows htall]
      omega
    obtain ⟨l, hl, hd, hcount⟩ := exists_kept hk
    refine ⟨l, ⟨by omega, by omega, ?_⟩, ?_⟩
    · rw [gimeDisplayY_tall hrows htall hl, if_neg hd, hcount]
    · rintro line' ⟨hpos', hline', hr'⟩
      obtain ⟨l', rfl, hl', hy'⟩ := hrow line' hpos' hline'
      have hd' : ¬Dropped total rows l' := (hkept hl').mp (by rw [hr']; omega)
      rw [hr', if_neg hd'] at hy'
      have hinj : l' = l :=
        Nat.count_injective (p := fun l => ¬Dropped total rows l) hd' hd (by omega)
      rw [hinj]

/-- Only the excess is lost, for every picture and every viewport: a picture that fits keeps all
its lines, and of a taller one just the excess is dropped, with every row covered once. -/
theorem display_rows_cover {total rows : Int} (htotal : 0 < total) (hrows : 0 < rows) :
    LosesExcess total rows (gimeDisplayY · total rows) := by
  by_cases hshort : total ≤ rows
  · exact display_rows_short htotal hshort
  · obtain ⟨t, rfl⟩ := Int.eq_ofNat_of_zero_le (by omega : 0 ≤ total)
    obtain ⟨r, rfl⟩ := Int.eq_ofNat_of_zero_le (by omega : 0 ≤ rows)
    exact display_rows_tall (by omega) (by omega)

/-- The 225 lines of the tallest mode in 200 rows. -/
theorem display_rows_cover_225 : LosesExcess 225 200 (gimeDisplayY · 225 200) :=
  display_rows_cover (by decide) (by decide)

end CocoEmulator.Video
