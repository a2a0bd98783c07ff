/-
  Video/Artifact.lean --- the colours of a monitor and of a line with NTSC artifacts.

  A display colour is one of the 64 colours of an RGB monitor.  In the 256-pixel mode a
  pattern of pixels shows as a mix of the line's two colours, picked by a window of six
  pixels around each pair.

      gimeMonitorColour_lt    what a monitor shows is a display colour
      gimeArtifactMix_lt      every mix is a display colour
      gimeArtifactLine_congr  a line depends on its own bytes and on the border

  Source: gime_monitor.h, gime_artifact.h.
-/
import CocoEmulator.Gime.Tcc1014
import Mathlib.Data.List.Basic

set_option autoImplicit false

namespace CocoEmulator.Video

open CocoEmulator.Gime

/-! ## Monitors -/

inductive Monitor
  | rgb
  | composite
deriving DecidableEq, Repr

/-- `gime_colour_rgb`: 0xRRGGBB from the interleaved R1 G1 B1 R0 G0 B0. -/
def gimeColourRgb (c : Nat) : Nat :=
  (((c >>> 4) &&& 2) ||| ((c >>> 2) &&& 1)) * 0x550000 |||
    (((c >>> 3) &&& 2) ||| ((c >>> 1) &&& 1)) * 0x005500 |||
    (((c >>> 2) &&& 2) ||| (c &&& 1)) * 0x000055

/-- The table of `gime_colour_composite`. -/
def compositeColours : List Nat :=
  [0x000000, 0x004c00, 0x004300, 0x0a3100, 0x2f1b00, 0x550100, 0x6c0000, 0x770006,
    0x71004b, 0x5c008b, 0x3b00b8, 0x1100ca, 0x001499, 0x002c62, 0x004011, 0x004b00,
    0x2d2d2d, 0x069800, 0x288f00, 0x537d00, 0x786700, 0xa04c00, 0xb63402, 0xc3224c,
    0xbd1693, 0xa814d5, 0x881cfe, 0x5e2cff, 0x105ee9, 0x0076b2, 0x008b60, 0x009618,
    0x747474, 0x41d714, 0x62cf00, 0x8ebd00, 0xb4a700, 0xdd8c01, 0xf5733a, 0xfe6085,
    0xfd53ce, 0xe950ff, 0xc958ff, 0x9e67ff, 0x4e9aff, 0x36b3f7, 0x26c9a3, 0x2bd558,
    0xfdfdfe, 0x88e85a, 0xa1e03f, 0xbed238, 0xd8c342, 0xf1b161, 0xfea08d, 0xfe95bf,
    0xfd8ef1, 0xef8eff, 0xd895ff, 0xb9a1ff, 0x86c4ff, 0x78d4f2, 0x71e2b6, 0xffffff]

/-- `gime_colour_composite`. -/
def gimeColourComposite (c : Nat) : Nat := compositeColours.getD (c &&& 0x3F) 0

/-- A channel in two bits, rounded. -/
def nearestLevel (channel : Nat) : Nat := ((channel &&& 0xFF) * 3 + 127) / 255

/-- `gime_nearest`. -/
def gimeNearest (rgb : Nat) : Nat :=
  let r := nearestLevel (rgb >>> 16)
  let g := nearestLevel (rgb >>> 8)
  let b := nearestLevel rgb
  ((r &&& 2) <<< 4) ||| ((g &&& 2) <<< 3) ||| ((b &&& 2) <<< 2) |||
    ((r &&& 1) <<< 2) ||| ((g &&& 1) <<< 1) ||| (b &&& 1)

/-- `gime_monitor_colour`. -/
def gimeMonitorColour : Monitor → Nat → Nat
  | .composite, c => gimeNearest (gimeColourComposite c)
  | .rgb, c => c &&& 0x3F

theorem nearestLevel_le (channel : Nat) : nearestLevel channel ≤ 3 := by
  have hle : channel &&& 0xFF ≤ 0xFF := Nat.and_le_right
  unfold nearestLevel
  omega

/-- The levels of three channels, interleaved. -/
theorem interleave_lt : ∀ r < 4, ∀ g < 4, ∀ b < 4,
    ((r &&& 2) <<< 4) ||| ((g &&& 2) <<< 3) ||| ((b &&& 2) <<< 2) |||
      ((r &&& 1) <<< 2) ||| ((g &&& 1) <<< 1) ||| (b &&& 1) < 64 := by
  decide

/-- What is nearest is a display colour. -/
theorem gimeNearest_lt (rgb : Nat) : gimeNearest rgb < 64 :=
  interleave_lt _ (Nat.lt_succ_of_le (nearestLevel_le _)) _ (Nat.lt_succ_of_le (nearestLevel_le _))
    _ (Nat.lt_succ_of_le (nearestLevel_le _))

theorem gimeMonitorColour_lt (m : Monitor) (c : Nat) : gimeMonitorColour m c < 64 := by
  cases m with
  | rgb => exact Nat.lt_succ_of_le Nat.and_le_right
  | composite => exact gimeNearest_lt _

/-! ## Mixes -/

/-- `k_artifact_factors`: how much of the second colour a mix takes, in thousandths. -/
def artifactFactors : List Nat :=
  [157, 0, 157,
    0, 157, 0,
    1000, 824, 1000,
    824, 1000, 824,
    706, 236, 118,
    0, 197, 471,
    1000, 550, 393,
    275, 785, 1000,
    0, 500, 1000,
    1000, 500, 0,
    1000, 942, 785,
    393, 942, 1000,
    236, 0, 0,
    0, 0, 236]

/-- `k_artifact_correction`, by the window of six pixels and the half of the pair. -/
def artifactCorrection : List Nat :=
  [0, 0, 0, 0, 0, 6, 0, 2,
    5, 7, 5, 7, 1, 3, 1, 11,
    8, 6, 8, 14, 8, 9, 8, 9,
    4, 4, 4, 15, 12, 12, 12, 15,
    5, 13, 5, 13, 13, 0, 13, 2,
    10, 10, 10, 10, 10, 15, 10, 11,
    3, 1, 3, 1, 15, 9, 15, 9,
    11, 11, 11, 11, 15, 15, 15, 15,
    14, 0, 14, 0, 14, 6, 14, 2,
    0, 7, 0, 7, 1, 3, 1, 11,
    9, 6, 9, 14, 9, 9, 9, 9,
    15, 4, 15, 15, 12, 12, 12, 15,
    2, 13, 2, 13, 2, 0, 2, 2,
    10, 10, 10, 10, 10, 15, 10, 11,
    12, 1, 12, 1, 12, 9, 12, 9,
    15, 11, 15, 11, 15, 15, 15, 15]

/-- A channel of a mix of two colours. -/
def mixChannel (a b factor shift : Nat) : Nat :=
  let ca := (a >>> shift) &&& 0xFF
  let cb := (b >>> shift) &&& 0xFF
  (ca * (1000 - factor) + cb * factor + 500) / 1000

/-- What a monitor makes of a colour, before the display's own colours. -/
def monitorRgb : Monitor → Nat → Nat
  | .composite, c => gimeColourComposite c
  | .rgb, c => gimeColourRgb c

/-- `gime_artifact_mix`: colour `i` of the sixteen. -/
def gimeArtifactMix (mode : Nat) (m : Monitor) (c0 c1 i : Nat) : Nat :=
  if i = 0 then gimeMonitorColour m c0
  else if i = 15 then gimeMonitorColour m c1
  else
    let f := ((i - 1) ^^^ (mode &&& 1)) * 3
    let channel (ch : Nat) : Nat :=
      let shift := 16 - 8 * ch
      let factor := artifactFactors.getD (f + ch) 0
      mixChannel (monitorRgb m c0) (monitorRgb m c1) factor shift <<< shift
    gimeNearest (channel 0 ||| channel 1 ||| channel 2)

/-- Every mix is a display colour. -/
theorem gimeArtifactMix_lt (mode : Nat) (m : Monitor) (c0 c1 i : Nat) :
    gimeArtifactMix mode m c0 c1 i < 64 := by
  unfold gimeArtifactMix
  split
  · exact gimeMonitorColour_lt m c0
  split
  · exact gimeMonitorColour_lt m c1
  · exact gimeNearest_lt _

/-! ## A line -/

section

variable {P : Type}

/-- The pixels outside a line. -/
def borderBits (borderIsC1 : Bool) : Unsigned := if borderIsC1 = true then 0xFF else 0x00

/-- The window of a byte: two pixels of the byte before, its own, and the byte after. -/
def artifactWindow (src : Nat → Byte) (n : Nat) (borderIsC1 : Bool) (k : Nat) : Unsigned :=
  let prev := if k = 0 then borderBits borderIsC1 &&& 3 else (src (k - 1)).setWidth 32 &&& 3
  let next := if k + 1 < n then (src (k + 1)).setWidth 32 else borderBits borderIsC1
  (prev <<< 16) ||| ((src k).setWidth 32 <<< 8) ||| next

/-- The four output pixels of a pair. -/
def artifactPair (colours : Nat → P) (window : Unsigned) (shift : Nat) : List P :=
  let v := ((window >>> shift) &&& 0x3F).toNat * 2
  let p0 := colours (artifactCorrection.getD v 0)
  let p1 := colours (artifactCorrection.getD (v + 1) 0)
  [p0, p0, p1, p1]

/-- `gime_artifact_line`. -/
def gimeArtifactLine (src : Nat → Byte) (n : Nat) (colours : Nat → P) (borderIsC1 : Bool) :
    List P :=
  (List.range n).flatMap fun k =>
    [12, 10, 8, 6].flatMap (artifactPair colours (artifactWindow src n borderIsC1 k))

/-- The pairs of a window pick from sixteen colours. -/
theorem artifactCorrection_lt : ∀ v, artifactCorrection.getD v 0 < 16 := by
  have hall : ∀ c ∈ artifactCorrection, c < 16 := by simp [artifactCorrection]
  intro v
  rw [List.getD_eq_getElem?_getD]
  cases hc : artifactCorrection[v]? with
  | none => exact Nat.zero_lt_succ _
  | some c => exact hall c (List.mem_of_getElem? hc)

/-- A line depends on its own bytes, on sixteen colours and on the border. -/
theorem gimeArtifactLine_congr {src src' : Nat → Byte} {n : Nat} {colours colours' : Nat → P}
    (borderIsC1 : Bool) (hsrc : ∀ k < n, src k = src' k) (hcol : ∀ i < 16, colours i = colours' i) :
    gimeArtifactLine src n colours borderIsC1 = gimeArtifactLine src' n colours' borderIsC1 := by
  have hpair (window : Unsigned) : artifactPair colours window = artifactPair colours' window := by
    funext shift
    simp only [artifactPair, hcol _ (artifactCorrection_lt _)]
  have hwindow (k : Nat) (hk : k < n) :
      artifactWindow src n borderIsC1 k = artifactWindow src' n borderIsC1 k := by
    have hprev : src (k - 1) = src' (k - 1) := hsrc _ (by omega)
    have hnext : (if k + 1 < n then (src (k + 1)).setWidth 32 else borderBits borderIsC1) =
        if k + 1 < n then (src' (k + 1)).setWidth 32 else borderBits borderIsC1 :=
      ite_congr rfl (fun hlast => by rw [hsrc _ hlast]) fun _ => rfl
    unfold artifactWindow
    rw [hsrc k hk, hprev, hnext]
  unfold gimeArtifactLine
  refine List.flatMap_congr fun k hk => ?_
  rw [hwindow k (List.mem_range.mp hk), hpair]

end

end CocoEmulator.Video
