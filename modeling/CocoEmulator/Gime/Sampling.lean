/-
  Gime/Sampling.lean --- when the GIME samples its external inputs.

  IL2, IL1 and IL0 are edge-detected at the start of a memory cycle.  What a detection
  latches is the inputs that are high and were low before (`edges`), and it commutes
  with whatever neither moves the inputs nor looks at what is latched: the interrupts,
  the timer, INIT1.

  A cycle also leaves its decode behind in S, Z and RAS (`decoded`).  The next cycle sets
  S and RAS anew, and Z wherever RAS asks for it, so nothing else depends on them.

      edgeDetectIl_eq         what a detection does
      edgeDetectIl_twice      a second one does nothing
      postpones_tickScanline  a scanline of the timer may come before a detection or after it
      memCycle_decoded        a cycle does not depend on the decode of the last one
-/
import Mathlib.Logic.Function.Conjugate
import CocoEmulator.Gime.Events

set_option autoImplicit false

namespace CocoEmulator.Gime

namespace Tcc1014

variable (g : Tcc1014)

/-! ## Detection -/

/-- An input that is high and was low. -/
def rise (line : Bool) (state flag : Byte) : Byte := if line = true ∧ state = 0 then flag else 0

/-- The edges a detection would latch now. -/
def edges : Byte :=
  rise g.il2 g.il2State intEi2 |||
    (rise g.il1 g.il1State intEi1 ||| rise g.il0 g.il0State intEi0)

/-- The inputs it would latch, in the order of the source. -/
def risen : List Source := [.ei2, .ei1, .ei0].filter fun source => source.flag &&& g.edges != 0

/-- Raise the interrupts of some edges, if there are any. -/
def latch (e : Byte) : Tcc1014 :=
  { g with
    irqState := g.irqState ||| (e &&& g.registers 2)
    firqState := g.firqState ||| (e &&& g.registers 3)
    irq := if e = 0 then g.irq else irqLine (g.registers 0) (g.irqState ||| (e &&& g.registers 2))
    firq := if e = 0 then g.firq
      else firqLine (g.registers 0) (g.firqState ||| (e &&& g.registers 3)) }

/-- Record the inputs as they are. -/
def record : Tcc1014 :=
  { g with
    il2State := if g.il2 = true then intEi2 else 0
    il1State := if g.il1 = true then intEi1 else 0
    il0State := if g.il0 = true then intEi0 else 0 }

/-- The same chip with another decode left behind. -/
def decoded (s : Select) (z : Unsigned) (ras : Bool) : Tcc1014 := { g with s, z, ras }

end Tcc1014

section

variable {g : Tcc1014}

/-- Sampling an input is latching its rise. -/
theorem edge_eq (line : Bool) {state flag : Byte} (hflag : flag ≠ 0) :
    g.edge line state flag = g.latch (Tcc1014.rise line state flag) := by
  unfold Tcc1014.edge Tcc1014.rise
  split
  · unfold Tcc1014.latch
    rw [if_neg hflag, if_neg hflag]
    rfl
  · simp [Tcc1014.latch]

theorem masked_or (s a b r : Byte) : s ||| (a &&& r) ||| (b &&& r) = s ||| ((a ||| b) &&& r) := by
  rw [BitVec.or_assoc, ← BitVec.and_or_distrib_right]

/-- Two latches are one of both sets of edges: the outputs depend on what is pending in the end. -/
theorem latch_latch (a b : Byte) : (g.latch a).latch b = g.latch (a ||| b) := by
  unfold Tcc1014.latch
  dsimp only
  rw [masked_or, masked_or]
  by_cases hb : b = 0
  · have hzero : a ||| 0 = a := BitVec.or_zero
    rw [hb, hzero, if_pos rfl, if_pos rfl]
  · have hor : a ||| b ≠ 0 := fun h => hb (BitVec.or_eq_zero_iff.mp h).2
    rw [if_neg hb, if_neg hb, if_neg hor, if_neg hor]

theorem latch_zero (g : Tcc1014) : g.latch 0 = g := by
  simp [Tcc1014.latch]

/-- So the order of two latches does not matter. -/
theorem latch_comm (a b : Byte) : (g.latch a).latch b = (g.latch b).latch a := by
  rw [latch_latch, latch_latch, BitVec.or_comm]

/-- What a detection does: the edges of all inputs at once, and the inputs recorded. -/
theorem edgeDetectIl_eq (g : Tcc1014) : g.edgeDetectIl = (g.latch g.edges).record := by
  have h2 : g.sampleIl2 = { g.latch (Tcc1014.rise g.il2 g.il2State intEi2) with
      il2State := if g.il2 = true then intEi2 else 0 } := by
    unfold Tcc1014.sampleIl2
    rw [edge_eq _ (show intEi2 ≠ 0 by decide)]
  have h1 (g : Tcc1014) : g.sampleIl1 = { g.latch (Tcc1014.rise g.il1 g.il1State intEi1) with
      il1State := if g.il1 = true then intEi1 else 0 } := by
    unfold Tcc1014.sampleIl1
    rw [edge_eq _ (show intEi1 ≠ 0 by decide)]
  have h0 (g : Tcc1014) : g.sampleIl0 = { g.latch (Tcc1014.rise g.il0 g.il0State intEi0) with
      il0State := if g.il0 = true then intEi0 else 0 } := by
    unfold Tcc1014.sampleIl0
    rw [edge_eq _ (show intEi0 ≠ 0 by decide)]
  have hall : ((g.latch (Tcc1014.rise g.il2 g.il2State intEi2)).latch
      (Tcc1014.rise g.il1 g.il1State intEi1)).latch (Tcc1014.rise g.il0 g.il0State intEi0) =
      g.latch g.edges := by
    rw [latch_latch, latch_latch]
    rfl
  unfold Tcc1014.edgeDetectIl
  rw [h0, h1, h2, ← hall]
  rfl

/-- No edge is left. -/
theorem edges_edgeDetectIl (g : Tcc1014) : g.edgeDetectIl.edges = 0 := by
  have hrise (line : Bool) (flag : Byte) :
      Tcc1014.rise line (if line = true then flag else 0) flag = 0 := by
    unfold Tcc1014.rise
    cases line with
    | false => rfl
    | true => simp
  rw [edgeDetectIl_eq]
  change Tcc1014.rise g.il2 (if g.il2 = true then intEi2 else 0) intEi2 |||
    (Tcc1014.rise g.il1 (if g.il1 = true then intEi1 else 0) intEi1 |||
      Tcc1014.rise g.il0 (if g.il0 = true then intEi0 else 0) intEi0) = 0
  rw [hrise g.il2, hrise g.il1, hrise g.il0]
  rfl

/-- A second detection does nothing. -/
theorem edgeDetectIl_twice (g : Tcc1014) : g.edgeDetectIl.edgeDetectIl = g.edgeDetectIl := by
  rw [edgeDetectIl_eq g.edgeDetectIl, edges_edgeDetectIl, latch_zero, edgeDetectIl_eq]
  rfl

/-! ## What may come before a detection or after it -/

/-- `f` neither moves the inputs nor looks at what a detection changes. -/
structure Postpones (f : Tcc1014 → Tcc1014) : Prop where
  commute : Function.Commute Tcc1014.edgeDetectIl f
  edges : ∀ g, (f g).edges = g.edges

/-- It is enough to commute with a latch and a record, since these are what a detection is. -/
theorem Postpones.of_latch {f : Tcc1014 → Tcc1014} (hedges : ∀ g, (f g).edges = g.edges)
    (hf : ∀ g e, ((f g).latch e).record = f (g.latch e).record) : Postpones f := by
  refine ⟨?_, hedges⟩
  intro g
  rw [edgeDetectIl_eq, edgeDetectIl_eq, hedges]
  exact hf g g.edges

theorem Postpones.id : Postpones fun g => g := ⟨fun _ => rfl, fun _ => rfl⟩

/-- Two functions that a detection may be moved past, one after the other. -/
theorem Postpones.comp {f f' : Tcc1014 → Tcc1014} (h : Postpones f) (h' : Postpones f') :
    Postpones (f' ∘ f) := by
  refine ⟨h'.commute.comp_right h.commute, ?_⟩
  intro g
  exact (h'.edges (f g)).trans (h.edges g)

/-- A branch on what a detection does not change. -/
theorem commute_ite {α : Type} {h f f' : α → α} {c : α → Prop} [DecidablePred c]
    (hc : ∀ g, c (h g) ↔ c g) (hf : Function.Commute h f) (hf' : Function.Commute h f') :
    Function.Commute h fun g => if c g then f g else f' g := by
  intro g
  dsimp only
  by_cases hg : c g
  · rw [if_pos hg, if_pos ((hc g).mpr hg)]
    exact hf g
  · rw [if_neg hg, if_neg (fun hh => hg ((hc g).mp hh))]
    exact hf' g

/-- A branch that looks at nothing a detection changes. -/
theorem Postpones.ite {f f' : Tcc1014 → Tcc1014} {c : Tcc1014 → Prop} [DecidablePred c]
    (hc : ∀ g e, c (g.latch e).record ↔ c g) (hf : Postpones f) (hf' : Postpones f') :
    Postpones fun g => if c g then f g else f' g := by
  constructor
  · refine commute_ite ?_ hf.commute hf'.commute
    intro g
    rw [edgeDetectIl_eq]
    exact hc g g.edges
  · intro g
    split
    · exact hf.edges g
    · exact hf'.edges g

/-- A latch from elsewhere may come before a detection or after it. -/
theorem postpones_latch (e : Byte) : Postpones (Tcc1014.latch · e) := by
  refine Postpones.of_latch (fun _ => rfl) ?_
  intro g e'
  change ((g.latch e).latch e').record = ((g.latch e').latch e).record
  rw [latch_comm]

theorem Source.flag_ne_zero (source : Source) : source.flag ≠ 0 := by
  cases source <;> decide

/-- An interrupt is a latch of its flag. -/
theorem setInterrupt_eq (g : Tcc1014) (source : Source) :
    g.setInterrupt source.flag = g.latch source.flag := by
  unfold Tcc1014.latch
  rw [if_neg source.flag_ne_zero, if_neg source.flag_ne_zero]
  rfl

theorem postpones_setInterrupt (source : Source) :
    Postpones (Tcc1014.setInterrupt · source.flag) := by
  have heq : (Tcc1014.setInterrupt · source.flag) = (Tcc1014.latch · source.flag) :=
    funext fun g => setInterrupt_eq g source
  rw [heq]
  exact postpones_latch source.flag

theorem postpones_armTimer : Postpones Tcc1014.armTimer :=
  .of_latch (fun _ => rfl) fun _ _ => rfl

/-- An expiry raises TMR, which is no external input. -/
theorem postpones_timerExpired : Postpones Tcc1014.timerExpired := by
  have hcount : Postpones fun g => { g with blink := !g.blink, timerFires := g.timerFires + 1 } :=
    .of_latch (fun _ => rfl) fun _ _ => rfl
  exact hcount.comp (postpones_setInterrupt .tmr)

theorem postpones_selectTimer (tins : Bool) : Postpones (Tcc1014.selectTimer · tins) :=
  .ite (c := fun g => tins ≠ g.tins) (fun _ _ => Iff.rfl)
    (.of_latch (fun _ => rfl) fun _ _ => rfl) .id

theorem postpones_selectTask (tr : BitVec 4) : Postpones (Tcc1014.selectTask · tr) :=
  .ite (c := fun g => tr ≠ g.tr) (fun _ _ => Iff.rfl)
    (.of_latch (fun _ => rfl) fun _ _ => rfl) .id

/-- INIT1 selects the timer's source and the task. -/
theorem postpones_writeInit1 (val : Byte) : Postpones (Tcc1014.writeRegister · 1 val) := by
  have hstore : Postpones fun g : Tcc1014 =>
      { g with registers := Function.update g.registers 1 val } :=
    .of_latch (fun _ => rfl) fun _ _ => rfl
  exact (hstore.comp (postpones_selectTimer _)).comp (postpones_selectTask _)

/-! ## The timer -/

/-- Add to what is left of the fast timer. -/
def Tcc1014.addLeft (g : Tcc1014) (x : Int) : Tcc1014 :=
  { g with timerLeftX2 := g.timerLeftX2 + x }

/-- A scanline of the slow timer. -/
def Tcc1014.countDown (g : Tcc1014) : Tcc1014 := { g with timerCounter := g.timerCounter - 1 }

/-- One round of the fast timer's loop: it expires, is armed, and goes on with what was left over,
unless the reload value has stopped it. -/
theorem expireFast_due (hdue : g.timerLeftX2 ≤ 0) : g.expireFast =
    if g.timerExpired.armTimer.timerCounter = 0 then g.timerExpired.armTimer
    else (g.timerExpired.armTimer.addLeft g.timerLeftX2).expireFast := by
  rw [Tcc1014.expireFast, if_pos hdue]
  rfl

/-- The loop ends when time is left. -/
theorem expireFast_left (hleft : ¬g.timerLeftX2 ≤ 0) : g.expireFast = g := by
  rw [Tcc1014.expireFast, if_neg hleft]

/-- A change of the chip that the timer does not see. -/
structure KeepsTimer (h : Tcc1014 → Tcc1014) : Prop where
  left : ∀ g, (h g).timerLeftX2 = g.timerLeftX2
  counter : ∀ g, (h g).timerCounter = g.timerCounter
  tins : ∀ g, (h g).tins = g.tins
  addLeft : ∀ x, Function.Commute h (Tcc1014.addLeft · x)
  countDown : Function.Commute h Tcc1014.countDown
  expired : Function.Commute h Tcc1014.timerExpired
  arm : Function.Commute h Tcc1014.armTimer

variable {h : Tcc1014 → Tcc1014}

theorem KeepsTimer.rearm (hkeeps : KeepsTimer h) (g : Tcc1014) :
    (h g).timerExpired.armTimer = h g.timerExpired.armTimer := by
  rw [← hkeeps.expired g, ← hkeeps.arm]

/-- What does not touch the timer commutes with its loop, by induction on the rounds. -/
theorem KeepsTimer.expireFast (hkeeps : KeepsTimer h) : Function.Commute h Tcc1014.expireFast := by
  intro g
  induction g using Tcc1014.expireFast.induct with
  | case1 g hdue armed hstopped =>
    have hdue' : (h g).timerLeftX2 ≤ 0 := (hkeeps.left g).symm ▸ hdue
    have hstopped' : (h armed).timerCounter = 0 := (hkeeps.counter armed).symm ▸ hstopped
    rw [expireFast_due hdue, if_pos hstopped, expireFast_due hdue', hkeeps.rearm, if_pos hstopped']
  | case2 g hdue armed hrunning ih =>
    have hdue' : (h g).timerLeftX2 ≤ 0 := (hkeeps.left g).symm ▸ hdue
    have hrunning' : (h armed).timerCounter ≠ 0 := (hkeeps.counter armed).symm ▸ hrunning
    have hcarry : (h armed).addLeft (h g).timerLeftX2 = h (armed.addLeft g.timerLeftX2) := by
      rw [hkeeps.left]
      exact (hkeeps.addLeft g.timerLeftX2 armed).symm
    rw [expireFast_due hdue, if_neg hrunning, expireFast_due hdue', hkeeps.rearm, if_neg hrunning',
      hcarry]
    exact ih
  | case3 g hleft =>
    have hleft' : ¬(h g).timerLeftX2 ≤ 0 := (hkeeps.left g).symm ▸ hleft
    rw [expireFast_left hleft, expireFast_left hleft']

/-- A scanline of the timer by source: nothing while it is stopped, a count of one from the slow
source, and the loop for the fast one. -/
theorem tickScanline_eq (g : Tcc1014) : g.tickScanline =
    if g.timerCounter = 0 then g
    else if g.tins = false then
      if g.countDown.timerCounter = 0 then g.countDown.timerExpired.armTimer else g.countDown
    else (g.addLeft (-timerFastX2PerLine)).expireFast := rfl

/-- So it commutes with a scanline of the timer. -/
theorem KeepsTimer.tickScanline (hkeeps : KeepsTimer h) :
    Function.Commute h Tcc1014.tickScanline := by
  intro g
  rw [tickScanline_eq, tickScanline_eq, hkeeps.counter, hkeeps.tins]
  split
  · rfl
  split
  · have hdown : (h g).countDown = h g.countDown := (hkeeps.countDown g).symm
    rw [hdown, hkeeps.counter]
    split
    · exact (hkeeps.rearm g.countDown).symm
    · rfl
  · have hspent : (h g).addLeft (-timerFastX2PerLine) = h (g.addLeft (-timerFastX2PerLine)) :=
      (hkeeps.addLeft _ g).symm
    rw [hspent]
    exact hkeeps.expireFast _

/-- A detection does not touch the timer. -/
theorem keepsTimer_edgeDetectIl : KeepsTimer Tcc1014.edgeDetectIl where
  left g := by rw [edgeDetectIl_eq]; rfl
  counter g := by rw [edgeDetectIl_eq]; rfl
  tins g := by rw [edgeDetectIl_eq]; rfl
  addLeft x := (Postpones.of_latch (f := (Tcc1014.addLeft · x)) (fun _ => rfl)
    fun _ _ => rfl).commute
  countDown := (Postpones.of_latch (f := Tcc1014.countDown) (fun _ => rfl) fun _ _ => rfl).commute
  expired := postpones_timerExpired.commute
  arm := postpones_armTimer.commute

/-- The timer does not move the external inputs. -/
theorem edges_expireFast (g : Tcc1014) : g.expireFast.edges = g.edges := by
  induction g using Tcc1014.expireFast.induct with
  | case1 g hdue armed hstopped =>
    rw [expireFast_due hdue, if_pos hstopped]
    rfl
  | case2 g hdue armed hrunning ih =>
    rw [expireFast_due hdue, if_neg hrunning]
    exact ih
  | case3 g hleft => rw [expireFast_left hleft]

/-- A scanline of the timer may come before a detection or after it. -/
theorem postpones_tickScanline : Postpones Tcc1014.tickScanline := by
  refine ⟨keepsTimer_edgeDetectIl.tickScanline, ?_⟩
  intro g
  rw [tickScanline_eq]
  split
  · rfl
  split
  · split
    · rfl
    · rfl
  · exact edges_expireFast _

/-! ## The decode left behind -/

variable (s : Select) (z : Unsigned) (ras : Bool)

/-- A detection does not look at the decode that the last cycle left. -/
theorem edgeDetectIl_decoded (g : Tcc1014) :
    (g.decoded s z ras).edgeDetectIl = g.edgeDetectIl.decoded s z ras := by
  rw [edgeDetectIl_eq, edgeDetectIl_eq]
  rfl

/-- Nor does an interrupt. -/
theorem setInterrupt_decoded (g : Tcc1014) (flag : Byte) :
    (g.decoded s z ras).setInterrupt flag = (g.setInterrupt flag).decoded s z ras := rfl

theorem keepsTimer_decoded : KeepsTimer (Tcc1014.decoded · s z ras) where
  left _ := rfl
  counter _ := rfl
  tins _ := rfl
  addLeft _ _ := rfl
  countDown _ := rfl
  expired _ := rfl
  arm _ := rfl

/-- Nor does a scanline of the timer. -/
theorem tickScanline_decoded (g : Tcc1014) :
    (g.decoded s z ras).tickScanline = g.tickScanline.decoded s z ras :=
  ((keepsTimer_decoded s z ras).tickScanline g).symm

theorem selectTimer_decoded (g : Tcc1014) (tins : Bool) :
    (g.decoded s z ras).selectTimer tins = (g.selectTimer tins).decoded s z ras := by
  unfold Tcc1014.selectTimer
  by_cases h : tins ≠ g.tins
  · rw [if_pos h]
    exact if_pos h
  · rw [if_neg h]
    exact if_neg h

/-- The tables are built from the banks and the map, not from the decode. -/
theorem selectTask_decoded (g : Tcc1014) (tr : BitVec 4) :
    (g.decoded s z ras).selectTask tr = (g.selectTask tr).decoded s z ras := by
  unfold Tcc1014.selectTask
  by_cases h : tr ≠ g.tr
  · rw [if_pos h]
    exact if_pos h
  · rw [if_neg h]
    exact if_neg h

theorem writeVbank_decoded (g : Tcc1014) (val : Byte) :
    (g.decoded s z ras).writeVbank val = (g.writeVbank val).decoded s z ras := by
  unfold Tcc1014.writeVbank
  by_cases h : g.bankMask ≠ 0x3F
  · rw [if_pos h]
    exact if_pos h
  · rw [if_neg h]
    exact if_neg h

theorem writeInit1_decoded (g : Tcc1014) (val : Byte) :
    (g.decoded s z ras).writeInit1 val = (g.writeInit1 val).decoded s z ras := by
  unfold Tcc1014.writeInit1
  rw [selectTimer_decoded, selectTask_decoded]

/-- No register write looks at the decode of the last cycle. -/
theorem writeRegister_decoded (g : Tcc1014) (reg : BitVec 4) (val : Byte) :
    (g.decoded s z ras).writeRegister reg val = (g.writeRegister reg val).decoded s z ras := by
  unfold Tcc1014.writeRegister
  dsimp only
  split
  · rfl
  · exact writeInit1_decoded s z ras { g with registers := Function.update g.registers reg val } val
  · rfl
  · rfl
  · rfl
  · rfl
  · rfl
  · rfl
  · exact writeVbank_decoded s z ras { g with registers := Function.update g.registers reg val } val
  all_goals rfl

/-- Nor does a write that is snooped. -/
theorem snoopPia1b_decoded (g : Tcc1014) (addr : Word) (val : Byte) :
    (g.decoded s z ras).snoopPia1b addr val = (g.snoopPia1b addr val).decoded s z ras := by
  unfold Tcc1014.snoopPia1b
  split
  · by_cases h : g.pia1bDdr = true
    · rw [if_pos h]
      exact if_pos h
    · rw [if_neg h]
      exact if_neg h
  split
  · rfl
  · rfl

/-- Two chips that differ in the decode left behind. -/
def SameButDecode (g g' : Tcc1014) : Prop := ∃ s z ras, g' = g.decoded s z ras

/-- Two cycles of such chips. -/
structure SameCycle (c c' : Tcc1014.Cycle) : Prop where
  gime : SameButDecode c.gime c'.gime
  data : c'.data = c.data
  isReg : c'.isReg = c.isReg
  select : c.isReg = false → c'.gime.s = c.gime.s ∧ c'.gime.ras = c.gime.ras ∧
    (c.gime.ras = true → c'.gime.z = c.gime.z)

theorem SameCycle.refl (c : Tcc1014.Cycle) : SameCycle c c :=
  ⟨⟨c.gime.s, c.gime.z, c.gime.ras, rfl⟩, rfl, rfl, fun _ => ⟨rfl, rfl, fun _ => rfl⟩⟩

theorem SameCycle.register {g g' : Tcc1014} (h : SameButDecode g g') (data : Byte) :
    SameCycle { gime := g, data, isReg := true } { gime := g', data, isReg := true } :=
  ⟨h, rfl, rfl, fun hreg => absurd hreg (by simp)⟩

/-- A cycle that leaves RAS low. -/
theorem SameCycle.off {g g' : Tcc1014} (h : SameButDecode g g') (hs : g'.s = g.s)
    (hras : g.ras = false) (hras' : g'.ras = false) : SameCycle { gime := g } { gime := g' } := by
  refine ⟨h, rfl, rfl, fun _ => ⟨hs, hras'.trans hras.symm, ?_⟩⟩
  intro htrue
  exact absurd (hras.symm.trans htrue) (by simp)

theorem snoopPia1b_select (g : Tcc1014) (addr : Word) (val : Byte) :
    (g.snoopPia1b addr val).s = g.s ∧ (g.snoopPia1b addr val).ras = g.ras := by
  unfold Tcc1014.snoopPia1b
  split
  · split
    · exact ⟨rfl, rfl⟩
    · exact ⟨rfl, rfl⟩
  split
  · exact ⟨rfl, rfl⟩
  · exact ⟨rfl, rfl⟩

/-- A register access sets nothing that a machine reads of S, Z or RAS. -/
theorem registerCycle_decoded (g : Tcc1014) (addr : Word) (rnw : Bool) (val : Byte) :
    SameCycle (g.registerCycle addr rnw val) ((g.decoded s z ras).registerCycle addr rnw val) := by
  unfold Tcc1014.registerCycle
  split
  · exact .register ⟨s, z, ras, writeRegister_decoded s z ras g _ val⟩ _
  split
  · exact .register ⟨s, z, ras, rfl⟩ _
  split
  · exact .register ⟨s, z, ras, rfl⟩ _
  by_cases h : addr = 0xFF9B ∧ g.bankMask ≠ 0x3F
  · have h' : addr = 0xFF9B ∧ (g.decoded s z ras).bankMask ≠ 0x3F := h
    rw [if_pos h, if_pos h']
    exact .register ⟨s, z, ras, rfl⟩ _
  · have h' : ¬(addr = 0xFF9B ∧ (g.decoded s z ras).bankMask ≠ 0x3F) := h
    rw [if_neg h, if_neg h']
    exact .register ⟨s, z, ras, rfl⟩ _

/-- A cycle sets S and RAS, and Z where RAS asks for it. -/
theorem memCycle_decoded (g : Tcc1014) (addr : Word) (rnw : Bool) (val : Byte) :
    SameCycle (g.memCycle addr rnw val) ((g.decoded s z ras).memCycle addr rnw val) := by
  have hsampled : { (g.decoded s z ras).edgeDetectIl with s := .none, ras := false } =
      { g.edgeDetectIl with s := .none, ras := false }.decoded .none z false := by
    rw [edgeDetectIl_decoded]
    rfl
  have hoff : { g.edgeDetectIl with s := .none, ras := false }.s = .none ∧
      { g.edgeDetectIl with s := .none, ras := false }.ras = false := ⟨rfl, rfl⟩
  unfold Tcc1014.memCycle
  rw [hsampled]
  generalize { g.edgeDetectIl with s := .none, ras := false } = b at hoff ⊢
  obtain ⟨hs, hras⟩ := hoff
  by_cases hmemory : addr < 0xFF00
  · rw [if_pos hmemory, if_pos hmemory]
    exact .refl _
  rw [if_neg hmemory, if_neg hmemory]
  by_cases hpia : addr < 0xFF40
  · rw [if_pos hpia, if_pos hpia]
    by_cases hlow : addr &&& 0x10 = 0
    · rw [if_pos hlow, if_pos hlow]
      cases rnw with
      | false =>
        have hsnoop := snoopPia1b_decoded .pia z false { b with s := .pia } addr val
        have hpia := snoopPia1b_select { b with s := .pia } addr val
        have hpia' := snoopPia1b_select { b.decoded .none z false with s := .pia } addr val
        exact .off ⟨.pia, z, false, hsnoop⟩ (hpia'.1.trans hpia.1.symm) (hpia.2.trans hras) hpia'.2
      | true => exact .off ⟨.pia, z, false, rfl⟩ rfl hras rfl
    · rw [if_neg hlow, if_neg hlow]
      exact .off ⟨.none, z, false, rfl⟩ hs.symm hras rfl
  rw [if_neg hpia, if_neg hpia]
  by_cases hscs : addr < 0xFF60
  · rw [if_pos hscs, if_pos hscs]
    by_cases hmc2 : b.mc2 = true ∨ 0xFF50 ≤ addr
    · have hmc2' : (b.decoded .none z false).mc2 = true ∨ 0xFF50 ≤ addr := hmc2
      rw [if_pos hmc2, if_pos hmc2']
      exact .off ⟨.scs, z, false, rfl⟩ rfl hras rfl
    · have hmc2' : ¬((b.decoded .none z false).mc2 = true ∨ 0xFF50 ≤ addr) := hmc2
      rw [if_neg hmc2, if_neg hmc2']
      exact .off ⟨.none, z, false, rfl⟩ hs.symm hras rfl
  rw [if_neg hscs, if_neg hscs]
  by_cases hnone : addr < 0xFF90
  · rw [if_pos hnone, if_pos hnone]
    exact .off ⟨.none, z, false, rfl⟩ hs.symm hras rfl
  rw [if_neg hnone, if_neg hnone]
  by_cases hregister : addr < 0xFFA0
  · rw [if_pos hregister, if_pos hregister]
    exact registerCycle_decoded .none z false b addr rnw val
  rw [if_neg hregister, if_neg hregister]
  by_cases hmmu : addr < 0xFFB0
  · rw [if_pos hmmu, if_pos hmmu]
    cases rnw with
    | false => exact .register ⟨.none, z, false, rfl⟩ _
    | true => exact .register ⟨.none, z, false, rfl⟩ _
  rw [if_neg hmmu, if_neg hmmu]
  by_cases hpalette : addr < 0xFFC0
  · rw [if_pos hpalette, if_pos hpalette]
    cases rnw with
    | false => exact .register ⟨.none, z, false, rfl⟩ _
    | true => exact .register ⟨.none, z, false, rfl⟩ _
  rw [if_neg hpalette, if_neg hpalette]
  by_cases hsam : addr < 0xFFE0
  · rw [if_pos hsam, if_pos hsam]
    cases rnw with
    | false => exact .register ⟨.none, z, false, rfl⟩ _
    | true => exact .register ⟨.none, z, false, rfl⟩ _
  rw [if_neg hsam, if_neg hsam]
  exact .off ⟨.rom, z, false, rfl⟩ rfl hras rfl

end

end CocoEmulator.Gime
