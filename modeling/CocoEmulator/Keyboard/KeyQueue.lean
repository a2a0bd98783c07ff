/-
  Keyboard/KeyQueue.lean --- the paced key queue (hal_keyboard.cpp).

  A host key event does not touch the matrix the guest reads.  It is queued against
  `key_target`, the matrix as it will be once the queue is empty, and every frame tick
  applies at most one queued change that has served the hold or gap time of its cell.

      scan_some, scan_none    what the search of a tick finds
      queueCell_room          what a change queues, while there is room
-/
import Mathlib.Data.Fin.Basic
import Mathlib.Logic.Function.Basic
import CocoEmulator.Base.Run
import CocoEmulator.Base.Words

set_option autoImplicit false

namespace CocoEmulator.Keyboard

open CocoEmulator.Base

/-- `MIN_HOLD_FRAMES`. -/
def minHoldFrames : Nat := 4

/-- `MIN_GAP_FRAMES`. -/
def minGapFrames : Nat := 2

/-- `KEYQ_SIZE`. -/
def keyqSize : Nat := 64

/-- A cell of the matrix, by column and row. -/
structure Cell where
  col : Fin 8
  row : Fin 8
  deriving DecidableEq

/-- `COCO_SHIFT_COL`, `COCO_SHIFT_ROW`. -/
def shiftCell : Cell := ⟨⟨7, by decide⟩, ⟨6, by decide⟩⟩

/-- `KeyOp`. -/
structure KeyOp where
  cell : Cell
  press : Bool
  deriving DecidableEq

/-- A matrix, a byte for each column; a clear bit is a pressed key. -/
abbrev Matrix : Type := Fin 8 → Byte

namespace Matrix

variable (m : Matrix)

/-- Is the key down? -/
def down (c : Cell) : Bool := !(m c.col).getLsbD c.row.val

/-- Press or release a key. -/
def set (c : Cell) (pressed : Bool) : Matrix :=
  let bit : Byte := .twoPow 8 c.row.val
  Function.update m c.col (if pressed = true then m c.col &&& ~~~bit else m c.col ||| bit)

end Matrix

/-- The static state of the module. -/
structure KeyState where
  keyMatrix : Matrix := fun _ => 0xFF
  keyTarget : Matrix := fun _ => 0xFF
  keyq : List KeyOp := []
  cellAge : Cell → Nat

/-- The result of `hal_keyboard_init`. -/
def halKeyboardInit : KeyState where
  cellAge _ := 0xFF

/-- The frames a cell must have been left alone for before a change. -/
def KeyOp.need (op : KeyOp) : Nat := if op.press = true then minGapFrames else minHoldFrames

/-- A press or a SHIFT change, which is never overtaken. -/
def KeyOp.ordered (op : KeyOp) : Bool := op.press || op.cell = shiftCell

/-- The loop of `tick_key_queue` over the queue: what is before the change it applies, the
change, and what is after it. -/
def scan (age : Cell → Nat) : List KeyOp → List KeyOp → Option (List KeyOp × KeyOp × List KeyOp)
  | _, [] => none
  | before, op :: rest =>
    let blocked := before.any fun b => b.cell = op.cell
    if blocked = false ∧ op.need ≤ age op.cell then some (before, op, rest)
    else if op.ordered = true then none
    else scan age (before ++ [op]) rest

namespace KeyState

variable (k : KeyState)

/-- `set_key`. -/
def setKey (op : KeyOp) : KeyState :=
  { k with
    keyMatrix := k.keyMatrix.set op.cell op.press
    cellAge := Function.update k.cellAge op.cell 0 }

/-- `keyq_remove(0)` after `set_key` of the oldest change. -/
def forceOldest : KeyState :=
  match k.keyq with
  | [] => k
  | op :: rest => { k.setKey op with keyq := rest }

/-- `queue_key` on a cell of the matrix. -/
def queueCell (c : Cell) (pressed : Bool) : KeyState :=
  if k.keyTarget.down c = pressed then k
  else
    let k := { k with keyTarget := k.keyTarget.set c pressed }
    let k := if k.keyq.length = keyqSize then k.forceOldest else k
    { k with keyq := k.keyq ++ [⟨c, pressed⟩] }

/-- `queue_key`. -/
def queueKey (col row : Nat) (pressed : Bool) : KeyState :=
  if h : col < 8 ∧ row < 8 then k.queueCell ⟨⟨col, h.1⟩, ⟨row, h.2⟩⟩ pressed else k

/-- `apply_shift`. -/
def applyShift (active : Bool) : KeyState := k.queueCell shiftCell active

/-- The ages at the start of a tick. -/
def aged : Cell → Nat := fun c => if k.cellAge c < 0xFF then k.cellAge c + 1 else k.cellAge c

/-- `tick_key_queue`. -/
def tickKeyQueue : KeyState :=
  let k := { k with cellAge := k.aged }
  match scan k.cellAge [] k.keyq with
  | none => k
  | some (before, op, rest) => { k.setKey op with keyq := before ++ rest }

end KeyState

/-- The parts of a `VkMap` that reach the queue. -/
structure VkMap where
  col : Nat
  row : Nat
  needsShift : Bool := false
  suppressShift : Bool := false

/-- The SHIFT state a key is typed with. -/
def VkMap.wantShift (k : VkMap) (shiftHeld : Bool) : Bool :=
  (shiftHeld && !k.suppressShift) || k.needsShift

/-- `process_vk` from the lookup on: `none` is a key that is not mapped, or that the
supervisor, a hotkey or the joystick has taken. -/
def processVk (map : Option VkMap) (pressed shiftHeld : Bool) (s : KeyState) : KeyState :=
  match map with
  | none => s
  | some k =>
    if k.col = 7 ∧ k.row = 6 then s.applyShift pressed
    else if pressed = true then
      (s.applyShift (k.wantShift shiftHeld)).queueKey k.col k.row true
    else
      let s := s.queueKey k.col k.row false
      if shiftHeld = true then s else s.applyShift false

/-! ## Matrices -/

namespace Matrix

/-- Changing a key changes that key. -/
theorem down_set (m : Matrix) (c d : Cell) (pressed : Bool) :
    (m.set c pressed).down d = if d = c then pressed else m.down d := by
  have hrow := d.row.isLt
  unfold down set
  by_cases hcol : d.col = c.col
  · rw [hcol, Function.update_self]
    by_cases heq : d = c
    · rw [if_pos heq, heq]
      cases pressed <;> simp
    · have hne : d.row.val ≠ c.row.val := by
        intro hval
        apply heq
        cases c
        cases d
        simp only [Cell.mk.injEq]
        exact ⟨hcol, Fin.ext hval⟩
      rw [if_neg heq]
      cases pressed <;> simp [hne, hrow]
  · have hne : d ≠ c := fun heq => hcol (heq ▸ rfl)
    rw [Function.update_of_ne hcol, if_neg hne]

/-- A matrix is what its keys are. -/
theorem ext_down {m m' : Matrix} (h : ∀ c, m.down c = m'.down c) : m = m' := by
  funext col
  apply BitVec.eq_of_getLsbD_eq
  intro row hrow
  have hcell := h ⟨col, ⟨row, hrow⟩⟩
  unfold down at hcell
  simpa using hcell

end Matrix

/-! ## The search of a tick -/

/-- A change that a tick may apply: what is before it are releases of other cells. -/
structure Due (age : Cell → Nat) (q before : List KeyOp) (op : KeyOp) (rest : List KeyOp) :
    Prop where
  split : q = before ++ op :: rest
  overtaken : ∀ b ∈ before, b.ordered = false
  unblocked : ∀ b ∈ before, b.cell ≠ op.cell
  ripe : op.need ≤ age op.cell

theorem scan_some {age : Cell → Nat} {seen q before rest : List KeyOp} {op : KeyOp}
    (h : scan age seen q = some (before, op, rest)) (hseen : ∀ b ∈ seen, b.ordered = false) :
    Due age (seen ++ q) before op rest := by
  induction q generalizing seen with
  | nil => exact absurd h (by simp [scan])
  | cons op' q ih =>
    unfold scan at h
    dsimp only at h
    split at h
    · next hdue =>
      simp only [Option.some.injEq, Prod.mk.injEq] at h
      obtain ⟨rfl, rfl, rfl⟩ := h
      refine ⟨rfl, hseen, ?_, hdue.2⟩
      simpa using hdue.1
    · split at h
      · exact absurd h (by simp)
      · next hordered =>
        have hdue := ih h (by
          intro b hb
          rcases List.mem_append.mp hb with hb | hb
          · exact hseen b hb
          · rw [List.mem_singleton.mp hb]
            simpa using hordered)
        rw [List.append_assoc] at hdue
        exact hdue

/-- The oldest change is never blocked. -/
theorem scan_none {age : Cell → Nat} {op : KeyOp} {rest : List KeyOp}
    (h : scan age [] (op :: rest) = none) : age op.cell < op.need := by
  by_contra hage
  have hdue : ([].any fun b : KeyOp => b.cell = op.cell) = false ∧ op.need ≤ age op.cell :=
    ⟨rfl, Nat.le_of_not_lt hage⟩
  unfold scan at h
  dsimp only at h
  rw [if_pos hdue] at h
  exact absurd h (by simp)

theorem KeyOp.need_le (op : KeyOp) : op.need ≤ minHoldFrames := by
  unfold KeyOp.need
  split <;> decide

/-- A tick that finds something takes one change off the queue. -/
theorem Due.length {age : Cell → Nat} {q before rest : List KeyOp} {op : KeyOp}
    (h : Due age q before op rest) : (before ++ rest).length + 1 = q.length := by
  rw [h.split]
  simp only [List.length_append, List.length_cons]
  omega

/-! ## Ticks -/

namespace KeyState

/-- A tick that applies `op`. -/
def applied (k : KeyState) (before : List KeyOp) (op : KeyOp) (rest : List KeyOp) : KeyState :=
  { k with
    keyMatrix := k.keyMatrix.set op.cell op.press
    cellAge := Function.update k.aged op.cell 0
    keyq := before ++ rest }

/-- A tick applies one change that is due, or only time passes. -/
theorem tick_cases (k : KeyState) :
    (scan k.aged [] k.keyq = none ∧ k.tickKeyQueue = { k with cellAge := k.aged }) ∨
      ∃ before op rest, scan k.aged [] k.keyq = some (before, op, rest) ∧
        Due k.aged k.keyq before op rest ∧ k.tickKeyQueue = k.applied before op rest := by
  unfold tickKeyQueue
  dsimp only
  cases hscan : scan k.aged [] k.keyq with
  | none => exact Or.inl ⟨rfl, rfl⟩
  | some found =>
    obtain ⟨before, op, rest⟩ := found
    exact Or.inr ⟨before, op, rest, rfl, scan_some hscan (by simp), rfl⟩

/-- A tick changes at most one cell. -/
theorem tick_one_cell (k : KeyState) : ∃ c, ∀ d, d ≠ c →
    k.tickKeyQueue.keyMatrix.down d = k.keyMatrix.down d := by
  rcases tick_cases k with ⟨_, htick⟩ | ⟨before, op, rest, _, _, htick⟩
  · rw [htick]
    exact ⟨shiftCell, fun _ _ => rfl⟩
  · refine ⟨op.cell, ?_⟩
    intro d hd
    rw [htick]
    exact (Matrix.down_set ..).trans (if_neg hd)

@[simp] theorem tick_keyTarget (k : KeyState) : k.tickKeyQueue.keyTarget = k.keyTarget := by
  rcases tick_cases k with ⟨_, htick⟩ | ⟨_, _, _, _, _, htick⟩
  · rw [htick]
  · rw [htick]
    rfl

/-! ## The queue leads from the matrix to the target -/

/-- A key after some changes. -/
def after (c : Cell) (b : Bool) (ops : List KeyOp) : Bool :=
  ops.foldl (fun b op => if op.cell = c then op.press else b) b

theorem after_append (c : Cell) (b : Bool) (ops ops' : List KeyOp) :
    after c b (ops ++ ops') = after c (after c b ops) ops' := List.foldl_append

theorem after_cons (c : Cell) (b : Bool) (op : KeyOp) (ops : List KeyOp) :
    after c b (op :: ops) = after c (if op.cell = c then op.press else b) ops := rfl

/-- Changes of other cells. -/
theorem after_other {c : Cell} {b : Bool} {ops : List KeyOp} (h : ∀ op ∈ ops, op.cell ≠ c) :
    after c b ops = b := by
  induction ops generalizing b with
  | nil => rfl
  | cons op ops ih =>
    rw [after_cons, if_neg (h op List.mem_cons_self)]
    exact ih fun op' hop => h op' (List.mem_cons_of_mem op hop)

/-- A change may be made before changes of other cells. -/
theorem after_overtake {c : Cell} {b : Bool} {before : List KeyOp} {op : KeyOp}
    (rest : List KeyOp) (h : ∀ b ∈ before, b.cell ≠ op.cell) :
    after c (if c = op.cell then op.press else b) (before ++ rest) =
      after c b (before ++ op :: rest) := by
  rw [after_append, after_append, after_cons]
  by_cases hc : c = op.cell
  · subst hc
    rw [after_other h, after_other h, if_pos rfl]
  · rw [if_neg hc, if_neg fun heq => hc heq.symm]

/-- The target is the matrix once the queue is through. -/
def TargetInv (k : KeyState) : Prop :=
  ∀ c, k.keyTarget.down c = after c (k.keyMatrix.down c) k.keyq

theorem TargetInv.applied {k : KeyState} (h : k.TargetInv) {before rest : List KeyOp} {op : KeyOp}
    (hsplit : k.keyq = before ++ op :: rest) (hother : ∀ b ∈ before, b.cell ≠ op.cell) :
    (k.applied before op rest).TargetInv := by
  intro c
  have hc := h c
  rw [hsplit, ← after_overtake rest hother] at hc
  unfold KeyState.applied
  dsimp only
  rw [Matrix.down_set]
  exact hc

theorem TargetInv.tick {k : KeyState} (h : k.TargetInv) : k.tickKeyQueue.TargetInv := by
  rcases tick_cases k with ⟨_, htick⟩ | ⟨before, op, rest, _, hdue, htick⟩
  · rw [htick]
    exact h
  · rw [htick]
    exact h.applied hdue.split hdue.unblocked

/-! ## The queue drains -/

theorem tick_nil {k : KeyState} (h : k.keyq = []) : k.tickKeyQueue.keyq = [] := by
  rcases tick_cases k with ⟨_, htick⟩ | ⟨before, op, rest, _, hdue, _⟩
  · rw [htick]
    exact h
  · have hsplit := hdue.split
    rw [h] at hsplit
    exact absurd hsplit.symm (by simp)

theorem ticks_nil {k : KeyState} (h : k.keyq = []) (n : Nat) : (tickKeyQueue^[n] k).keyq = [] := by
  induction n generalizing k with
  | zero => exact h
  | succ n ih => exact ih (tick_nil h)

/-- The oldest change waits for its cell alone: within the rest of its time something is
applied. -/
theorem tick_progress {k : KeyState} {op : KeyOp} {rest : List KeyOp} (h : k.keyq = op :: rest)
    {n : Nat} (hage : minHoldFrames ≤ k.cellAge op.cell + (n + 1)) :
    ∃ i ≤ n + 1, (tickKeyQueue^[i] k).keyq.length = rest.length := by
  have hneed := op.need_le
  induction n generalizing k with
  | zero =>
    rcases tick_cases k with ⟨hscan, _⟩ | ⟨before, op', rest', _, hdue, htick⟩
    · -- the oldest change is due
      rw [h] at hscan
      have hyoung := scan_none hscan
      unfold aged minHoldFrames at *
      split at hyoung <;> omega
    · refine ⟨1, Nat.le_refl _, ?_⟩
      have hlen := hdue.length
      rw [h, List.length_cons] at hlen
      show k.tickKeyQueue.keyq.length = rest.length
      rw [htick]
      exact Nat.succ.inj hlen
  | succ n ih =>
    rcases tick_cases k with ⟨hscan, htick⟩ | ⟨before, op', rest', _, hdue, htick⟩
    · rw [h] at hscan
      have hyoung := scan_none hscan
      have hgrown : k.aged op.cell = k.cellAge op.cell + 1 := by
        unfold aged minHoldFrames at *
        split at hyoung
        · next hlt => rw [if_pos hlt]
        · omega
      obtain ⟨i, hi, hlen⟩ := ih (k := k.tickKeyQueue) (by rw [htick]; exact h) (by
        rw [htick]
        dsimp only
        omega)
      exact ⟨i + 1, Nat.succ_le_succ hi, hlen⟩
    · refine ⟨1, Nat.succ_le_succ (Nat.zero_le _), ?_⟩
      have hlen := hdue.length
      rw [h, List.length_cons] at hlen
      show k.tickKeyQueue.keyq.length = rest.length
      rw [htick]
      exact Nat.succ.inj hlen

/-- Four ticks for each queued change empty the queue. -/
theorem ticks_drain {k : KeyState} {n : Nat} (hn : minHoldFrames * k.keyq.length ≤ n) :
    (tickKeyQueue^[n] k).keyq = [] := by
  generalize hlen : k.keyq.length = len at hn
  induction len generalizing k n with
  | zero => exact ticks_nil (List.length_eq_zero_iff.mp hlen) n
  | succ len ih =>
    cases hq : k.keyq with
    | nil => exact ticks_nil hq n
    | cons op rest =>
      have hrest : rest.length = len := by
        rw [hq, List.length_cons] at hlen
        exact Nat.succ.inj hlen
      obtain ⟨i, hi, hshorter⟩ := tick_progress hq (n := 3) (Nat.le_add_left _ _)
      obtain ⟨j, rfl⟩ : ∃ j, n = j + i := ⟨n - i, by unfold minHoldFrames at hn; omega⟩
      rw [Function.iterate_add_apply]
      refine ih (hshorter.trans hrest) ?_
      unfold minHoldFrames at *
      omega

theorem ticks_target {k : KeyState} (h : k.TargetInv) (n : Nat) :
    (tickKeyQueue^[n] k).TargetInv ∧ (tickKeyQueue^[n] k).keyTarget = k.keyTarget := by
  induction n generalizing k with
  | zero => exact ⟨h, rfl⟩
  | succ n ih =>
    obtain ⟨hinv, htarget⟩ := ih h.tick
    exact ⟨hinv, htarget.trans k.tick_keyTarget⟩

/-- When events stop, the matrix becomes the target. -/
theorem ticks_matrix {k : KeyState} (h : k.TargetInv) {n : Nat}
    (hn : minHoldFrames * k.keyq.length ≤ n) :
    (tickKeyQueue^[n] k).keyq = [] ∧ (tickKeyQueue^[n] k).keyMatrix = k.keyTarget := by
  obtain ⟨hinv, htarget⟩ := ticks_target h n
  have hempty := ticks_drain hn
  refine ⟨hempty, Matrix.ext_down fun c => ?_⟩
  have hc := hinv c
  rw [hempty, htarget] at hc
  exact hc.symm

/-! ## Events -/

/-- What `queue_key` appends. -/
def newOps (k : KeyState) (c : Cell) (pressed : Bool) : List KeyOp :=
  if k.keyTarget.down c = pressed then [] else [⟨c, pressed⟩]

theorem queueCell_length (k : KeyState) (c : Cell) (pressed : Bool) :
    k.keyq.length ≤ (k.queueCell c pressed).keyq.length := by
  unfold queueCell
  split
  · exact Nat.le_refl _
  · dsimp only
    rw [List.length_append]
    split
    · unfold KeyState.forceOldest
      split
      · exact Nat.le_add_right _ _
      · next op rest hq =>
        dsimp only at hq ⊢
        rw [hq]
        exact Nat.le_refl _
    · exact Nat.le_add_right _ _

/-- While there is room, an event only appends. -/
theorem queueCell_room {k : KeyState} (h : k.keyq.length < keyqSize) (c : Cell) (pressed : Bool) :
    k.queueCell c pressed = { k with
      keyTarget := k.keyTarget.set c pressed
      keyq := k.keyq ++ k.newOps c pressed } := by
  unfold queueCell newOps
  split
  · next hsame =>
    have htarget : k.keyTarget.set c pressed = k.keyTarget := by
      apply Matrix.ext_down
      intro d
      rw [Matrix.down_set]
      split
      · next hd => rw [hd, hsame]
      · rfl
    rw [htarget, List.append_nil]
  · dsimp only
    rw [if_neg (Nat.ne_of_lt h)]

theorem TargetInv.queueCell {k : KeyState} (h : k.TargetInv) (hroom : k.keyq.length < keyqSize)
    (c : Cell) (pressed : Bool) : (k.queueCell c pressed).TargetInv := by
  intro d
  have hd := h d
  rw [queueCell_room hroom]
  dsimp only
  rw [Matrix.down_set, after_append, ← hd]
  unfold newOps
  by_cases hdc : d = c
  · subst hdc
    rw [if_pos rfl]
    split
    · next hsame => exact hsame.symm
    · rw [after_cons, if_pos rfl]
      rfl
  · rw [if_neg hdc]
    split
    · rfl
    · rw [after_cons, if_neg fun heq => hdc heq.symm]
      rfl

end KeyState

/-- The changes an event asks for, in order. -/
def requests (map : Option VkMap) (pressed shiftHeld : Bool) : List (Cell × Bool) :=
  match map with
  | none => []
  | some k =>
    if k.col = 7 ∧ k.row = 6 then [(shiftCell, pressed)]
    else
      let key := if h : k.col < 8 ∧ k.row < 8 then [(⟨⟨k.col, h.1⟩, ⟨k.row, h.2⟩⟩, pressed)] else []
      if pressed = true then (shiftCell, k.wantShift shiftHeld) :: key
      else key ++ if shiftHeld = true then [] else [(shiftCell, false)]

theorem processVk_eq (map : Option VkMap) (pressed shiftHeld : Bool) (s : KeyState) :
    processVk map pressed shiftHeld s =
      (requests map pressed shiftHeld).foldl (fun s r => s.queueCell r.1 r.2) s := by
  cases map with
  | none => rfl
  | some k =>
    unfold processVk requests KeyState.applyShift KeyState.queueKey
    dsimp only
    split
    · rfl
    · split
      · next hpressed =>
        subst hpressed
        split <;> rfl
      · next hpressed =>
        have hrelease : pressed = false := by simpa using hpressed
        subst hrelease
        split <;> split <;> rfl

end CocoEmulator.Keyboard
