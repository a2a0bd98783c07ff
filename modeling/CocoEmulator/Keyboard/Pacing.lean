/-
  Keyboard/Pacing.lean --- what the guest sees of a run of host key events and ticks.

  A `Log` runs beside the queue.  It numbers the changes as they are queued, keeps with
  each the SHIFT state it was typed with, and notes when each reaches the matrix.  It never
  decides anything (`run_kb`).

      Log.tick_inv, Log.queue_inv    a tick and a queued change keep the books
      paced_keyboard                 order, hold and gap times, SHIFT and the final drain
-/
import CocoEmulator.Keyboard.KeyQueue
import Mathlib.Data.List.Perm.Basic

set_option autoImplicit false

namespace CocoEmulator.Keyboard

open CocoEmulator.Base KeyState

/-! ## The system and its log -/

/-- A frame tick, or an event of the host keyboard. -/
inductive Event
  | tick
  | vk (map : Option VkMap) (pressed shiftHeld : Bool)

def Event.step : Event → KeyState → KeyState
  | .tick, k => k.tickKeyQueue
  | .vk map pressed shiftHeld, k => processVk map pressed shiftHeld k

/-- A queued change, and the SHIFT state its key was typed with. -/
structure Entry where
  id : Nat
  op : KeyOp
  shift : Bool

/-- A change that reached the matrix: the tick, and SHIFT in the matrix then. -/
structure Applied where
  entry : Entry
  time : Nat
  shift : Bool

structure Log where
  kb : KeyState
  ticks : Nat := 0
  queued : Nat := 0
  pending : List Entry := []
  applied : List Applied := []

namespace Log

def init : Log where
  kb := halKeyboardInit

/-- One change asked for. -/
def queue (shift : Bool) (l : Log) (r : Cell × Bool) : Log :=
  { l with
    kb := l.kb.queueCell r.1 r.2
    queued := l.queued + (l.kb.newOps r.1 r.2).length
    pending := l.pending ++ (l.kb.newOps r.1 r.2).map fun op => ⟨l.queued, op, shift⟩ }

/-- A tick on which nothing is due. -/
def wait (l : Log) : Log := { l with kb := l.kb.tickKeyQueue, ticks := l.ticks + 1 }

def tick (l : Log) : Log :=
  match scan l.kb.aged [] l.kb.keyq with
  | none => l.wait
  | some (before, _, _) =>
    match l.pending.drop before.length with
    | [] => l.wait
    | e :: rest =>
      { l.wait with
        pending := l.pending.take before.length ++ rest
        applied := l.applied ++
          [⟨e, l.ticks + 1, l.kb.tickKeyQueue.keyMatrix.down shiftCell⟩] }

end Log

/-- The SHIFT state an event types its key with. -/
def typedShift (map : Option VkMap) (shiftHeld : Bool) : Bool :=
  match map with
  | none => false
  | some k => k.wantShift shiftHeld

def Event.log : Event → Log → Log
  | .tick, l => l.tick
  | .vk map pressed shiftHeld, l =>
    (requests map pressed shiftHeld).foldl (Log.queue (typedShift map shiftHeld)) l

/-- The log takes the queue as it is. -/
theorem log_kb (e : Event) (l : Log) : (e.log l).kb = e.step l.kb := by
  cases e with
  | tick =>
    simp only [Event.log, Event.step, Log.tick]
    split
    · rfl
    · split <;> rfl
  | vk map pressed shiftHeld =>
    simp only [Event.log, Event.step, processVk_eq]
    generalize requests map pressed shiftHeld = rs
    induction rs generalizing l with
    | nil => rfl
    | cons r rs ih => exact ih _

/-! ## The books -/

/-- Changes that keep their order: of one cell, or both never overtaken. -/
def Related (a b : KeyOp) : Prop := a.cell = b.cell ∨ (a.ordered = true ∧ b.ordered = true)

/-- Each waiting press was typed with the SHIFT state the matrix will have when the changes
before it are through; `b` is SHIFT now. -/
def ShiftOk : Bool → List Entry → Prop
  | _, [] => True
  | b, e :: es =>
    (e.op.press = true → e.op.cell ≠ shiftCell → e.shift = b) ∧
      ShiftOk (if e.op.cell = shiftCell then e.op.press else b) es

structure Log.Inv (l : Log) : Prop where
  ops : l.kb.keyq = l.pending.map (·.op)
  target : l.kb.TargetInv
  once : (l.applied.map (·.entry.id) ++ l.pending.map (·.id)).Perm (List.range l.queued)
  sorted : l.pending.Pairwise (·.id < ·.id)
  order : l.applied.Pairwise fun x y => Related x.entry.op y.entry.op → x.entry.id < y.entry.id
  late : ∀ x ∈ l.applied, ∀ y ∈ l.pending, Related x.entry.op y.op → x.entry.id < y.id
  hold : l.applied.Pairwise fun x y =>
    x.entry.op.cell = y.entry.op.cell → x.time + y.entry.op.need ≤ y.time
  age : ∀ x ∈ l.applied, x.time + l.kb.cellAge x.entry.op.cell ≤ l.ticks
  matrix : ∀ c, l.kb.keyMatrix.down c = after c false (l.applied.map (·.entry.op))
  shiftOk : ShiftOk (l.kb.keyMatrix.down shiftCell) l.pending
  shift : ∀ x ∈ l.applied, x.entry.op.press = true → x.entry.op.cell ≠ shiftCell →
    x.shift = x.entry.shift

/-! ## SHIFT -/

theorem ordered_eq_false {op : KeyOp} :
    op.ordered = false ↔ op.press = false ∧ op.cell ≠ shiftCell := by
  unfold KeyOp.ordered
  simp

theorem shiftOk_cons {b : Bool} {e : Entry} {es : List Entry} : ShiftOk b (e :: es) ↔
    (e.op.press = true → e.op.cell ≠ shiftCell → e.shift = b) ∧
      ShiftOk (if e.op.cell = shiftCell then e.op.press else b) es := Iff.rfl

/-- What may be overtaken does not matter to SHIFT. -/
theorem shiftOk_overtaken {b : Bool} {es rest : List Entry} (h : ∀ e ∈ es, e.op.ordered = false) :
    ShiftOk b (es ++ rest) ↔ ShiftOk b rest := by
  induction es with
  | nil => exact Iff.rfl
  | cons e es ih =>
    obtain ⟨hpress, hcell⟩ := ordered_eq_false.mp (h e List.mem_cons_self)
    rw [List.cons_append, shiftOk_cons, if_neg hcell,
      ih fun e' he' => h e' (List.mem_cons_of_mem e he')]
    refine and_iff_right ?_
    intro htrue
    exact absurd (hpress.symm.trans htrue) (by simp)

theorem shiftOk_append {b : Bool} {es : List Entry} {e : Entry} :
    ShiftOk b (es ++ [e]) ↔ ShiftOk b es ∧ (e.op.press = true → e.op.cell ≠ shiftCell →
      e.shift = after shiftCell b (es.map (·.op))) := by
  induction es generalizing b with
  | nil => simp [ShiftOk, after]
  | cons e' es ih =>
    rw [List.cons_append, shiftOk_cons, shiftOk_cons, ih, List.map_cons, after_cons, and_assoc]

/-! ## One queued change -/

namespace Log

variable {l : Log}

theorem inv_init : init.Inv := by
  constructor
  · rfl
  · intro c
    rfl
  · exact List.Perm.refl _
  · exact List.Pairwise.nil
  · exact List.Pairwise.nil
  · intro x hx
    exact absurd hx (by simp [init])
  · exact List.Pairwise.nil
  · intro x hx
    exact absurd hx (by simp [init])
  · intro c
    have hbit : (0xFF : Byte).getLsbD c.row.val = true := by
      have hrow := c.row.isLt
      have hall : ∀ i, i < 8 → (0xFF : Byte).getLsbD i = true := by decide
      exact hall _ hrow
    show (!(0xFF : Byte).getLsbD c.row.val) = false
    rw [hbit]
    rfl
  · exact trivial
  · intro x hx
    exact absurd hx (by simp [init])

/-- Every change that is known was numbered before the next one. -/
theorem Inv.id_lt (h : l.Inv) {n : Nat}
    (hn : n ∈ l.applied.map (·.entry.id) ++ l.pending.map (·.id)) : n < l.queued :=
  List.mem_range.mp (h.once.mem_iff.mp hn)

/-- A queued change keeps the books, if a press is queued with the SHIFT state it will find. -/
theorem queue_inv (h : l.Inv) (hroom : l.kb.keyq.length < keyqSize) {shift : Bool}
    {r : Cell × Bool}
    (hshift : r.2 = true → r.1 ≠ shiftCell → shift = l.kb.keyTarget.down shiftCell) :
    (l.queue shift r).Inv := by
  have hcell := queueCell_room hroom r.1 r.2
  have htarget := h.target.queueCell hroom r.1 r.2
  have hkeyq : (l.kb.queueCell r.1 r.2).keyq = l.kb.keyq ++ l.kb.newOps r.1 r.2 := by
    rw [hcell]
  have hmatrix : (l.kb.queueCell r.1 r.2).keyMatrix = l.kb.keyMatrix := by
    rw [hcell]
  have hage : (l.kb.queueCell r.1 r.2).cellAge = l.kb.cellAge := by
    rw [hcell]
  unfold queue
  unfold newOps at hkeyq ⊢
  by_cases hsame : l.kb.keyTarget.down r.1 = r.2
  · -- the change is dropped
    rw [if_pos hsame] at hkeyq ⊢
    simp only [List.map_nil, List.append_nil, List.length_nil, Nat.add_zero] at hkeyq ⊢
    exact { h with
      ops := hkeyq.trans h.ops
      target := htarget
      age := by
        intro x hx
        rw [hage]
        exact h.age x hx
      matrix := by
        intro c
        rw [hmatrix]
        exact h.matrix c
      shiftOk := by
        rw [hmatrix]
        exact h.shiftOk }
  · rw [if_neg hsame] at hkeyq ⊢
    simp only [List.map_cons, List.map_nil, List.length_singleton] at hkeyq ⊢
    exact { h with
      ops := by
        rw [hkeyq, h.ops, List.map_append]
        rfl
      target := htarget
      once := by
        rw [List.map_append, ← List.append_assoc, List.range_succ]
        exact h.once.append_right _
      sorted := by
        refine List.pairwise_append.mpr ⟨h.sorted, List.pairwise_singleton _ _, ?_⟩
        intro e he e' he'
        rw [List.mem_singleton.mp he']
        exact h.id_lt (List.mem_append_right _ (List.mem_map_of_mem he))
      late := by
        intro x hx y hy hrel
        rcases List.mem_append.mp hy with hy | hy
        · exact h.late x hx y hy hrel
        · rw [List.mem_singleton.mp hy]
          exact h.id_lt (List.mem_append_left _ (List.mem_map_of_mem hx))
      age := by
        intro x hx
        rw [hage]
        exact h.age x hx
      matrix := by
        intro c
        rw [hmatrix]
        exact h.matrix c
      shiftOk := by
        rw [hmatrix, shiftOk_append]
        refine ⟨h.shiftOk, ?_⟩
        intro hpress hother
        -- the queue so far leads to the target
        rw [← h.ops, ← h.target shiftCell]
        exact hshift hpress hother }

/-! ## One tick -/

/-- The entry a tick applies. -/
theorem Inv.entry (h : l.Inv) {before rest : List KeyOp} {op : KeyOp}
    (hdue : Due l.kb.aged l.kb.keyq before op rest) : ∃ es e es', l.pending = es ++ e :: es' ∧
      es.map (·.op) = before ∧ e.op = op ∧ es'.map (·.op) = rest := by
  have hsplit := h.ops.symm.trans hdue.split
  obtain ⟨es, tail, hpending, hes, htail⟩ := List.map_eq_append_iff.mp hsplit
  obtain ⟨e, es', rfl, hop, hes'⟩ := List.map_eq_cons_iff.mp htail
  exact ⟨es, e, es', hpending, hes, hop, hes'⟩

theorem wait_inv (h : l.Inv) (htick : l.kb.tickKeyQueue = { l.kb with cellAge := l.kb.aged }) :
    l.wait.Inv := by
  have htarget := h.target.tick
  unfold wait
  rw [htick] at htarget ⊢
  exact { h with
    target := htarget
    age := by
      intro x hx
      have hx' := h.age x hx
      dsimp only
      unfold aged
      split <;> omega }

theorem tick_inv (h : l.Inv) : l.tick.Inv := by
  rcases tick_cases l.kb with ⟨hscan, htick⟩ | ⟨before, op, rest, hscan, hdue, htick⟩
  · unfold tick
    rw [hscan]
    exact wait_inv h htick
  · obtain ⟨es, e, es', hpending, rfl, rfl, rfl⟩ := h.entry hdue
    have hmem : e ∈ l.pending := by
      rw [hpending]
      simp
    have hover : ∀ e' ∈ es, e'.op.ordered = false := by
      intro e' he'
      exact hdue.overtaken e'.op (List.mem_map_of_mem he')
    have hsorted := h.sorted
    rw [hpending] at hsorted
    obtain ⟨hes, hrest, _⟩ := List.pairwise_append.mp hsorted
    obtain ⟨hfirst, hes'⟩ := List.pairwise_cons.mp hrest
    have hshift := h.shiftOk
    rw [hpending, shiftOk_overtaken hover, shiftOk_cons] at hshift
    have htarget := h.target.tick
    unfold tick wait
    rw [hscan]
    dsimp only
    rw [hpending, List.length_map, List.drop_left, List.take_left]
    dsimp only
    rw [htick] at htarget ⊢
    have hset (c : Cell) : (l.kb.applied (es.map (·.op)) e.op (es'.map (·.op))).keyMatrix.down c =
        if c = e.op.cell then e.op.press else l.kb.keyMatrix.down c := Matrix.down_set ..
    constructor
    · exact List.map_append.symm
    · exact htarget
    · -- the entry moves from the waiting ones to the applied ones
      have honce := h.once
      rw [hpending, List.map_append, List.map_cons] at honce
      rw [List.map_append, List.map_append, List.append_assoc]
      refine List.Perm.trans (List.Perm.append_left _ ?_) honce
      rw [List.map_singleton, List.singleton_append]
      exact List.perm_middle.symm
    · refine List.pairwise_append.mpr ⟨hes, hes', ?_⟩
      intro x hx y hy
      exact (List.pairwise_append.mp hsorted).2.2 x hx y (List.mem_cons_of_mem e hy)
    · refine List.pairwise_append.mpr ⟨h.order, List.pairwise_singleton _ _, ?_⟩
      intro x hx y hy hrel
      rw [List.mem_singleton.mp hy] at hrel ⊢
      exact h.late x hx e hmem hrel
    · intro x hx y hy hrel
      rcases List.mem_append.mp hx with hx | hx
      · refine h.late x hx y ?_ hrel
        rw [hpending]
        rcases List.mem_append.mp hy with hy | hy
        · exact List.mem_append_left _ hy
        · exact List.mem_append_right _ (List.mem_cons_of_mem e hy)
      · rw [List.mem_singleton.mp hx] at hrel ⊢
        rcases List.mem_append.mp hy with hy | hy
        · -- only releases of other cells are overtaken
          exfalso
          rcases hrel with hsame | hboth
          · exact hdue.unblocked y.op (List.mem_map_of_mem hy) hsame.symm
          · exact absurd ((hover y hy).symm.trans hboth.2) (by simp)
        · exact hfirst y hy
    · refine List.pairwise_append.mpr ⟨h.hold, List.pairwise_singleton _ _, ?_⟩
      intro x hx y hy hsame
      rw [List.mem_singleton.mp hy] at hsame ⊢
      have hx' := h.age x hx
      have hripe := hdue.ripe
      have haged : l.kb.aged e.op.cell ≤ l.kb.cellAge e.op.cell + 1 := by
        unfold aged
        split <;> omega
      rw [hsame] at hx'
      dsimp only at hx' ⊢
      omega
    · intro x hx
      unfold KeyState.applied
      dsimp only
      rcases List.mem_append.mp hx with hx | hx
      · have hx' := h.age x hx
        have haged : l.kb.aged x.entry.op.cell ≤ l.kb.cellAge x.entry.op.cell + 1 := by
          unfold aged
          split <;> omega
        by_cases hsame : x.entry.op.cell = e.op.cell
        · rw [hsame, Function.update_self]
          omega
        · rw [Function.update_of_ne hsame]
          omega
      · rw [List.mem_singleton.mp hx, Function.update_self]
    · intro c
      rw [hset, List.map_append, after_append, ← h.matrix c]
      show _ = if e.op.cell = c then e.op.press else l.kb.keyMatrix.down c
      simp only [eq_comm]
    · rw [hset, shiftOk_overtaken hover]
      simp only [eq_comm (a := shiftCell)]
      exact hshift.2
    · intro x hx hpress hother
      rcases List.mem_append.mp hx with hx | hx
      · exact h.shift x hx hpress hother
      · rw [List.mem_singleton.mp hx] at hpress hother ⊢
        dsimp only at hpress hother ⊢
        rw [hset, if_neg fun heq => hother heq.symm]
        exact (hshift.1 hpress hother).symm

end Log

/-! ## Events -/

/-- Each press comes with SHIFT asked for as it was typed; `b` is SHIFT in the target. -/
def Typed (shift : Bool) : Bool → List (Cell × Bool) → Prop
  | _, [] => True
  | b, r :: rs =>
    (r.2 = true → r.1 ≠ shiftCell → shift = b) ∧
      Typed shift (if r.1 = shiftCell then r.2 else b) rs

theorem requests_typed (map : Option VkMap) (pressed shiftHeld : Bool) (b : Bool) :
    Typed (typedShift map shiftHeld) b (requests map pressed shiftHeld) := by
  cases map with
  | none => exact trivial
  | some k =>
    unfold requests typedShift
    dsimp only
    split
    · exact ⟨fun _ hother => absurd rfl hother, trivial⟩
    · split
      · -- SHIFT first, then the press
        refine ⟨fun _ hother => absurd rfl hother, ?_⟩
        rw [if_pos rfl]
        split
        · exact ⟨fun _ _ => rfl, trivial⟩
        · exact trivial
      · next hrelease =>
        split <;> split <;> simp [Typed, hrelease]

namespace Log

theorem queue_length (shift : Bool) (rs : List (Cell × Bool)) (l : Log) :
    l.kb.keyq.length ≤ (rs.foldl (Log.queue shift) l).kb.keyq.length := by
  induction rs generalizing l with
  | nil => exact Nat.le_refl _
  | cons r rs ih =>
    have hr : l.kb.keyq.length ≤ (l.queue shift r).kb.keyq.length := queueCell_length l.kb r.1 r.2
    exact Nat.le_trans hr (ih _)

theorem requests_inv {l : Log} (h : l.Inv) {shift : Bool} {rs : List (Cell × Bool)}
    (htyped : Typed shift (l.kb.keyTarget.down shiftCell) rs)
    (hroom : (rs.foldl (Log.queue shift) l).kb.keyq.length < keyqSize) :
    (rs.foldl (Log.queue shift) l).Inv := by
  induction rs generalizing l with
  | nil => exact h
  | cons r rs ih =>
    have hstart : l.kb.keyq.length < keyqSize :=
      Nat.lt_of_le_of_lt (queue_length shift (r :: rs) l) hroom
    have hshift : (l.queue shift r).kb.keyTarget.down shiftCell =
        if r.1 = shiftCell then r.2 else l.kb.keyTarget.down shiftCell := by
      show (l.kb.queueCell r.1 r.2).keyTarget.down shiftCell = _
      rw [queueCell_room hstart]
      dsimp only
      rw [Matrix.down_set]
      simp only [eq_comm]
    refine ih (queue_inv h hstart htyped.1) ?_ hroom
    rw [hshift]
    exact htyped.2

/-- An event keeps the books as long as the queue does not fill. -/
theorem log_inv {l : Log} (h : l.Inv) (e : Event)
    (hroom : (e.step l.kb).keyq.length < keyqSize) : (e.log l).Inv := by
  cases e with
  | tick => exact tick_inv h
  | vk map pressed shiftHeld =>
    rw [← log_kb] at hroom
    exact requests_inv h (requests_typed map pressed shiftHeld _) hroom

end Log

/-- A run of the log beside a run of the queue. -/
theorem runAll_log {l : Log} (h : l.Inv) {events : List Event}
    (hroom : Always Event.step (fun k => k.keyq.length < keyqSize) events l.kb) :
    (runAll Event.log events l).Inv ∧
      (runAll Event.log events l).kb = runAll Event.step events l.kb := by
  induction events generalizing l with
  | nil => exact ⟨h, rfl⟩
  | cons e events ih =>
    obtain ⟨_, hrest⟩ := hroom
    have hstep := Log.log_inv h e hrest.head
    rw [← log_kb] at hrest
    obtain ⟨hinv, hkb⟩ := ih hstep hrest
    rw [log_kb] at hkb
    exact ⟨hinv, hkb⟩

/-! ## What the guest sees -/

/-- The law of a log.  `once`: every change queued so far is applied or waits, once.  `order`
and `late`: related changes are applied in the order queued, and none is applied while an
earlier one waits.  `hold`: a change comes a gap or hold time after the change of its cell
before it.  `shift`: a press finds SHIFT as it was typed. -/
structure Paced (l : Log) : Prop where
  once : (l.applied.map (·.entry.id) ++ l.pending.map (·.id)).Perm (List.range l.queued)
  ops : l.kb.keyq = l.pending.map (·.op)
  matrix : ∀ c, l.kb.keyMatrix.down c = after c false (l.applied.map (·.entry.op))
  order : l.applied.Pairwise fun x y => Related x.entry.op y.entry.op → x.entry.id < y.entry.id
  late : ∀ x ∈ l.applied, ∀ y ∈ l.pending, Related x.entry.op y.op → x.entry.id < y.id
  hold : l.applied.Pairwise fun x y =>
    x.entry.op.cell = y.entry.op.cell → x.time + y.entry.op.need ≤ y.time
  shift : ∀ x ∈ l.applied, x.entry.op.press = true → x.entry.op.cell ≠ shiftCell →
    x.shift = x.entry.shift
  oneCell : ∃ c, ∀ d, d ≠ c → l.kb.tickKeyQueue.keyMatrix.down d = l.kb.keyMatrix.down d
  drain : ∀ n, minHoldFrames * l.kb.keyq.length ≤ n →
    (tickKeyQueue^[n] l.kb).keyq = [] ∧ (tickKeyQueue^[n] l.kb).keyMatrix = l.kb.keyTarget

theorem Log.Inv.paced {l : Log} (h : l.Inv) : Paced l where
  once := h.once
  ops := h.ops
  matrix := h.matrix
  order := h.order
  late := h.late
  hold := h.hold
  shift := h.shift
  oneCell := tick_one_cell l.kb
  drain _ hn := ticks_matrix h.target hn

/-- In every run of ticks and host key events in which the queue does not fill, the log of the
run is paced, and it is the log of that run. -/
theorem paced_keyboard (events : List Event)
    (hroom : Always Event.step (fun k => k.keyq.length < keyqSize) events halKeyboardInit) :
    Paced (runAll Event.log events Log.init) ∧
      (runAll Event.log events Log.init).kb = runAll Event.step events halKeyboardInit := by
  obtain ⟨hinv, hkb⟩ := runAll_log Log.inv_init hroom
  exact ⟨hinv.paced, hkb⟩

/-- `A` typed with SHIFT held, and released at once. -/
def shiftedTap : List Event :=
  [.vk (some { col := 1, row := 0 }) true true, .vk (some { col := 1, row := 0 }) false false,
    .tick, .tick]

theorem paced_keyboard_tap :
    Paced (runAll Event.log shiftedTap Log.init) := by
  have hroom : Always Event.step (fun k => k.keyq.length < keyqSize) shiftedTap
      halKeyboardInit := by
    decide +kernel
  exact (paced_keyboard shiftedTap hroom).1

end CocoEmulator.Keyboard
