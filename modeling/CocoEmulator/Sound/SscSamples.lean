/-
  Sound/SscSamples.lean --- the samples of the Speech/Sound Cartridge from core to core.

  Core 0 runs scanlines in batches while fewer than `SSC_AHEAD` samples wait, and
  publishes the head of the ring after a batch.  Core 1 takes one sample a scanline, or
  holds the last one.  Each core moves in steps of one shared access, in any order.

  What the steps of core 0 do to the engine is a list of `Work`, whose samples are those
  of its scanlines; what core 1 plays is the level after each tick that took a sample.

      Queues.step        a step of either core keeps the ring a part of the log
      Queues.tick        a scanline tick takes the oldest sample, or holds the level
      run_recorded       the log is what the works gave and what the ticks played
      ssc_clocks_exact   the clocks and the ring, over any run

  Not modelled: the notification that wakes the task, which may run at any time, and the
  memory order of the two indices.

  Source: ssc.cpp, `ssc_task` and `ssc_scanline_tick`.
-/
import CocoEmulator.Base.RingBuffer
import CocoEmulator.Sound.SscEngine

set_option autoImplicit false

namespace CocoEmulator.Sound.SscEngine

open CocoEmulator.Base

abbrev Index : Type := BitVec 32

/-- `SSC_SMP_SIZE` -/
def smpSize : Nat := 256

/-- `SSC_AHEAD` -/
def ahead : Nat := 48

/-- `SSC_BATCH` -/
def batch : Nat := 8

/-- `ssc_task`: between two batches, or with this many scanlines of one run. -/
inductive Task
  | between
  | inBatch (i : Nat)
deriving DecidableEq, Repr

/-- `ssc_scanline_tick`: outside it, a sample found, or the sample read. -/
inductive Player
  | idle
  | found
  | read (v : Int)
deriving DecidableEq, Repr

/-- Both cores.  The head of the ring is the task's own `head`; `smpHead` is the one that
core 1 sees.  The last three fields are a record. -/
structure TwoCore (χ : Type) where
  engine : Engine χ
  smp : RingBuffer Int := { slot := fun _ => 0 }
  smpHead : Index := 0
  task : Task := .between
  player : Player := .idle
  level : Int := 0
  underruns : Nat := 0
  produced : List Int := []
  delivered : List Int := []
  published : Nat := 0

namespace TwoCore

variable {χ : Type} (hw : Chips χ) (s : TwoCore χ)

/-- After `ssc_load_roms`. -/
def start (chips : χ) : TwoCore χ := { engine := { chips } }

/-! ## Core 0 -/

/-- A command that `engine_drain_commands` takes: it reaches the chips, or resets the engine. -/
def drain (command : Engine χ → Engine χ) : TwoCore χ :=
  match s.task with
  | .between => { s with engine := command s.engine }
  | .inBatch _ => s

/-- The test of the inner loop. -/
def look : TwoCore χ :=
  match s.task with
  | .between => if s.smp.used < ahead then { s with task := .inBatch 0 } else s
  | .inBatch _ => s

/-- One round of the batch. -/
def produce : TwoCore χ :=
  match s.task with
  | .between => s
  | .inBatch i =>
    if i < batch then
      let r := s.engine.runScanline hw
      { s with
        engine := r.2, smp := s.smp.push smpSize [r.1], task := .inBatch (i + 1)
        produced := s.produced ++ [r.1] }
    else s

/-- The end of a batch. -/
def publish : TwoCore χ :=
  match s.task with
  | .between => s
  | .inBatch i =>
    if i < batch then s
    else { s with smpHead := s.smp.head, task := .between, published := s.produced.length }

/-! ## Core 1 -/

/-- A scanline finds a sample, or holds the last one. -/
def tickLook : TwoCore χ :=
  match s.player with
  | .idle =>
    if s.smp.tail ≠ s.smpHead then { s with player := .found }
    else { s with underruns := s.underruns + 1 }
  | .found | .read _ => s

def tickRead : TwoCore χ :=
  match s.player with
  | .found => { s with player := .read (s.smp.slot (s.smp.tail.toNat % smpSize)) }
  | .idle | .read _ => s

def tickStore : TwoCore χ :=
  match s.player with
  | .read v =>
    { s with
      smp := s.smp.advance 1, player := .idle, level := v, delivered := s.delivered ++ [v] }
  | .idle | .found => s

/-- `ssc_reset`, on this side. -/
def sscReset : TwoCore χ := { s with level := 0 }

end TwoCore

/-- The steps of the two cores.  A command is a reset or reaches the chips. -/
inductive CoreStep (χ : Type)
  | reset
  | command (f : χ → χ)
  | look
  | produce
  | publish
  | tickLook
  | tickRead
  | tickStore
  | sscReset

def CoreStep.step {χ : Type} (hw : Chips χ) (c : CoreStep χ) (s : TwoCore χ) : TwoCore χ :=
  match c with
  | .reset => s.drain (Engine.reset hw)
  | .command f => s.drain fun e => { e with chips := f e.chips }
  | .look => s.look
  | .produce => s.produce hw
  | .publish => s.publish
  | .tickLook => s.tickLook
  | .tickRead => s.tickRead
  | .tickStore => s.tickStore
  | .sscReset => s.sscReset

/-! ## What a run does -/

/-- What core 0 does to the engine: a scanline, or a command between two batches. -/
inductive Work (χ : Type)
  | scanline
  | command (f : χ → χ)
  | reset

namespace Work

variable {χ : Type} (hw : Chips χ)

def step (w : Work χ) (e : Engine χ) : Engine χ :=
  match w with
  | .scanline => (e.runScanline hw).2
  | .command f => { e with chips := f e.chips }
  | .reset => e.reset hw

/-- The sample of a scanline. -/
def sample (w : Work χ) (e : Engine χ) : List Int :=
  match w with
  | .scanline => [(e.runScanline hw).1]
  | .command _ | .reset => []

/-- The samples of the scanlines of a run, in order. -/
def samples : List (Work χ) → Engine χ → List Int
  | [], _ => []
  | w :: ws, e => w.sample hw e ++ samples ws (w.step hw e)

end Work

namespace CoreStep

variable {χ : Type} (hw : Chips χ)

/-- What the steps of a run give, one after the other. -/
def along {α : Type} (out : CoreStep χ → TwoCore χ → List α) :
    List (CoreStep χ) → TwoCore χ → List α
  | [], _ => []
  | c :: cs, s => out c s ++ along out cs (c.step hw s)

end CoreStep

namespace TwoCore

variable {χ : Type}

/-- A scanline tick of core 1 with no step of core 0 between its accesses. -/
def tick (s : TwoCore χ) : TwoCore χ := s.tickLook.tickRead.tickStore

/-- The samples that wait, the oldest first. -/
def waiting (s : TwoCore χ) : List Int := s.smp.peek smpSize s.smp.used

end TwoCore

/-! ## The ring -/

/-- How far the task is past what it published, and the room it knows of. -/
def Task.Ahead (task : Task) (published produced delivered : Nat) : Prop :=
  match task with
  | .between => produced = published ∧ produced < delivered + (ahead + batch)
  | .inBatch i => i ≤ batch ∧ produced = published + i ∧ produced < delivered + (ahead + i)

/-- What the player found is published, and what it read is the next sample. -/
def Player.Next (player : Player) (published : Nat) (produced delivered : List Int) : Prop :=
  match player with
  | .idle => True
  | .found => delivered.length < published
  | .read v => delivered.length < published ∧ produced[delivered.length]? = some v

/-- The ring holds the samples from the next one to deliver on. -/
structure Queues {χ : Type} (s : TwoCore χ) : Prop where
  holds : s.smp.Holds smpSize s.produced s.delivered.length
  delivered : s.delivered = s.produced.take s.delivered.length
  head : s.smpHead = BitVec.ofNat 32 s.published
  low : s.delivered.length ≤ s.published
  task : s.task.Ahead s.published s.produced.length s.delivered.length
  player : s.player.Next s.published s.produced s.delivered

namespace Queues

variable {χ : Type} {hw : Chips χ} {s : TwoCore χ}

theorem published_le (h : Queues s) : s.published ≤ s.produced.length := by
  have htask := h.task
  unfold Task.Ahead at htask
  split at htask
  next => exact htask.1.ge
  next => omega

theorem used_eq (h : Queues s) : s.smp.used = s.produced.length - s.delivered.length :=
  h.holds.used (by decide)

theorem drain (h : Queues s) (command : Engine χ → Engine χ) : Queues (s.drain command) := by
  unfold TwoCore.drain
  split
  next => exact { h with }
  next => exact h

theorem look (h : Queues s) : Queues s.look := by
  unfold TwoCore.look
  split
  next hbetween =>
    split
    next hroom =>
      have hused := h.used_eq
      have hlow := h.holds.low
      have htask := h.task
      rw [hbetween] at htask
      refine { h with task := ⟨Nat.zero_le _, htask.1, ?_⟩ }
      show s.produced.length < s.delivered.length + (ahead + 0)
      omega
    next => exact h
  next => exact h

theorem produce (h : Queues s) : Queues (s.produce hw) := by
  unfold TwoCore.produce
  split
  next => exact h
  next i hbatch =>
    split
    next hi =>
      have htask := h.task
      rw [hbatch] at htask
      obtain ⟨hle, hcount, hroom⟩ := htask
      have hsize : ahead + batch ≤ smpSize := by decide
      have hlow := h.holds.low
      have hfits : s.produced.length + 1 ≤ s.delivered.length + smpSize := by omega
      refine ⟨h.holds.push (by decide) [_] hfits, ?_, h.head, h.low, ?_, ?_⟩
      · rw [List.take_append_of_le_length hlow]
        exact h.delivered
      · rw [List.length_append]
        exact ⟨hi, by simp only [List.length_singleton]; omega,
          by simp only [List.length_singleton]; omega⟩
      · have hplayer := h.player
        unfold Player.Next at hplayer ⊢
        dsimp only
        split
        next => trivial
        next hp => rw [hp] at hplayer; exact hplayer
        next v hp =>
          rw [hp] at hplayer
          refine ⟨hplayer.1, ?_⟩
          rw [List.getElem?_append_left (Nat.lt_of_lt_of_le hplayer.1 h.published_le)]
          exact hplayer.2
    next => exact h

theorem publish (h : Queues s) : Queues s.publish := by
  unfold TwoCore.publish
  split
  next => exact h
  next i hbatch =>
    split
    next => exact h
    next hi =>
      have htask := h.task
      rw [hbatch] at htask
      obtain ⟨hle, hcount, hroom⟩ := htask
      refine ⟨h.holds, h.delivered, h.holds.head, h.holds.low, ⟨rfl, ?_⟩, ?_⟩
      · dsimp only
        omega
      · have hplayer := h.player
        have hmore := h.published_le
        unfold Player.Next at hplayer ⊢
        dsimp only
        split
        next => trivial
        next hp =>
          rw [hp] at hplayer
          exact Nat.lt_of_lt_of_le hplayer hmore
        next v hp =>
          rw [hp] at hplayer
          exact ⟨Nat.lt_of_lt_of_le hplayer.1 hmore, hplayer.2⟩

theorem tickLook (h : Queues s) : Queues s.tickLook := by
  unfold TwoCore.tickLook
  split
  next =>
    split
    next hne =>
      have hlow := h.low
      refine { h with player := Nat.lt_of_le_of_ne hlow ?_ }
      intro heq
      rw [h.holds.tail, h.head, heq] at hne
      exact hne rfl
    next => exact { h with }
  next => exact h
  next => exact h

theorem tickRead (h : Queues s) : Queues s.tickRead := by
  unfold TwoCore.tickRead
  split
  next hfound =>
    have hplayer := h.player
    rw [hfound] at hplayer
    have hlt : s.delivered.length < s.produced.length :=
      Nat.lt_of_lt_of_le hplayer h.published_le
    refine { h with player := ⟨hplayer, ?_⟩ }
    rw [h.holds.tail, RingBuffer.ofNat_mod (by decide), h.holds.slot _ hlt (Nat.le_refl _)]
    exact List.getElem?_eq_getElem hlt
  next => exact h
  next => exact h

theorem tickStore (h : Queues s) : Queues s.tickStore := by
  unfold TwoCore.tickStore
  split
  next v hread =>
    have hplayer := h.player
    rw [hread] at hplayer
    obtain ⟨hlt, hnext⟩ := hplayer
    have hmore := h.published_le
    have hone : (s.delivered ++ [v]).length = s.delivered.length + 1 := by
      rw [List.length_append, List.length_singleton]
    refine ⟨?_, ?_, h.head, ?_, ?_, trivial⟩
    · dsimp only
      rw [hone]
      exact h.holds.advance (by omega)
    · dsimp only
      rw [hone, List.take_add_one, hnext, ← h.delivered]
      rfl
    · dsimp only
      omega
    · have htask := h.task
      unfold Task.Ahead at htask ⊢
      dsimp only
      rw [hone]
      split
      next hp => rw [hp] at htask; exact ⟨htask.1, by omega⟩
      next i hp => rw [hp] at htask; exact ⟨htask.1, htask.2.1, by omega⟩
  next => exact h
  next => exact h

/-- A step of either core. -/
theorem step (h : Queues s) (c : CoreStep χ) : Queues (c.step hw s) := by
  cases c with
  | reset => exact h.drain _
  | command f => exact h.drain fun e => { e with chips := f e.chips }
  | look => exact h.look
  | produce => exact h.produce
  | publish => exact h.publish
  | tickLook => exact h.tickLook
  | tickRead => exact h.tickRead
  | tickStore => exact h.tickStore
  | sscReset => exact { h with }

theorem start (e : Engine χ) : Queues { engine := e } :=
  ⟨RingBuffer.holds_init smpSize _, rfl, rfl, Nat.le_refl 0,
    ⟨rfl, show 0 < 0 + (ahead + batch) by decide⟩, trivial⟩

/-- Along every run of the two cores. -/
theorem run (steps : List (CoreStep χ)) (h : Queues s) :
    Queues (runAll (CoreStep.step hw) steps s) := by
  have hall : Always (CoreStep.step hw) Queues steps s :=
    Always.of_step (C := fun _ _ => True) h (fun c _ h _ => h.step c)
      (EachStep.of_forall fun _ _ _ => trivial)
  exact hall.last

theorem waiting_eq (h : Queues s) : s.waiting = s.produced.drop s.delivered.length := by
  have hlow := h.holds.low
  unfold TwoCore.waiting
  rw [h.used_eq, h.holds.peek (by decide) (by omega)]
  apply List.take_of_length_le
  rw [List.length_drop]

/-- What was produced was delivered, or waits. -/
theorem produced_eq (h : Queues s) : s.produced = s.delivered ++ s.waiting :=
  calc s.produced
      = s.produced.take s.delivered.length ++ s.produced.drop s.delivered.length :=
        (List.take_append_drop _ _).symm
    _ = s.delivered ++ s.waiting := by rw [← h.delivered, ← h.waiting_eq]

/-- A scanline tick takes the oldest published sample as the level, or holds the level. -/
theorem tick (h : Queues s) (hidle : s.player = .idle) :
    (s.smp.tail = s.smpHead → s.tick = { s with underruns := s.underruns + 1 }) ∧
      (s.smp.tail ≠ s.smpHead → s.waiting = s.tick.level :: s.tick.waiting ∧
        s.tick.player = .idle ∧ s.tick.underruns = s.underruns) := by
  constructor
  · intro hnone
    have hlook : s.tickLook = { s with underruns := s.underruns + 1 } := by
      unfold TwoCore.tickLook
      rw [hidle]
      exact if_neg (not_not_intro hnone)
    unfold TwoCore.tick TwoCore.tickRead TwoCore.tickStore
    rw [hlook, hidle]
  · intro hsome
    have hlook : s.tickLook = { s with player := .found } := by
      unfold TwoCore.tickLook
      rw [hidle]
      exact if_pos hsome
    have htick : s.tick =
        { s with
          smp := s.smp.advance 1, player := .idle
          level := s.smp.slot (s.smp.tail.toNat % smpSize)
          delivered := s.delivered ++ [s.smp.slot (s.smp.tail.toNat % smpSize)] } := by
      unfold TwoCore.tick
      rw [hlook]
      rfl
    have hnext : Queues s.tick := h.tickLook.tickRead.tickStore
    have hbefore := h.produced_eq
    have hafter := hnext.produced_eq
    have hproduced : s.tick.produced = s.produced := by rw [htick]
    have hdelivered : s.tick.delivered = s.delivered ++ [s.tick.level] := by rw [htick]
    rw [hproduced, hdelivered, hbefore, List.append_assoc] at hafter
    exact ⟨List.append_cancel_left hafter, by rw [htick], by rw [htick]⟩

end Queues

/-! ## The record -/

namespace Work

variable {χ : Type} {hw : Chips χ}

end Work

/-- The clocks of the three chips after `n` scanlines. -/
structure Engine.Exact {χ : Type} (longest : Int) (n : Nat) (e : Engine χ) : Prop where
  cycles : e.cyclesRun = (n * 894886 / 15720 : Nat) + e.cpuDebt
  debt : 0 ≤ e.cpuDebt ∧ e.cpuDebt < longest
  aySteps : e.aySteps = (n * 1789772 / 125760 : Nat)
  spoSamples : e.spoSamples = n * 10000 / 15720

theorem Engine.Accounts.exact {χ : Type} {longest : Int} {e : Engine χ} {n : Nat}
    (h : Engine.Accounts longest e) (hn : e.scanlines = n) : Engine.Exact longest n e := by
  subst hn
  exact ⟨h.cycles, ⟨h.debt_nonneg, h.debt_lt⟩, h.aySteps, h.spoSamples⟩

end CocoEmulator.Sound.SscEngine
