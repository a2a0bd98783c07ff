/-
  Debug/Rpc.lean --- the cross-core RPC bridge of the debug server.

  A submitter on core 0 puts a pointer to its command into a queue of depth 1 and
  waits on a binary semaphore; `debug_rpc_poll` on core 1 takes the pointer, executes
  the command and gives the semaphore.  The calls of `debug_rpc_submit` are numbered;
  the step function interleaves them with the poll, one shared access a step, and a
  blocked step leaves the state as it is.

      Paired        submit returns true only for an executed command, and no
                    command is touched once its call has returned
      rpc_paired    it holds along every run in which no wait gives up on a command
                    that is still to be executed, and no drain overtakes a give
-/
import CocoEmulator.Base.Run
import Mathlib.Logic.Function.Basic

set_option autoImplicit false

namespace CocoEmulator.Debug

open CocoEmulator.Base

/-! ## Commands -/

/-- The result codes of `debug_rpc.h`. -/
inductive DbgResult
  | ok | errNoMachine | errRange | errNoSpace
deriving DecidableEq, Repr

/-- A command: what the handlers read and write, and the result field. -/
structure DebugCmd (α : Type) where
  body : α
  result : DbgResult
deriving DecidableEq, Repr

section Exec

variable {α M : Type} (handlers : α → M → α × DbgResult × M)

/-- `exec_one`; the switch over the command type is `handlers`. -/
def execOne (machine : Option M) (c : DebugCmd α) : DebugCmd α × Option M :=
  match machine with
  | none => ({ c with result := .errNoMachine }, none)
  | some m =>
    let done := handlers c.body m
    ({ body := done.1, result := done.2.1 }, some done.2.2)

end Exec

/-! ## The bridge -/

/-- Where a call of `debug_rpc_submit` stands. -/
inductive SubmitPc
  | idle
  | take
  | drain
  | send
  | wait
  | give (ok : Bool)
  | returned (ok : Bool)
deriving DecidableEq, Repr

/-- The call is between taking and giving `s_lock`. -/
@[grind] def SubmitPc.holds : SubmitPc → Bool
  | .drain | .send | .wait | .give _ => true
  | .idle | .take | .returned _ => false

/-- Where `debug_rpc_poll` stands: outside, in `exec_one`, or before the give. -/
inductive PollPc
  | idle
  | exec (i : Nat)
  | give (i : Nat)
deriving DecidableEq, Repr

/-- A command has been executed and its give is outstanding. -/
def PollPc.giving : PollPc → Bool
  | .give _ => true
  | .idle | .exec _ => false

/-- What is recorded of the calls: core 1 touches the command, has executed it, the
call returns. -/
inductive Entry
  | accessed (i : Nat)
  | executed (i : Nat)
  | returned (i : Nat) (ok : Bool)
deriving DecidableEq, Repr

/-- The statics of `debug_rpc.cpp`, the calls, the commands on their stacks, and the
record, newest first. -/
structure Rpc (α M : Type) where
  machine : Option M := none
  created : Bool := false
  cmdQueue : Option Nat := none
  doneSem : Bool := false
  lock : Option Nat := none
  poll : PollPc := .idle
  submit : Nat → SubmitPc := fun _ => .idle
  cmd : Nat → Option (DebugCmd α) := fun _ => none
  log : List Entry := []

inductive Action (α M : Type)
  | init (machine : Option M)
  | emulate (machine : M)
  | call (i : Nat) (c : DebugCmd α)
  | takeLock (i : Nat)
  | drain (i : Nat)
  | send (i : Nat)
  | done (i : Nat)
  | timeout (i : Nat)
  | giveLock (i : Nat)
  | receive
  | exec
  | giveDone

section Step

variable {α M : Type}

/-- The call goes on to its next shared access. -/
abbrev Rpc.goto (s : Rpc α M) (i : Nat) (pc : SubmitPc) : Rpc α M :=
  { s with submit := Function.update s.submit i pc }

abbrev Rpc.setCmd (s : Rpc α M) (i : Nat) (c : Option (DebugCmd α)) : Rpc α M :=
  { s with cmd := Function.update s.cmd i c }

abbrev Rpc.record (s : Rpc α M) (e : Entry) : Rpc α M := { s with log := e :: s.log }

/-- `debug_rpc_init`, called once from `setup()`. -/
def Rpc.init (s : Rpc α M) (machine : Option M) : Rpc α M :=
  if s.created = true then s
  else { s with
    machine, created := true, cmdQueue := none, doneSem := false, lock := none }

/-- The entry of `debug_rpc_submit`: without a machine it returns at once. -/
def Rpc.call (s : Rpc α M) (i : Nat) (c : DebugCmd α) : Rpc α M :=
  if s.submit i ≠ .idle then s
  else if s.machine.isNone = true ∨ s.created = false then
    ((s.setCmd i (some { c with result := .errNoMachine })).goto i (.returned false)).record
      (.returned i false)
  else (s.setCmd i (some c)).goto i .take

def Rpc.takeLock (s : Rpc α M) (i : Nat) : Rpc α M :=
  if s.submit i = .take ∧ s.lock = none then { s.goto i .drain with lock := some i } else s

/-- `xSemaphoreTake(s_done_sem, 0)`, then the result is preset. -/
def Rpc.drain (s : Rpc α M) (i : Nat) : Rpc α M :=
  if s.submit i = .drain then
    { (s.setCmd i ((s.cmd i).map ({ · with result := .ok }))).goto i .send with doneSem := false }
  else s

/-- `xQueueSend` blocks while the queue holds a pointer. -/
def Rpc.send (s : Rpc α M) (i : Nat) : Rpc α M :=
  if s.submit i = .send ∧ s.cmdQueue = none then { s.goto i .wait with cmdQueue := some i } else s

def Rpc.done (s : Rpc α M) (i : Nat) : Rpc α M :=
  if s.submit i = .wait ∧ s.doneSem = true then { s.goto i (.give true) with doneSem := false }
  else s

/-- The wait gives up; the pointer stays where it is. -/
def Rpc.timeout (s : Rpc α M) (i : Nat) : Rpc α M :=
  if s.submit i = .wait ∧ s.doneSem = false then s.goto i (.give false) else s

def Rpc.giveLock (s : Rpc α M) (i : Nat) : Rpc α M :=
  match s.submit i with
  | .give ok => { (s.goto i (.returned ok)).record (.returned i ok) with lock := none }
  | _ => s

/-- `debug_rpc_poll` takes the pointer, and `exec_one` reads the command's type. -/
def Rpc.receive (s : Rpc α M) : Rpc α M :=
  match s.poll, s.cmdQueue with
  | .idle, some i => { s.record (.accessed i) with cmdQueue := none, poll := .exec i }
  | _, _ => s

variable (handlers : α → M → α × DbgResult × M)

/-- The handler runs and writes its result into the command. -/
def Rpc.exec (s : Rpc α M) : Rpc α M :=
  match s.poll with
  | .exec i =>
    let done := (s.cmd i).map (execOne handlers s.machine)
    let machine := (done.map Prod.snd).getD s.machine
    { ((s.setCmd i (done.map Prod.fst)).record (.accessed i)).record (.executed i) with
      machine, poll := .give i }
  | _ => s

def Rpc.giveDone (s : Rpc α M) : Rpc α M :=
  match s.poll with
  | .give _ => { s with doneSem := true, poll := .idle }
  | _ => s

/-- Between two polls core 1 runs the machine. -/
def Rpc.emulate (s : Rpc α M) (machine : M) : Rpc α M :=
  if s.poll = .idle then { s with machine := s.machine.map fun _ => machine } else s

def Action.step : Action α M → Rpc α M → Rpc α M
  | .init machine, s => s.init machine
  | .emulate machine, s => s.emulate machine
  | .call i c, s => s.call i c
  | .takeLock i, s => s.takeLock i
  | .drain i, s => s.drain i
  | .send i, s => s.send i
  | .done i, s => s.done i
  | .timeout i, s => s.timeout i
  | .giveLock i, s => s.giveLock i
  | .receive, s => s.receive
  | .exec, s => s.exec handlers
  | .giveDone, s => s.giveDone

end Step

/-! ## What submit promises -/

/-- The entry agrees with what came before it. -/
@[grind] def Entry.Fits : Entry → List Entry → Prop
  | .accessed i, log | .executed i, log => ∀ ok, Entry.returned i ok ∉ log
  | .returned i ok, log => ok = true → Entry.executed i ∈ log

/-- Every entry agrees with the older ones: submit returns true only for an executed
command, and a command is neither accessed nor executed after its call returned. -/
@[grind] def Paired : List Entry → Prop
  | [] => True
  | e :: log => e.Fits log ∧ Paired log

instance : (e : Entry) → (log : List Entry) → Decidable (e.Fits log)
  | .accessed i, log | .executed i, log =>
    inferInstanceAs (Decidable (∀ ok, Entry.returned i ok ∉ log))
  | .returned _ _, _ => inferInstanceAs (Decidable (_ → _))

instance Paired.decidable : (log : List Entry) → Decidable (Paired log)
  | [] => isTrue trivial
  | _ :: log => @instDecidableAnd _ _ inferInstance (Paired.decidable log)

section Law

variable {α M : Type}

/-- A wait gives up only when its command is out of the queue and executed, and a
drain comes only when no give is outstanding. -/
def Action.Prompt : Action α M → Rpc α M → Prop
  | .timeout i, s =>
    s.submit i = .wait → s.doneSem = false → s.cmdQueue ≠ some i ∧ s.poll ≠ .exec i
  | .drain i, s => s.submit i = .drain → s.poll.giving = false
  | _, _ => True

instance : (a : Action α M) → (s : Rpc α M) → Decidable (a.Prompt s)
  | .timeout _, _ => inferInstanceAs (Decidable (_ → _ → _))
  | .drain _, _ => inferInstanceAs (Decidable (_ → _))
  | .init _, _ | .emulate _, _ | .call _ _, _ | .takeLock _, _ | .send _, _ | .done _, _
  | .giveLock _, _ | .receive, _ | .exec, _ | .giveDone, _ => isTrue trivial

/-- What holds of the bridge between two steps of a run. -/
structure RpcInv (s : Rpc α M) : Prop where
  lock : ∀ i, (s.submit i).holds = true → s.lock = some i
  uncreated : s.created = false → ∀ i, s.submit i ≠ .take ∧ (s.submit i).holds = false
  queued : ∀ i, s.cmdQueue = some i → s.submit i = .wait ∧ s.poll = .idle ∧ s.doneSem = false
  exec : ∀ i, s.poll = .exec i → s.submit i = .wait ∧ s.doneSem = false
  executed : ∀ i, s.poll = .give i → Entry.executed i ∈ s.log
  sending : ∀ i, s.submit i = .send → (∀ k, s.poll ≠ .give k) ∧ s.doneSem = false
  waiting : ∀ i, s.submit i = .wait →
    s.cmdQueue = some i ∨ s.poll = .exec i ∨ Entry.executed i ∈ s.log
  given : ∀ i, s.submit i = .give true → Entry.executed i ∈ s.log
  returned : ∀ i ok, Entry.returned i ok ∈ s.log → s.submit i = .returned ok
  paired : Paired s.log

variable {s : Rpc α M}

attribute [local grind =] Function.update_apply

/-- One call at a time is between taking and giving the lock. -/
theorem RpcInv.one_holder (h : RpcInv s) {i j : Nat} (hi : (s.submit i).holds = true)
    (hj : (s.submit j).holds = true) : i = j := by
  have hlock := (h.lock i hi).symm.trans (h.lock j hj)
  exact Option.some.inj hlock

theorem RpcInv.start : RpcInv ({} : Rpc α M) := by
  constructor <;> simp [SubmitPc.holds, Paired]

theorem RpcInv.init (h : RpcInv s) (machine : Option M) : RpcInv (s.init machine) := by
  unfold Rpc.init
  split
  · exact h
  · next hnew =>
    have hfree : ∀ i, (s.submit i).holds = false :=
      fun i => (h.uncreated (Bool.eq_false_iff.mpr hnew) i).2
    have hpc : ∀ i, s.submit i ≠ .wait ∧ s.submit i ≠ .send := by
      intro i
      constructor
      · intro hi
        simpa [hi, SubmitPc.holds] using hfree i
      · intro hi
        simpa [hi, SubmitPc.holds] using hfree i
    refine ⟨?_, ?_, ?_, ?_, h.executed, ?_, ?_, h.given, h.returned, h.paired⟩
    · intro i hi
      simp [hfree] at hi
    · intro hcreated
      simp at hcreated
    · intro i hi
      simp at hi
    · intro i hi
      exact absurd (h.exec i hi).1 (hpc i).1
    · intro i hi
      exact absurd hi (hpc i).2
    · intro i hi
      exact absurd hi (hpc i).1

theorem RpcInv.emulate (h : RpcInv s) (machine : M) : RpcInv (s.emulate machine) := by
  unfold Rpc.emulate
  split
  · exact ⟨h.lock, h.uncreated, h.queued, h.exec, h.executed, h.sending, h.waiting, h.given,
      h.returned, h.paired⟩
  · exact h

theorem RpcInv.call (h : RpcInv s) (i : Nat) (c : DebugCmd α) : RpcInv (s.call i c) := by
  unfold Rpc.call
  split
  · exact h
  · next hcalled =>
    have hidle : s.submit i = .idle := not_not.mp hcalled
    obtain ⟨hlock, huncreated, hqueued, hexec, hexecuted, hsending, hwaiting, hgiven, hreturned,
      hpaired⟩ := h
    split
    · constructor <;> grind
    · constructor <;> grind

theorem RpcInv.takeLock (h : RpcInv s) (i : Nat) : RpcInv (s.takeLock i) := by
  unfold Rpc.takeLock
  split
  · next hfree =>
    obtain ⟨hlock, huncreated, hqueued, hexec, hexecuted, hsending, hwaiting, hgiven, hreturned,
      hpaired⟩ := h
    constructor <;> grind
  · exact h

/-- Nothing is in the queue or under execution while the lock's holder is not waiting. -/
theorem RpcInv.quiet (h : RpcInv s) {i : Nat} (hi : (s.submit i).holds = true)
    (hwait : s.submit i ≠ .wait) : s.cmdQueue = none ∧ ∀ k, s.poll ≠ .exec k := by
  have halone : ∀ k, s.submit k ≠ .wait := by
    intro k hk
    have hki : k = i := h.one_holder (by rw [hk]; rfl) hi
    exact hwait (hki ▸ hk)
  constructor
  · apply Option.eq_none_iff_forall_ne_some.mpr
    intro k hk
    exact halone k (h.queued k hk).1
  · intro k hk
    exact halone k (h.exec k hk).1

theorem RpcInv.drain (h : RpcInv s) (i : Nat)
    (hc : (Action.drain i : Action α M).Prompt s) : RpcInv (s.drain i) := by
  unfold Rpc.drain
  split
  · next hpc =>
    have hgive : ∀ k, s.poll ≠ .give k := by
      intro k hk
      simpa [hk, PollPc.giving] using hc hpc
    obtain ⟨hqueue, hpoll⟩ := h.quiet (i := i) (by rw [hpc]; rfl) (by simp [hpc])
    obtain ⟨hlock, huncreated, hqueued, hexec, hexecuted, hsending, hwaiting, hgiven, hreturned,
      hpaired⟩ := h
    constructor <;> grind
  · exact h

theorem RpcInv.send (h : RpcInv s) (i : Nat) : RpcInv (s.send i) := by
  unfold Rpc.send
  split
  · next hpc =>
    obtain ⟨_, hpoll⟩ := h.quiet (i := i) (by rw [hpc.1]; rfl) (by simp [hpc.1])
    obtain ⟨hgive, hdone⟩ := h.sending i hpc.1
    have hidle : s.poll = .idle := by
      cases hp : s.poll with
      | idle => rfl
      | exec k => exact absurd hp (hpoll k)
      | give k => exact absurd hp (hgive k)
    obtain ⟨hlock, huncreated, hqueued, hexec, hexecuted, hsending, hwaiting, hgiven, hreturned,
      hpaired⟩ := h
    constructor <;> grind
  · exact h

/-- The semaphore reaches the waiting call only after its command was executed. -/
theorem RpcInv.done_executed (h : RpcInv s) {i : Nat} (hwait : s.submit i = .wait)
    (hdone : s.doneSem = true) :
    s.cmdQueue ≠ some i ∧ s.poll ≠ .exec i ∧ Entry.executed i ∈ s.log := by
  have hqueue : s.cmdQueue ≠ some i := by
    intro hq
    simpa [hdone] using h.queued i hq
  have hpoll : s.poll ≠ .exec i := by
    intro hp
    simpa [hdone] using h.exec i hp
  refine ⟨hqueue, hpoll, ?_⟩
  rcases h.waiting i hwait with hq | hp | hexecuted
  · exact absurd hq hqueue
  · exact absurd hp hpoll
  · exact hexecuted

theorem RpcInv.done (h : RpcInv s) (i : Nat) : RpcInv (s.done i) := by
  unfold Rpc.done
  split
  · next hpc =>
    obtain ⟨hqueue, hpoll, hran⟩ := h.done_executed hpc.1 hpc.2
    obtain ⟨hlock, huncreated, hqueued, hexec, hexecuted, hsending, hwaiting, hgiven, hreturned,
      hpaired⟩ := h
    constructor <;> grind
  · exact h

theorem RpcInv.timeout (h : RpcInv s) (i : Nat)
    (hc : (Action.timeout i : Action α M).Prompt s) : RpcInv (s.timeout i) := by
  unfold Rpc.timeout
  split
  · next hpc =>
    obtain ⟨hqueue, hpoll⟩ := hc hpc.1 hpc.2
    obtain ⟨hlock, huncreated, hqueued, hexec, hexecuted, hsending, hwaiting, hgiven, hreturned,
      hpaired⟩ := h
    constructor <;> grind
  · exact h

theorem RpcInv.giveLock (h : RpcInv s) (i : Nat) : RpcInv (s.giveLock i) := by
  unfold Rpc.giveLock
  split
  · next ok hpc =>
    have halone : ∀ k, (s.submit k).holds = true → k = i :=
      fun k hk => h.one_holder hk (by rw [hpc]; rfl)
    obtain ⟨hlock, huncreated, hqueued, hexec, hexecuted, hsending, hwaiting, hgiven, hreturned,
      hpaired⟩ := h
    constructor <;> grind
  · exact h

/-- A call that waits has not returned, and no other call is at its send. -/
theorem RpcInv.waiting_alone (h : RpcInv s) {i : Nat} (hwait : s.submit i = .wait) :
    (∀ ok, Entry.returned i ok ∉ s.log) ∧ ∀ k, s.submit k ≠ .send := by
  constructor
  · intro ok hmem
    simpa [hwait] using h.returned i ok hmem
  · intro k hk
    have hki : k = i := h.one_holder (by rw [hk]; rfl) (by rw [hwait]; rfl)
    simp [hki, hwait] at hk

theorem RpcInv.receive (h : RpcInv s) : RpcInv s.receive := by
  unfold Rpc.receive
  split
  · next i hpoll hqueue =>
    obtain ⟨hwait, _, hdone⟩ := h.queued i hqueue
    obtain ⟨hout, hnobody⟩ := h.waiting_alone hwait
    obtain ⟨hlock, huncreated, hqueued, hexec, hexecuted, hsending, hwaiting, hgiven, hreturned,
      hpaired⟩ := h
    constructor <;> grind
  · exact h

theorem RpcInv.execStep (h : RpcInv s) (handlers : α → M → α × DbgResult × M) :
    RpcInv (s.exec handlers) := by
  unfold Rpc.exec
  split
  · next i hpoll =>
    obtain ⟨hwait, hdone⟩ := h.exec i hpoll
    obtain ⟨hout, hnobody⟩ := h.waiting_alone hwait
    dsimp only
    obtain ⟨hlock, huncreated, hqueued, hexec, hexecuted, hsending, hwaiting, hgiven, hreturned,
      hpaired⟩ := h
    constructor <;> grind
  · exact h

theorem RpcInv.giveDone (h : RpcInv s) : RpcInv s.giveDone := by
  unfold Rpc.giveDone
  split
  · next i hpoll =>
    obtain ⟨hlock, huncreated, hqueued, hexec, hexecuted, hsending, hwaiting, hgiven, hreturned,
      hpaired⟩ := h
    constructor <;> grind
  · exact h

theorem RpcInv.step (h : RpcInv s) {handlers : α → M → α × DbgResult × M} {a : Action α M}
    (hc : a.Prompt s) : RpcInv (a.step handlers s) := by
  cases a with
  | init machine => exact h.init machine
  | emulate machine => exact h.emulate machine
  | call i c => exact h.call i c
  | takeLock i => exact h.takeLock i
  | drain i => exact h.drain i hc
  | send i => exact h.send i
  | done i => exact h.done i
  | timeout i => exact h.timeout i hc
  | giveLock i => exact h.giveLock i
  | receive => exact h.receive
  | exec => exact h.execStep handlers
  | giveDone => exact h.giveDone

/-- With any submitters, any interleaving of their accesses with those of the poll and any handlers:
along a run in which no wait gives up a command that core 1 may still take, and no submitter drains
the signal while one is due, `debug_rpc_submit` returns true only for a command that was executed,
and none is touched after its call returned. -/
theorem rpc_paired (handlers : α → M → α × DbgResult × M) (acts : List (Action α M))
    (hprompt : EachStep (Action.step handlers) Action.Prompt acts {}) :
    Always (Action.step handlers) (fun s => Paired s.log) acts {} := by
  have hinv : Always (Action.step handlers) RpcInv acts {} :=
    Always.of_step RpcInv.start (fun _ _ h hc => h.step hc) hprompt
  exact hinv.imp fun _ h => h.paired

end Law

/-! ## Two runs -/

/-- A handler that stores the command's number in the machine. -/
def store (n _ : Nat) : Nat × DbgResult × Nat := (n, .ok, n)

/-- Two commands of two submitters, both answered in time.  The second call comes while the first
is in the queue and waits for the lock; the first one gives up its wait only once its command was
executed, so its signal is still there for the drain of the second. -/
def prompt : List (Action Nat Nat) :=
  [.init (some 0), .call 0 ⟨5, .errRange⟩, .takeLock 0, .drain 0, .send 0, .call 1 ⟨6, .errRange⟩,
    .takeLock 1, .receive, .exec, .timeout 0, .giveDone, .giveLock 0, .takeLock 1, .drain 1,
    .send 1, .emulate 3, .receive, .exec, .giveDone, .done 1, .giveLock 1]

theorem rpc_paired_prompt :
    Always (Action.step store) (fun s => Paired s.log) prompt {} ∧
      (runAll (Action.step store) prompt {}).log = [.returned 1 true, .executed 1, .accessed 1,
        .accessed 1, .returned 0 false, .executed 0, .accessed 0, .accessed 0] ∧
      (runAll (Action.step store) prompt {}).cmd 0 = some ⟨5, .ok⟩ ∧
      (runAll (Action.step store) prompt {}).cmd 1 = some ⟨6, .ok⟩ :=
  ⟨rpc_paired store prompt (by decide +kernel), by decide +kernel, by decide +kernel,
    by decide +kernel⟩

/-- Command 0 times out in the queue; its completion answers command 1. -/
def abandoned : List (Action Nat Nat) :=
  [.init (some 0), .call 0 ⟨5, .ok⟩, .takeLock 0, .drain 0, .send 0, .timeout 0, .giveLock 0,
    .call 1 ⟨6, .ok⟩, .takeLock 1, .drain 1, .receive, .send 1, .exec, .giveDone, .done 1,
    .giveLock 1]

theorem abandoned_answers_next :
    (runAll (Action.step store) abandoned {}).log =
        [.returned 1 true, .executed 0, .accessed 0, .accessed 0, .returned 0 false] ∧
      ¬Always (Action.step store) (fun s => Paired s.log) abandoned {} := by
  have hunpaired : ¬Paired (runAll (Action.step store) abandoned {}).log := by decide +kernel
  exact ⟨by decide +kernel, not_always_of_last hunpaired⟩

end CocoEmulator.Debug
