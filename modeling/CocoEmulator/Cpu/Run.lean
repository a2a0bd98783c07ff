/-
  Cpu/Run.lean --- one instruction, the interrupt poll, and the run loops.

  `executeOne` is `execute_one` with its two prefix pages.  The 6309 build skips
  repeated prefix bytes in a loop that ends only when another byte is fetched;
  it takes a fuel argument here, and `Flow.stuck` says that it ran out.

  The idle-loop check sits inside the short-branch case of the source, behind
  `cpu->idle_skip`.  It reads the cycle counter, which instructions do not, so
  here the branch reports that it was taken a short way back (`Flow.branchBack`)
  and the run loop makes the check.  Nothing lies between the two: the native
  saving of a short branch is 0.

  The loop of `CPU_RUN_NAME` is `Base.loop` over `runBody`.  A result of `none`
  means that the fuel ran out; a call returns when some fuel gives a result.
-/
import CocoEmulator.Base.Loop
import CocoEmulator.Cpu.Hd6309

set_option autoImplicit false

namespace CocoEmulator.Cpu

open CocoEmulator.Base

variable {σ : Type} (bus : Bus σ)

/-! ## One instruction -/

/-- How an instruction ended. -/
inductive Flow
  | next
  /-- a short branch at `br` was taken back over at most `IDLE_BODY_MAX` bytes -/
  | branchBack (br : Word)
  /-- the loop over repeated prefix bytes ran out of fuel -/
  | stuck
  deriving DecidableEq, Repr, Inhabited

/-- Idle-loop body bytes before the branch. -/
def idleBodyMax : Int := 6

/-- Branch on a condition, once the offset is fetched. -/
def branchOn (cond : Nat) (offset : Byte) : M σ Flow := do
  let r ← regs
  if evalBranch cond r.cc then do
    addPc (sext offset)
    let r ← regs
    if offset.toInt < 0 && -(idleBodyMax + 2) ≤ offset.toInt then
      pure (.branchBack (r.pc - sext offset - 2))
    else pure .next
  else pure .next

def shortBranch (cond : Nat) : M σ Flow := do
  let offset ← fetch8 bus
  tick 3
  branchOn cond offset

def longBranch (b : Build) (cond : Nat) : M σ Unit := do
  let offset ← fetch16 bus
  let r ← regs
  if evalBranch cond r.cc then do
    addPc offset
    tick (if b == .hd6309 && r.native then 5 else 6)
  else tick 5

/-- `if (NATIVE()) cpu->cycles -= save[opcode]`, in the 6309 build. -/
def nativeSave (b : Build) (save : OpTable) (opcode : Byte) : M σ Unit := do
  let r ← regs
  Act.guarded (b == .hd6309 && r.native) (tick (-(save.get opcode : Nat)))

def isPrefix (opcode : Byte) : Bool := opcode == 0x10 || opcode == 0x11

/-- The 6309 skips repeated prefix bytes, one cycle each. -/
def skipPrefixes : Nat → Byte → M σ (Option Byte)
  | 0, opcode => pure (if isPrefix opcode then none else some opcode)
  | n + 1, opcode =>
      if isPrefix opcode then do
        let opcode ← fetch8 bus
        tick 1
        skipPrefixes n opcode
      else pure (some opcode)

/-- The opcode after a prefix. -/
def prefixed (b : Build) (fuel : Nat) : M σ (Option Byte) := do
  let opcode ← fetch8 bus
  match b with
  | .mc6809 => pure (some opcode)
  | .hd6309 => skipPrefixes bus fuel opcode

/-- Long branches are `$10 $2x`; `$10 $20` is illegal on the 6309. -/
def isLongBranch (b : Build) (opcode : Byte) : Bool :=
  opcode &&& 0xF0 == 0x20 && (b == .mc6809 || opcode != 0x20)

/-- The `default:` of a switch: a NOP on the 6809, the extra instructions or the
trap on the 6309.  The saving is not applied after a trap. -/
def executeDefault (b : Build) (extra : OpMap HdInsn) (save : OpTable) (nop trap : Cycles)
    (insnPc : Word) (opcode : Byte) : M σ Unit :=
  match b with
  | .mc6809 => tick nop
  | .hd6309 =>
      match extra.get opcode with
      | some i => do
          hd6309Exec bus insnPc i
          nativeSave b save opcode
      | none => do
          tick trap
          hd6309Trap bus 0x40

def executePage2 (b : Build) (opcode : Byte) : M σ Unit :=
  if isLongBranch b opcode then longBranch bus b (opcode &&& 0x0F).toNat
  else
    match page2.get opcode with
    | some i => do
        exec bus b i
        nativeSave b nativeSaveP2 opcode
    | none => executeDefault bus b hd6309Page2 nativeSaveP2 2 4 0 opcode

/-- `insnPc` is the address of the `$11` prefix. -/
def executePage3 (b : Build) (insnPc : Word) (opcode : Byte) : M σ Unit :=
  match page3.get opcode with
  | some i => do
      exec bus b i
      nativeSave b nativeSaveP3 opcode
  | none => executeDefault bus b hd6309Page3 nativeSaveP3 2 4 insnPc opcode

/-- Run the rest of a prefixed instruction once its opcode is known. -/
def afterPrefix (k : Byte → M σ Unit) : Option Byte → M σ Flow
  | none => pure .stuck
  | some opcode => do
      k opcode
      pure .next

def executeOp (b : Build) (fuel : Nat) (opcode : Byte) : M σ Flow :=
  match page1.get opcode with
  | some (.insn i) => do
      exec bus b i
      nativeSave b nativeSaveP1 opcode
      pure .next
  | some (.branch cond) => shortBranch bus cond
  | some .page2 => do
      let op ← prefixed bus b fuel
      afterPrefix (executePage2 bus b) op
  | some .page3 => do
      let r ← regs
      let op ← prefixed bus b fuel
      afterPrefix (executePage3 bus b (r.pc - 1)) op
  | none => do
      executeDefault bus b hd6309Page1 nativeSaveP1 2 3 0 opcode
      pure .next

def executeOne (b : Build) (fuel : Nat) : M σ Flow := do
  let opcode ← fetch8 bus
  executeOp bus b fuel opcode

/-! ## Interrupts -/

/-- Update the interrupt lines. -/
def setPins (f : Pins → Pins) : M σ Unit :=
  Act.modify fun c => { c with env := { c.env with pins := f c.env.pins } }

/-- `HD6309_IRQ_ENTRY`: taking an interrupt abandons a part-done TFM. -/
def irqEntry (b : Build) : M σ Unit :=
  Act.guarded (b == .hd6309) (setTfm fun t => { t with busy := false })

/-- Stack the entire state, unless CWAI already did. -/
def stackEntire (b : Build) : M σ Unit := do
  let r ← regs
  if r.cwaiState then tick 7
  else do
    setCc flagE
    pushEntire bus b
    tick 19

/-- FIRQ stacks CC and PC only, or everything when MD.FM is set. -/
def stackFirq (b : Build) : M σ Unit := do
  let r ← regs
  if r.cwaiState then tick 7
  else if b == .hd6309 && r.md &&& 0x02 != 0 then do
    setCc flagE
    pushEntire bus b
    tick 19
  else do
    setRegs (Regs.mapCc (ccClr flagE))
    push16s bus r.pc
    let r ← regs
    push8s bus r.cc
    tick 10

/-- Set the masks, go through the vector and leave the wait state. -/
def enterHandler (mask : Byte) (vec : Word) : M σ Unit := do
  setCc mask
  let pc ← memRead16 bus vec
  setRegs fun r => { r with pc := pc, waitForInterrupt := false, cwaiState := false }

/-- The interrupt `check_interrupts` takes, if any. -/
inductive Service
  | nmi
  | firq
  | irq
  deriving DecidableEq, Repr, Inhabited

def pendingService (r : Regs) (p : Pins) : Option Service :=
  if p.nmiPending && r.nmiArmed then some .nmi
  else if p.firqPending && !ccTst flagF r.cc then some .firq
  else if p.irqPending && !ccTst flagI r.cc then some .irq
  else none

def getPins : M σ Pins := Act.gets (·.env.pins)

/-- Taking an NMI consumes the edge: the line has to rise again. -/
def service (b : Build) : Service → M σ Unit
  | .nmi => do
      setPins fun p => { p with nmiPending := false, nmiLine := false }
      irqEntry b
      stackEntire bus b
      enterHandler bus (flagI ||| flagF) 0xFFFC
  | .firq => do
      irqEntry b
      stackFirq bus b
      enterHandler bus (flagI ||| flagF) 0xFFF6
  | .irq => do
      irqEntry b
      stackEntire bus b
      enterHandler bus flagI 0xFFF8

def checkInterrupts (b : Build) : M σ Unit := do
  let r ← regs
  let p ← getPins
  match pendingService r p with
  | some sv => service bus b sv
  | none => pure ()

/-! ## Idle-loop skip -/

/-- Cycles per pass above which a loop is not skipped. -/
def idlePeriodMax : Cycles := 16

/-- `idle_peek`: the byte at an address in a plain-memory page. -/
def idlePeek (c : Core σ) (a : Word) : Option Byte :=
  (bus.readSlot c.env.host a).map (bus.load c.env.host)

def idlePlain (c : Core σ) (ea : Word) (wide : Bool) : Bool :=
  (idlePeek bus c ea).isSome && (!wide || (idlePeek bus c (ea + 1)).isSome)

/-- What one body instruction does, for the idempotence rules. -/
inductive IdleKind
  | pure
  | load (acc : Acc)
  | alu (acc : Acc)
  deriving DecidableEq, Repr, Inhabited

/-- The mode of a memory operand by its opcode: direct, `,R` or `n,R`, extended. -/
def idleMode (op : Byte) : Option Mode :=
  let hi := (op >>> 4).toNat
  if op == 0x0D || hi = 0x9 || hi = 0xD then some .direct
  else if op == 0x6D || hi = 0xA || hi = 0xE then some .indexed
  else if op == 0x7D || hi = 0xB || hi = 0xF then some .extended
  else none

/-- Operand address and instruction length; `none` if a byte is not plain memory or
the postbyte is neither `,R` nor `n,R`. -/
def idleOperand (c : Core σ) (a : Word) (m : Mode) : Option (Word × Word) := do
  let b1 ← idlePeek bus c (a + 1)
  match m with
  | .direct => some (word c.regs.dp b1, 2)
  | .indexed =>
      let r := (idxReg b1).get c.regs
      if b1 &&& 0x80 == 0 then some (r + offset5 b1, 2)
      else if b1 &&& 0x9F == 0x84 then some (r, 2)
      else none
  | .extended => do
      let b2 ← idlePeek bus c (a + 2)
      some (word b1 b2, 3)
  | .imm => none

/-- The kind of an opcode with a memory operand, and whether it reads a word. -/
def idleClass (op : Byte) : Option (IdleKind × Bool) :=
  if op &&& 0x0F == 0x0D && op < 0x80 then some (.pure, false)
  else if op < 0x90 then none
  else
    let acc : Acc := if op ≥ 0xD0 then .b else .a
    match (op &&& 0x0F).toNat with
    | 0x1 => some (.pure, false)
    | 0x5 => some (.pure, false)
    | 0x6 => some (.load acc, false)
    | 0x0 => some (.alu acc, false)
    | 0x4 => some (.alu acc, false)
    | 0x8 => some (.alu acc, false)
    | 0xA => some (.alu acc, false)
    | 0xB => some (.alu acc, false)
    | 0xC => some (.pure, true)
    | 0xE => if op ≥ 0xD0 then none else some (.pure, true)
    | _ => none

/-- `idle_insn`: decode the body instruction at `a`; its kind and length. -/
def idleInsn (c : Core σ) (a : Word) : Option (IdleKind × Word) := do
  let op ← idlePeek bus c a
  if op == 0x12 || op == 0x4D || op == 0x5D then some (.pure, 1)
  else do
    let m ← idleMode op
    let (ea, len) ← idleOperand bus c a m
    let (kind, wide) ← idleClass op
    if idlePlain bus c ea wide then some (kind, len) else none

/-- May a first body instruction of kind `k1` be followed by one of kind `k2`? -/
def idlePair (k1 k2 : IdleKind) : Bool :=
  match k2 with
  | .alu acc => k1 == .load acc
  | _ => true

/-- After a first instruction of kind `k1`: the branch, or one more instruction. -/
def idleTailOk (c : Core σ) (k1 : IdleKind) (a br : Word) : Bool :=
  a == br ||
    match idleInsn bus c a with
    | none => false
    | some (k2, len2) => a + len2 == br && idlePair k1 k2

/-- `[top, br)` is empty, or one or two admitted instructions. -/
def idleBodyOk (c : Core σ) (top br : Word) : Bool :=
  top == br ||
    match idleInsn bus c top with
    | none => false
    | some (.alu _, _) => false
    | some (k1, len1) => idleTailOk bus c k1 (top + len1) br

/-- `idle_loop_ok`: is `[top, br)` an admitted body and `br` a short branch back to
`top`? -/
def idleLoopOk (c : Core σ) (top br : Word) : Bool :=
  match idlePeek bus c br, idlePeek bus c (br + 1) with
  | some bop, some boff =>
      bop &&& 0xF0 == 0x20 && br + 2 + sext boff == top && idleBodyOk bus c top br
  | _, _ => false

/-- The fields of the idle check: the rejected branch, the last one taken, and the
cycle count then. -/
structure Idle where
  rej : Option Word := none
  br : Option Word := none
  cyc : Cycles := 0
  deriving DecidableEq, Repr, Inhabited

/-- `idle_loop_check` after the branch at `br` was taken: the new fields and the
cycles to credit. -/
def idleLoopCheck (c : Core σ) (budget now : Cycles) (i : Idle) (br : Word) : Idle × Cycles :=
  if i.rej = some br then (i, 0)
  else
    let period := now - i.cyc
    let i' : Idle := { i with br := some br, cyc := now }
    let left := budget - now
    if i.br ≠ some br || period == 0 || idlePeriodMax < period then (i', 0)
    else if left.sle period then (i', 0)
    else if !idleLoopOk bus c c.regs.pc br then ({ i' with rej := some br }, 0)
    else
      let skip := left / period * period
      ({ i' with cyc := now + skip }, skip)

/-! ## Run loops -/

/-- What the poll before an instruction decides. -/
inductive Poll
  | execute
  /-- halted or waiting: the rest of the budget is burned -/
  | burn
  deriving DecidableEq, Repr, Inhabited

/-- The poll, in the order of the source.  The 6309 build guards it with one test
of the five conditions. -/
def pollAll (b : Build) : M σ Poll := do
  let p ← getPins
  if p.halted then pure .burn
  else do
    checkInterrupts bus b
    let r ← regs
    let p ← getPins
    if r.waitForInterrupt then
      if !r.cwaiState && (p.irqPending || p.firqPending) then do
        setRegs fun r => { r with waitForInterrupt := false }
        pure .execute
      else pure .burn
    else pure .execute

def pollGuard (c : Core σ) : Bool :=
  c.env.pins.halted || c.regs.waitForInterrupt || c.env.pins.nmiPending
    || c.env.pins.firqPending || c.env.pins.irqPending

def poll (b : Build) : M σ Poll :=
  match b with
  | .mc6809 => pollAll bus b
  | .hd6309 => do
      let g ← Act.gets pollGuard
      if g then pollAll bus b else pure .execute

/-- The loop body: the poll, and an instruction unless the budget is burned. -/
def round (b : Build) (fuel : Nat) : M σ (Option Flow) := do
  let p ← poll bus b
  match p with
  | .burn => pure none
  | .execute => do
      let flow ← executeOne bus b fuel
      pure (some flow)

/-- A call in progress: the machine, `cpu->cycles`, the accesses so far, and the
fields of the idle check. -/
structure RunState (σ : Type) where
  core : Core σ
  cycles : Cycles
  trace : List Access
  idle : Idle

/-- Run a CPU program inside a call. -/
def RunState.perform {α : Type} (m : M σ α) (s : RunState σ) : α × RunState σ :=
  let o := m s.core
  (o.val, { s with
    core := o.st, cycles := s.cycles + o.out.cycles, trace := s.trace ++ o.out.trace })

/-- What the run loop does with the way an instruction ended. -/
def afterFlow (skip : Bool) (budget : Cycles) (s : RunState σ) : Flow → RunState σ
  | .branchBack br =>
      if skip then
        let r := idleLoopCheck bus s.core budget s.cycles s.idle br
        { s with idle := r.1, cycles := s.cycles + r.2 }
      else s
  | _ => s

/-- One round of the loop body, once the test of the loop has passed. -/
def runRound (b : Build) (skip : Bool) (fuel : Nat) (budget : Cycles) (s : RunState σ) :
    Move (RunState σ) (RunState σ) :=
  match s.perform (round bus b fuel) with
  | (none, s) => .stop { s with cycles := budget }
  | (some .stuck, _) => .stuck
  | (some flow, s) => .go (afterFlow bus skip budget s flow)

/-- `while ((int)cpu->cycles < budget)`. -/
def runBody (b : Build) (skip : Bool) (fuel : Nat) (budget : Cycles) (s : RunState σ) :
    Move (RunState σ) (RunState σ) :=
  if s.cycles.slt budget then runRound bus b skip fuel budget s else .stop s

/-- A call starts with no cycles, no accesses and no branch seen; `rej` stays. -/
def RunState.start (c : Core σ) (rej : Option Word) : RunState σ :=
  ⟨c, 0, [], { rej := rej }⟩

/-- `mc6809_run`, with fuel for the loop and for the prefix loop inside it. -/
def mc6809Run (fuel n : Nat) (budget : Cycles) (c : Core σ) : Option (RunState σ) :=
  if bus.attached then loop (runBody bus .mc6809 false fuel budget) n (.start c none)
  else some (.start c none)

/-- `hd6309_run`; `skip` is `cpu->idle_skip`, `rej` is `cpu->idle_rej`. -/
def hd6309Run (skip : Bool) (rej : Option Word) (fuel n : Nat) (budget : Cycles) (c : Core σ) :
    Option (RunState σ) :=
  if bus.attached then loop (runBody bus .hd6309 skip fuel budget) n (.start c rej)
  else some (.start c rej)

/-! ## A plain machine -/

/-- A byte stored in a memory. -/
def poke (m : Nat → Byte) (p : Nat) (v : Byte) : Nat → Byte :=
  fun q => if q = p then v else m q

/-- 64 KB of RAM in one block: through the page tables below `limit`, through the
callbacks from there on. -/
def ramBus (limit : Word) : Bus (Nat → Byte) where
  fastLimit := limit
  rdPage := fun _ slot => some (0x2000 * slot)
  wrPage := fun _ slot => some (0x2000 * slot)
  load := fun m p => m p
  store := poke
  read := fun addr e => (e.host addr.toNat, e)
  write := fun addr v e => { e with host := poke e.host addr.toNat v }

/-- 64 KB of ROM in one block, read through the page tables below `limit`. -/
def romBus (limit : Word) (rom : Nat → Byte) : Bus Unit where
  fastLimit := limit
  rdPage := fun _ slot => some (0x2000 * slot)
  wrPage := fun _ _ => none
  load := fun _ p => rom p
  store := fun _ _ _ => ()
  read := fun addr e => (rom addr.toNat, e)
  write := fun _ _ e => e

/-- A memory holding `code` from `org` on, and zeros elsewhere. -/
def ramWith (org : Nat) (code : List Byte) : Nat → Byte :=
  fun p => if p < org then 0 else code.getD (p - org) 0

end CocoEmulator.Cpu
