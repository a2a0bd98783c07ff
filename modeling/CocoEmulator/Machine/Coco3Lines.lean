/-
  Machine/Coco3Lines.lean --- the interrupt lines of the CoCo 3 (machine.cpp).

  The callbacks of the PIAs do nothing on this machine, and no chip drives the CPU.  Once
  a scanline, after the CPU's run, the timer and horizontal sync, the outputs of the chips
  are combined into the lines; a chip that changes its output afterwards is seen at the
  next scanline.

      routeInterrupts_lines   what a routing stores
      coco3_lines             after any run the lines are the outputs at the last routing

  Not modelled: the memory and the devices that have no interrupt.
-/
import CocoEmulator.Machine.Coco3Frame
import CocoEmulator.Machine.Keyboard

set_option autoImplicit false

namespace CocoEmulator.Machine

open CocoEmulator.Base CocoEmulator.Chip CocoEmulator.Chip.Mc6821 CocoEmulator.Gime
open CocoEmulator.Cpu (Pins)

/-- IRQ and FIRQ. -/
structure Lines where
  irq : Bool
  firq : Bool
deriving DecidableEq, Repr

namespace Coco3Board

variable (b : Coco3Board)

/-- The lines as the CPU sees them. -/
def lines : Lines := ⟨b.pins.irqPending, b.pins.firqPending⟩

/-- The outputs of the chips, combined. -/
def outputs : Lines where
  irq := b.pia0.active .a || b.pia0.active .b || b.gime.irq
  firq := b.pia1.active .a || b.pia1.active .b || b.gime.firq || b.pakIrq

def runPia1 (prog : Mc6821.M Unit) : Coco3Board := { b with pia1 := (prog b.pia1).st }

/-- The part of a scanline before the routing, without the CPU's run. -/
def beforeRouting : Coco3Board := (b.withGime b.gime.tickScanline).horizontalSync

/-- `machine_reset_coco3`, as far as the chips and the lines go. -/
def machineReset (ramSize : Unsigned) : Coco3Board :=
  { ((b.withGime (b.gime.reset.setRam ramSize)).runPia0 mc6821Reset).runPia1 mc6821Reset with
    pins := {}
    scanline := 0 }

end Coco3Board

/-- What happens between two instructions or in one: an access of a chip or an event of its
own, the keyboard scanned, the pak's interrupt, a machine reset, and the end of the CPU's part
of a scanline. -/
inductive BoardEvent
  | gime (e : Gime.Event)
  | snoop (addr : Word) (val : Byte)
  | pia0 (side : Mc6821.Side) (op : Op)
  | pia1 (side : Mc6821.Side) (op : Op)
  | scan (hal : Hal) (reg : Byte)
  | pakIrq (active : Bool)
  | reset (ramSize : Unsigned)
  | scanline

def BoardEvent.step (e : BoardEvent) (b : Coco3Board) : Coco3Board :=
  match e with
  | .gime e => b.withGime (e.step b.gime)
  | .snoop addr val => b.withGime (b.gime.snoopPia1b addr val)
  | .pia0 side op => b.runPia0 (op.run side)
  | .pia1 side op => b.runPia1 (op.run side)
  | .scan hal reg => { b with pia0 := scanned hal b.pia0 b.pia1 reg }
  | .pakIrq active => { b with pakIrq := active }
  | .reset ramSize => b.machineReset ramSize
  | .scanline => b.runScanline id

/-- The outputs at the last routing; a reset drops both lines. -/
def BoardEvent.routed (e : BoardEvent) (b : Coco3Board) (last : Lines) : Lines :=
  match e with
  | .scanline => b.beforeRouting.outputs
  | .reset _ => ⟨false, false⟩
  | _ => last

/-- The board, and the outputs at the last routing beside it. -/
def stepRouted (e : BoardEvent) (x : Coco3Board × Lines) : Coco3Board × Lines :=
  (e.step x.1, e.routed x.1 x.2)

section

variable {b : Coco3Board}

theorem routeInterrupts_lines (b : Coco3Board) : b.routeInterrupts.lines = b.outputs := rfl

theorem onScanline_lines (b : Coco3Board) (k : Nat) {f : Coco3Board → Coco3Board}
    (hf : (f b).lines = b.lines) : (b.onScanline k f).lines = b.lines := by
  unfold Coco3Board.onScanline
  split
  next => exact hf
  next => rfl

theorem enterActive_lines (b : Coco3Board) : b.enterActive.lines = b.lines := by
  unfold Coco3Board.enterActive
  split
  next => rfl
  next => rfl

theorem leaveActive_lines (b : Coco3Board) : b.leaveActive.lines = b.lines := by
  unfold Coco3Board.leaveActive
  dsimp only
  split
  next => rfl
  next => rfl

theorem showLine_lines (b : Coco3Board) : b.showLine.lines = b.lines := by
  unfold Coco3Board.showLine
  dsimp only
  split
  next => rfl
  next => rfl

/-- VBORD is raised without a word to the CPU. -/
theorem pictureLine_lines (b : Coco3Board) : b.pictureLine.lines = b.lines :=
  calc b.pictureLine.lines
      = b.enterActive.lineBorder.leaveActive.showLine.lines := rfl
    _ = b.enterActive.lineBorder.leaveActive.lines := showLine_lines _
    _ = b.enterActive.lineBorder.lines := leaveActive_lines _
    _ = b.lines := enterActive_lines b

theorem verticalTiming_lines (b : Coco3Board) : b.verticalTiming.lines = b.lines := by
  have hsync : (((b.onScanline 0 Coco3Board.fieldStart).onScanline 4
      (Coco3Board.runPia0 · (mc6821Cb1Transition true))).onScanline 7
        Coco3Board.blankingEnd).lines = b.lines := by
    rw [onScanline_lines _ 7 rfl, onScanline_lines _ 4 rfl, onScanline_lines _ 0 rfl]
  unfold Coco3Board.verticalTiming
  dsimp only
  split
  next => rw [pictureLine_lines, hsync]
  next => exact hsync

/-- A scanline stores the outputs as they are before the vertical timing. -/
theorem runScanline_lines (b : Coco3Board) : (b.runScanline id).lines = b.beforeRouting.outputs :=
  calc (b.runScanline id).lines
      = b.beforeRouting.routeInterrupts.verticalTiming.lines := rfl
    _ = b.beforeRouting.routeInterrupts.lines := verticalTiming_lines _
    _ = b.beforeRouting.outputs := routeInterrupts_lines _

/-- Nothing else stores into the lines. -/
theorem BoardEvent.step_lines (e : BoardEvent) (b : Coco3Board) :
    (e.step b).lines = e.routed b b.lines := by
  cases e with
  | scanline => exact runScanline_lines b
  | gime e | snoop addr val | pia0 side op | pia1 side op | scan hal reg | pakIrq active
    | reset ramSize => rfl

end

/-- After any run of accesses, events and scanlines the lines of the CPU are the outputs of the
chips, combined, as they were at the last routing; between two routings the chips may have moved
on. -/
theorem coco3_lines (b : Coco3Board) (events : List BoardEvent) :
    Always stepRouted (fun x => x.1.lines = x.2) events (b, b.lines) := by
  refine @Always.of_step _ _ stepRouted (fun x => x.1.lines = x.2) (fun _ _ => True) _ _ rfl ?_
    (EachStep.of_forall fun _ _ _ => trivial)
  rintro e ⟨b, last⟩ hlines _
  obtain rfl : b.lines = last := hlines
  exact e.step_lines b

/-- HBORD is enabled, raised and routed; the acknowledging read of $FF92 takes the output of
the chip down, and the line of the CPU stays up. -/
theorem coco3_line_stale :
    let b := runAll BoardEvent.step
      [.reset 0x20000, .gime (.write 0 0x20), .gime (.write 2 0x10), .scanline, .scanline,
        .gime (.read 2)] { gime := {} }
    b.lines.irq = true ∧ b.outputs.irq = false := by
  decide +kernel

end CocoEmulator.Machine
