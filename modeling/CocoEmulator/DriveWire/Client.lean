/-
  DriveWire/Client.lean --- the DriveWire client task (dw_client.cpp).

  The task connects, serves the link and drops it.  It runs on the other core, so
  guest accesses fall between any two of its steps.  A step is one call of the
  port, or one exchange with the socket; what the network answers is an input.

  A session begins when the task clears the resets requested before its link came
  up, and ends when it drops the link.  Beside the state the world records, for each
  byte, how many resets there had been when its session began (bytes received) or
  when the guest wrote it (bytes to send), and what was read and sent when.

  Not modelled: the delays, and the counters for the status page.
-/
import CocoEmulator.DriveWire.Fifo

set_option autoImplicit false

namespace CocoEmulator.DriveWire

open CocoEmulator.Base

/-- Where the task is. -/
inductive Pc
  /-- top of the loop in `client_task` -/
  | idle
  /-- connected, before `becker_clear_reset` -/
  | clear
  | linkUp
  /-- top of the loop in `run_link` -/
  | check
  | pop
  /-- `c.write` of what was popped -/
  | send (bytes : List Byte)
  | receive
  /-- `becker_rx_push` of what was read -/
  | push (bytes : List Byte)
  | wifi
  /-- `run_link` has returned -/
  | leave
  | stop
  | linkDown
  /-- shut down for a restart -/
  | halted
  deriving DecidableEq

/-- What the network answers to a step of the task. -/
structure Net where
  wifi : Bool := true
  connects : Bool := true
  connected : Bool := true
  wrote : Nat := 512
  avail : Nat := 0
  got : List Byte := []

/-- A byte with the number of resets it is tagged with. -/
abbrev Tagged : Type := Nat × Byte

/-- A byte sent: its tag, the number of resets when the session began, and the byte. -/
structure Sent where
  tag : Nat
  session : Nat
  byte : Byte
  deriving DecidableEq

/-- The port, the task, and what has happened. -/
structure World where
  watched : Watched := {}
  pc : Pc := .idle
  shutdown : Bool := false
  /-- resets so far -/
  resets : Nat := 0
  /-- resets when the session of the link began -/
  session : Nat := 0
  /-- bytes the RX ring accepted, tagged with their session -/
  rxLog : List Tagged := []
  /-- bytes the guest read: their tag, and the resets at the read -/
  reads : List (Nat × Nat) := []
  /-- bytes the TX ring accepted, tagged with the resets before the write -/
  txLog : List Tagged := []
  /-- popped and not yet written -/
  flight : List Tagged := []
  sent : List Sent := []
  /-- a link that came up after the last reset was lost -/
  lost : Bool := false

/-- The port. -/
abbrev World.port (s : World) : Becker := s.watched.port

/-- Make a call of the port. -/
def World.call (call : Call) (s : World) : World := { s with watched := call.step s.watched }

/-- Continue at another place. -/
def World.goto (pc : Pc) (s : World) : World := { s with pc := pc }

/-- The bound of the task's buffer. -/
def bufSize : Nat := 512

/-! ## The back end -/

/-- `becker_clear_reset` after the connect: the session begins. -/
def stepClear (s : World) : World :=
  ({ s with session := s.resets }.call .clearReset).goto .linkUp

/-- The checks at the top of `run_link`. -/
def stepCheck (net : Net) (s : World) : World :=
  if !net.connected then s.goto .leave
  else if beckerResetRequested s.port then s.goto .leave
  else if s.shutdown then s.goto .leave
  else s.goto .pop

/-- `becker_tx_pop`. -/
def stepPop (s : World) : World :=
  let bytes := (beckerTxPop bufSize s.port).1
  let next := consumer (serviceTxFlush s.port).tx s.watched.tx
  let s := { s with flight := (s.txLog.drop next).take bytes.length }.call (.txPop bufSize)
  if bytes = [] then s.goto .receive else s.goto (.send bytes)

/-- `c.write`: a short write ends the link. -/
def stepSend (net : Net) (bytes : List Byte) (s : World) : World :=
  let n := min net.wrote bytes.length
  let s := { s with
    sent := s.sent ++ List.zipWith (fun (x : Tagged) b => Sent.mk x.1 s.session b)
      s.flight (bytes.take n)
    flight := []
    lost := s.lost || (n != bytes.length && s.session == s.resets) }
  if n = bytes.length then s.goto .pop else s.goto .leave

/-- `c.available`, `becker_rx_space` and `c.read`. -/
def stepReceive (net : Net) (s : World) : World :=
  let want := min net.avail (min (beckerRxSpace s.port) bufSize)
  if net.avail = 0 ∨ beckerRxSpace s.port = 0 ∨ net.got.take want = [] then s.goto .wifi
  else s.goto (.push (net.got.take want))

/-- `becker_rx_push`. -/
def stepPush (bytes : List Byte) (s : World) : World :=
  let taken := bytes.take (beckerRxPush bytes s.port).1
  ({ s with rxLog := s.rxLog ++ taken.map fun b => (s.session, b) }.call (.rxPush bytes)).goto
    .receive

/-- `becker_set_link_up(false)`. -/
def stepLinkDown (s : World) : World :=
  ({ s with lost := s.lost || s.session == s.resets }.call (.setLinkUp false)).goto .idle

/-- A step of the task. -/
def stepTask (net : Net) (s : World) : World :=
  match s.pc with
  | .idle =>
      if s.shutdown then s.goto .halted
      else if net.wifi && net.connects then s.goto .clear
      else s
  | .clear => stepClear s
  | .linkUp => (s.call (.setLinkUp true)).goto .check
  | .check => stepCheck net s
  | .pop => stepPop s
  | .send bytes => stepSend net bytes s
  | .receive => stepReceive net s
  | .push bytes => stepPush bytes s
  | .wifi => if net.wifi then s.goto .check else s.goto .leave
  | .leave => s.goto .stop
  | .stop => if s.shutdown then s.goto .idle else s.goto .linkDown
  | .linkDown => stepLinkDown s
  | .halted => s

/-! ## The guest -/

/-- A read of the data port. -/
def stepRead (s : World) : World :=
  let b := serviceRxFlush s.port
  let next := consumer b.rx s.watched.rx
  let s := if rxWaiting b then
      { s with reads := s.reads ++ [((s.rxLog.getD next (0, 0)).1, s.resets)] }
    else s
  s.call .readData

/-- A write of the data port. -/
def stepWrite (value : Byte) (s : World) : World :=
  let s := if txRoom s.port then { s with txLog := s.txLog ++ [(s.resets, value)] } else s
  s.call (.writeData value)

/-- A reset of the CoCo. -/
def stepReset (s : World) : World :=
  { s with resets := s.resets + 1, lost := false }.call .reset

/-- Everything that happens. -/
inductive Input
  | status
  | read
  | write (value : Byte)
  | reset
  | shutdown
  | task (net : Net)

def Input.step : Input → World → World
  | .status, s => s.call .readStatus
  | .read, s => stepRead s
  | .write value, s => stepWrite value s
  | .reset, s => stepReset s
  | .shutdown, s => { s with shutdown := true }
  | .task net, s => stepTask net s

/-- Does the task have a session? -/
def Pc.inSession : Pc → Bool
  | .idle => false
  | .clear => false
  | .halted => false
  | _ => true

end CocoEmulator.DriveWire
