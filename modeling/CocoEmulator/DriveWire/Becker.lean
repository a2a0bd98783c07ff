/-
  DriveWire/Becker.lean --- the Becker port (becker.cpp).

  Two rings of bytes between the CoCo and the DriveWire back end, and the requests
  that cross with them: a flush of either ring up to a mark, serviced by the
  consumer on its next access, and a reset, which the back end answers by dropping
  the connection.

  Every function here is one step: the CPU side and the back end run on different
  cores, and each index and flag has one writer.

  Not modelled: the allocation of the rings (a port without them is disabled and
  never called), and the back-end task that `becker_notify_backend` wakes.
-/
import CocoEmulator.Base.RingBuffer
import CocoEmulator.Base.Run
import CocoEmulator.Base.Words

set_option autoImplicit false

namespace CocoEmulator.DriveWire

open CocoEmulator.Base

abbrev Index : Type := BitVec 32

/-- `RX_SIZE`. -/
def rxSize : Nat := 4096

/-- `TX_SIZE`. -/
def txSize : Nat := 1024

/-- A flush request: whether it is pending, and the mark it was made at. -/
structure Flush where
  req : Bool := false
  mark : Index := 0

/-- The state of the port after `becker_init`. -/
structure Becker where
  enabled : Bool := true
  txPending : Bool := false
  rx : RingBuffer Byte := { slot := fun _ => 0 }
  tx : RingBuffer Byte := { slot := fun _ => 0 }
  rxFlush : Flush := {}
  txFlush : Flush := {}
  resetReq : Bool := false
  linkUp : Bool := false
  bytesToCoco : Index := 0
  bytesFromCoco : Index := 0

/-! ## CPU side -/

/-- `service_rx_flush`. -/
def serviceRxFlush (b : Becker) : Becker :=
  if b.rxFlush.req then
    { b with rx := b.rx.skip b.rxFlush.mark, rxFlush := { b.rxFlush with req := false } }
  else b

/-- Is a byte waiting for the CoCo? -/
def rxWaiting (b : Becker) : Bool := b.rx.head != b.rx.tail

/-- `becker_read_status`. -/
def beckerReadStatus (b : Becker) : Byte × Becker :=
  let b := serviceRxFlush b
  (if rxWaiting b then 0x02 else 0x00, b)

/-- `becker_read_data`. -/
def beckerReadData (b : Becker) : Byte × Becker :=
  let b := serviceRxFlush b
  if rxWaiting b then
    (b.rx.slot (b.rx.tail.toNat % rxSize),
      { b with rx := b.rx.advance 1, bytesToCoco := b.bytesToCoco + 1 })
  else (0x00, b)

/-- Does the TX ring take another byte? -/
def txRoom (b : Becker) : Bool := b.tx.used < txSize

/-- `becker_write_data`: a full ring drops the byte. -/
def beckerWriteData (value : Byte) (b : Becker) : Becker :=
  if txRoom b then
    { b with
      tx := b.tx.push txSize [value]
      bytesFromCoco := b.bytesFromCoco + 1
      txPending := true }
  else b

/-- `becker_reset`. -/
def beckerReset (b : Becker) : Becker :=
  if b.enabled then
    { b with rx := b.rx.clear, txFlush := ⟨true, b.tx.head⟩, resetReq := true }
  else b

/-- `becker_notify_backend`. -/
def beckerNotifyBackend (b : Becker) : Becker := { b with txPending := false }

/-! ## Back-end side -/

/-- The flush at the top of `becker_tx_pop`. -/
def serviceTxFlush (b : Becker) : Becker :=
  if b.txFlush.req then
    { b with tx := b.tx.skip b.txFlush.mark, txFlush := { b.txFlush with req := false } }
  else b

/-- `becker_tx_pop`: at most `max` bytes. -/
def beckerTxPop (max : Nat) (b : Becker) : List Byte × Becker :=
  let b := serviceTxFlush b
  let n := min b.tx.used max
  (b.tx.peek txSize n, { b with tx := b.tx.advance n })

/-- `becker_rx_space`, in 32 bits. -/
def beckerRxSpace (b : Becker) : Nat := (BitVec.ofNat 32 rxSize - (b.rx.head - b.rx.tail)).toNat

/-- `becker_rx_push`: it takes what fits, and says how much. -/
def beckerRxPush (bytes : List Byte) (b : Becker) : Nat × Becker :=
  let n := min bytes.length (beckerRxSpace b)
  (n, { b with rx := b.rx.push rxSize (bytes.take n) })

/-- `becker_reset_requested`. -/
def beckerResetRequested (b : Becker) : Bool := b.resetReq

/-- `becker_clear_reset`. -/
def beckerClearReset (b : Becker) : Becker :=
  if b.resetReq then
    { b with
      tx := b.tx.skip b.txFlush.mark
      txFlush := { b.txFlush with req := false }
      resetReq := false }
  else b

/-- What `becker_set_link_up(false)` drops: all of TX, or for a reset what came before it;
and all of RX, at the CoCo's next access. -/
def dropLink (b : Becker) : Becker :=
  let b := if b.resetReq then beckerClearReset b else { b with tx := b.tx.clear }
  { b with rxFlush := ⟨true, b.rx.head⟩ }

/-- `becker_set_link_up`. -/
def beckerSetLinkUp (up : Bool) (b : Becker) : Becker :=
  let b := if up then b else dropLink b
  { b with linkUp := up }

/-! ## Calls and their history -/

/-- The calls that change the port. -/
inductive Call
  | readStatus
  | readData
  | writeData (value : Byte)
  | reset
  | notifyBackend
  | txPop (max : Nat)
  | rxPush (bytes : List Byte)
  | clearReset
  | setLinkUp (up : Bool)

/-- What has gone through a ring: the bytes it accepted and those it delivered, the position
of the last mark, how far flushes were requested, and the fill at which bytes were
refused. -/
structure Ledger where
  accepted : List Byte := []
  delivered : List Byte := []
  mark : Nat := 0
  flushed : Nat := 0
  refusedAt : List Nat := []

def Ledger.accept (bytes : List Byte) (l : Ledger) : Ledger :=
  { l with accepted := l.accepted ++ bytes }

def Ledger.deliver (bytes : List Byte) (l : Ledger) : Ledger :=
  { l with delivered := l.delivered ++ bytes }

/-- A byte was refused with this many in the ring. -/
def Ledger.refuse (used : Nat) (l : Ledger) : Ledger := { l with refusedAt := used :: l.refusedAt }

/-- Everything accepted so far is dropped at once. -/
def Ledger.flush (l : Ledger) : Ledger := { l with flushed := l.accepted.length }

/-- A flush of everything accepted so far is requested. -/
def Ledger.request (l : Ledger) : Ledger :=
  { l with mark := l.accepted.length, flushed := l.accepted.length }

/-- The port with the histories of its rings. -/
structure Watched where
  port : Becker := {}
  rx : Ledger := {}
  tx : Ledger := {}

/-- The port after a call. -/
def Call.run : Call → Becker → Becker
  | .readStatus, b => (beckerReadStatus b).2
  | .readData, b => (beckerReadData b).2
  | .writeData value, b => beckerWriteData value b
  | .reset, b => beckerReset b
  | .notifyBackend, b => beckerNotifyBackend b
  | .txPop max, b => (beckerTxPop max b).2
  | .rxPush bytes, b => (beckerRxPush bytes b).2
  | .clearReset, b => beckerClearReset b
  | .setLinkUp up, b => beckerSetLinkUp up b

/-- What a call adds to the history of the RX ring. -/
def Call.logRx : Call → Becker → Ledger → Ledger
  | .readData, b, l =>
      if rxWaiting (serviceRxFlush b) then l.deliver [(beckerReadData b).1] else l
  | .reset, b, l => if b.enabled then l.flush else l
  | .rxPush bytes, b, l =>
      let l' := l.accept (bytes.take (beckerRxPush bytes b).1)
      if (beckerRxPush bytes b).1 < bytes.length then l'.refuse (beckerRxPush bytes b).2.rx.used
      else l'
  | .setLinkUp false, _, l => l.request
  | _, _, l => l

/-- What a call adds to the history of the TX ring. -/
def Call.logTx : Call → Becker → Ledger → Ledger
  | .writeData value, b, l => if txRoom b then l.accept [value] else l.refuse b.tx.used
  | .reset, b, l => if b.enabled then l.request else l
  | .txPop max, b, l => l.deliver (beckerTxPop max b).1
  | .setLinkUp false, b, l => if b.resetReq then l else l.flush
  | _, _, l => l

def Call.step (call : Call) (w : Watched) : Watched where
  port := call.run w.port
  rx := call.logRx w.port w.rx
  tx := call.logTx w.port w.tx

end CocoEmulator.DriveWire
