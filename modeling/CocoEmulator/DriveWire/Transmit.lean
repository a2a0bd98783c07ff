/-
  DriveWire/Transmit.lean --- sessions are isolated on the transmit side.

  Every step of the guest and of the task is one of the moves of `TxSide`, if no pop
  made while a reset is requested finds a byte written after it (`TxInv`).  While
  the task has a session, it is that of the last reset exactly when no reset is
  requested.

      Calm.drains           from every place the task brings out what was written
      tx_isolation_exact    a run of such steps sends every byte on its own session
-/
import CocoEmulator.DriveWire.TxSide

set_option autoImplicit false

namespace CocoEmulator.DriveWire

open CocoEmulator.Base

/-- The task does not pop while a reset is requested and a byte was accepted after it. -/
def Input.TxSafe : Input → World → Prop
  | .task _, s => s.pc = .pop → s.port.resetReq = true → s.port.tx.head = s.port.txFlush.mark
  | _, _ => True

instance (i : Input) (s : World) : Decidable (i.TxSafe s) :=
  match i with
  | .task _ => inferInstanceAs (Decidable (_ → _))
  | .status | .read | .write _ | .reset | .shutdown => isTrue trivial

/-! ## Steps -/

/-- What the task has popped and is about to write. -/
def Pc.sending : Pc → List Byte
  | .send bytes => bytes
  | _ => []

/-- The invariant of the transmit side. -/
structure TxInv (s : World) : Prop where
  side : s.txSide.Ok
  current : s.pc.inSession = true → (s.session = s.resets ↔ s.port.resetReq = false)
  sending : s.flight.map Prod.snd = s.pc.sending
  halted : s.pc = .halted → s.shutdown = true

section

variable {s : World}

theorem TxInv.of_same {s' : World} (h : TxInv s) (hside : s'.txSide = s.txSide)
    (hin : s'.pc.inSession = true → s.pc.inSession = true)
    (hsending : s'.pc.sending = s.pc.sending) (hhalted : s'.pc = .halted → s'.shutdown = true) :
    TxInv s' := by
  have hsession : s'.session = s.session := congrArg TxSide.session hside
  have hresets : s'.resets = s.resets := congrArg TxSide.resets hside
  have hresetReq : s'.port.resetReq = s.port.resetReq := congrArg TxSide.resetReq hside
  have hflight : s'.flight = s.flight := congrArg TxSide.flight hside
  refine ⟨hside ▸ h.side, fun hpc => ?_, ?_, hhalted⟩
  · rw [hsession, hresets, hresetReq]
    exact h.current (hin hpc)
  · rw [hflight, hsending]
    exact h.sending

/-- The task moves on without bytes in flight. -/
theorem TxInv.goto (h : TxInv s) {pc : Pc} (hin : pc.inSession = true → s.pc.inSession = true)
    (hsending : pc.sending = s.pc.sending) (hhalted : pc = .halted → s.shutdown = true) :
    TxInv (s.goto pc) :=
  h.of_same rfl hin hsending hhalted

theorem TxInv.status (h : TxInv s) : TxInv (Input.step .status s) := by
  have hside : (Input.step .status s).txSide = s.txSide := by
    unfold Input.step World.call World.txSide Call.step World.port Call.run beckerReadStatus
      serviceRxFlush
    dsimp only
    split <;> rfl
  exact h.of_same hside id rfl h.halted

theorem TxInv.read (h : TxInv s) : TxInv (stepRead s) := by
  have hcall : ∀ s : World, (s.call .readData).txSide = s.txSide := by
    intro s
    unfold World.call World.txSide Call.step World.port Call.run beckerReadData serviceRxFlush
    dsimp only
    split <;> split <;> rfl
  unfold stepRead
  dsimp only
  split
  · exact h.of_same (hcall _) id rfl h.halted
  · exact h.of_same (hcall _) id rfl h.halted

theorem TxInv.write (h : TxInv s) (value : Byte) : TxInv (stepWrite value s) := by
  have hbound := (h.side.ring.fifo txSize_lt).bound
  unfold stepWrite
  by_cases hroom : txRoom s.port = true
  · have hlt : s.port.tx.used < txSize := of_decide_eq_true hroom
    have hrun : Call.step (.writeData value) s.watched = { s.watched with
        port := { s.port with
          tx := s.port.tx.push txSize [value]
          bytesFromCoco := s.port.bytesFromCoco + 1
          txPending := true }
        tx := s.watched.tx.accept [value] } := by
      have hroom' : txRoom s.watched.port = true := hroom
      unfold Call.step Call.run Call.logTx beckerWriteData
      dsimp only
      rw [if_pos hroom', if_pos hroom']
      rfl
    rw [if_pos hroom]
    unfold World.call
    dsimp only
    rw [hrun]
    exact ⟨h.side.write value hlt, h.current, h.sending, h.halted⟩
  · have hge : ¬s.port.tx.used < txSize := fun hlt => hroom (decide_eq_true hlt)
    have hfull : s.port.tx.used = txSize := Nat.le_antisymm hbound (Nat.le_of_not_lt hge)
    have hrun : Call.step (.writeData value) s.watched = { s.watched with
        tx := s.watched.tx.refuse s.port.tx.used } := by
      have hroom' : ¬txRoom s.watched.port = true := hroom
      unfold Call.step Call.run Call.logTx beckerWriteData
      dsimp only
      rw [if_neg hroom', if_neg hroom']
      rfl
    rw [if_neg hroom]
    unfold World.call
    dsimp only
    rw [hrun]
    exact ⟨h.side.refuse hfull, h.current, h.sending, h.halted⟩

theorem TxInv.reset (h : TxInv s) : TxInv (stepReset s) := by
  have hrun : Call.step .reset s.watched = {
      port := { s.port with
        rx := s.port.rx.clear, txFlush := ⟨true, s.port.tx.head⟩, resetReq := true }
      rx := s.watched.rx.flush
      tx := s.watched.tx.request } := by
    have henabled : s.port.enabled = true := h.side.enabled
    unfold Call.step Call.run Call.logTx Call.logRx beckerReset
    dsimp only
    rw [if_pos henabled, if_pos henabled, if_pos henabled]
  have hsession := h.side.session
  unfold stepReset World.call
  dsimp only
  rw [hrun]
  refine ⟨h.side.reset, fun _ => iff_of_false ?_ Bool.noConfusion, h.sending, h.halted⟩
  exact Nat.ne_of_lt (Nat.lt_succ_of_le hsession)

theorem serviceTxFlush_frame (b : Becker) :
    (serviceTxFlush b).tx.head = b.tx.head ∧ (serviceTxFlush b).txFlush.mark = b.txFlush.mark ∧
      (serviceTxFlush b).resetReq = b.resetReq ∧ (serviceTxFlush b).txFlush.req = false := by
  unfold serviceTxFlush
  split
  · exact ⟨rfl, rfl, rfl, rfl⟩
  · rename_i hreq
    exact ⟨rfl, rfl, rfl, Bool.eq_false_iff.mpr hreq⟩

/-- The transmit side once a pending flush is serviced. -/
def World.serviced (s : World) : TxSide :=
  { s.txSide with ring := (serviceTxFlush s.port).tx, flush := (serviceTxFlush s.port).txFlush }

theorem TxInv.serviced (h : TxInv s) : s.serviced.Ok := by
  unfold World.serviced serviceTxFlush
  by_cases hreq : s.port.txFlush.req = true
  · rw [if_pos hreq]
    have hreset : s.txSide.resetReq = true := h.side.request hreq
    have hsettle := h.side.settle hreset true
    unfold TxSide.settled at hsettle
    rw [← hreset] at hsettle
    exact hsettle
  · rw [if_neg hreq]
    exact h.side

/-- While a reset is requested a safe pop finds nothing. -/
theorem TxInv.pop_none (h : TxInv s) (hpc : s.pc = .pop) (hsafe : Input.TxSafe (.task {}) s)
    (hreq : s.port.resetReq = true) : (serviceTxFlush s.port).tx.used = 0 := by
  obtain ⟨hhead, hmark, _, hserved⟩ := serviceTxFlush_frame s.port
  have hok := h.serviced
  have hnext : s.serviced.next = s.serviced.ledger.mark := hok.served hreq hserved
  obtain ⟨next, hex⟩ := hok.ring.queue
  have hconsumer : s.serviced.next = next := hex.consumer txSize_lt
  have htail : (serviceTxFlush s.port).tx.tail = (serviceTxFlush s.port).txFlush.mark := by
    have hpos : s.serviced.flush.mark = BitVec.ofNat 32 s.serviced.ledger.mark := hok.ring.marked.mark
    rw [← hnext, hconsumer, ← hex.holds.tail] at hpos
    exact hpos.symm
  unfold RingBuffer.used
  rw [htail, hmark, hhead, hsafe hpc hreq, BitVec.sub_self]
  rfl

/-- How many bytes a pop takes. -/
def World.popped (s : World) : Nat := min (serviceTxFlush s.port).tx.used bufSize

theorem stepPop_bytes (s : World) : (beckerTxPop bufSize s.port).1 =
    (serviceTxFlush s.port).tx.peek txSize s.popped := rfl

theorem stepPop_length (s : World) : (beckerTxPop bufSize s.port).1.length = s.popped := by
  rw [stepPop_bytes]
  unfold RingBuffer.peek
  rw [List.length_map, List.length_range]

theorem stepPop_side (s : World) : (stepPop s).txSide = { s.serviced with
    ring := s.serviced.ring.advance s.popped
    ledger := s.serviced.ledger.deliver (s.serviced.ring.peek txSize s.popped)
    flight := (s.serviced.log.drop s.serviced.next).take s.popped } := by
  obtain ⟨_, _, hresetReq, _⟩ := serviceTxFlush_frame s.port
  have hlen := stepPop_length s
  unfold stepPop
  dsimp only
  rw [hlen]
  have hside : ∀ s' : World, (s'.call (.txPop bufSize)).txSide = { s'.serviced with
      ring := s'.serviced.ring.advance s'.popped
      ledger := s'.serviced.ledger.deliver (s'.serviced.ring.peek txSize s'.popped) } := by
    intro s'
    have henabled : (serviceTxFlush s'.port).enabled = s'.port.enabled := by
      unfold serviceTxFlush
      split <;> rfl
    obtain ⟨_, _, hresetReq, _⟩ := serviceTxFlush_frame s'.port
    have hshape : (s'.call (.txPop bufSize)).txSide = { s'.serviced with
        enabled := (serviceTxFlush s'.port).enabled
        resetReq := (serviceTxFlush s'.port).resetReq
        ring := s'.serviced.ring.advance s'.popped
        ledger := s'.serviced.ledger.deliver (s'.serviced.ring.peek txSize s'.popped) } := rfl
    rw [hshape, henabled, hresetReq]
    rfl
  split
  · exact hside _
  · exact hside _

theorem TxInv.pop (h : TxInv s) (hpc : s.pc = .pop) (hsafe : Input.TxSafe (.task {}) s) :
    TxInv (stepPop s) := by
  have hempty : s.flight = [] := by
    have hsending := h.sending
    rw [hpc] at hsending
    exact List.map_eq_nil_iff.mp hsending
  have hin : s.pc.inSession = true := by
    rw [hpc]
    rfl
  have hn : s.popped ≤ s.serviced.ring.used := Nat.min_le_left _ _
  have hown : s.popped = 0 ∨ s.serviced.resetReq = false ∧ s.serviced.session = s.serviced.resets := by
    by_cases hreq : s.port.resetReq = true
    · refine .inl ?_
      unfold World.popped
      rw [h.pop_none hpc hsafe hreq, Nat.zero_min]
    · have hno : s.port.resetReq = false := Bool.eq_false_iff.mpr hreq
      exact .inr ⟨hno, (h.current hin).mpr hno⟩
  have htake := h.serviced.take hempty hn hown
  rw [← stepPop_side] at htake
  have hresetReq : (stepPop s).port.resetReq = s.port.resetReq :=
    congrArg TxSide.resetReq (stepPop_side s)
  have hsession : (stepPop s).session = s.session := congrArg TxSide.session (stepPop_side s)
  have hresets : (stepPop s).resets = s.resets := congrArg TxSide.resets (stepPop_side s)
  have hflight : (stepPop s).flight = (s.txLog.drop s.serviced.next).take s.popped :=
    congrArg TxSide.flight (stepPop_side s)
  -- what is in flight is what was popped
  have hbytes : (stepPop s).flight.map Prod.snd = (beckerTxPop bufSize s.port).1 := by
    obtain ⟨next, hex⟩ := h.serviced.ring.queue
    have hnext : s.serviced.next = next := hex.consumer txSize_lt
    have hlog : s.txLog.map Prod.snd = s.serviced.ledger.accepted := h.side.log
    have hlow := hex.holds.low
    have hused := hex.holds.used (by decide)
    have hpeek := hex.holds.peek txSize_dvd (n := s.popped) (by omega)
    rw [hflight, stepPop_bytes, List.map_take, List.map_drop, hlog, hnext]
    exact hpeek.symm
  have hpop : (stepPop s).pc = .receive ∧ (beckerTxPop bufSize s.port).1 = [] ∨
      (stepPop s).pc = .send (beckerTxPop bufSize s.port).1 := by
    unfold stepPop
    dsimp only
    split
    · rename_i hnil
      exact .inl ⟨rfl, hnil⟩
    · exact .inr rfl
  refine ⟨htake, fun _ => ?_, ?_, fun hhalted => ?_⟩
  · rw [hsession, hresets, hresetReq]
    exact h.current hin
  · rcases hpop with ⟨hreceive, hnil⟩ | hsend
    · rw [hbytes, hreceive, hnil]
      rfl
    · rw [hbytes, hsend]
      rfl
  · rcases hpop with ⟨hreceive, _⟩ | hsend
    · rw [hreceive] at hhalted
      exact nomatch hhalted
    · rw [hsend] at hhalted
      exact nomatch hhalted

theorem TxInv.send (h : TxInv s) (net : Net) {bytes : List Byte} (hpc : s.pc = .send bytes) :
    TxInv (stepSend net bytes s) := by
  have hin : s.pc.inSession = true := by
    rw [hpc]
    rfl
  have hbytes : s.flight.map Prod.snd = bytes := by
    have hsending := h.sending
    rw [hpc] at hsending
    exact hsending
  have hsend := h.side.send hbytes (min net.wrote bytes.length)
  unfold stepSend
  dsimp only
  split
  · exact ⟨hsend, fun _ => h.current hin, rfl, fun hhalted => (nomatch hhalted)⟩
  · exact ⟨hsend, fun _ => h.current hin, rfl, fun hhalted => (nomatch hhalted)⟩

/-- A session begins with the bytes written since the last reset. -/
theorem TxInv.clear (h : TxInv s) (hpc : s.pc = .clear) : TxInv (stepClear s) := by
  have hempty : s.flight = [] := by
    have hsending := h.sending
    rw [hpc] at hsending
    exact List.map_eq_nil_iff.mp hsending
  have hnone : s.flight.map Prod.snd = [] := List.map_eq_nil_iff.mpr hempty
  have hbegin := h.side.begin hempty
  unfold stepClear World.call Call.step Call.run beckerClearReset
  dsimp only
  by_cases hreq : s.port.resetReq = true
  · have hreq' : s.watched.port.resetReq = true := hreq
    rw [if_pos hreq']
    refine ⟨hbegin.settle hreq false, fun _ => iff_of_true rfl rfl, hnone, fun hhalted => (nomatch hhalted)⟩
  · have hreq' : ¬s.watched.port.resetReq = true := hreq
    rw [if_neg hreq']
    exact ⟨hbegin, fun _ => iff_of_true rfl (Bool.eq_false_iff.mpr hreq), hnone,
      fun hhalted => (nomatch hhalted)⟩

/-- The link is dropped: for a reset, only what came before it. -/
theorem TxInv.linkDown (h : TxInv s) (hpc : s.pc = .linkDown) : TxInv (stepLinkDown s) := by
  have hin : s.pc.inSession = true := by
    rw [hpc]
    rfl
  have hnone : s.flight.map Prod.snd = [] := by
    rw [h.sending, hpc]
    rfl
  have hcurrent := h.current hin
  unfold stepLinkDown World.call Call.step Call.run Call.logTx beckerSetLinkUp dropLink
    beckerClearReset
  dsimp only
  rw [if_neg Bool.false_ne_true]
  by_cases hreq : s.port.resetReq = true
  · have hne : ¬s.session = s.resets := fun heq => by
      rw [hcurrent.mp heq] at hreq
      exact absurd hreq Bool.false_ne_true
    have hlost : (s.lost || s.session == s.resets) = s.lost := by
      rw [beq_eq_false_iff_ne.mpr hne, Bool.or_false]
    have hreq' : s.watched.port.resetReq = true := hreq
    rw [hlost, if_pos hreq', if_pos hreq', if_pos hreq']
    exact ⟨h.side.settle hreq false, fun hin => (nomatch hin), hnone, fun hhalted => (nomatch hhalted)⟩
  · have hno : s.port.resetReq = false := Bool.eq_false_iff.mpr hreq
    have hlost : (s.lost || s.session == s.resets) = true := by
      rw [beq_iff_eq.mpr (hcurrent.mpr hno), Bool.or_true]
    have hreq' : ¬s.watched.port.resetReq = true := hreq
    rw [hlost, if_neg hreq', if_neg hreq']
    exact ⟨h.side.drop hno, fun hin => (nomatch hin), hnone, fun hhalted => (nomatch hhalted)⟩

/-- The task moves on within its session. -/
theorem TxInv.move (h : TxInv s) {pc : Pc} (hin : s.pc.inSession = true)
    (hempty : s.pc.sending = []) (hsending : pc.sending = []) (hne : pc ≠ .halted) :
    TxInv (s.goto pc) :=
  h.goto (fun _ => hin) (hsending.trans hempty.symm) fun hhalted => absurd hhalted hne

theorem TxInv.check (h : TxInv s) (net : Net) (hpc : s.pc = .check) : TxInv (stepCheck net s) := by
  have hgoto : ∀ pc : Pc, pc.sending = [] → pc ≠ .halted → TxInv (s.goto pc) := by
    intro pc hsending hne
    exact h.move (by rw [hpc]; rfl) (by rw [hpc]; rfl) hsending hne
  unfold stepCheck
  split
  · exact hgoto .leave rfl (fun heq => (nomatch heq))
  · split
    · exact hgoto .leave rfl (fun heq => (nomatch heq))
    · split
      · exact hgoto .leave rfl (fun heq => (nomatch heq))
      · exact hgoto .pop rfl (fun heq => (nomatch heq))

theorem TxInv.task (h : TxInv s) (net : Net) (hsafe : Input.TxSafe (.task net) s) :
    TxInv (stepTask net s) := by
  unfold stepTask
  split <;> rename_i hpc
  · -- `idle`
    split
    · rename_i hshutdown
      exact h.goto (fun hin => (nomatch hin)) (by rw [hpc]; rfl) fun _ => hshutdown
    · split
      · exact h.goto (fun hin => (nomatch hin)) (by rw [hpc]; rfl) fun hhalted => (nomatch hhalted)
      · exact h
  · exact h.clear hpc
  · -- `linkUp`
    refine h.of_same rfl (fun _ => ?_) ?_ fun hhalted => (nomatch hhalted)
    · rw [hpc]
      rfl
    · rw [hpc]
      rfl
  · exact h.check net hpc
  · exact h.pop hpc hsafe
  · exact h.send net hpc
  · -- `receive`
    unfold stepReceive
    dsimp only
    split
    · exact h.move (by rw [hpc]; rfl) (by rw [hpc]; rfl) rfl (fun heq => (nomatch heq))
    · exact h.move (by rw [hpc]; rfl) (by rw [hpc]; rfl) rfl (fun heq => (nomatch heq))
  · -- `push`
    refine h.of_same rfl (fun _ => ?_) ?_ fun hhalted => (nomatch hhalted)
    · rw [hpc]
      rfl
    · rw [hpc]
      rfl
  · -- `wifi`
    split
    · exact h.move (by rw [hpc]; rfl) (by rw [hpc]; rfl) rfl (fun heq => (nomatch heq))
    · exact h.move (by rw [hpc]; rfl) (by rw [hpc]; rfl) rfl (fun heq => (nomatch heq))
  · exact h.move (by rw [hpc]; rfl) (by rw [hpc]; rfl) rfl (fun heq => (nomatch heq))
  · -- `stop`
    split
    · exact h.move (by rw [hpc]; rfl) (by rw [hpc]; rfl) rfl (fun heq => (nomatch heq))
    · exact h.move (by rw [hpc]; rfl) (by rw [hpc]; rfl) rfl (fun heq => (nomatch heq))
  · exact h.linkDown hpc
  · exact h

end

theorem Input.step_txInv {i : Input} {s : World} (h : TxInv s) (hsafe : i.TxSafe s) :
    TxInv (i.step s) := by
  cases i with
  | status => exact h.status
  | read => exact h.read
  | write value => exact h.write value
  | reset => exact h.reset
  | shutdown => exact h.of_same rfl id rfl fun _ => rfl
  | task net => exact h.task net hsafe

theorem txInv_init : TxInv {} := by
  refine ⟨⟨rfl, ringOk_init txSize, rfl, fun hreq => (nomatch hreq), fun hreq => (nomatch hreq),
    fun hreq => (nomatch hreq), fun _ => Nat.zero_le _, fun p x hx => ?_, Nat.le_refl 0,
    fun x hx => absurd hx List.not_mem_nil, fun x hx => absurd hx List.not_mem_nil,
    List.Sublist.slnil, fun _ => rfl⟩, fun hin => (nomatch hin), rfl, fun hhalted => (nomatch hhalted)⟩
  exact absurd hx (by simp [World.txSide])

/-! ## Everything is sent

On a quiet link that works, the task alone brings out what the guest wrote. -/

/-- All that was written since the last reset is sent, unless a link was lost since. -/
def Drained (s : World) : Prop :=
  s.lost = false → since s.resets (s.sent.map Sent.tagged) = since s.resets s.txLog

/-- So many steps of the task. -/
def taskSteps (n : Nat) : List Input := List.replicate n (.task {})

/-- Left to itself the task gets there, if its steps are safe. -/
def Drains (s : World) : Prop :=
  (∀ n, EachStep Input.step Input.TxSafe (taskSteps n) s) →
    ∃ n, Drained (runAll Input.step (taskSteps n) s)

/-- The invariant, while no restart is under way. -/
structure Calm (s : World) : Prop where
  inv : TxInv s
  up : s.shutdown = false

section

variable {s : World}

theorem Drains.of_step (hnext : Input.TxSafe (.task {}) s → Drains (stepTask {} s)) : Drains s := by
  intro hall
  obtain ⟨n, hn⟩ := hnext (hall 1).1 fun n => (hall (n + 1)).2
  exact ⟨n + 1, hn⟩

theorem stepTask_shutdown (net : Net) (s : World) : (stepTask net s).shutdown = s.shutdown := by
  unfold stepTask stepCheck stepPop stepSend stepReceive
  dsimp only
  split
  · split
    · rfl
    · split <;> rfl
  · rfl
  · rfl
  · split
    · rfl
    · split
      · rfl
      · split <;> rfl
  · split <;> rfl
  · split <;> rfl
  · split <;> rfl
  · rfl
  · split <;> rfl
  · rfl
  · split <;> rfl
  · rfl
  · rfl

theorem Calm.next (h : Calm s)
    (hnext : Input.TxSafe (.task {}) s → Calm (stepTask {} s) → Drains (stepTask {} s)) :
    Drains s :=
  Drains.of_step fun hsafe =>
    hnext hsafe ⟨h.inv.task {} hsafe, (stepTask_shutdown {} s).trans h.up⟩

/-- With nothing in flight and nothing in the ring all is sent. -/
theorem TxInv.drained (h : TxInv s) (hempty : s.pc.sending = []) (hno : s.port.resetReq = false)
    (hused : s.port.tx.used = 0) : Drained s := by
  intro hlost
  have hwhole := h.side.whole hlost
  have hafter := h.side.after hno
  have hsum := h.side.ring.consumer_le txSize_lt
  have hlen := h.side.length
  have hflight : s.txSide.flight = [] := by
    have hsending := h.sending
    rw [hempty] at hsending
    exact List.map_eq_nil_iff.mp hsending
  have hend : s.txSide.log.length ≤ s.txSide.next := by
    have hused' : s.txSide.ring.used = 0 := hused
    rw [hlen]
    unfold TxSide.next
    omega
  rw [Nat.max_eq_left hafter, List.drop_of_length_le hend, List.append_nil] at hwhole
  unfold TxSide.handled at hwhole
  rw [hflight, List.append_nil, ← h.side.since_log] at hwhole
  exact hwhole

/-- A pop of a ring that is not empty shortens it. -/
theorem TxInv.pop_some (h : TxInv s) (hno : s.port.resetReq = false)
    (hused : s.port.tx.used ≠ 0) :
    ∃ bytes, (stepPop s).pc = .send bytes ∧ bytes.length ≤ bufSize ∧
      (stepPop s).port.resetReq = false ∧ (stepPop s).port.tx.used < s.port.tx.used := by
  have hreq : ¬s.port.txFlush.req = true := fun hreq => by
    have hreset : s.port.resetReq = true := h.side.request hreq
    rw [hno] at hreset
    exact Bool.false_ne_true hreset
  have hsame : serviceTxFlush s.port = s.port := by
    unfold serviceTxFlush
    exact if_neg hreq
  have hpopped : s.popped = min s.port.tx.used bufSize := by
    unfold World.popped
    rw [hsame]
  have hlen := stepPop_length s
  have hbuf : bufSize = 512 := rfl
  have hne : (beckerTxPop bufSize s.port).1 ≠ [] := fun hnil => by
    rw [hnil, List.length_nil] at hlen
    omega
  have hring : (stepPop s).port.tx = s.port.tx.advance s.popped := by
    have hring : (stepPop s).port.tx = (serviceTxFlush s.port).tx.advance s.popped :=
      congrArg TxSide.ring (stepPop_side s)
    rw [hring, hsame]
  refine ⟨(beckerTxPop bufSize s.port).1, ?_, ?_, ?_, ?_⟩
  · unfold stepPop
    dsimp only
    rw [if_neg hne]
    rfl
  · rw [hlen]
    omega
  · have hresetReq : (stepPop s).port.resetReq = s.port.resetReq :=
      congrArg TxSide.resetReq (stepPop_side s)
    exact hresetReq.trans hno
  · obtain ⟨next, hex⟩ := h.side.ring.queue
    have hlow := hex.holds.low
    have hold : s.port.tx.used = s.watched.tx.accepted.length - next := hex.holds.used (by decide)
    have hlow' : next ≤ s.watched.tx.accepted.length := hlow
    have hin : next + s.popped ≤ s.watched.tx.accepted.length := by omega
    have hnew : (s.port.tx.advance s.popped).used =
        s.watched.tx.accepted.length - (next + s.popped) :=
      (hex.holds.advance hin).used (by decide)
    rw [hring, hnew]
    omega

/-! A link that has no reset pending is drained by its pops. -/

theorem Calm.drains_pop (h : Calm s) (hpc : s.pc = .pop) (hno : s.port.resetReq = false) :
    Drains s := by
  induction hk : s.port.tx.used using Nat.strong_induction_on generalizing s with
  | _ k ih =>
    by_cases hzero : s.port.tx.used = 0
    · refine fun _ => ⟨0, h.inv.drained ?_ hno hzero⟩
      rw [hpc]
      rfl
    · obtain ⟨bytes, hsend, hlen, hno', hless⟩ := h.inv.pop_some hno hzero
      refine h.next fun _ hcalm => ?_
      have hpop : stepTask {} s = stepPop s := by
        unfold stepTask
        rw [hpc]
      rw [hpop] at hcalm ⊢
      refine hcalm.next fun _ hcalm' => ?_
      have hwrite : stepTask {} (stepPop s) = stepSend {} bytes (stepPop s) := by
        unfold stepTask
        rw [hsend]
      have hall : min ({} : Net).wrote bytes.length = bytes.length := Nat.min_eq_right hlen
      rw [hwrite] at hcalm' ⊢
      unfold stepSend at hcalm' ⊢
      dsimp only at hcalm' ⊢
      rw [if_pos hall] at hcalm' ⊢
      refine ih _ ?_ hcalm' rfl hno' rfl
      rw [← hk]
      exact hless

theorem Calm.drains_check (h : Calm s) (hpc : s.pc = .check) (hno : s.port.resetReq = false) :
    Drains s := by
  refine h.next fun _ hcalm => ?_
  have hstep : stepTask {} s = s.goto .pop := by
    unfold stepTask stepCheck beckerResetRequested
    rw [hpc]
    dsimp only
    rw [hno, h.up]
    rfl
  rw [hstep] at hcalm ⊢
  exact hcalm.drains_pop rfl hno

theorem Calm.drains_idle (h : Calm s) (hpc : s.pc = .idle) : Drains s := by
  refine h.next fun _ hcalm => ?_
  have hstep : stepTask {} s = s.goto .clear := by
    unfold stepTask
    rw [hpc]
    dsimp only
    rw [h.up]
    rfl
  rw [hstep] at hcalm ⊢
  refine hcalm.next fun _ hcalm' => ?_
  have hclear : (beckerClearReset s.port).resetReq = false := by
    unfold beckerClearReset
    split
    · rfl
    · rename_i hreq
      exact Bool.eq_false_iff.mpr hreq
  exact hcalm'.next fun _ hlink => hlink.drains_check rfl hclear

/-! A link with a reset pending is dropped first. -/

theorem Calm.drains_linkDown (h : Calm s) (hpc : s.pc = .linkDown) : Drains s := by
  refine h.next fun _ hcalm => ?_
  have hstep : stepTask {} s = stepLinkDown s := by
    unfold stepTask
    rw [hpc]
  rw [hstep] at hcalm ⊢
  exact hcalm.drains_idle rfl

theorem Calm.drains_stop (h : Calm s) (hpc : s.pc = .stop) : Drains s := by
  refine h.next fun _ hcalm => ?_
  have hstep : stepTask {} s = s.goto .linkDown := by
    unfold stepTask
    rw [hpc]
    dsimp only
    rw [h.up]
    rfl
  rw [hstep] at hcalm ⊢
  exact hcalm.drains_linkDown rfl

theorem Calm.drains_leave (h : Calm s) (hpc : s.pc = .leave) : Drains s := by
  refine h.next fun _ hcalm => ?_
  have hleave : stepTask {} s = s.goto .stop := by
    unfold stepTask
    rw [hpc]
  rw [hleave] at hcalm ⊢
  exact hcalm.drains_stop rfl

theorem Calm.drains_check_any (h : Calm s) (hpc : s.pc = .check) : Drains s := by
  by_cases hreq : s.port.resetReq = true
  · refine h.next fun _ hcalm => ?_
    have hstep : stepTask {} s = s.goto .leave := by
      unfold stepTask stepCheck beckerResetRequested
      rw [hpc]
      dsimp only
      rw [hreq]
      rfl
    rw [hstep] at hcalm ⊢
    exact hcalm.drains_leave rfl
  · exact h.drains_check hpc (Bool.eq_false_iff.mpr hreq)

theorem Calm.drains_wifi (h : Calm s) (hpc : s.pc = .wifi) : Drains s := by
  refine h.next fun _ hcalm => ?_
  have hstep : stepTask {} s = s.goto .check := by
    unfold stepTask
    rw [hpc]
    rfl
  rw [hstep] at hcalm ⊢
  exact hcalm.drains_check_any rfl

theorem Calm.drains_receive (h : Calm s) (hpc : s.pc = .receive) : Drains s := by
  refine h.next fun _ hcalm => ?_
  have hstep : stepTask {} s = s.goto .wifi := by
    unfold stepTask stepReceive
    rw [hpc]
    exact if_pos (.inl rfl)
  rw [hstep] at hcalm ⊢
  exact hcalm.drains_wifi rfl

theorem Calm.drains_pop_any (h : Calm s) (hpc : s.pc = .pop) : Drains s := by
  by_cases hreq : s.port.resetReq = true
  · refine h.next fun hsafe hcalm => ?_
    -- a safe pop leaves the task in its loop with nothing to send
    have hnone := h.inv.pop_none hpc hsafe hreq
    have hnil : (beckerTxPop bufSize s.port).1 = [] := by
      have hlen := stepPop_length s
      unfold World.popped at hlen
      rw [hnone, Nat.zero_min] at hlen
      exact List.eq_nil_of_length_eq_zero hlen
    have hstep : (stepTask {} s).pc = .receive := by
      unfold stepTask stepPop
      rw [hpc]
      dsimp only
      rw [if_pos hnil]
      rfl
    exact hcalm.drains_receive hstep
  · exact h.drains_pop hpc (Bool.eq_false_iff.mpr hreq)

theorem Calm.drains_send (h : Calm s) {bytes : List Byte} (hpc : s.pc = .send bytes) : Drains s := by
  refine h.next fun _ hcalm => ?_
  have hstep : (stepTask {} s).pc = .pop ∨ (stepTask {} s).pc = .leave := by
    unfold stepTask stepSend
    rw [hpc]
    dsimp only
    split
    · exact .inl rfl
    · exact .inr rfl
  rcases hstep with hpop | hleave
  · exact hcalm.drains_pop_any hpop
  · exact hcalm.drains_leave hleave

/-- From every place the task gets there. -/
theorem Calm.drains (h : Calm s) : Drains s := by
  rcases hpc : s.pc with _ | _ | _ | _ | _ | bytes | _ | bytes | _ | _ | _ | _ | _
  · exact h.drains_idle hpc
  · -- `clear`
    refine h.next fun _ hcalm => ?_
    have hstep : (stepTask {} s).pc = .linkUp := by
      unfold stepTask stepClear
      rw [hpc]
      rfl
    refine hcalm.next fun _ hlink => ?_
    have hcheck : (stepTask {} (stepTask {} s)).pc = .check := by
      generalize stepTask {} s = s' at hstep
      unfold stepTask
      rw [hstep]
      rfl
    exact hlink.drains_check_any hcheck
  · -- `linkUp`
    refine h.next fun _ hcalm => ?_
    have hcheck : (stepTask {} s).pc = .check := by
      unfold stepTask
      rw [hpc]
      rfl
    exact hcalm.drains_check_any hcheck
  · exact h.drains_check_any hpc
  · exact h.drains_pop_any hpc
  · exact h.drains_send hpc
  · exact h.drains_receive hpc
  · -- `push`
    refine h.next fun _ hcalm => ?_
    have hreceive : (stepTask {} s).pc = .receive := by
      unfold stepTask stepPush
      rw [hpc]
      rfl
    exact hcalm.drains_receive hreceive
  · exact h.drains_wifi hpc
  · exact h.drains_leave hpc
  · exact h.drains_stop hpc
  · exact h.drains_linkDown hpc
  · -- `halted`
    have hup := h.up
    rw [h.inv.halted hpc] at hup
    exact nomatch hup

end

/-! ## Runs -/

/-- The law of the transmit side: a byte is sent on the session that began with the last
reset before its write; bytes are sent in the order of their writes and once; since the last
reset none is skipped, unless a link was lost; and on a link that works the rest follows. -/
structure TxIsolated (s : World) : Prop where
  own : ∀ x ∈ s.sent, x.tag = x.session
  order : (s.sent.map Sent.tagged).Sublist s.txLog
  first : s.lost = false → since s.resets (s.sent.map Sent.tagged) <+: since s.resets s.txLog
  rest : s.shutdown = false → Drains s

theorem TxInv.isolated {s : World} (h : TxInv s) : TxIsolated s := by
  refine ⟨fun x hx => (h.side.own x hx).1, ?_, fun hlost => ?_, fun hup => Calm.drains ⟨h, hup⟩⟩
  · exact ((List.sublist_append_left _ _).trans h.side.order).trans (List.take_sublist _ _)
  · have hwhole := h.side.whole hlost
    unfold TxSide.handled at hwhole
    rw [TxSide.since_append, List.append_assoc, ← h.side.since_log] at hwhole
    exact ⟨_, hwhole⟩

/-- From start-up the sessions stay isolated through every interleaving of guest accesses, resets
and steps of the task, as long as no pop made while a reset is requested finds a byte that was
written after that reset. -/
theorem tx_isolation_exact (is : List Input) (h : EachStep Input.step Input.TxSafe is {}) :
    Always Input.step TxIsolated is {} := by
  have hinv : Always Input.step TxInv is {} :=
    Always.of_step txInv_init (fun _ _ hs hsafe => Input.step_txInv hs hsafe) h
  exact hinv.imp fun _ hs => hs.isolated

/-- The link comes up and the task passes its checks. -/
def connected : List Input := [.task {}, .task {}, .task {}, .task {}]

/-- A byte is written before a reset and one after it; the link is dropped in between. -/
theorem tx_isolation_exact_session :
    Always Input.step TxIsolated
      ([.write 0x41] ++ connected ++ [.task {}, .task {}, .task {}, .reset, .task {}, .task {},
        .task {}, .task {}, .write 0x42] ++ connected ++ [.task {}, .task {}]) {} := by
  refine tx_isolation_exact _ ?_
  decide +kernel

/-- A reset and a write fall between the check and the pop: the byte goes out on the old
link. -/
theorem lateReset_sends :
    (runAll Input.step (connected ++ [.reset, .write 0x41, .task {}, .task {}]) {}).sent =
        [⟨1, 0, 0x41⟩] ∧
      ¬∀ is, Always Input.step TxIsolated is {} := by
  have hsent : (runAll Input.step (connected ++ [.reset, .write 0x41, .task {}, .task {}]) {}).sent =
      [⟨1, 0, 0x41⟩] := by
    decide +kernel
  refine ⟨hsent, fun hall => ?_⟩
  have hlast := (hall (connected ++ [.reset, .write 0x41, .task {}, .task {}])).last
  generalize runAll Input.step (connected ++ [.reset, .write 0x41, .task {}, .task {}]) {} = s
    at hsent hlast
  have hown := hlast.own ⟨1, 0, 0x41⟩ (by rw [hsent]; exact List.mem_cons_self)
  exact absurd hown (by decide)

end CocoEmulator.DriveWire
