/-
  DriveWire/Receive.lean --- sessions are isolated on the receive side.

  What the RX ring holds, apart from what a pending flush covers, was received in a
  session that no reset has ended (`RxInv.fresh`).  A reset empties the ring, and
  the task drops the link before it begins another session; the one gap is a push
  of bytes read from the socket before the task has seen the reset.

      rx_isolation_exact    a run without such pushes reads no byte across a reset
-/
import CocoEmulator.DriveWire.Client

set_option autoImplicit false

namespace CocoEmulator.DriveWire

open CocoEmulator.Base

/-- No byte was read after a reset that its session did not survive. -/
def RxIsolated (s : World) : Prop := ∀ x ∈ s.reads, x.1 = x.2

/-- The invariant of the receive side. -/
structure RxInv (s : World) : Prop where
  enabled : s.port.enabled = true
  ok : RxOk s.watched
  log : s.rxLog.map Prod.snd = s.watched.rx.accepted
  session : s.pc.inSession = true → s.port.resetReq = false → s.session = s.resets
  fresh : ∀ p x, s.rxLog[p]? = some x → consumer s.port.rx s.watched.rx ≤ p →
    (s.port.rxFlush.req = true → s.watched.rx.mark ≤ p) → x.1 = s.resets
  reads : RxIsolated s

/-- Is the task about to push? -/
def Pc.isPush : Pc → Bool
  | .push _ => true
  | _ => false

/-- The task pushes nothing while a reset is requested, and no flush is serviced for a mark
long past. -/
def Input.RxSafe : Input → World → Prop
  | .status, s | .read, s =>
      s.port.rxFlush.req = true → FreshMark s.port.rx s.watched.rx s.port.rxFlush.mark
  | .task _, s => s.pc.isPush = true → s.port.resetReq = false
  | _, _ => True

instance (i : Input) (s : World) : Decidable (i.RxSafe s) :=
  match i with
  | .status | .read => inferInstanceAs (Decidable (_ → _))
  | .task _ => inferInstanceAs (Decidable (_ → _))
  | .write _ | .reset | .shutdown => isTrue trivial

/-! ## Frames -/

/-- The RX side of the port and its history are as before. -/
structure SameRx (s s' : World) : Prop where
  enabled : s'.port.enabled = s.port.enabled
  ring : s'.port.rx = s.port.rx
  flush : s'.port.rxFlush = s.port.rxFlush
  ledger : s'.watched.rx = s.watched.rx
  log : s'.rxLog = s.rxLog
  reads : s'.reads = s.reads
  resets : s'.resets = s.resets

theorem RxInv.of_same {s s' : World} (h : RxInv s) (hs : SameRx s s')
    (hsession : s'.pc.inSession = true → s'.port.resetReq = false → s'.session = s'.resets) :
    RxInv s' := by
  refine ⟨hs.enabled.trans h.enabled, ?_, ?_, hsession, ?_, ?_⟩
  · have hok := h.ok
    unfold RxOk at hok ⊢
    rw [hs.ledger, hs.ring, hs.flush]
    exact hok
  · rw [hs.log, hs.ledger]
    exact h.log
  · rw [hs.log, hs.ring, hs.flush, hs.ledger, hs.resets]
    exact h.fresh
  · unfold RxIsolated
    rw [hs.reads]
    exact h.reads

/-- Only the task's own steps and a reset bear on the session. -/
structure SameSession (s s' : World) : Prop where
  pc : s'.pc = s.pc
  resetReq : s'.port.resetReq = s.port.resetReq
  session : s'.session = s.session
  resets : s'.resets = s.resets

theorem RxInv.session_of {s s' : World} (h : RxInv s) (hs : SameSession s s') :
    s'.pc.inSession = true → s'.port.resetReq = false → s'.session = s'.resets := by
  rw [hs.pc, hs.resetReq, hs.session, hs.resets]
  exact h.session

/-! ## The guest -/

theorem serviceRxFlush_frame (b : Becker) :
    (serviceRxFlush b).enabled = b.enabled ∧ (serviceRxFlush b).resetReq = b.resetReq := by
  unfold serviceRxFlush
  split
  · exact ⟨rfl, rfl⟩
  · exact ⟨rfl, rfl⟩

/-- Where the consumer is after a service: past the mark, if a flush was pending. -/
theorem serviceRxFlush_consumer {b : Becker} {l : Ledger}
    (h : RingOk rxSize b.rx l b.rxFlush.mark)
    (hfresh : b.rxFlush.req = true → FreshMark b.rx l b.rxFlush.mark) :
    consumer b.rx l ≤ consumer (serviceRxFlush b).rx l ∧
      (b.rxFlush.req = true → l.mark ≤ consumer (serviceRxFlush b).rx l) := by
  unfold serviceRxFlush
  split
  · rename_i hreq
    dsimp only
    rw [h.consumer_skip rxSize_lt (hfresh hreq)]
    exact ⟨Nat.le_max_left _ _, fun _ => Nat.le_max_right _ _⟩
  · rename_i hreq
    exact ⟨Nat.le_refl _, fun h' => absurd h' hreq⟩

theorem RxInv.status {s : World} (h : RxInv s) (hsafe : Input.RxSafe .status s) :
    RxInv (Input.step .status s) := by
  have hok := @Call.step_rx .readStatus _ h.ok hsafe
  obtain ⟨hmore, hmark⟩ := serviceRxFlush_consumer h.ok hsafe
  obtain ⟨henabled, hresetReq⟩ := serviceRxFlush_frame s.port
  refine ⟨henabled.trans h.enabled, hok, h.log, ?_, fun p x hx hp _ => ?_, h.reads⟩
  · exact h.session_of ⟨rfl, hresetReq, rfl, rfl⟩
  · have hp' : consumer (serviceRxFlush s.port).rx s.watched.rx ≤ p := hp
    exact h.fresh p x hx (Nat.le_trans hmore hp') fun hreq => Nat.le_trans (hmark hreq) hp'

theorem beckerReadData_frame (b : Becker) :
    (beckerReadData b).2.enabled = b.enabled ∧ (beckerReadData b).2.resetReq = b.resetReq := by
  unfold beckerReadData
  dsimp only
  split
  · exact serviceRxFlush_frame b
  · exact serviceRxFlush_frame b

theorem beckerReadData_consumer {b : Becker} {l : Ledger}
    (h : RingOk rxSize (serviceRxFlush b).rx l (serviceRxFlush b).rxFlush.mark) :
    consumer (serviceRxFlush b).rx l ≤ consumer (beckerReadData b).2.rx (Call.logRx .readData b l) ∧
      (rxWaiting (serviceRxFlush b) = true →
        consumer (serviceRxFlush b).rx l < l.accepted.length) := by
  have hsum := h.consumer_le rxSize_lt
  dsimp only [Call.logRx]
  unfold beckerReadData
  dsimp only
  split
  · rename_i hwait
    have hused := rxWaiting_used hwait
    have hpop := h.consumer_pop rxSize_lt hused
    refine ⟨?_, fun _ => by omega⟩
    have hsame : ∀ bytes, consumer ((serviceRxFlush b).rx.advance 1) (l.deliver bytes) =
        consumer ((serviceRxFlush b).rx.advance 1) l := fun _ => rfl
    rw [hsame, hpop]
    exact Nat.le_add_right _ _
  · rename_i hwait
    exact ⟨Nat.le_refl _, fun h' => absurd h' hwait⟩

theorem RxInv.read {s : World} (h : RxInv s) (hsafe : Input.RxSafe .read s) :
    RxInv (Input.step .read s) := by
  have hserve := serviceRxFlush_ok h.ok hsafe
  obtain ⟨hmore, hmark⟩ := serviceRxFlush_consumer h.ok hsafe
  obtain ⟨hmore', hlt⟩ := beckerReadData_consumer hserve
  obtain ⟨henabled, hresetReq⟩ := beckerReadData_frame s.port
  have hlen : s.rxLog.length = s.watched.rx.accepted.length := by
    rw [← h.log, List.length_map]
  -- the byte handed out is a fresh one
  have hreads : RxIsolated (stepRead s) := by
    intro x hx
    unfold stepRead at hx
    dsimp only at hx
    split at hx
    · rename_i hwait
      rcases List.mem_append.mp hx with hold | hnew
      · exact h.reads x hold
      · rw [List.mem_singleton] at hnew
        have hpos := hlt hwait
        rw [← hlen] at hpos
        rw [hnew, List.getD_eq_getElem?_getD, List.getElem?_eq_getElem hpos]
        exact h.fresh _ _ (List.getElem?_eq_getElem hpos) hmore hmark
    · exact h.reads x hx
  have hframe : (stepRead s).watched = Call.step .readData s.watched ∧
      (stepRead s).pc = s.pc ∧ (stepRead s).session = s.session ∧
      (stepRead s).resets = s.resets ∧ (stepRead s).rxLog = s.rxLog := by
    unfold stepRead
    dsimp only
    split <;> exact ⟨rfl, rfl, rfl, rfl, rfl⟩
  obtain ⟨hw, hpc, hsession, hresets, hlog⟩ := hframe
  refine ⟨?_, ?_, ?_, ?_, fun p x hx hp _ => ?_, hreads⟩
  · unfold Input.step World.port
    rw [hw]
    exact henabled.trans h.enabled
  · unfold RxOk Input.step
    rw [hw]
    exact Call.step_rx h.ok hsafe
  · have haccepted : (Call.logRx .readData s.port s.watched.rx).accepted =
        s.watched.rx.accepted := by
      dsimp only [Call.logRx]
      split <;> rfl
    unfold Input.step
    rw [hlog, hw, h.log]
    exact haccepted.symm
  · refine h.session_of ⟨hpc, ?_, hsession, hresets⟩
    unfold Input.step World.port
    rw [hw]
    exact hresetReq
  · unfold Input.step World.port at *
    rw [hw] at hp
    rw [hlog] at hx
    rw [hresets]
    have hp' := Nat.le_trans hmore' hp
    exact h.fresh p x hx (Nat.le_trans hmore hp') fun hreq => Nat.le_trans (hmark hreq) hp'

theorem RxInv.write {s : World} (h : RxInv s) (value : Byte) : RxInv (Input.step (.write value) s) := by
  have hport : ∀ b : Becker, (beckerWriteData value b).enabled = b.enabled ∧
      (beckerWriteData value b).rx = b.rx ∧ (beckerWriteData value b).rxFlush = b.rxFlush ∧
      (beckerWriteData value b).resetReq = b.resetReq := by
    intro b
    unfold beckerWriteData
    split <;> exact ⟨rfl, rfl, rfl, rfl⟩
  obtain ⟨henabled, hrx, hflush, hresetReq⟩ := hport s.port
  have hframe : (stepWrite value s).watched = Call.step (.writeData value) s.watched ∧
      (stepWrite value s).rxLog = s.rxLog ∧ (stepWrite value s).reads = s.reads ∧
      (stepWrite value s).resets = s.resets ∧ (stepWrite value s).pc = s.pc ∧
      (stepWrite value s).session = s.session := by
    unfold stepWrite
    dsimp only
    split <;> exact ⟨rfl, rfl, rfl, rfl, rfl, rfl⟩
  obtain ⟨hw, hlog, hreads, hresets, hpc, hsession⟩ := hframe
  refine h.of_same ⟨?_, ?_, ?_, ?_, hlog, hreads, hresets⟩ (h.session_of ⟨hpc, ?_, hsession, hresets⟩)
  · unfold Input.step World.port
    rw [hw]
    exact henabled
  · unfold Input.step World.port
    rw [hw]
    exact hrx
  · unfold Input.step World.port
    rw [hw]
    exact hflush
  · unfold Input.step
    rw [hw]
    rfl
  · unfold Input.step World.port
    rw [hw]
    exact hresetReq

/-- A reset empties the ring. -/
theorem RxInv.reset {s : World} (h : RxInv s) : RxInv (Input.step .reset s) := by
  have hport : beckerReset s.port = { s.port with
      rx := s.port.rx.clear, txFlush := ⟨true, s.port.tx.head⟩, resetReq := true } :=
    if_pos h.enabled
  have hstep : Input.step .reset s = { s with
      resets := s.resets + 1, lost := false,
      watched := ⟨beckerReset s.port, s.watched.rx.flush, Call.logTx .reset s.port s.watched.tx⟩ } := by
    have hlog : Call.logRx .reset s.port s.watched.rx = s.watched.rx.flush := if_pos h.enabled
    rw [← hlog]
    rfl
  have hlen : s.rxLog.length = s.watched.rx.accepted.length := by
    rw [← h.log, List.length_map]
  have hok := @Call.step_rx .reset _ h.ok trivial
  rw [hstep, hport]
  refine ⟨h.enabled, h.ok.clear, h.log, fun _ hno => (nomatch hno), ?_, h.reads⟩
  intro p x hx hp _
  have hp' : consumer s.port.rx.clear s.watched.rx.flush ≤ p := hp
  have hall : consumer s.port.rx.clear s.watched.rx.flush = s.watched.rx.accepted.length :=
    h.ok.consumer_clear
  obtain ⟨hlt, _⟩ := List.getElem?_eq_some_iff.mp hx
  dsimp only at hlt
  omega

/-! ## The back end -/

theorem beckerClearReset_frame (b : Becker) :
    (beckerClearReset b).enabled = b.enabled ∧ (beckerClearReset b).rx = b.rx ∧
      (beckerClearReset b).rxFlush = b.rxFlush := by
  unfold beckerClearReset
  split <;> exact ⟨rfl, rfl, rfl⟩

theorem beckerTxPop_frame (max : Nat) (b : Becker) :
    (beckerTxPop max b).2.enabled = b.enabled ∧ (beckerTxPop max b).2.rx = b.rx ∧
      (beckerTxPop max b).2.rxFlush = b.rxFlush ∧
      (beckerTxPop max b).2.resetReq = b.resetReq := by
  unfold beckerTxPop serviceTxFlush
  dsimp only
  split <;> exact ⟨rfl, rfl, rfl, rfl⟩

/-- The task moves on. -/
theorem RxInv.goto {s : World} (h : RxInv s) {pc : Pc}
    (hin : pc.inSession = true → s.pc.inSession = true) : RxInv (s.goto pc) :=
  h.of_same ⟨rfl, rfl, rfl, rfl, rfl, rfl, rfl⟩ fun hpc => h.session (hin hpc)

/-- A session begins. -/
theorem RxInv.clear {s : World} (h : RxInv s) : RxInv (stepClear s) := by
  obtain ⟨henabled, hrx, hflush⟩ := beckerClearReset_frame s.port
  exact h.of_same ⟨henabled, hrx, hflush, rfl, rfl, rfl, rfl⟩ fun _ _ => rfl

theorem RxInv.check {s : World} (h : RxInv s) (net : Net) (hpc : s.pc = .check) :
    RxInv (stepCheck net s) := by
  have hin : s.pc.inSession = true := by
    rw [hpc]
    rfl
  unfold stepCheck
  split
  · exact h.goto fun _ => hin
  · split
    · exact h.goto fun _ => hin
    · split
      · exact h.goto fun _ => hin
      · exact h.goto fun _ => hin

theorem RxInv.pop {s : World} (h : RxInv s) (hpc : s.pc = .pop) : RxInv (stepPop s) := by
  obtain ⟨henabled, hrx, hflush, hresetReq⟩ := beckerTxPop_frame bufSize s.port
  have hin : s.pc.inSession = true := by
    rw [hpc]
    rfl
  unfold stepPop
  dsimp only
  split
  · exact h.of_same ⟨henabled, hrx, hflush, rfl, rfl, rfl, rfl⟩
      fun _ hno => h.session hin (hresetReq ▸ hno)
  · exact h.of_same ⟨henabled, hrx, hflush, rfl, rfl, rfl, rfl⟩
      fun _ hno => h.session hin (hresetReq ▸ hno)

theorem RxInv.send {s : World} (h : RxInv s) (net : Net) {bytes : List Byte}
    (hpc : s.pc = .send bytes) : RxInv (stepSend net bytes s) := by
  have hin : s.pc.inSession = true := by
    rw [hpc]
    rfl
  unfold stepSend
  dsimp only
  split
  · exact h.of_same ⟨rfl, rfl, rfl, rfl, rfl, rfl, rfl⟩ fun _ => h.session hin
  · exact h.of_same ⟨rfl, rfl, rfl, rfl, rfl, rfl, rfl⟩ fun _ => h.session hin

theorem RxInv.receive {s : World} (h : RxInv s) (net : Net) (hpc : s.pc = .receive) :
    RxInv (stepReceive net s) := by
  have hin : s.pc.inSession = true := by
    rw [hpc]
    rfl
  unfold stepReceive
  dsimp only
  split
  · exact h.goto fun _ => hin
  · exact h.goto fun _ => hin

/-- What a push leaves alone, and what it adds to the log. -/
theorem rxPush_ledger {w : Watched} (h : RxOk w) (bytes : List Byte) :
    consumer (beckerRxPush bytes w.port).2.rx (Call.logRx (.rxPush bytes) w.port w.rx) =
        consumer w.port.rx w.rx ∧
      (Call.logRx (.rxPush bytes) w.port w.rx).accepted =
        w.rx.accepted ++ bytes.take (beckerRxPush bytes w.port).1 ∧
      (Call.logRx (.rxPush bytes) w.port w.rx).mark = w.rx.mark := by
  have hspace := beckerRxSpace_eq (h.fifo rxSize_lt).bound
  have hbound := (h.fifo rxSize_lt).bound
  have hroom : w.port.rx.used + (bytes.take (beckerRxPush bytes w.port).1).length ≤ rxSize := by
    unfold beckerRxPush
    dsimp only
    rw [List.length_take]
    omega
  have hpush := RingOk.consumer_push h rxSize_dvd rxSize_lt _ hroom
  dsimp only [Call.logRx]
  split
  · exact ⟨hpush, rfl, rfl⟩
  · exact ⟨hpush, rfl, rfl⟩

/-- With no reset requested the bytes belong to the session of the last reset. -/
theorem RxInv.push {s : World} (h : RxInv s) {bytes : List Byte} (hpc : s.pc = .push bytes)
    (hno : s.port.resetReq = false) : RxInv (stepPush bytes s) := by
  have hsession : s.session = s.resets := by
    refine h.session ?_ hno
    rw [hpc]
    rfl
  have hlen : s.rxLog.length = s.watched.rx.accepted.length := by
    rw [← h.log, List.length_map]
  obtain ⟨hconsumer, haccepted, hmark⟩ := rxPush_ledger h.ok bytes
  refine ⟨h.enabled, @Call.step_rx (.rxPush bytes) _ h.ok trivial, ?_, fun _ _ => hsession, ?_,
    h.reads⟩
  · have hmap : (((bytes.take (beckerRxPush bytes s.port).1).map fun b => (s.session, b)).map
        Prod.snd) = bytes.take (beckerRxPush bytes s.port).1 := by
      rw [List.map_map]
      exact List.map_id _
    have hgoal : (stepPush bytes s).watched.rx.accepted =
        (Call.logRx (.rxPush bytes) s.port s.watched.rx).accepted := rfl
    rw [hgoal, haccepted, ← h.log]
    unfold stepPush World.goto World.call
    dsimp only
    rw [List.map_append, hmap]
  · intro p x hx hp hreq
    have hp' : consumer s.port.rx s.watched.rx ≤ p := by
      rw [← hconsumer]
      exact hp
    have hreq' : s.port.rxFlush.req = true → s.watched.rx.mark ≤ p := by
      rw [← hmark]
      exact hreq
    have hx' : (s.rxLog ++ (bytes.take (beckerRxPush bytes s.port).1).map
        fun b => (s.session, b))[p]? = some x := hx
    have hresets : (stepPush bytes s).resets = s.resets := rfl
    rw [hresets]
    by_cases hold : p < s.rxLog.length
    · rw [List.getElem?_append_left hold] at hx'
      exact h.fresh p x hx' hp' hreq'
    · rw [List.getElem?_append_right (by omega)] at hx'
      obtain ⟨b, _, rfl⟩ := List.mem_map.mp (List.mem_of_getElem? hx')
      exact hsession

/-- Dropping the link covers everything in the ring with a flush. -/
theorem RxInv.linkDown {s : World} (h : RxInv s) : RxInv (stepLinkDown s) := by
  have hlen : s.rxLog.length = s.watched.rx.accepted.length := by
    rw [← h.log, List.length_map]
  have henabled : (beckerSetLinkUp false s.port).enabled = s.port.enabled := by
    unfold beckerSetLinkUp dropLink beckerClearReset
    rw [if_neg Bool.false_ne_true]
    by_cases hreq : s.port.resetReq = true
    · rw [if_pos hreq, if_pos hreq]
    · rw [if_neg hreq]
  refine ⟨henabled.trans h.enabled, @Call.step_rx (.setLinkUp false) _ h.ok trivial, h.log,
    fun hin => (nomatch hin), fun p x hx _ hmark => ?_, h.reads⟩
  obtain ⟨hlt, _⟩ := List.getElem?_eq_some_iff.mp hx
  have hall : s.watched.rx.accepted.length ≤ p := by
    refine hmark ?_
    rfl
  have hlt' : p < s.rxLog.length := hlt
  omega

theorem RxInv.task {s : World} (h : RxInv s) (net : Net)
    (hsafe : Input.RxSafe (.task net) s) : RxInv (stepTask net s) := by
  unfold stepTask
  split <;> rename_i hpc
  · -- `idle`
    split
    · exact h.goto fun hin => nomatch hin
    · split
      · exact h.goto fun hin => nomatch hin
      · exact h
  · exact h.clear
  · -- `linkUp`
    refine h.of_same ⟨rfl, rfl, rfl, rfl, rfl, rfl, rfl⟩ fun _ => h.session ?_
    rw [hpc]
    rfl
  · exact h.check net hpc
  · exact h.pop hpc
  · exact h.send net hpc
  · exact h.receive net hpc
  · refine h.push hpc (hsafe ?_)
    rw [hpc]
    rfl
  · -- `wifi`
    have hin : s.pc.inSession = true := by
      rw [hpc]
      rfl
    split
    · exact h.goto fun _ => hin
    · exact h.goto fun _ => hin
  · -- `leave`
    refine h.goto fun _ => ?_
    rw [hpc]
    rfl
  · -- `stop`
    have hin : s.pc.inSession = true := by
      rw [hpc]
      rfl
    split
    · exact h.goto fun _ => hin
    · exact h.goto fun _ => hin
  · exact h.linkDown
  · exact h

/-! ## Runs -/

theorem Input.step_rxInv {i : Input} {s : World} (h : RxInv s) (hsafe : i.RxSafe s) :
    RxInv (i.step s) := by
  cases i with
  | status => exact h.status hsafe
  | read => exact h.read hsafe
  | write value => exact h.write value
  | reset => exact h.reset
  | shutdown => exact h.of_same ⟨rfl, rfl, rfl, rfl, rfl, rfl, rfl⟩ h.session
  | task net => exact h.task net hsafe

theorem rxInv_init : RxInv {} := by
  refine ⟨rfl, ringOk_init rxSize, rfl, fun hin => (nomatch hin), fun p x hx => ?_, fun x hx => ?_⟩
  · exact absurd hx (by simp)
  · exact absurd hx List.not_mem_nil

/-- From start-up, in every interleaving of guest accesses, resets and steps of the task in
which nothing is pushed while a reset is requested, and no flush is serviced for a mark long
past: the guest reads no byte of a session that was up before the last reset. -/
theorem rx_isolation_exact (is : List Input) (h : EachStep Input.step Input.RxSafe is {}) :
    Always Input.step RxIsolated is {} := by
  have hinv : Always Input.step RxInv is {} :=
    Always.of_step rxInv_init (fun _ _ hs hsafe => Input.step_rxInv hs hsafe) h
  exact hinv.imp fun _ hs => hs.reads

/-- The link comes up and a byte arrives. -/
def arrive : List Input :=
  [.task {}, .task {}, .task {}, .task {}, .task {}, .task { avail := 1, got := [0x41] }]

/-- The byte is pushed and read, the CoCo is reset, and the task drops the link. -/
theorem rx_isolation_exact_session :
    Always Input.step RxIsolated
      (arrive ++ [.task {}, .read, .reset, .task {}, .task {}, .task {}, .task {}, .task {},
        .task {}, .read]) {} := by
  refine rx_isolation_exact _ ?_
  decide +kernel

/-- The reset falls between the read of the socket and the push: the guest reads the byte
of the old session. -/
theorem lateReset_delivers :
    (runAll Input.step (arrive ++ [.reset, .task {}, .read]) {}).reads = [(0, 1)] ∧
    ¬∀ is, Always Input.step RxIsolated is {} := by
  have hreads : (runAll Input.step (arrive ++ [.reset, .task {}, .read]) {}).reads = [(0, 1)] := by
    decide +kernel
  refine ⟨hreads, fun hall => ?_⟩
  have hlast := (hall (arrive ++ [.reset, .task {}, .read])).last
  generalize runAll Input.step (arrive ++ [.reset, .task {}, .read]) {} = s at hreads hlast
  unfold RxIsolated at hlast
  rw [hreads] at hlast
  exact absurd (hlast (0, 1) List.mem_cons_self) (by decide)

end CocoEmulator.DriveWire
