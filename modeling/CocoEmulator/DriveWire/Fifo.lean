/-
  DriveWire/Fifo.lean --- the Becker rings are queues.

  The history of a ring explains what came out of it (`Explains`): the delivered
  bytes are accepted bytes in the order of acceptance, each at most once; the ring
  holds all accepted bytes from some position on; and what is neither delivered nor
  in the ring lies before the mark of a requested flush.

      Call.step_rx, step_tx  every call keeps this, if a flush it services is not for a
                             mark long past
      becker_fifo_exact      so it holds along every run of such calls
-/
import CocoEmulator.DriveWire.Becker

set_option autoImplicit false

namespace CocoEmulator.DriveWire

open CocoEmulator.Base

/-! ## Histories -/

/-- The delivered bytes are those accepted at increasing positions before `next`, and every
other position before it lies before a requested flush. -/
def Ledger.InOrder (l : Ledger) (next : Nat) : Prop :=
  ∃ ps : List Nat, ps.Pairwise (· < ·) ∧ (∀ p ∈ ps, p < next) ∧
    l.delivered = ps.map (fun p => l.accepted.getD p 0) ∧
    ∀ p, p < next → p ∈ ps ∨ p < l.flushed

/-- The history explains the ring. -/
structure Explains (size : Nat) (r : RingBuffer Byte) (l : Ledger) (next : Nat) : Prop where
  holds : r.Holds size l.accepted next
  order : l.InOrder next
  refused : ∀ used ∈ l.refusedAt, used = size

/-- The law of a ring: its fill is bounded, and its history explains it. -/
structure FifoRing (size : Nat) (r : RingBuffer Byte) (l : Ledger) : Prop where
  bound : r.used ≤ size
  queue : ∃ next, Explains size r l next

/-- Both rings are queues. -/
structure Fifo (w : Watched) : Prop where
  rx : FifoRing rxSize w.port.rx w.rx
  tx : FifoRing txSize w.port.tx w.tx

theorem Ledger.InOrder.mono {l l' : Ledger} {next next' : Nat} (h : l.InOrder next)
    (ha : l'.accepted = l.accepted) (hd : l'.delivered = l.delivered) (hn : next ≤ next')
    (hf : l.flushed ≤ l'.flushed) (hgap : ∀ p, next ≤ p → p < next' → p < l'.flushed) :
    l'.InOrder next' := by
  obtain ⟨ps, hsorted, hlow, heq, hgone⟩ := h
  refine ⟨ps, hsorted, fun p hp => Nat.lt_of_lt_of_le (hlow p hp) hn, ?_, fun p hp => ?_⟩
  · rw [hd, ha]
    exact heq
  · by_cases hold : p < next
    · exact (hgone p hold).imp id fun hlt => Nat.lt_of_lt_of_le hlt hf
    · exact .inr (hgap p (by omega) hp)

theorem Ledger.InOrder.accept {l : Ledger} {next : Nat} (h : l.InOrder next)
    (hlow : next ≤ l.accepted.length) (bytes : List Byte) : (l.accept bytes).InOrder next := by
  obtain ⟨ps, hsorted, hps, heq, hgone⟩ := h
  refine ⟨ps, hsorted, hps, ?_, hgone⟩
  dsimp only [Ledger.accept]
  rw [heq]
  refine List.map_congr_left fun p hp => ?_
  rw [List.getD_eq_getElem?_getD, List.getD_eq_getElem?_getD,
    List.getElem?_append_left (Nat.lt_of_lt_of_le (hps p hp) hlow)]

/-- Delivering the bytes from `next` on. -/
theorem Ledger.InOrder.deliver {l : Ledger} {next n : Nat} (h : l.InOrder next)
    (hn : next + n ≤ l.accepted.length) :
    (l.deliver ((l.accepted.drop next).take n)).InOrder (next + n) := by
  obtain ⟨ps, hsorted, hps, heq, hgone⟩ := h
  refine ⟨ps ++ (List.range n).map (next + ·), ?_, ?_, ?_, ?_⟩
  · refine List.pairwise_append.mpr ⟨hsorted, ?_, ?_⟩
    · exact List.pairwise_map.mpr (List.pairwise_lt_range.imp fun hlt => by omega)
    · intro p hp q hq
      obtain ⟨k, _, rfl⟩ := List.mem_map.mp hq
      have hlt := hps p hp
      omega
  · intro p hp
    rcases List.mem_append.mp hp with hold | hnew
    · exact Nat.lt_of_lt_of_le (hps p hold) (Nat.le_add_right _ _)
    · obtain ⟨k, hk, rfl⟩ := List.mem_map.mp hnew
      have hlt := List.mem_range.mp hk
      omega
  · dsimp only [Ledger.deliver]
    rw [List.map_append, ← heq, List.map_map]
    congr 1
    apply List.ext_getElem
    · rw [List.length_take, List.length_drop, List.length_map, List.length_range]
      omega
    · intro k hk _
      rw [List.length_take, List.length_drop] at hk
      simp only [List.getElem_take, List.getElem_drop, List.getElem_map, List.getElem_range,
        Function.comp]
      rw [List.getD_eq_getElem?_getD, List.getElem?_eq_getElem (by omega)]
      rfl
  · intro p hp
    by_cases hold : p < next
    · exact (hgone p hold).imp (fun hmem => List.mem_append_left _ hmem) id
    · refine .inl (List.mem_append_right _ (List.mem_map.mpr ⟨p - next, ?_, by omega⟩))
      exact List.mem_range.mpr (by omega)

/-! ## One ring -/

/-- What a ring keeps besides its law: its mark is a position of the log, no further than
flushes were requested. -/
structure Marked (l : Ledger) (mark : Index) : Prop where
  mark : mark = BitVec.ofNat 32 l.mark
  flushed : l.mark ≤ l.flushed
  low : l.flushed ≤ l.accepted.length

/-- The invariant of a ring. -/
structure RingOk (size : Nat) (r : RingBuffer Byte) (l : Ledger) (mark : Index) : Prop where
  queue : ∃ next, Explains size r l next
  marked : Marked l mark

/-- The position of the consumer in the log. -/
def consumer (r : RingBuffer Byte) (l : Ledger) : Nat := l.accepted.length - r.used

/-- If the consumer has passed the mark of a flush it services, the indices show it. -/
def FreshMark (r : RingBuffer Byte) (l : Ledger) (mark : Index) : Prop :=
  l.mark ≤ consumer r l → (r.tail - mark).toNat ≤ 2 ^ 31

instance (r : RingBuffer Byte) (l : Ledger) (mark : Index) : Decidable (FreshMark r l mark) :=
  inferInstanceAs (Decidable (_ → _))

section

variable {size : Nat} {r : RingBuffer Byte} {l : Ledger} {mark : Index}

theorem Explains.consumer {next : Nat} (h : Explains size r l next) (hsize : size < 2 ^ 31) :
    consumer r l = next := by
  have hlow := h.holds.low
  unfold DriveWire.consumer
  rw [h.holds.used (by omega)]
  omega

theorem RingOk.fifo (h : RingOk size r l mark) (hsize : size < 2 ^ 31) : FifoRing size r l := by
  obtain ⟨next, hex⟩ := h.queue
  exact ⟨hex.holds.used_le (by omega), next, hex⟩

/-- Servicing a flush. -/
theorem RingOk.skip (h : RingOk size r l mark) (hsize : size < 2 ^ 31)
    (hfresh : FreshMark r l mark) : RingOk size (r.skip mark) l mark := by
  obtain ⟨⟨next, hex⟩, hmark⟩ := h
  have hlow := hex.holds.low
  have hm : l.mark ≤ l.accepted.length := Nat.le_trans hmark.flushed hmark.low
  refine ⟨⟨max next l.mark, ?_, ?_, hex.refused⟩, hmark⟩
  · rw [hmark.mark]
    refine hex.holds.skip hsize hm fun hbehind => ?_
    rw [← hmark.mark]
    refine hfresh ?_
    rw [hex.consumer hsize]
    exact hbehind
  · refine hex.order.mono rfl rfl (Nat.le_max_left _ _) (Nat.le_refl _) fun p hp hp' => ?_
    have hflushed := hmark.flushed
    omega

/-- Dropping everything. -/
theorem RingOk.clear (h : RingOk size r l mark) : RingOk size r.clear l.flush mark := by
  obtain ⟨⟨next, hex⟩, hmark⟩ := h
  refine ⟨⟨l.accepted.length, hex.holds.clear, ?_, hex.refused⟩, hmark.mark, ?_, Nat.le_refl _⟩
  · exact hex.order.mono rfl rfl hex.holds.low hmark.low fun p _ hp => hp
  · exact Nat.le_trans hmark.flushed hmark.low

/-- Requesting a flush of everything. -/
theorem RingOk.request (h : RingOk size r l mark) : RingOk size r l.request r.head := by
  obtain ⟨⟨next, hex⟩, hmark⟩ := h
  refine ⟨⟨next, hex.holds, ?_, hex.refused⟩, hex.holds.head, Nat.le_refl _, Nat.le_refl _⟩
  exact hex.order.mono rfl rfl (Nat.le_refl _) hmark.low fun p hp hp' => absurd hp' (by omega)

/-- Accepting bytes there is room for. -/
theorem RingOk.push (h : RingOk size r l mark) (hdvd : size ∣ 2 ^ 32) (hsize : size < 2 ^ 31)
    (bytes : List Byte) (hroom : r.used + bytes.length ≤ size) :
    RingOk size (r.push size bytes) (l.accept bytes) mark := by
  obtain ⟨⟨next, hex⟩, hmark⟩ := h
  rw [hex.holds.used (by omega)] at hroom
  have hlow := hex.holds.low
  refine ⟨⟨next, hex.holds.push hdvd bytes (by omega), hex.order.accept hlow bytes, hex.refused⟩,
    hmark.mark, hmark.flushed, ?_⟩
  dsimp only [Ledger.accept]
  rw [List.length_append]
  exact Nat.le_trans hmark.low (Nat.le_add_right _ _)

/-- Delivering bytes that are there. -/
theorem RingOk.pop (h : RingOk size r l mark) (hdvd : size ∣ 2 ^ 32) (hsize : size < 2 ^ 31)
    {n : Nat} (hn : n ≤ r.used) :
    RingOk size (r.advance n) (l.deliver (r.peek size n)) mark := by
  obtain ⟨⟨next, hex⟩, hmark⟩ := h
  rw [hex.holds.used (by omega)] at hn
  have hlow := hex.holds.low
  have hin : next + n ≤ l.accepted.length := by omega
  rw [hex.holds.peek hdvd hin]
  exact ⟨⟨next + n, hex.holds.advance hin, hex.order.deliver hin, hex.refused⟩, hmark.mark,
    hmark.flushed, hmark.low⟩

/-! Where the consumer is after each of these. -/

theorem RingOk.consumer_le (h : RingOk size r l mark) (hsize : size < 2 ^ 31) :
    consumer r l + r.used = l.accepted.length := by
  obtain ⟨next, hex⟩ := h.queue
  have hlow := hex.holds.low
  rw [hex.consumer hsize, hex.holds.used (by omega)]
  omega

theorem RingOk.consumer_skip (h : RingOk size r l mark) (hsize : size < 2 ^ 31)
    (hfresh : FreshMark r l mark) : consumer (r.skip mark) l = max (consumer r l) l.mark := by
  obtain ⟨next, hex⟩ := h.queue
  have hm : l.mark ≤ l.accepted.length := Nat.le_trans h.marked.flushed h.marked.low
  have hnext := hex.consumer hsize
  have hskip := hex.holds.skip hsize hm fun hbehind => by
    rw [← h.marked.mark]
    exact hfresh (by rw [hnext]; exact hbehind)
  rw [← h.marked.mark] at hskip
  have hlow := hskip.low
  rw [hnext]
  unfold consumer
  rw [hskip.used (by omega)]
  omega

theorem RingOk.consumer_clear (_ : RingOk size r l mark) : consumer r.clear l = l.accepted.length := by
  have hzero : r.clear.used = 0 := by
    unfold RingBuffer.used RingBuffer.clear
    dsimp only
    rw [BitVec.sub_self]
    rfl
  unfold consumer
  rw [hzero, Nat.sub_zero]

theorem RingOk.consumer_push (h : RingOk size r l mark) (hdvd : size ∣ 2 ^ 32)
    (hsize : size < 2 ^ 31) (bytes : List Byte) (hroom : r.used + bytes.length ≤ size) :
    consumer (r.push size bytes) (l.accept bytes) = consumer r l := by
  obtain ⟨next, hex⟩ := h.queue
  have hlow := hex.holds.low
  rw [hex.holds.used (by omega)] at hroom
  rw [hex.consumer hsize]
  unfold consumer
  dsimp only [Ledger.accept]
  rw [(hex.holds.push hdvd bytes (by omega)).used (by omega), List.length_append]
  omega

theorem RingOk.consumer_pop (h : RingOk size r l mark) (hsize : size < 2 ^ 31) {n : Nat}
    (hn : n ≤ r.used) : consumer (r.advance n) l = consumer r l + n := by
  obtain ⟨next, hex⟩ := h.queue
  have hlow := hex.holds.low
  rw [hex.holds.used (by omega)] at hn
  have hadv := hex.holds.advance (n := n) (by omega)
  rw [hex.consumer hsize]
  unfold consumer
  rw [hadv.used (by omega)]
  omega

/-- Refusing bytes of a full ring. -/
theorem RingOk.refuse (h : RingOk size r l mark) {used : Nat} (hfull : used = size) :
    RingOk size r (l.refuse used) mark := by
  obtain ⟨⟨next, hex⟩, hmark⟩ := h
  refine ⟨⟨next, hex.holds, hex.order, fun u hu => ?_⟩, hmark.mark, hmark.flushed, hmark.low⟩
  rcases List.mem_cons.mp hu with rfl | hold
  · exact hfull
  · exact hex.refused u hold

end

/-! ## Calls -/

/-- The RX flush this call services is not for a mark long past. -/
def Call.FreshRx : Call → Watched → Prop
  | .readStatus, w | .readData, w =>
      w.port.rxFlush.req = true → FreshMark w.port.rx w.rx w.port.rxFlush.mark
  | _, _ => True

/-- The TX flush this call services is not for a mark long past. -/
def Call.FreshTx : Call → Watched → Prop
  | .txPop _, w => w.port.txFlush.req = true → FreshMark w.port.tx w.tx w.port.txFlush.mark
  | .clearReset, w | .setLinkUp false, w =>
      w.port.resetReq = true → FreshMark w.port.tx w.tx w.port.txFlush.mark
  | _, _ => True

/-- The invariant of the RX side. -/
def RxOk (w : Watched) : Prop := RingOk rxSize w.port.rx w.rx w.port.rxFlush.mark

/-- The invariant of the TX side. -/
def TxOk (w : Watched) : Prop := RingOk txSize w.port.tx w.tx w.port.txFlush.mark

theorem rxSize_dvd : rxSize ∣ 2 ^ 32 := ⟨2 ^ 20, rfl⟩

theorem txSize_dvd : txSize ∣ 2 ^ 32 := ⟨2 ^ 22, rfl⟩

theorem rxSize_lt : rxSize < 2 ^ 31 := by decide

theorem txSize_lt : txSize < 2 ^ 31 := by decide

theorem serviceRxFlush_ok {b : Becker} {l : Ledger} (h : RingOk rxSize b.rx l b.rxFlush.mark)
    (hfresh : b.rxFlush.req = true → FreshMark b.rx l b.rxFlush.mark) :
    RingOk rxSize (serviceRxFlush b).rx l (serviceRxFlush b).rxFlush.mark := by
  unfold serviceRxFlush
  split
  · rename_i hreq
    exact h.skip rxSize_lt (hfresh hreq)
  · exact h

/-- The space the producer computes, while the ring holds at most its size. -/
theorem beckerRxSpace_eq {b : Becker} (h : b.rx.used ≤ rxSize) :
    beckerRxSpace b = rxSize - b.rx.used := by
  unfold RingBuffer.used at h ⊢
  unfold beckerRxSpace
  generalize b.rx.head - b.rx.tail = used at h ⊢
  unfold rxSize at h ⊢
  rw [BitVec.toNat_sub, BitVec.toNat_ofNat]
  omega

theorem rxWaiting_used {b : Becker} (h : rxWaiting b = true) : 1 ≤ b.rx.used := by
  unfold rxWaiting at h
  unfold RingBuffer.used
  have hne : b.rx.head ≠ b.rx.tail := by simpa using h
  by_contra hzero
  refine hne (BitVec.eq_of_toNat_eq ?_)
  have hsub : (b.rx.head - b.rx.tail).toNat = 0 := by omega
  rw [BitVec.toNat_sub] at hsub
  have hh := b.rx.head.isLt
  have ht := b.rx.tail.isLt
  omega

theorem readData_peek (r : RingBuffer Byte) :
    r.peek rxSize 1 = [r.slot (r.tail.toNat % rxSize)] := by
  have hzero : r.tail + BitVec.ofNat 32 0 = r.tail := BitVec.add_zero r.tail
  unfold RingBuffer.peek
  rw [List.range_one, List.map_singleton, hzero]

/-- A push takes what fits; what does not fit has filled the ring. -/
theorem beckerRxPush_ok {b : Becker} {l : Ledger} (h : RingOk rxSize b.rx l b.rxFlush.mark)
    (bytes : List Byte) :
    RingOk rxSize (beckerRxPush bytes b).2.rx (l.accept (bytes.take (beckerRxPush bytes b).1))
        (beckerRxPush bytes b).2.rxFlush.mark ∧
      ((beckerRxPush bytes b).1 < bytes.length → (beckerRxPush bytes b).2.rx.used = rxSize) := by
  have hspace := beckerRxSpace_eq (h.fifo rxSize_lt).bound
  have hbound := (h.fifo rxSize_lt).bound
  unfold beckerRxPush
  dsimp only
  have hlen : (bytes.take (min bytes.length (beckerRxSpace b))).length =
      min bytes.length (beckerRxSpace b) := by
    rw [List.length_take]
    omega
  generalize bytes.take (min bytes.length (beckerRxSpace b)) = taken at hlen ⊢
  have hroom : b.rx.used + taken.length ≤ rxSize := by omega
  refine ⟨h.push rxSize_dvd rxSize_lt taken hroom, fun hshort => ?_⟩
  obtain ⟨next, hex⟩ := h.queue
  have hused := hex.holds.used (by decide)
  have hlow := hex.holds.low
  rw [hused] at hroom
  rw [(hex.holds.push rxSize_dvd taken (by omega)).used (by decide), List.length_append]
  omega

theorem Call.step_rx {call : Call} {w : Watched} (h : RxOk w) (hfresh : call.FreshRx w) :
    RxOk (call.step w) := by
  unfold RxOk at h ⊢
  cases call with
  | readStatus => exact serviceRxFlush_ok h hfresh
  | readData =>
    have hserve := serviceRxFlush_ok h hfresh
    dsimp only [Call.step, Call.run, Call.logRx]
    unfold beckerReadData
    dsimp only
    split
    · rename_i hwait
      have hpop := hserve.pop rxSize_dvd rxSize_lt (rxWaiting_used hwait)
      rw [readData_peek] at hpop
      exact hpop
    · exact hserve
  | writeData value =>
    dsimp only [Call.step, Call.run, Call.logRx, beckerWriteData]
    split <;> exact h
  | reset =>
    dsimp only [Call.step, Call.run, Call.logRx, beckerReset]
    split
    · exact h.clear
    · exact h
  | notifyBackend => exact h
  | txPop max =>
    dsimp only [Call.step, Call.run, Call.logRx, beckerTxPop, serviceTxFlush]
    split <;> exact h
  | rxPush bytes =>
    obtain ⟨hpush, hfull⟩ := beckerRxPush_ok h bytes
    dsimp only [Call.step, Call.run, Call.logRx]
    by_cases hshort : (beckerRxPush bytes w.port).1 < bytes.length
    · rw [if_pos hshort]
      exact hpush.refuse (hfull hshort)
    · rw [if_neg hshort]
      exact hpush
  | clearReset =>
    dsimp only [Call.step, Call.run, Call.logRx, beckerClearReset]
    split <;> exact h
  | setLinkUp up =>
    cases up with
    | true => exact h
    | false =>
      have hrx : ∀ b : Becker, (if b.resetReq then beckerClearReset b
          else { b with tx := b.tx.clear }).rx = b.rx := by
        intro b
        unfold beckerClearReset
        by_cases hreq : b.resetReq = true
        · rw [if_pos hreq, if_pos hreq]
        · rw [if_neg hreq]
      dsimp only [Call.step, Call.run, Call.logRx, beckerSetLinkUp, dropLink]
      rw [if_neg Bool.false_ne_true]
      dsimp only
      rw [hrx]
      exact h.request

theorem serviceTxFlush_ok {b : Becker} {l : Ledger} (h : RingOk txSize b.tx l b.txFlush.mark)
    (hfresh : b.txFlush.req = true → FreshMark b.tx l b.txFlush.mark) :
    RingOk txSize (serviceTxFlush b).tx l (serviceTxFlush b).txFlush.mark := by
  unfold serviceTxFlush
  split
  · rename_i hreq
    exact h.skip txSize_lt (hfresh hreq)
  · exact h

theorem beckerClearReset_ok {b : Becker} {l : Ledger} (h : RingOk txSize b.tx l b.txFlush.mark)
    (hfresh : b.resetReq = true → FreshMark b.tx l b.txFlush.mark) :
    RingOk txSize (beckerClearReset b).tx l (beckerClearReset b).txFlush.mark := by
  unfold beckerClearReset
  split
  · rename_i hreq
    exact h.skip txSize_lt (hfresh hreq)
  · exact h

theorem Call.step_tx {call : Call} {w : Watched} (h : TxOk w) (hfresh : call.FreshTx w) :
    TxOk (call.step w) := by
  unfold TxOk at h ⊢
  cases call with
  | readStatus =>
    dsimp only [Call.step, Call.run, Call.logTx, beckerReadStatus, serviceRxFlush]
    split <;> exact h
  | readData =>
    dsimp only [Call.step, Call.run, Call.logTx, beckerReadData, serviceRxFlush]
    split <;> split <;> exact h
  | writeData value =>
    have hbound := (h.fifo txSize_lt).bound
    dsimp only [Call.step, Call.run, Call.logTx]
    unfold beckerWriteData
    by_cases hroom : txRoom w.port = true
    · have hlt : w.port.tx.used < txSize := of_decide_eq_true hroom
      rw [if_pos hroom, if_pos hroom]
      exact h.push txSize_dvd txSize_lt [value] (by rw [List.length_singleton]; omega)
    · have hge : ¬w.port.tx.used < txSize := fun hlt => hroom (decide_eq_true hlt)
      rw [if_neg hroom, if_neg hroom]
      exact h.refuse (by omega)
  | reset =>
    dsimp only [Call.step, Call.run, Call.logTx, beckerReset]
    split
    · exact h.request
    · exact h
  | notifyBackend => exact h
  | txPop max =>
    have hserve := serviceTxFlush_ok h hfresh
    dsimp only [Call.step, Call.run, Call.logTx, beckerTxPop]
    exact hserve.pop txSize_dvd txSize_lt (Nat.min_le_left _ _)
  | rxPush bytes => exact h
  | clearReset => exact beckerClearReset_ok h hfresh
  | setLinkUp up =>
    cases up with
    | true => exact h
    | false =>
      dsimp only [Call.step, Call.run, Call.logTx, beckerSetLinkUp, dropLink]
      rw [if_neg Bool.false_ne_true]
      dsimp only
      by_cases hreq : w.port.resetReq = true
      · rw [if_pos hreq, if_pos hreq]
        exact beckerClearReset_ok h hfresh
      · rw [if_neg hreq, if_neg hreq]
        exact h.clear

/-! ## Runs -/

theorem ringOk_init (size : Nat) : RingOk size { slot := fun _ => 0 } {} 0 := by
  refine ⟨⟨0, RingBuffer.holds_init size _, ⟨[], .nil, ?_, rfl, ?_⟩, ?_⟩, rfl, Nat.le_refl 0,
    Nat.le_refl 0⟩
  · exact fun p hp => absurd hp List.not_mem_nil
  · exact fun p hp => absurd hp (Nat.not_lt_zero p)
  · exact fun u hu => absurd hu List.not_mem_nil

/-- From the initialised port, for every sequence of calls: as long as no call services a
flush whose mark the consumer has passed by more than half the range of an index, each ring
holds at most its size, delivers what it accepted in order and once, and misses nothing but
what it refused when full or what lies before the mark of a requested flush. -/
theorem becker_fifo_exact (calls : List Call)
    (h : EachStep Call.step (fun call w => call.FreshRx w ∧ call.FreshTx w) calls {}) :
    Always Call.step Fifo calls {} := by
  have hok : Always Call.step (fun w => RxOk w ∧ TxOk w) calls {} :=
    Always.of_step ⟨ringOk_init rxSize, ringOk_init txSize⟩
      (fun _ _ hw hf => ⟨Call.step_rx hw.1 hf.1, Call.step_tx hw.2 hf.2⟩) h
  exact hok.imp fun _ hw => ⟨hw.1.fifo rxSize_lt, hw.2.fifo txSize_lt⟩

/-- Bytes both ways, a reset, and the link dropped. -/
theorem becker_fifo_exact_session :
    Always Call.step Fifo [.setLinkUp true, .rxPush [1, 2], .readData, .reset, .writeData 0x41,
      .setLinkUp false, .readStatus, .txPop 8] {} := by
  refine becker_fifo_exact _ ⟨⟨trivial, trivial⟩, ⟨trivial, trivial⟩, ⟨(fun h => nomatch h), trivial⟩,
    ⟨trivial, trivial⟩, ⟨trivial, trivial⟩, ⟨trivial, fun _ _ => ?_⟩, ⟨fun _ _ => ?_, trivial⟩,
    ⟨trivial, (fun h => nomatch h)⟩, trivial⟩
  · decide +kernel
  · decide +kernel

/-! ## A mark long past -/

/-- The ring is filled and dropped by a reset, `n` times. -/
def fillAndReset : Nat → List Call
  | 0 => []
  | n + 1 => .rxPush (List.replicate rxSize 0) :: .reset :: fillAndReset n

/-- The RX ring is empty after `n` bytes, and a flush up to position 0 is pending. -/
structure StaleMark (n : Nat) (b : Becker) : Prop where
  enabled : b.enabled = true
  head : b.rx.head = BitVec.ofNat 32 n
  tail : b.rx.tail = BitVec.ofNat 32 n
  flush : b.rxFlush = ⟨true, 0⟩

theorem StaleMark.round {n : Nat} {b : Becker} (h : StaleMark n b) :
    StaleMark (n + rxSize)
      (beckerReset (beckerRxPush (List.replicate rxSize 0) b).2) := by
  have hused : b.rx.used = 0 := by
    unfold RingBuffer.used
    rw [h.head, h.tail, BitVec.sub_self]
    rfl
  have hspace : beckerRxSpace b = rxSize := by
    rw [beckerRxSpace_eq (by rw [hused]; exact Nat.zero_le _), hused, Nat.sub_zero]
  have hpush : (beckerRxPush (List.replicate rxSize 0) b).2 =
      { b with rx := b.rx.push rxSize (List.replicate rxSize 0) } := by
    unfold beckerRxPush
    dsimp only
    rw [hspace, List.length_replicate, Nat.min_self, List.take_of_length_le]
    rw [List.length_replicate]
  have hhead : b.rx.head + BitVec.ofNat 32 (List.replicate rxSize (0 : Byte)).length =
      BitVec.ofNat 32 (n + rxSize) := by
    rw [h.head, List.length_replicate, RingBuffer.ofNat_add_ofNat]
  rw [hpush]
  unfold beckerReset
  rw [if_pos h.enabled]
  exact ⟨h.enabled, hhead, hhead, h.flush⟩

theorem StaleMark.rounds (k : Nat) {n : Nat} {w : Watched} (h : StaleMark n w.port) :
    StaleMark (n + k * rxSize) (runAll Call.step (fillAndReset k) w).port := by
  induction k generalizing n w with
  | zero =>
    rw [Nat.zero_mul, Nat.add_zero]
    exact h
  | succ k ih =>
    have hround := @ih (n + rxSize) (Call.step .reset
      (Call.step (.rxPush (List.replicate rxSize 0)) w)) h.round
    have hmul : (k + 1) * rxSize = k * rxSize + rxSize := Nat.succ_mul k rxSize
    have hsum : n + (k + 1) * rxSize = n + rxSize + k * rxSize := by omega
    rw [hsum]
    exact hround

/-- The link drops, the back end fills the ring 2^19 + 1 times with a reset after each, and
the guest reads the status. -/
def staleMark : List Call := .setLinkUp false :: fillAndReset (2 ^ 19 + 1)

/-- The mark is taken for one ahead of the consumer. -/
theorem StaleMark.overruns {b : Becker} (h : StaleMark ((2 ^ 19 + 1) * rxSize) b) :
    rxSize < (beckerReadStatus b).2.rx.used := by
  unfold beckerReadStatus serviceRxFlush RingBuffer.used RingBuffer.skip
  dsimp only
  rw [h.flush, if_pos rfl]
  dsimp only
  rw [h.head, h.tail]
  decide +kernel

/-- The empty ring then holds more than its size. -/
theorem staleMark_overruns :
    rxSize < (beckerReadStatus (runAll Call.step staleMark {}).port).2.rx.used ∧
    ¬∀ calls, Always Call.step Fifo calls {} := by
  have hstart : StaleMark 0 (Call.step (.setLinkUp false) {}).port := ⟨rfl, rfl, rfl, rfl⟩
  have hstale := hstart.rounds (2 ^ 19 + 1)
  rw [Nat.zero_add, ← runAll_cons, ← staleMark] at hstale
  have hover := hstale.overruns
  refine ⟨hover, fun hall => ?_⟩
  have hlast := (hall (staleMark ++ [.readStatus])).last
  rw [runAll_append, runAll_cons, runAll_nil] at hlast
  generalize runAll Call.step staleMark {} = w at hover hlast
  exact absurd hlast.rx.bound (Nat.not_le_of_lt hover)

end CocoEmulator.DriveWire
