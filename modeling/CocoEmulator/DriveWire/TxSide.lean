/-
  DriveWire/TxSide.lean --- the transmit side of the port and the task.

  The part of the state that the transmit side lives in keeps an invariant
  (`TxSide.Ok`): what was taken from the ring so far, followed by what the ring
  still holds past the mark of the last reset, is what the guest wrote since that
  reset.  While a reset is requested the consumer stands at or before its mark.

  One lemma for each thing that can happen to it.
-/
import CocoEmulator.DriveWire.Client

set_option autoImplicit false

namespace CocoEmulator.DriveWire

open CocoEmulator.Base

def Sent.tagged (x : Sent) : Tagged := (x.tag, x.byte)

/-- The bytes tagged with the last reset. -/
def since (resets : Nat) (xs : List Tagged) : List Tagged := xs.filter fun x => x.1 == resets

/-- What the transmit side lives in. -/
structure TxSide where
  enabled : Bool
  ring : RingBuffer Byte
  flush : Flush
  resetReq : Bool
  ledger : Ledger
  resets : Nat
  session : Nat
  log : List Tagged
  sent : List Sent
  flight : List Tagged
  lost : Bool

def World.txSide (s : World) : TxSide where
  enabled := s.port.enabled
  ring := s.port.tx
  flush := s.port.txFlush
  resetReq := s.port.resetReq
  ledger := s.watched.tx
  resets := s.resets
  session := s.session
  log := s.txLog
  sent := s.sent
  flight := s.flight
  lost := s.lost

namespace TxSide

/-- The position of the task in the log. -/
def next (t : TxSide) : Nat := consumer t.ring t.ledger

/-- What was taken from the ring. -/
def handled (t : TxSide) : List Tagged := t.sent.map Sent.tagged ++ t.flight

structure Ok (t : TxSide) : Prop where
  enabled : t.enabled = true
  ring : RingOk txSize t.ring t.ledger t.flush.mark
  log : t.log.map Prod.snd = t.ledger.accepted
  request : t.flush.req = true → t.resetReq = true
  before : t.resetReq = true → t.next ≤ t.ledger.mark
  served : t.resetReq = true → t.flush.req = false → t.next = t.ledger.mark
  after : t.resetReq = false → t.ledger.mark ≤ t.next
  tags : ∀ p x, t.log[p]? = some x → x.1 ≤ t.resets ∧ (x.1 = t.resets ↔ t.ledger.mark ≤ p)
  session : t.session ≤ t.resets
  flight : ∀ x ∈ t.flight, x.1 = t.session
  own : ∀ x ∈ t.sent, x.tag = x.session ∧ x.tag ≤ t.resets
  order : t.handled.Sublist (t.log.take t.next)
  whole : t.lost = false →
    since t.resets t.handled ++ t.log.drop (max t.next t.ledger.mark) = t.log.drop t.ledger.mark

variable {t : TxSide}

theorem Ok.length (h : t.Ok) : t.log.length = t.ledger.accepted.length := by
  rw [← h.log, List.length_map]

theorem Ok.next_le (h : t.Ok) : t.next ≤ t.log.length := by
  have hsum := h.ring.consumer_le txSize_lt
  rw [h.length]
  unfold next
  omega

theorem Ok.mark_le (h : t.Ok) : t.ledger.mark ≤ t.log.length := by
  rw [h.length]
  exact Nat.le_trans h.ring.marked.flushed h.ring.marked.low

/-- A mark the consumer has not passed is not long past. -/
theorem freshMark_of_le {r : RingBuffer Byte} {l : Ledger} {mark : Index}
    (h : RingOk txSize r l mark) (hle : consumer r l ≤ l.mark) : FreshMark r l mark := by
  intro hge
  obtain ⟨next, hex⟩ := h.queue
  have hnext := hex.consumer txSize_lt
  have heq : next = l.mark := by omega
  rw [h.marked.mark, hex.holds.tail, heq, BitVec.sub_self]
  exact Nat.zero_le _

theorem Ok.fresh (h : t.Ok) (hreq : t.resetReq = true) :
    FreshMark t.ring t.ledger t.flush.mark :=
  freshMark_of_le h.ring (h.before hreq)

/-- The guest writes a byte. -/
theorem Ok.write (h : t.Ok) (value : Byte) (hroom : t.ring.used < txSize) :
    Ok { t with
      ring := t.ring.push txSize [value]
      ledger := t.ledger.accept [value]
      log := t.log ++ [(t.resets, value)] } := by
  have hone : t.ring.used + [value].length ≤ txSize := by
    rw [List.length_singleton]
    omega
  have hnext := h.ring.consumer_push txSize_dvd txSize_lt [value] hone
  have hle := h.next_le
  have hmark := h.mark_le
  have hlow : max t.next t.ledger.mark ≤ t.log.length := by omega
  unfold next at hle hlow
  refine ⟨h.enabled, h.ring.push txSize_dvd txSize_lt [value] hone, ?_, h.request, ?_, ?_, ?_, ?_,
    h.session, h.flight, h.own, ?_, fun hlost => ?_⟩
  · rw [List.map_append, h.log]
    rfl
  · unfold next
    rw [hnext]
    exact h.before
  · unfold next
    rw [hnext]
    exact h.served
  · unfold next
    rw [hnext]
    exact h.after
  · intro p x hx
    dsimp only at hx ⊢
    by_cases hold : p < t.log.length
    · rw [List.getElem?_append_left hold] at hx
      exact h.tags p x hx
    · rw [List.getElem?_append_right (by omega)] at hx
      have hx' := List.mem_singleton.mp (List.mem_of_getElem? hx)
      rw [hx']
      refine ⟨Nat.le_refl _, iff_of_true rfl ?_⟩
      exact Nat.le_trans hmark (by omega)
  · unfold next
    rw [hnext, List.take_append_of_le_length hle]
    exact h.order
  · have hwhole := h.whole hlost
    unfold next at hwhole ⊢
    rw [hnext]
    change since t.resets t.handled ++
      (t.log ++ [(t.resets, value)]).drop (max (consumer t.ring t.ledger) t.ledger.mark) =
        (t.log ++ [(t.resets, value)]).drop t.ledger.mark
    rw [List.drop_append_of_le_length hlow, List.drop_append_of_le_length hmark, ← hwhole,
      List.append_assoc]

/-- The full ring refuses a byte. -/
theorem Ok.refuse (h : t.Ok) (hfull : t.ring.used = txSize) :
    Ok { t with ledger := t.ledger.refuse t.ring.used } :=
  ⟨h.enabled, h.ring.refuse hfull, h.log, h.request, h.before, h.served, h.after, h.tags, h.session,
    h.flight, h.own, h.order, h.whole⟩

/-- The CoCo is reset. -/
theorem Ok.reset (h : t.Ok) :
    Ok { t with
      flush := ⟨true, t.ring.head⟩
      resetReq := true
      ledger := t.ledger.request
      resets := t.resets + 1
      lost := false } := by
  have hle := h.next_le
  rw [h.length] at hle
  unfold next at hle
  have hnone : ∀ x ∈ t.handled, (x.1 == t.resets + 1) = false := by
    intro x hx
    rw [beq_eq_false_iff_ne]
    rcases List.mem_append.mp hx with hsent | hflight
    · obtain ⟨y, hy, rfl⟩ := List.mem_map.mp hsent
      have htag := (h.own y hy).2
      change y.tag ≠ t.resets + 1
      omega
    · have htag := h.flight x hflight
      have hsession := h.session
      omega
  refine ⟨h.enabled, h.ring.request, h.log, fun _ => rfl, fun _ => hle,
    fun _ hno => (nomatch hno), fun hno => (nomatch hno), ?_, Nat.le_succ_of_le h.session, h.flight, ?_, h.order, fun _ => ?_⟩
  · intro p x hx
    have hx' : t.log[p]? = some x := hx
    have htag := (h.tags p x hx').1
    obtain ⟨hlt, _⟩ := List.getElem?_eq_some_iff.mp hx'
    rw [h.length] at hlt
    have hmark : t.ledger.request.mark = t.ledger.accepted.length := rfl
    dsimp only
    rw [hmark]
    refine ⟨by omega, iff_of_false (by omega) (by omega)⟩
  · intro x hx
    obtain ⟨hown, htag⟩ := h.own x hx
    exact ⟨hown, Nat.le_succ_of_le htag⟩
  · have hempty : since (t.resets + 1) t.handled = [] := by
      refine List.filter_eq_nil_iff.mpr fun x hx => ?_
      rw [hnone x hx]
      exact Bool.false_ne_true
    have hmax : max (consumer t.ring t.ledger.request) t.ledger.request.mark =
        t.ledger.request.mark := Nat.max_eq_right hle
    unfold next
    dsimp only
    rw [hmax]
    change since (t.resets + 1) t.handled ++ _ = _
    rw [hempty, List.nil_append]

/-- The ring after a flush up to the mark of the last reset. -/
def settled (r : Bool) (t : TxSide) : TxSide :=
  { t with ring := t.ring.skip t.flush.mark, flush := { t.flush with req := false }, resetReq := r }

theorem Ok.next_settled (h : t.Ok) (hreq : t.resetReq = true) (r : Bool) :
    (t.settled r).next = t.ledger.mark := by
  have hskip := h.ring.consumer_skip txSize_lt (h.fresh hreq)
  have hbefore := h.before hreq
  unfold next at hbefore
  unfold next settled
  dsimp only
  rw [hskip]
  omega

/-- The bytes from before a reset are dropped. -/
theorem Ok.settle (h : t.Ok) (hreq : t.resetReq = true) (r : Bool) : (t.settled r).Ok := by
  have hnext := h.next_settled hreq r
  have hbefore := h.before hreq
  refine ⟨h.enabled, h.ring.skip txSize_lt (h.fresh hreq), h.log, fun hno => (nomatch hno),
    fun _ => Nat.le_of_eq hnext, fun _ _ => hnext, fun _ => Nat.le_of_eq hnext.symm, h.tags, h.session, h.flight,
    h.own, ?_, fun hlost => ?_⟩
  · rw [hnext]
    exact h.order.trans (List.take_sublist_take_left hbefore)
  · have hwhole := h.whole hlost
    rw [Nat.max_eq_right hbefore] at hwhole
    rw [hnext]
    change since t.resets t.handled ++ t.log.drop (max t.ledger.mark t.ledger.mark) =
      t.log.drop t.ledger.mark
    rw [Nat.max_self]
    exact hwhole

/-- A session begins. -/
theorem Ok.begin (h : t.Ok) (hempty : t.flight = []) : Ok { t with session := t.resets } := by
  refine ⟨h.enabled, h.ring, h.log, h.request, h.before, h.served, h.after, h.tags, Nat.le_refl _,
    ?_, h.own, h.order, h.whole⟩
  intro x hx
  rw [hempty] at hx
  exact absurd hx List.not_mem_nil

theorem sublist_take_add {xs ys : List Tagged} {i : Nat} (h : xs.Sublist (ys.take i)) (n : Nat) :
    (xs ++ (ys.drop i).take n).Sublist (ys.take (i + n)) := by
  rw [List.take_add]
  exact h.append (List.Sublist.refl _)

theorem since_append (resets : Nat) (xs ys : List Tagged) :
    since resets (xs ++ ys) = since resets xs ++ since resets ys :=
  List.filter_append ..

theorem since_eq_self {resets : Nat} {xs : List Tagged} (h : ∀ x ∈ xs, x.1 = resets) :
    since resets xs = xs :=
  List.filter_eq_self.mpr fun x hx => beq_iff_eq.mpr (h x hx)

theorem since_eq_nil {resets : Nat} {xs : List Tagged} (h : ∀ x ∈ xs, x.1 ≠ resets) :
    since resets xs = [] :=
  List.filter_eq_nil_iff.mpr fun x hx heq => h x hx (beq_iff_eq.mp heq)

/-- The task pops `n` bytes: none while a reset is requested. -/
theorem Ok.take (h : t.Ok) (hempty : t.flight = []) {n : Nat} (hn : n ≤ t.ring.used)
    (hown : n = 0 ∨ t.resetReq = false ∧ t.session = t.resets) :
    Ok { t with
      ring := t.ring.advance n
      ledger := t.ledger.deliver (t.ring.peek txSize n)
      flight := (t.log.drop t.next).take n } := by
  have hnext : consumer (t.ring.advance n) (t.ledger.deliver (t.ring.peek txSize n)) =
      t.next + n := h.ring.consumer_pop txSize_lt hn
  have hsent : t.handled = t.sent.map Sent.tagged := by
    unfold handled
    rw [hempty, List.append_nil]
  have horder := h.order
  rw [hsent] at horder
  -- each of them was written after the last reset
  have htags : n = 0 ∨ ∀ x ∈ (t.log.drop t.next).take n, x.1 = t.resets := by
    refine hown.imp id fun hsession x hx => ?_
    obtain ⟨k, hk⟩ := List.getElem?_of_mem (List.mem_of_mem_take hx)
    rw [List.getElem?_drop] at hk
    have hafter := h.after hsession.1
    exact (h.tags _ x hk).2.mpr (Nat.le_trans hafter (Nat.le_add_right _ _))
  refine ⟨h.enabled, h.ring.pop txSize_dvd txSize_lt hn, h.log, h.request, ?_, ?_, ?_, h.tags,
    h.session, ?_, h.own, ?_, fun hlost => ?_⟩
  · intro hreq
    unfold next
    dsimp only
    rw [hnext]
    rcases hown with rfl | hsession
    · exact h.before hreq
    · rw [hsession.1] at hreq
      exact absurd hreq Bool.false_ne_true
  · intro hreq hflush
    unfold next
    dsimp only
    rw [hnext]
    rcases hown with rfl | hsession
    · exact h.served hreq hflush
    · rw [hsession.1] at hreq
      exact absurd hreq Bool.false_ne_true
  · intro hno
    unfold next
    dsimp only
    rw [hnext]
    exact Nat.le_trans (h.after hno) (Nat.le_add_right _ _)
  · intro x hx
    rcases hown with rfl | hsession
    · rw [List.take_zero] at hx
      exact absurd hx List.not_mem_nil
    · rcases htags with rfl | htag
      · rw [List.take_zero] at hx
        exact absurd hx List.not_mem_nil
      · rw [htag x hx]
        exact hsession.2.symm
  · unfold next
    dsimp only
    rw [hnext]
    exact sublist_take_add horder n
  · have hwhole := h.whole hlost
    rw [hsent] at hwhole
    unfold next handled
    dsimp only
    have hfold : consumer t.ring t.ledger = t.next := rfl
    rw [hnext, since_append, hfold]
    rcases hown with rfl | hsession
    · rw [List.take_zero, Nat.add_zero]
      have hnil : since t.resets [] = [] := rfl
      rw [hnil, List.append_nil]
      exact hwhole
    · have hafter : t.ledger.mark ≤ t.next := h.after hsession.1
      have hmark : (t.ledger.deliver (t.ring.peek txSize n)).mark = t.ledger.mark := rfl
      have hself : since t.resets ((t.log.drop t.next).take n) = (t.log.drop t.next).take n := by
        rcases htags with rfl | htag
        · rw [List.take_zero]
          rfl
        · exact since_eq_self htag
      rw [Nat.max_eq_left hafter] at hwhole
      rw [hself, hmark, Nat.max_eq_left (by omega), List.append_assoc, ← List.drop_drop,
        List.take_append_drop]
      exact hwhole

theorem tagged_zipWith (session : Nat) (xs : List Tagged) (n : Nat) :
    (List.zipWith (fun (x : Tagged) b => Sent.mk x.1 session b) xs
      ((xs.map Prod.snd).take n)).map Sent.tagged = xs.take n := by
  induction xs generalizing n with
  | nil => rw [List.zipWith_nil_left, List.take_nil, List.map_nil]
  | cons x xs ih =>
    cases n with
    | zero => rfl
    | succ n =>
      rw [List.map_cons, List.take_succ_cons, List.zipWith_cons_cons, List.map_cons, ih,
        List.take_succ_cons]
      rfl

theorem mem_zipWith_sent {session : Nat} {xs : List Tagged} {bytes : List Byte} {x : Sent}
    (h : x ∈ List.zipWith (fun (x : Tagged) b => Sent.mk x.1 session b) xs bytes) :
    x.session = session ∧ ∃ y ∈ xs, x.tag = y.1 := by
  induction xs generalizing bytes with
  | nil => exact absurd h List.not_mem_nil
  | cons y xs ih =>
    cases bytes with
    | nil => exact absurd h List.not_mem_nil
    | cons b bytes =>
      rcases List.mem_cons.mp h with rfl | hrest
      · exact ⟨rfl, y, List.mem_cons_self, rfl⟩
      · obtain ⟨hsession, z, hz, htag⟩ := ih hrest
        exact ⟨hsession, z, List.mem_cons_of_mem y hz, htag⟩

/-- The first `n` of the bytes in flight are sent. -/
theorem Ok.send (h : t.Ok) {bytes : List Byte} (hbytes : t.flight.map Prod.snd = bytes) (n : Nat) :
    Ok { t with
      sent := t.sent ++ List.zipWith (fun (x : Tagged) b => Sent.mk x.1 t.session b)
        t.flight (bytes.take n)
      flight := []
      lost := t.lost || (n != bytes.length && t.session == t.resets) } := by
  have hhandled : handled { t with
      sent := t.sent ++ List.zipWith (fun (x : Tagged) b => Sent.mk x.1 t.session b)
        t.flight (bytes.take n)
      flight := []
      lost := t.lost || (n != bytes.length && t.session == t.resets) } =
      t.sent.map Sent.tagged ++ t.flight.take n := by
    unfold handled
    dsimp only
    rw [← hbytes, List.map_append, tagged_zipWith, List.append_nil]
  refine ⟨h.enabled, h.ring, h.log, h.request, h.before, h.served, h.after, h.tags, h.session,
    fun x hx => absurd hx List.not_mem_nil, ?_, ?_, fun hlost => ?_⟩
  · intro x hx
    rcases List.mem_append.mp hx with hold | hnew
    · exact h.own x hold
    · obtain ⟨hsession, y, hy, htag⟩ := mem_zipWith_sent hnew
      have hflight := h.flight y hy
      refine ⟨htag.trans (hflight.trans hsession.symm), ?_⟩
      rw [htag, hflight]
      exact h.session
  · rw [hhandled]
    refine List.Sublist.trans ?_ h.order
    unfold handled
    exact (List.Sublist.refl _).append (List.take_sublist n t.flight)
  · rw [hhandled]
    obtain ⟨hlost', hpart⟩ := Bool.or_eq_false_iff.mp hlost
    have hwhole := h.whole hlost'
    -- nothing of the last reset was left unsent
    have hsame : since t.resets (t.sent.map Sent.tagged ++ t.flight.take n) =
        since t.resets t.handled := by
      unfold handled
      rw [since_append, since_append]
      congr 1
      by_cases hall : n = bytes.length
      · rw [List.take_of_length_le]
        rw [hall, ← hbytes, List.length_map]
      · have hne : t.session ≠ t.resets := by simpa [hall] using hpart
        have hold : ∀ x ∈ t.flight, x.1 ≠ t.resets := by
          intro x hx
          rw [h.flight x hx]
          exact hne
        rw [since_eq_nil hold, since_eq_nil fun x hx => hold x (List.mem_of_mem_take hx)]
    dsimp only at hsame ⊢
    rw [hsame]
    exact hwhole

/-- The link is lost, with no reset requested. -/
theorem Ok.drop (h : t.Ok) (hno : t.resetReq = false) :
    Ok { t with ring := t.ring.clear, ledger := t.ledger.flush, lost := true } := by
  have hnext : consumer t.ring.clear t.ledger.flush = t.log.length := by
    rw [h.length]
    exact h.ring.consumer_clear
  refine ⟨h.enabled, h.ring.clear, h.log, h.request, fun hreq => ?_, fun hreq => ?_, fun _ => ?_,
    h.tags, h.session, h.flight, h.own, ?_, fun hlost => (nomatch hlost)⟩
  · exact absurd (hno.symm.trans hreq) Bool.false_ne_true
  · exact absurd (hno.symm.trans hreq) Bool.false_ne_true
  · unfold next
    dsimp only
    rw [hnext]
    exact h.mark_le
  · unfold next
    dsimp only
    rw [hnext]
    exact h.order.trans (List.take_sublist_take_left h.next_le)

/-- What the guest wrote since the last reset is the log from its mark on. -/
theorem Ok.since_log (h : t.Ok) : since t.resets t.log = t.log.drop t.ledger.mark := by
  have hsplit := List.take_append_drop t.ledger.mark t.log
  have hold : since t.resets (t.log.take t.ledger.mark) = [] := by
    refine since_eq_nil fun x hx heq => ?_
    obtain ⟨p, hp⟩ := List.getElem?_of_mem hx
    rw [List.getElem?_take] at hp
    split at hp
    · have hmark := (h.tags p x hp).2.mp heq
      omega
    · exact nomatch hp
  have hnew : since t.resets (t.log.drop t.ledger.mark) = t.log.drop t.ledger.mark := by
    refine since_eq_self fun x hx => ?_
    obtain ⟨k, hk⟩ := List.getElem?_of_mem hx
    rw [List.getElem?_drop] at hk
    exact (h.tags _ x hk).2.mpr (Nat.le_add_right _ _)
  calc since t.resets t.log
      = since t.resets (t.log.take t.ledger.mark ++ t.log.drop t.ledger.mark) := by rw [hsplit]
    _ = t.log.drop t.ledger.mark := by rw [since_append, hold, hnew, List.nil_append]

end TxSide

end CocoEmulator.DriveWire
