/-
  Serial/Transmit.lean --- bytes that a guest hands to the ACIA reach the wire.

  A byte is either passed to `tx_byte_out` at once or held in the one-deep slot behind
  the byte being sent.  TDRE keeps a second byte out of the slot, except that a
  programmed reset sets TDRE while a byte is still being sent and `tx_submit` does not
  clear it again when it fills the slot.

      Lossless            what was passed on and what is held is what was written
      tick_drains         a tick that ends the byte being sent empties the slot
      acia_tx_lossless    runs are lossless exactly when no write finds the slot full
-/
import CocoEmulator.Serial.Mc6551

set_option autoImplicit false

namespace CocoEmulator.Serial

open CocoEmulator.Base

/-- The byte in the slot. -/
def Mc6551.held (s : Mc6551) : List Byte := if s.txPending then [s.txPendingByte] else []

/-- The bytes the chip has taken over, oldest first. -/
def Mc6551.accepted (s : Mc6551) : List Byte := s.txOut ++ s.held

/-- A rate of the table, and receiver echo off. -/
structure TxSetup (s : Mc6551) : Prop where
  rate : ∃ baud, s.cyclesPerByte = byteTime baud
  echo : s.echoEn = false

/-- The transmitter between two calls. -/
structure TxInv (s : Mc6551) : Prop extends TxSetup s where
  sending : s.txBusy = true → 0 < s.txCountdown ∧ FitsI32 s.txCountdown
  slot : s.txPending = true → s.txBusy = true

/-- `t` is `s` as far as the transmitter goes. -/
structure TxSame (s t : Mc6551) : Prop where
  out : t.txOut = s.txOut
  busy : t.txBusy = s.txBusy
  countdown : t.txCountdown = s.txCountdown
  pending : t.txPending = s.txPending
  pendingByte : t.txPendingByte = s.txPendingByte
  tdre : t.tdre = s.tdre
  rate : t.cyclesPerByte = s.cyclesPerByte
  echo : t.echoEn = s.echoEn

/-! ## One call -/

section

variable {s t u : Mc6551}

theorem TxSame.trans (h : TxSame s t) (h' : TxSame t u) : TxSame s u where
  out := h'.out.trans h.out
  busy := h'.busy.trans h.busy
  countdown := h'.countdown.trans h.countdown
  pending := h'.pending.trans h.pending
  pendingByte := h'.pendingByte.trans h.pendingByte
  tdre := h'.tdre.trans h.tdre
  rate := h'.rate.trans h.rate
  echo := h'.echo.trans h.echo

theorem TxSame.accepted (h : TxSame s t) : t.accepted = s.accepted := by
  unfold Mc6551.accepted Mc6551.held
  rw [h.out, h.pending, h.pendingByte]

theorem TxSame.inv (h : TxSame s t) (hs : TxInv s) : TxInv t where
  rate := by rw [h.rate]; exact hs.rate
  echo := by rw [h.echo]; exact hs.echo
  sending := by rw [h.busy, h.countdown]; exact hs.sending
  slot := by rw [h.busy, h.pending]; exact hs.slot

theorem accepted_of_slot_free (h : s.txPending = false) : s.accepted = s.txOut := by
  unfold Mc6551.accepted Mc6551.held
  rw [h]
  exact List.append_nil _

theorem txSubmit_accepted (b : Byte) (hfree : s.txPending = false) :
    (s.txSubmit b).accepted = s.accepted ++ [b] := by
  rw [accepted_of_slot_free hfree]
  unfold Mc6551.txSubmit
  split
  · rfl
  · exact accepted_of_slot_free hfree

/-- A full slot is overwritten. -/
theorem txSubmit_overwrites (h : TxInv s) (b : Byte) (hfull : s.txPending = true) :
    (s.txSubmit b).accepted = s.txOut ++ [b] := by
  unfold Mc6551.txSubmit
  rw [if_pos (h.slot hfull)]
  rfl

theorem txSubmit_inv (h : TxInv s) (b : Byte) : TxInv (s.txSubmit b) := by
  unfold Mc6551.txSubmit
  split
  · rename_i hbusy
    exact { h with slot := fun _ => hbusy }
  · obtain ⟨baud, hrate⟩ := h.rate
    refine { h with sending := fun _ => ?_, slot := fun _ => rfl }
    dsimp only
    rw [hrate]
    exact ⟨byteTime_pos baud, byteTime_fits baud⟩

theorem lineIdle_inv (h : TxSetup s) : TxInv s.lineIdle where
  rate := h.rate
  echo := h.echo
  sending := fun hbusy => absurd hbusy Bool.false_ne_true
  slot := fun hfull => absurd hfull Bool.false_ne_true

/-- The end of a byte moves the held one on. -/
theorem txDone_spec (h : TxSetup s) :
    TxInv s.txDone ∧ s.txDone.accepted = s.accepted ∧ s.txDone.txPending = false := by
  have hidle : s.lineIdle.txPending = false := rfl
  rw [s.txDone_eq]
  cases hfull : s.txPending with
  | false =>
    refine ⟨lineIdle_inv h, ?_, hidle⟩
    simp only [Bool.false_eq_true, if_false]
    rw [accepted_of_slot_free hidle, accepted_of_slot_free hfull]
    rfl
  | true =>
    refine ⟨txSubmit_inv (lineIdle_inv h) _, ?_, rfl⟩
    simp only [if_true]
    rw [txSubmit_accepted _ hidle, accepted_of_slot_free hidle]
    unfold Mc6551.accepted Mc6551.held
    rw [hfull]
    rfl

theorem tickTx_spec (h : TxInv s) (cyc : Int) :
    TxInv (s.tickTx cyc) ∧ (s.tickTx cyc).accepted = s.accepted := by
  unfold Mc6551.tickTx
  dsimp only
  split
  · have hmid : TxSetup { s with txCountdown := i32 (s.txCountdown - cyc) } :=
      { rate := h.rate, echo := h.echo }
    split
    · obtain ⟨hinv, hacc, _⟩ := txDone_spec hmid
      exact ⟨hinv, hacc⟩
    · rename_i hleft
      have hfits := i32_fits (s.txCountdown - cyc)
      exact ⟨{ h with sending := fun _ => ⟨Int.not_le.mp hleft, hfits⟩ }, rfl⟩
  · exact ⟨h, rfl⟩

theorem rxTake_same (h : s.echoEn = false) (b : Byte) (rest : List Byte) :
    TxSame s (s.rxTake b rest) := by
  rw [s.rxTake_eq]
  split
  · constructor <;> rfl
  · split
    · rename_i hecho
      exact absurd (h.symm.trans hecho) Bool.false_ne_true
    · constructor <;> rfl

/-- With echo off the receiver leaves the transmitter alone. -/
theorem tickRx_same (h : s.echoEn = false) (cyc : Int) : TxSame s (s.tickRx cyc) := by
  have hcount : TxSame s { s with rxCountdown := i32 (s.rxCountdown - cyc) } := by
    constructor <;> rfl
  unfold Mc6551.tickRx
  dsimp only
  split
  · split
    · exact hcount
    · exact hcount.trans (rxTake_same (s := { s with rxCountdown := i32 (s.rxCountdown - cyc) }) h _ _)
  · exact hcount

theorem tick_spec (h : TxInv s) (cpuCycles : BitVec 32) :
    TxInv (s.tick cpuCycles) ∧ (s.tick cpuCycles).accepted = s.accepted := by
  obtain ⟨htx, hacc⟩ := tickTx_spec h cpuCycles.toInt
  have hrx := tickRx_same htx.echo cpuCycles.toInt
  exact ⟨hrx.inv htx, hrx.accepted.trans hacc⟩

/-- A tick that ends the byte being sent passes the held one on. -/
theorem tick_drains (h : TxInv s) (cpuCycles : BitVec 32)
    (henough : s.txBusy = true → s.txCountdown ≤ cpuCycles.toInt) :
    (s.tick cpuCycles).txOut = s.accepted := by
  obtain ⟨htx, hacc⟩ := tickTx_spec h cpuCycles.toInt
  refine (tickRx_same htx.echo cpuCycles.toInt).out.trans ?_
  rw [← hacc]
  refine (accepted_of_slot_free ?_).symm
  unfold Mc6551.tickTx
  dsimp only
  split
  · rename_i hbusy
    have hfits : FitsI32 (s.txCountdown - cpuCycles.toInt) := by
      have hlt := BitVec.toInt_lt (x := cpuCycles)
      have hcount := h.sending hbusy
      have hle := henough hbusy
      unfold FitsI32 at *
      omega
    rw [i32_of_fits hfits, if_pos (by have := henough hbusy; omega)]
    have hmid : TxSetup { s with txCountdown := s.txCountdown - cpuCycles.toInt } :=
      { rate := h.rate, echo := h.echo }
    exact (txDone_spec hmid).2.2
  · rename_i hidle
    cases hfull : s.txPending with
    | false => rfl
    | true => exact absurd (h.slot hfull) hidle

theorem read_same (reg : Byte) : TxSame s (s.read reg).2 := by
  unfold Mc6551.read
  cases decodeReg reg <;> constructor <;> rfl

/-- A write of another register than the data register. -/
theorem write_spec (h : TxInv s) {reg val : Byte} (hreg : decodeReg reg ≠ .data)
    (hecho : decodeReg reg = .command → val &&& 0x10 = 0) :
    TxInv (s.write reg val) ∧ (s.write reg val).accepted = s.accepted := by
  unfold Mc6551.write
  cases hdec : decodeReg reg with
  | data => exact absurd hdec hreg
  | status =>
    refine ⟨{ h with echo := ?_ }, rfl⟩
    have hbit : s.regCommand &&& ~~~(0x1F : Byte) &&& 0x10 = 0 := by
      rw [BitVec.and_assoc]
      exact BitVec.and_zero
    unfold Mc6551.recomputeCommand
    dsimp only
    rw [hbit]
    rfl
  | command =>
    refine ⟨{ h with echo := ?_ }, rfl⟩
    have hbit := hecho hdec
    unfold Mc6551.recomputeCommand
    dsimp only
    rw [hbit]
    rfl
  | control => exact ⟨{ h with rate := ⟨_, rfl⟩ }, rfl⟩

end

/-! ## Sessions -/

/-- What the guest does: receiver echo stays off, and it writes a byte only after a
status read that showed TDRE. -/
def Honest : Access → Session → Prop
  | .write reg val, s =>
    (decodeReg reg = .command → val &&& 0x10 = 0) ∧ (decodeReg reg = .data → s.tdreSeen = true)
  | _, _ => True

/-- A written byte finds the slot empty. -/
def SlotFree : Access → Session → Prop
  | .write reg _, s => decodeReg reg = .data → s.chip.txPending = false
  | _, _ => True

/-- A programmed reset finds no byte being sent. -/
def ResetIdle : Access → Session → Prop
  | .write reg _, s => decodeReg reg = .status → s.chip.txBusy = false
  | _, _ => True

instance : (a : Access) → (s : Session) → Decidable (Honest a s)
  | .write _ _, _ => inferInstanceAs (Decidable (_ ∧ _))
  | .read _, _ | .tick _, _ | .arrive _, _ => isTrue trivial

/-- The written bytes are those passed to `tx_byte_out`, in order, and at most one that
the chip holds; a tick that ends the byte being sent passes that one too. -/
structure Lossless (s : Session) : Prop where
  sent : s.chip.accepted = s.written
  one : s.chip.held.length ≤ 1
  drains : ∀ cpuCycles : BitVec 32,
    (s.chip.txBusy = true → s.chip.txCountdown ≤ cpuCycles.toInt) →
      (s.chip.tick cpuCycles).txOut = s.written

section

variable {s : Session}

theorem lossless_iff (h : TxInv s.chip) : Lossless s ↔ s.chip.accepted = s.written := by
  constructor
  · exact Lossless.sent
  · intro hsent
    refine ⟨hsent, ?_, fun cpuCycles henough => (tick_drains h cpuCycles henough).trans hsent⟩
    unfold Mc6551.held
    split
    · exact Nat.le_refl 1
    · exact Nat.zero_le 1

/-- The step lemma: an access that leaves receiver echo off keeps the transmitter's
invariant, and keeps what was accepted in step with what was written exactly if a
written byte finds the slot empty. -/
theorem step_spec (h : TxInv s.chip) {a : Access} (ha : Honest a s) :
    TxInv (a.step s).chip ∧ (s.chip.accepted = s.written →
      ((a.step s).chip.accepted = (a.step s).written ↔ SlotFree a s)) := by
  cases a with
  | read reg =>
    have hsame : TxSame s.chip (s.chip.read reg).2 := read_same reg
    exact ⟨hsame.inv h, fun hsent => iff_of_true (hsame.accepted.trans hsent) trivial⟩
  | tick cpuCycles =>
    obtain ⟨hinv, hacc⟩ := tick_spec h cpuCycles
    exact ⟨hinv, fun hsent => iff_of_true (hacc.trans hsent) trivial⟩
  | arrive b => exact ⟨{ h with }, fun hsent => iff_of_true hsent trivial⟩
  | write reg val =>
    simp only [Access.step, Session.write_chip]
    by_cases hdata : decodeReg reg = .data
    · rw [s.chip.write_data hdata, (s.write_data hdata).1]
      refine ⟨txSubmit_inv h val, fun hsent => ?_⟩
      cases hfull : s.chip.txPending with
      | false =>
        refine iff_of_true ?_ fun _ => hfull
        rw [txSubmit_accepted val hfull, hsent]
      | true =>
        have hheld : s.written = s.chip.txOut ++ [s.chip.txPendingByte] := by
          rw [← hsent, Mc6551.accepted, Mc6551.held, if_pos hfull]
        refine iff_of_false ?_ fun hfree => ?_
        · rw [txSubmit_overwrites h val hfull, hheld]
          intro heq
          have hlen := congrArg List.length heq
          simp only [List.length_append, List.length_cons, List.length_nil] at hlen
          omega
        · exact Bool.false_ne_true ((hfree hdata).symm.trans hfull)
    · obtain ⟨hinv, hacc⟩ := write_spec h hdata ha.1
      rw [(s.write_other hdata).1]
      exact ⟨hinv, fun hsent => iff_of_true (hacc.trans hsent) fun hd => absurd hd hdata⟩

/-! ### Without a programmed reset in the middle of a byte -/

/-- The line is idle exactly when TDRE is set, and the guest has seen no older TDRE. -/
structure Guarded (s : Session) : Prop where
  inv : TxInv s.chip
  free : s.chip.txPending = false
  tdre : s.chip.tdre = !s.chip.txBusy
  seen : s.tdreSeen = true → s.chip.txBusy = false

theorem assembleStatus_tdre (c : Mc6551) : (c.assembleStatus &&& 0x10 != 0) = c.tdre := by
  unfold Mc6551.assembleStatus
  cases c.irqFlag <;> cases c.tdre <;> cases c.rdrf <;> cases c.overrun <;> rfl

theorem Guarded.same (h : Guarded s) {c : Mc6551} (hsame : TxSame s.chip c) {t : Session}
    (hchip : t.chip = c) (hseen : t.tdreSeen = true → s.tdreSeen = true ∨ s.chip.tdre = true) :
    Guarded t := by
  rw [← hchip] at hsame
  refine ⟨hsame.inv h.inv, hsame.pending.trans h.free, ?_, fun ht => ?_⟩
  · rw [hsame.tdre, hsame.busy]
    exact h.tdre
  · rw [hsame.busy]
    rcases hseen ht with hs | htdre
    · exact h.seen hs
    · have hidle := h.tdre
      rw [htdre] at hidle
      simpa using hidle

theorem Guarded.read (h : Guarded s) (reg : Byte) : Guarded (s.read reg) := by
  refine h.same (read_same reg) rfl fun hseen => ?_
  simp only [Session.read, Bool.or_eq_true, Bool.and_eq_true, beq_iff_eq] at hseen
  rcases hseen with hseen | ⟨hstatus, htdre⟩
  · exact Or.inl hseen
  · refine Or.inr ?_
    rw [← assembleStatus_tdre]
    simpa only [Mc6551.read, hstatus] using htdre

/-- With the slot empty, a tick keeps TDRE the opposite of busy. -/
theorem tickTx_guarded {c : Mc6551} (hfree : c.txPending = false) (htdre : c.tdre = !c.txBusy)
    (cyc : Int) :
    (c.tickTx cyc).txPending = false ∧ (c.tickTx cyc).tdre = !(c.tickTx cyc).txBusy ∧
      (c.txBusy = false → (c.tickTx cyc).txBusy = false) := by
  unfold Mc6551.tickTx
  dsimp only
  cases hbusy : c.txBusy with
  | false => exact ⟨hfree, by simpa [hbusy] using htdre, fun _ => hbusy⟩
  | true =>
    simp only [if_true]
    split
    · rw [Mc6551.txDone_eq, if_neg (by simp [hfree])]
      exact ⟨rfl, rfl, fun _ => rfl⟩
    · exact ⟨hfree, by simpa [hbusy] using htdre, fun h => absurd h Bool.noConfusion⟩

theorem Guarded.tick (h : Guarded s) (cpuCycles : BitVec 32) : Guarded (s.tick cpuCycles) := by
  have hinv := (tickTx_spec h.inv cpuCycles.toInt).1
  obtain ⟨hfree, htdre, hidle⟩ := tickTx_guarded h.free h.tdre cpuCycles.toInt
  have htx : Guarded { s with chip := s.chip.tickTx cpuCycles.toInt } :=
    ⟨hinv, hfree, htdre, fun hseen => hidle (h.seen hseen)⟩
  exact htx.same (tickRx_same hinv.echo cpuCycles.toInt) rfl Or.inl

/-- Of the registers other than the data register, only the programmed reset touches
TDRE, and none the byte being sent. -/
theorem write_flags {c : Mc6551} {reg : Byte} (hreg : decodeReg reg ≠ .data) (val : Byte) :
    (c.write reg val).txPending = c.txPending ∧ (c.write reg val).txBusy = c.txBusy ∧
      (c.write reg val).tdre = (c.tdre || decodeReg reg == .status) := by
  unfold Mc6551.write
  cases hdec : decodeReg reg with
  | data => exact absurd hdec hreg
  | status => exact ⟨rfl, rfl, (Bool.or_true _).symm⟩
  | command => exact ⟨rfl, rfl, (Bool.or_false _).symm⟩
  | control => exact ⟨rfl, rfl, (Bool.or_false _).symm⟩

theorem Guarded.write (h : Guarded s) {reg val : Byte} (hhonest : Honest (.write reg val) s)
    (hreset : ResetIdle (.write reg val) s) : Guarded (s.write reg val) := by
  by_cases hdata : decodeReg reg = .data
  · have hidle := h.seen (hhonest.2 hdata)
    have hchip : (s.write reg val).chip = s.chip.txSubmit val := by
      rw [Session.write_chip, s.chip.write_data hdata]
    refine ⟨?_, ?_, ?_, fun hseen => ?_⟩
    · rw [hchip]
      exact txSubmit_inv h.inv val
    · rw [hchip, Mc6551.txSubmit, hidle]
      exact h.free
    · rw [hchip, Mc6551.txSubmit, hidle]
      rfl
    · exact absurd hseen (by rw [(s.write_data hdata).2]; exact Bool.false_ne_true)
  · have hinv := (write_spec h.inv hdata hhonest.1).1
    obtain ⟨hpending, hbusy, htdre⟩ := write_flags (c := s.chip) hdata val
    rw [← Session.write_chip] at hinv hpending hbusy htdre
    refine ⟨hinv, hpending.trans h.free, ?_, fun hseen => ?_⟩
    · rw [htdre, hbusy, h.tdre]
      by_cases hstatus : decodeReg reg = .status
      · rw [hreset hstatus]
        rfl
      · rw [beq_false_of_ne hstatus, Bool.or_false]
    · rw [(s.write_other hdata).2] at hseen
      rw [hbusy]
      exact h.seen hseen

/-- A guest that honours TDRE finds the slot free if no programmed reset cuts a byte. -/
theorem slotFree_of_resetIdle {as : List Access} (h : Guarded s)
    (hhonest : EachStep Access.step Honest as s) (hreset : EachStep Access.step ResetIdle as s) :
    EachStep Access.step SlotFree as s := by
  refine EachStep.of_inv (I := Guarded) h (hhonest.and hreset) ?_ ?_
  · intro a t ht ha
    cases a with
    | read reg => exact ht.read reg
    | write reg val => exact ht.write ha.1 ha.2
    | tick cpuCycles => exact ht.tick cpuCycles
    | arrive b => exact { ht with inv := { ht.inv with } }
  · intro a t ht _
    cases a with
    | write reg val => exact fun _ => ht.free
    | _ => exact trivial

end

/-! ## The result -/

theorem start_guarded : Guarded .start where
  inv := { rate := ⟨0, rfl⟩, echo := rfl, sending := nofun, slot := nofun }
  free := rfl
  tdre := rfl
  seen := nofun

/-- A session of a guest that keeps receiver echo off and honours TDRE is lossless
exactly when no written byte finds the slot full, and it is when no programmed reset
cuts a byte that is being sent. -/
theorem acia_tx_lossless (as : List Access) (hhonest : EachStep Access.step Honest as .start) :
    (Always Access.step Lossless as .start ↔ EachStep Access.step SlotFree as .start) ∧
      (EachStep Access.step ResetIdle as .start → Always Access.step Lossless as .start) := by
  have hiff : Always Access.step Lossless as .start ↔ EachStep Access.step SlotFree as .start := by
    refine always_iff_eachStep_of_run (I := fun s => TxInv s.chip) start_guarded.inv
      ((lossless_iff start_guarded.inv).mpr rfl) hhonest ?_ ?_
    · intro a s h ha
      exact (step_spec h ha).1
    · intro a s h ha hs
      obtain ⟨hinv, hsent⟩ := step_spec h ha
      exact (lossless_iff hinv).trans (hsent hs.sent)
  exact ⟨hiff, fun hreset => hiff.mpr (slotFree_of_resetIdle start_guarded hhonest hreset)⟩

/-- A byte, a programmed reset, and two more bytes, each after a status read. -/
def resetMidByte : List Access :=
  [.read 1, .write 0 0x41, .write 1 0, .read 1, .write 0 0x42, .read 1, .write 0 0x43]

theorem acia_tx_lossless_plain :
    Always Access.step Lossless [.read 1, .write 0 0x41, .tick 57, .read 1] .start :=
  (acia_tx_lossless _ (by decide)).2
    ⟨trivial, (fun hstatus => absurd hstatus (by decide)), trivial, trivial, trivial⟩

/-- The guest honours TDRE, and its second byte is lost. -/
theorem reset_mid_byte_loses :
    EachStep Access.step Honest resetMidByte .start ∧
      ¬∀ as, EachStep Access.step Honest as .start → Always Access.step Lossless as .start := by
  have hhonest : EachStep Access.step Honest resetMidByte .start := by decide
  refine ⟨hhonest, fun hall => ?_⟩
  have hsent := (hall resetMidByte hhonest).last.sent
  exact absurd hsent (by decide)

end CocoEmulator.Serial
