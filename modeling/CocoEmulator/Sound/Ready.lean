/-
  Sound/Ready.lean --- the READY bit tells whether a data byte is outstanding.

  `SscAt log next pos rel s` says where the state stands in the log of all pushed
  commands: `next` is the published index of the ring, `pos` the engine's own, and
  `rel` the number of data bytes consumed as of the last BUSY release.

      SscInv.step   every step of either core keeps it
      SscInv.ready  READY means that all data bytes are consumed and released
-/
import CocoEmulator.Sound.Ssc

set_option autoImplicit false

namespace CocoEmulator.Sound

open CocoEmulator.Base

/-- The engine's own index into the log. -/
def Engine.At (log : List Cmd) (next pos : Nat) : Engine → Prop
  | .running => pos = next
  | .draining tail head =>
    tail = BitVec.ofNat 32 pos ∧
      ∃ e, head = BitVec.ofNat 32 e ∧ pos ≤ e ∧ e ≤ log.length

/-- The data bytes of a list of commands. -/
def bytes (log : List Cmd) : List Byte := log.filterMap Cmd.byte

@[simp] theorem bytes_append (log log' : List Cmd) : bytes (log ++ log') = bytes log ++ bytes log' :=
  List.filterMap_append

theorem bytes_take_le (log : List Cmd) (n : Nat) : bytes (log.take n) <+: bytes log :=
  (List.take_prefix n log).filterMap _

structure SscAt (log : List Cmd) (next pos rel : Nat) (s : Ssc) : Prop where
  ring : s.cmdq.Holds cmdqSize log next
  low : next ≤ pos
  high : pos ≤ log.length
  engine : s.engine.At log next pos
  written : s.written = bytes log
  taken : s.taken = bytes (log.take pos)
  seq : s.cmdSeq = BitVec.ofNat 32 s.written.length
  consumed : s.consumed = BitVec.ofNat 32 s.taken.length
  released : s.released = BitVec.ofNat 32 rel
  rel_le : rel ≤ s.taken.length
  window : s.written.length < rel + 2 ^ 32
  freed : s.freed = true → rel = s.taken.length
  status : s.pubStatus &&& stReady = 0

section

variable {log : List Cmd} {next pos rel : Nat} {s : Ssc}

/-! ## The engine -/

theorem SscAt.publish (h : SscAt log next pos rel s) (standby : Bool) :
    SscAt log next pos rel (s.publishStatus standby) := by
  refine { h with status := ?_ }
  unfold Ssc.publishStatus
  dsimp only
  cases standby <;> cases s.sacActive <;> rfl

theorem SscAt.release (h : SscAt log next pos rel s) :
    SscAt log next pos s.taken.length s.releaseBusy := by
  have hrel := h.rel_le
  have hwindow := h.window
  refine { h with released := h.consumed, rel_le := Nat.le_refl _, window := ?_, freed := ?_ }
  · unfold Ssc.releaseBusy
    dsimp only
    omega
  · intro _
    rfl

/-- A write of port C releases BUSY or leaves the counters alone. -/
theorem SscAt.portc (h : SscAt log next pos rel s) (data : Byte) :
    ∃ rel, SscAt log next pos rel (s.portcWrite data) := by
  unfold Ssc.portcWrite
  split
  · exact ⟨s.taken.length, { h.release with }⟩
  · exact ⟨rel, { h with }⟩

theorem SscAt.ctrl (h : SscAt log next pos rel s) (val : Byte) (standby : Bool) :
    ∃ rel, SscAt log next pos rel (s.engineCtrlWrite val standby) := by
  have hreset : ∃ rel, SscAt log next pos rel
      (if s.resetLine &&& 1 ≠ 0 ∧ val &&& 1 = 0 then s.cpuReset.releaseBusy else s) := by
    split
    · obtain ⟨rel, hcpu⟩ := h.portc 0
      exact ⟨_, hcpu.release⟩
    · exact ⟨rel, h⟩
  obtain ⟨rel, hreset⟩ := hreset
  unfold Ssc.engineCtrlWrite
  apply Exists.intro rel
  apply SscAt.publish
  exact { hreset with }

theorem SscAt.reset (h : SscAt log next pos rel s) (standby : Bool) :
    ∃ rel, SscAt log next pos rel (s.engineReset standby) := by
  have hcleared : SscAt log next pos rel
      { s with resetLine := 1, portaLatch := 0, portcLatch := 0xff, sacActive := false } := { h with }
  obtain ⟨rel, hcpu⟩ := hcleared.portc 0
  exact ⟨_, hcpu.release.publish standby⟩

theorem bytes_take_succ (hpos : pos < log.length) :
    bytes (log.take (pos + 1)) = bytes (log.take pos) ++ log[pos].byte.toList := by
  rw [← List.take_append_getElem hpos, bytes_append]
  congr 1

/-- The engine passes a command that carries no data byte. -/
theorem SscAt.pass (h : SscAt log next pos rel s) (hpos : pos < log.length)
    (hbyte : log[pos].byte = none) {e : Engine} (he : e.At log next (pos + 1)) :
    SscAt log next (pos + 1) rel { s with engine := e } := by
  have hlow := h.low
  refine { h with low := by omega, high := hpos, engine := he, taken := ?_ }
  rw [bytes_take_succ hpos, hbyte, h.taken]
  simp

theorem SscAt.consume (h : SscAt log next pos rel s) (hpos : pos < log.length) {val : Byte}
    (hbyte : log[pos].byte = some val) {e : Engine} (he : e.At log next (pos + 1)) :
    SscAt log next (pos + 1) rel { s.engineDataWrite val with engine := e } := by
  have hlow := h.low
  have hrel := h.rel_le
  refine { h with low := by omega, high := hpos, engine := he, taken := ?_, consumed := ?_,
                  rel_le := ?_, freed := ?_ }
  · rw [bytes_take_succ hpos, hbyte, ← h.taken]
    rfl
  · unfold Ssc.engineDataWrite
    dsimp only
    rw [h.consumed, List.length_append]
    exact RingBuffer.ofNat_add_ofNat s.taken.length 1
  · unfold Ssc.engineDataWrite
    dsimp only
    rw [List.length_append]
    omega
  · intro hfreed
    simp [Ssc.engineDataWrite] at hfreed

theorem SscAt.command (h : SscAt log next pos rel s) (hpos : pos < log.length) (standby : Bool)
    {e : Engine} (he : e.At log next (pos + 1)) :
    ∃ rel, SscAt log next (pos + 1) rel { s.engineCommand standby log[pos] with engine := e } := by
  unfold Ssc.engineCommand
  cases hc : log[pos] with
  | data val => exact ⟨rel, h.consume hpos (by rw [hc]; rfl) he⟩
  | ctrl val =>
    obtain ⟨rel, hctrl⟩ := h.ctrl val standby
    exact ⟨rel, hctrl.pass hpos (by rw [hc]; rfl) he⟩
  | reset =>
    obtain ⟨rel, hreset⟩ := h.reset standby
    exact ⟨rel, hreset.pass hpos (by rw [hc]; rfl) he⟩

/-! ## Draining -/

theorem SscAt.beginDrain (h : SscAt log next pos rel s) :
    SscAt log next pos rel s.beginDrain := by
  have hengine := h.engine
  unfold Ssc.beginDrain
  cases he : s.engine with
  | draining tail head => exact h
  | running =>
    rw [he] at hengine
    have hpos : pos = next := hengine
    dsimp only
    split
    · exact h
    · refine { h with engine := ?_ }
      refine ⟨?_, log.length, h.ring.head, h.high, Nat.le_refl _⟩
      rw [h.ring.tail, hpos]

/-- The end of a drain publishes the engine's index. -/
theorem SscAt.endDrain (h : SscAt log next pos rel s) :
    SscAt log pos pos rel
      { s with cmdq := { s.cmdq with tail := BitVec.ofNat 32 pos }, engine := .running } := by
  have hlow := h.low
  have hhigh := h.ring.high
  refine { h with ring := ?_, low := Nat.le_refl _, engine := rfl }
  exact {
    head := h.ring.head
    tail := rfl
    low := h.high
    high := by omega
    slot := fun p hp hnext => h.ring.slot p hp (by omega) }

theorem SscAt.drainOne (h : SscAt log next pos rel s) (standby : Bool) :
    ∃ next pos rel, SscAt log next pos rel (s.drainOne standby) := by
  have hengine := h.engine
  have hlow := h.low
  have hhigh := h.ring.high
  unfold Ssc.drainOne
  cases he : s.engine with
  | running => exact ⟨next, pos, rel, h⟩
  | draining tail head =>
    rw [he] at hengine
    obtain ⟨htail, e, hhead, hpos, hbound⟩ := hengine
    dsimp only
    split
    · next hsame =>
      rw [htail]
      exact ⟨pos, pos, rel, h.endDrain⟩
    · next hdiff =>
      have hne : pos ≠ e := by
        intro heq
        apply hdiff
        rw [htail, hhead, heq]
      have hlt : pos < log.length := by omega
      have hslot : s.cmdq.slot (tail.toNat % cmdqSize) = log[pos] := by
        rw [htail, RingBuffer.ofNat_mod (by decide), h.ring.slot pos hlt h.low]
      have hnext : (Engine.draining (tail + 1) head).At log next (pos + 1) := by
        refine ⟨?_, e, hhead, by omega, hbound⟩
        rw [htail]
        exact RingBuffer.ofNat_add_ofNat pos 1
      rw [hslot]
      obtain ⟨rel, hdone⟩ := h.command hlt standby hnext
      exact ⟨next, pos + 1, rel, hdone⟩

/-! ## Front end -/

theorem Engine.At.append {e : Engine} (h : e.At log next pos) (c : Cmd) :
    e.At (log ++ [c]) next pos := by
  cases e with
  | running => exact h
  | draining tail head =>
    obtain ⟨htail, n, hhead, hpos, hn⟩ := h
    refine ⟨htail, n, hhead, hpos, ?_⟩
    rw [List.length_append]
    omega

/-- A command that finds room extends the log; `byte` is what it brings for the engine. -/
theorem SscAt.push (h : SscAt log next pos rel s) (hroom : s.cmdq.used < cmdqSize) {c : Cmd}
    {byte : List Byte} (hbyte : c.byte.toList = byte)
    (hwindow : s.written.length + byte.length < rel + 2 ^ 32) :
    SscAt (log ++ [c]) next pos rel { s with
      cmdq := s.cmdq.push cmdqSize [c]
      cmdSeq := s.cmdSeq + BitVec.ofNat 32 byte.length
      written := s.written ++ byte } := by
  have hhigh := h.high
  have hlow := h.ring.low
  rw [h.ring.used (by decide)] at hroom
  refine { h with ring := ?_, high := ?_, engine := h.engine.append c, written := ?_, taken := ?_,
                  seq := ?_, window := ?_ }
  · apply h.ring.push (by decide)
    rw [List.length_singleton]
    omega
  · rw [List.length_append]
    omega
  · rw [bytes_append, ← h.written, ← hbyte]
    cases c <;> rfl
  · rw [List.take_append_of_le_length hhigh, h.taken]
  · dsimp only
    rw [h.seq, List.length_append, RingBuffer.ofNat_add_ofNat]
  · dsimp only
    rw [List.length_append]
    exact hwindow

theorem SscAt.pushCmd (h : SscAt log next pos rel s) {c : Cmd} (hbyte : c.byte = none) :
    ∃ log, SscAt log next pos rel (s.pushCmd c) := by
  unfold Ssc.pushCmd
  split
  · exact ⟨log, { h with }⟩
  · next hroom =>
    have hnone : c.byte.toList = [] := by
      rw [hbyte]
      rfl
    have hpush := h.push (Nat.lt_of_not_le hroom) hnone h.window
    rw [List.append_nil] at hpush
    refine ⟨log ++ [c], ?_⟩
    simpa using hpush

/-- A data byte that is kept. -/
theorem SscAt.data (h : SscAt log next pos rel s) (val : Byte)
    (hroom : s.cmdq.used < cmdqSize) (hseq : s.cmdSeq + 1 ≠ s.released) :
    ∃ log, SscAt log next pos rel (s.sscWrite dataAddr val) := by
  have hwindow := h.window
  have hstrict : s.written.length + 1 ≠ rel + 2 ^ 32 := by
    intro heq
    apply hseq
    have hone : BitVec.ofNat 32 s.written.length + 1 = BitVec.ofNat 32 (s.written.length + 1) :=
      RingBuffer.ofNat_add_ofNat s.written.length 1
    rw [h.seq, h.released, hone, heq, ← RingBuffer.ofNat_add_ofNat]
    simp
  have hbyte : (Cmd.data val).byte.toList = [val] := rfl
  have hpush := h.push hroom hbyte (by rw [List.length_singleton]; omega)
  have hfits : ¬cmdqSize ≤ s.cmdq.used := Nat.not_le_of_lt hroom
  refine ⟨log ++ [.data val], ?_⟩
  unfold Ssc.sscWrite Ssc.pushCmd
  rw [if_neg (by decide), if_pos rfl, if_neg hfits]
  exact hpush

end

/-! ## Runs -/

def SscInv (s : Ssc) : Prop := ∃ log next pos rel, SscAt log next pos rel s

theorem SscInv.start : SscInv {} := by
  refine ⟨[], 0, 0, 0, ?_⟩
  constructor <;> first | exact RingBuffer.holds_init _ _ | decide | simp [Engine.At]

theorem SscInv.step {e : Event} {s : Ssc} (h : SscInv s) (hkept : e.Kept s) :
    SscInv (e.step s) := by
  obtain ⟨log, next, pos, rel, h⟩ := h
  cases e with
  | write addr val =>
    by_cases hctrl : addr = ctrlAddr
    · obtain ⟨log, hpush⟩ := h.pushCmd (c := .ctrl val) rfl
      refine ⟨log, next, pos, rel, ?_⟩
      simpa [Event.step, Ssc.sscWrite, hctrl] using hpush
    · by_cases hdata : addr = dataAddr
      · obtain ⟨hroom, hseq⟩ := hkept hdata
        obtain ⟨log, hwrite⟩ := h.data val hroom hseq
        rw [hdata]
        exact ⟨log, next, pos, rel, hwrite⟩
      · refine ⟨log, next, pos, rel, ?_⟩
        simpa [Event.step, Ssc.sscWrite, hctrl, hdata] using h
  | reset =>
    obtain ⟨log, hpush⟩ := h.pushCmd (c := .reset) rfl
    exact ⟨log, next, pos, rel, hpush⟩
  | beginDrain => exact ⟨log, next, pos, rel, h.beginDrain⟩
  | drainOne standby =>
    obtain ⟨next, pos, rel, hdrain⟩ := h.drainOne standby
    exact ⟨log, next, pos, rel, hdrain⟩
  | firmware data =>
    unfold Event.step Ssc.firmwareWrite
    dsimp only
    split
    · obtain ⟨rel, hport⟩ := h.portc data
      exact ⟨log, next, pos, rel, hport⟩
    · exact ⟨log, next, pos, rel, h⟩
  | scanline standby active =>
    unfold Event.step Ssc.scanline
    dsimp only
    split
    · have hactive : SscAt log next pos rel { s with sacActive := active } := { h with }
      exact ⟨log, next, pos, rel, hactive.publish standby⟩
    · exact ⟨log, next, pos, rel, h⟩

theorem showsReady_iff {s : Ssc} (hstatus : s.pubStatus &&& stReady = 0) :
    s.showsReady = true ↔ s.released = s.cmdSeq := by
  have hread : s.sscRead dataAddr &&& stReady = if s.released = s.cmdSeq then stReady else 0 := by
    unfold Ssc.sscRead
    rw [if_neg (not_not.mpr rfl), BitVec.and_or_distrib_right, BitVec.and_or_distrib_right, hstatus]
    split <;> decide
  unfold Ssc.showsReady
  rw [hread]
  split
  · next heq => simp [heq, stReady]
  · next hne => simp [hne]

theorem SscInv.ready {s : Ssc} (h : SscInv s) : Truthful s := by
  obtain ⟨log, next, pos, rel, h⟩ := h
  have hrel := h.rel_le
  have hwindow := h.window
  have hbelow : s.taken <+: s.written := by
    rw [h.taken, h.written]
    exact bytes_take_le log pos
  have hle := hbelow.length_le
  unfold Truthful
  rw [showsReady_iff h.status]
  constructor
  · intro hready
    -- the counters agree only if all written bytes are released, hence consumed
    have hmod : rel % 2 ^ 32 = s.written.length % 2 ^ 32 := by
      have hnat := congrArg BitVec.toNat hready
      rwa [h.released, h.seq, BitVec.toNat_ofNat, BitVec.toNat_ofNat] at hnat
    exact hbelow.eq_of_length (by omega)
  · intro hempty hfreed
    have hnext : next = log.length := by
      have hused := h.ring.used (by decide)
      unfold RingBuffer.used at hused
      rw [hempty, BitVec.sub_self] at hused
      have hlow := h.ring.low
      simp at hused
      omega
    have hpos : pos = log.length := Nat.le_antisymm h.high (hnext ▸ h.low)
    have hall : s.taken = s.written := by
      rw [h.taken, h.written, hpos, List.take_length]
    rw [h.released, h.seq, h.freed hfreed, hall]

end CocoEmulator.Sound
