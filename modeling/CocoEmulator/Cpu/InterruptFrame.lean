/-
  Cpu/InterruptFrame.lean --- interrupt entry and RTI.

  Every entry pushes a frame: PC and CC, or the entire state, with E and F between DP and B
  on the 6309 in native mode.  RTI reads the E flag of the stacked CC and pulls the same
  bytes.  A CWAI has pushed the frame already when its interrupt comes.

  Nothing is assumed of the memory but that the bytes below S hold what is written to them
  (`StackRam`), and that the vector and the RTI in the handler are not among them (`Fixed`).

      pushEntire_pushes     the bytes of a frame, in the order they are pushed
      rti_entire            RTI pulls them in reverse
      interrupt_rti         any entry and an immediate RTI restore the registers

  Source: mc6809_core_impl.h, hd6309_ops.h.
-/
import CocoEmulator.Base.Run
import CocoEmulator.Cpu.BlockMove
import CocoEmulator.Cpu.Quiet

set_option autoImplicit false

namespace CocoEmulator.Cpu

open CocoEmulator.Base

variable {σ : Type} (bus : Bus σ)

/-! ## The stack -/

/-- The address of the byte that is pushed after `i` others. -/
def frameAddr (s : Word) (i : Nat) : Word := s - BitVec.ofNat 16 (i + 1)

/-- What happens around an interrupt: a byte of the frame is written, or the lines change. -/
inductive FrameOp
  | write (i : Nat) (v : Byte)
  | lines (p : Pins)

def FrameOp.step (s : Word) : FrameOp → Env σ → Env σ
  | .write i v, e => writeByte bus (frameAddr s i) v e
  | .lines p, e => { e with pins := p }

/-- What the frame holds then. -/
def FrameOp.store : FrameOp → (Nat → Byte) → Nat → Byte
  | .write i v, f => Function.update f i v
  | .lines _, f => f

/-- The writes are to the first `n` bytes. -/
def FrameOp.Within (n : Nat) : FrameOp → Prop
  | .write i _ => i < n
  | .lines _ => True

/-- The `n` bytes below S are RAM: whatever is written to them, they hold it. -/
def StackRam (e : Env σ) (s : Word) (n : Nat) : Prop :=
  ∃ init, ∀ ops : List FrameOp, (∀ op ∈ ops, op.Within n) → ∀ i < n,
    (readByte bus (frameAddr s i) (runAll (FrameOp.step bus s) ops e)).val =
      runAll FrameOp.store ops init i ∧
    (readByte bus (frameAddr s i) (runAll (FrameOp.step bus s) ops e)).env =
      runAll (FrameOp.step bus s) ops e

/-- These bytes are read at this address, whatever is written to the frame. -/
def Fixed (e : Env σ) (s : Word) (n : Nat) (a : Word) (bs : List Byte) : Prop :=
  ∀ ops : List FrameOp, (∀ op ∈ ops, op.Within n) →
    Stands bus (runAll (FrameOp.step bus s) ops e) a bs

/-- The bytes pushed, the first one first. -/
def pushed (c : Core σ) : List Byte → Core σ
  | [] => c
  | b :: bs => pushed { c with
      regs := { c.regs with s := c.regs.s - 1 }
      env := writeByte bus (c.regs.s - 1) b c.env } bs

/-- The writes of these pushes, after `k` others. -/
def pushOps : Nat → List Byte → List FrameOp
  | _, [] => []
  | k, b :: bs => .write k b :: pushOps (k + 1) bs

section

variable {bus} {c : Core σ} {e : Env σ} {s : Word} {n : Nat}

theorem pushed_append (c : Core σ) (bs cs : List Byte) :
    pushed bus c (bs ++ cs) = pushed bus (pushed bus c bs) cs := by
  induction bs generalizing c with
  | nil => rfl
  | cons b bs ih => exact ih _

theorem pushed_regs (c : Core σ) (bs : List Byte) :
    (pushed bus c bs).regs = { c.regs with s := c.regs.s - BitVec.ofNat 16 bs.length } ∧
      (pushed bus c bs).tfm = c.tfm := by
  induction bs generalizing c with
  | nil =>
    refine ⟨?_, rfl⟩
    simp [pushed]
  | cons b bs ih =>
    obtain ⟨hregs, htfm⟩ := ih { c with
      regs := { c.regs with s := c.regs.s - 1 }
      env := writeByte bus (c.regs.s - 1) b c.env }
    refine ⟨hregs.trans ?_, htfm⟩
    have hs : c.regs.s - 1 - BitVec.ofNat 16 bs.length =
        c.regs.s - BitVec.ofNat 16 (bs.length + 1) := by
      rw [BitVec.ofNat_add]
      bv_omega
    rw [List.length_cons, ← hs]

theorem pushed_env {k : Nat} (c : Core σ) (bs : List Byte)
    (hs : c.regs.s = s - BitVec.ofNat 16 k) :
    (pushed bus c bs).env = runAll (FrameOp.step bus s) (pushOps k bs) c.env := by
  induction bs generalizing c k with
  | nil => rfl
  | cons b bs ih =>
    have hnext : c.regs.s - 1 = frameAddr s k := by
      rw [hs, frameAddr, BitVec.ofNat_add]
      bv_omega
    refine (ih _ hnext).trans ?_
    rw [pushOps, runAll_cons, hnext]
    rfl

theorem pushOps_within {k : Nat} (bs : List Byte) (hk : k + bs.length ≤ n) :
    ∀ op ∈ pushOps k bs, op.Within n := by
  induction bs generalizing k with
  | nil =>
    intro op hop
    cases hop
  | cons b bs ih =>
    rw [List.length_cons] at hk
    intro op hop
    rcases List.mem_cons.mp hop with rfl | hop
    · show k < n
      omega
    · exact ih (by omega) op hop

theorem contents_pushOps {k : Nat} (bs : List Byte) (f : Nat → Byte) (i : Nat) :
    runAll FrameOp.store (pushOps k bs) f i =
      if k ≤ i ∧ i < k + bs.length then bs.getD (i - k) 0 else f i := by
  induction bs generalizing k f with
  | nil =>
    rw [if_neg (by rw [List.length_nil]; omega)]
    rfl
  | cons b bs ih =>
    rw [pushOps, runAll_cons, ih, List.length_cons]
    by_cases hi : i = k
    · rw [if_neg (by omega), if_pos (by omega), hi, Nat.sub_self]
      simp [FrameOp.store]
    · have hother : FrameOp.store (.write k b) f i = f i := by
        show Function.update f k b i = f i
        rw [Function.update_of_ne hi]
      rw [hother]
      by_cases hin : k + 1 ≤ i ∧ i < k + 1 + bs.length
      · rw [if_pos hin, if_pos (by omega)]
        obtain ⟨j, hj⟩ : ∃ j, i - k = j + 1 := ⟨i - k - 1, by omega⟩
        rw [hj, List.getD_cons_succ]
        congr 1
        omega
      · rw [if_neg hin, if_neg (by omega)]

/-- Changes of the lines alone. -/
def LinesOnly (ops : List FrameOp) : Prop := ∀ op ∈ ops, ∃ p, op = .lines p

theorem LinesOnly.nil : LinesOnly [] := by simp [LinesOnly]

theorem LinesOnly.cons {ops : List FrameOp} (p : Pins) (h : LinesOnly ops) :
    LinesOnly (.lines p :: ops) := by
  intro op hop
  rcases List.mem_cons.mp hop with rfl | hop
  · exact ⟨p, rfl⟩
  · exact h op hop

theorem LinesOnly.contents {ops : List FrameOp} (h : LinesOnly ops) (f : Nat → Byte) :
    runAll FrameOp.store ops f = f := by
  induction ops generalizing f with
  | nil => rfl
  | cons op ops ih =>
    obtain ⟨p, rfl⟩ := h op List.mem_cons_self
    exact ih (fun op' hop => h op' (List.mem_cons_of_mem _ hop)) f

theorem LinesOnly.within {ops : List FrameOp} (h : LinesOnly ops) : ∀ op ∈ ops, op.Within n := by
  intro op hop
  obtain ⟨p, rfl⟩ := h op hop
  trivial

/-- A frame pushed, and changes of the lines before and after. -/
theorem framed_within {before after : List FrameOp} (hbefore : LinesOnly before)
    (hafter : LinesOnly after) (bs : List Byte) (hlen : bs.length ≤ n) :
    ∀ op ∈ before ++ pushOps 0 bs ++ after, op.Within n := by
  intro op hop
  rcases List.mem_append.mp hop with hop | hop
  · rcases List.mem_append.mp hop with hop | hop
    · exact hbefore.within op hop
    · exact pushOps_within bs (by omega) op hop
  · exact hafter.within op hop

theorem stands_of_bytes {a : Word} {bs : List Byte}
    (h : ∀ k (hk : k < bs.length), (readByte bus (a + BitVec.ofNat 16 k) e).val = bs[k] ∧
      (readByte bus (a + BitVec.ofNat 16 k) e).env = e) : Stands bus e a bs := by
  induction bs generalizing a with
  | nil => trivial
  | cons b bs ih =>
    have hzero : a + BitVec.ofNat 16 0 = a := BitVec.add_zero a
    obtain ⟨hval, henv⟩ := h 0 (Nat.succ_pos _)
    rw [hzero] at hval henv
    refine ⟨hval, henv, ih fun k hk => ?_⟩
    have hnext : a + 1 + BitVec.ofNat 16 k = a + BitVec.ofNat 16 (k + 1) := by
      rw [BitVec.ofNat_add]
      bv_omega
    rw [hnext]
    exact h (k + 1) (Nat.succ_lt_succ hk)

/-- What was pushed stands in reverse from S on. -/
theorem StackRam.stands {bs : List Byte} (h : StackRam bus e s bs.length)
    {before after : List FrameOp} (hbefore : LinesOnly before) (hafter : LinesOnly after) :
    Stands bus (runAll (FrameOp.step bus s) (before ++ pushOps 0 bs ++ after) e)
      (s - BitVec.ofNat 16 bs.length) bs.reverse := by
  obtain ⟨init, hram⟩ := h
  refine stands_of_bytes fun k hk => ?_
  rw [List.length_reverse] at hk
  have hi : bs.length - 1 - k < bs.length := by omega
  have haddr : s - BitVec.ofNat 16 bs.length + BitVec.ofNat 16 k =
      frameAddr s (bs.length - 1 - k) := by
    have hsum : bs.length = bs.length - 1 - k + 1 + k := by omega
    rw [frameAddr]
    nth_rewrite 1 [hsum]
    rw [BitVec.ofNat_add (bs.length - 1 - k + 1) k]
    bv_omega
  obtain ⟨hval, henv⟩ := hram _ (framed_within hbefore hafter bs (Nat.le_refl _)) _ hi
  rw [haddr]
  refine ⟨hval.trans ?_, henv⟩
  rw [runAll_append, hafter.contents, runAll_append, contents_pushOps,
    if_pos ⟨Nat.zero_le _, by omega⟩, List.getElem_reverse, List.getD_eq_getElem?_getD,
    List.getElem?_eq_getElem (by omega)]
  rfl

/-! ## Pushing -/

variable {α β : Type}

/-- The program pushes these bytes and does nothing else. -/
def Pushes (bus : Bus σ) (m : M σ α) (c : Core σ) (bs : List Byte) : Prop :=
  (m c).st = pushed bus c bs

theorem Pushes.bind {m : M σ α} {f : α → M σ β} {bs cs : List Byte} (h : Pushes bus m c bs)
    (h' : Pushes bus (f (m c).val) (pushed bus c bs) cs) : Pushes bus (m >>= f) c (bs ++ cs) := by
  unfold Pushes at h h' ⊢
  rw [Act.bind_st, h, h', pushed_append]

theorem Pushes.regs {f : Regs → M σ α} {bs : List Byte} (h : Pushes bus (f c.regs) c bs) :
    Pushes bus (Cpu.regs >>= f) c bs := h

theorem push8_pushes (v : Byte) : Pushes bus (push8s bus v) c [v] := by
  unfold Pushes push8s push8 setRegs Cpu.regs
  simp only [Act.bind_st, Act.modify_apply, Act.gets_apply, (memWrite_eq _ _ _).2]
  rfl

theorem push16_pushes (v : Word) : Pushes bus (push16s bus v) c [loByte v, hiByte v] := by
  unfold push16s push16
  exact (push8_pushes (loByte v)).bind (push8_pushes (hiByte v))

/-- Are E and F part of the frame? -/
def stacksEf (b : Build) (r : Regs) : Bool := b == .hd6309 && r.native

def efBytes (b : Build) (r : Regs) : List Byte := if stacksEf b r then [r.f, r.e] else []

/-- The bytes of the entire state. -/
def entireBytes (b : Build) (r : Regs) : List Byte :=
  [loByte r.pc, hiByte r.pc] ++ ([loByte r.u, hiByte r.u] ++ ([loByte r.y, hiByte r.y] ++
    ([loByte r.x, hiByte r.x] ++ ([r.dp] ++ (efBytes b r ++ ([r.b] ++ ([r.a] ++ [r.cc])))))))

theorem pushEf_pushes (b : Build) : Pushes bus (pushEf bus b) c (efBytes b c.regs) := by
  unfold pushEf
  refine Pushes.regs ?_
  unfold efBytes
  cases hef : stacksEf b c.regs with
  | false =>
    have hguard : (b == .hd6309 && c.regs.native) = false := hef
    rw [hguard]
    rfl
  | true =>
    have hguard : (b == .hd6309 && c.regs.native) = true := hef
    rw [hguard]
    show Pushes bus (push8s bus c.regs.f >>= fun _ => push8s bus c.regs.e >>= fun _ => tick 2) c
      ([c.regs.f] ++ ([c.regs.e] ++ []))
    refine (push8_pushes c.regs.f).bind ((push8_pushes c.regs.e).bind ?_)
    rfl

/-- The frame is taken from the registers as they are before. -/
theorem pushEntire_pushes (b : Build) : Pushes bus (pushEntire bus b) c (entireBytes b c.regs) := by
  unfold pushEntire entireBytes
  refine Pushes.regs ?_
  refine (push16_pushes _).bind ((push16_pushes _).bind ((push16_pushes _).bind
    ((push16_pushes _).bind ((push8_pushes _).bind (Pushes.bind ?_ ((push8_pushes _).bind
      ((push8_pushes _).bind (push8_pushes _))))))))
  rw [← pushed_append, ← pushed_append, ← pushed_append, ← pushed_append]
  have hef := @pushEf_pushes σ bus (pushed bus c ([loByte c.regs.pc, hiByte c.regs.pc] ++
    [loByte c.regs.u, hiByte c.regs.u] ++ [loByte c.regs.y, hiByte c.regs.y] ++
      [loByte c.regs.x, hiByte c.regs.x] ++ [c.regs.dp])) b
  exact hef

/-! ## Pulling -/

/-- An update of the registers that leaves S and the mode alone. -/
structure Neutral (g : Regs → Regs) : Prop where
  s : ∀ r v, g { r with s := v } = { g r with s := v }
  md : ∀ r, (g r).md = r.md

theorem Neutral.comp {g g' : Regs → Regs} (h' : Neutral g') (h : Neutral g) :
    Neutral (g' ∘ g) := by
  refine ⟨fun r v => ?_, fun r => ?_⟩
  · show g' (g { r with s := v }) = { g' (g r) with s := v }
    rw [h.s, h'.s]
  · exact (h'.md _).trans (h.md r)

/-- In the mode `ef`, the program pulls these bytes into the registers. -/
structure Pulls (bus : Bus σ) (b : Build) (ef : Bool) (m : M σ Unit) (bs : List Byte)
    (g : Regs → Regs) : Prop where
  neutral : Neutral g
  st : ∀ c rest, stacksEf b c.regs = ef → Stands bus c.env c.regs.s (bs ++ rest) →
    (m c).st = { c with regs := { g c.regs with s := c.regs.s + BitVec.ofNat 16 bs.length } }

variable {b : Build} {ef : Bool}

theorem Pulls.bind {m m' : M σ Unit} {bs cs : List Byte} {g g' : Regs → Regs}
    (h : Pulls bus b ef m bs g) (h' : Pulls bus b ef m' cs g') :
    Pulls bus b ef (m >>= fun _ => m') (bs ++ cs) (g' ∘ g) := by
  refine ⟨h'.neutral.comp h.neutral, fun c rest hn hstands => ?_⟩
  rw [List.append_assoc] at hstands
  rw [Act.bind_st, h.st c (cs ++ rest) hn hstands]
  have hmode : stacksEf b { g c.regs with s := c.regs.s + BitVec.ofNat 16 bs.length } = ef := by
    unfold stacksEf Regs.native at hn ⊢
    dsimp only
    rw [h.neutral.md]
    exact hn
  rw [h'.st _ rest hmode (stands_append hstands)]
  dsimp only [Function.comp]
  rw [h'.neutral.s, List.length_append, BitVec.ofNat_add, BitVec.add_assoc]

theorem pullInto8_pulls {put : Byte → Regs → Regs} {v : Byte} (hput : Neutral (put v)) :
    Pulls bus b ef (pullInto8 bus .s put) [v] (put v) := by
  refine ⟨hput, fun c rest _ hstands => ?_⟩
  obtain ⟨hval, henv, _⟩ := hstands
  unfold pullInto8 pull8 setRegs Cpu.regs
  simp only [Act.bind_st, Act.bind_val, Act.gets_apply, Act.modify_apply, Act.pure_apply,
    memRead_eq, Stack.ptr, Stack.setPtr]
  rw [hval, henv, hput.s]
  rfl

theorem pullInto16_pulls {put : Word → Regs → Regs} {v : Word} (hput : Neutral (put v)) :
    Pulls bus b ef (pullInto16 bus .s put) [hiByte v, loByte v] (put v) := by
  refine ⟨hput, fun c rest _ hstands => ?_⟩
  obtain ⟨hval, henv, hval', henv', _⟩ := hstands
  unfold pullInto16 pull16 pull8 setRegs Cpu.regs
  simp only [Act.bind_st, Act.bind_val, Act.gets_apply, Act.modify_apply, Act.pure_apply,
    memRead_eq, Stack.ptr, Stack.setPtr]
  rw [hval, henv, hval', henv', word_hiByte_loByte, hput.s]
  congr 2
  rw [BitVec.add_assoc]
  rfl

theorem tick_pulls (k : Cycles) : Pulls bus b ef (tick k) [] id := by
  refine ⟨⟨fun _ _ => rfl, fun _ => rfl⟩, fun c rest _ _ => ?_⟩
  show c = _
  simp

/-- E and F are pulled where they were pushed. -/
def putEf (ef : Bool) (e f : Byte) (r : Regs) : Regs := if ef then (r.setE e).setF f else r

theorem pullEf_pulls (e f : Byte) :
    Pulls bus b ef (pullEf bus b) (if ef then [e, f] else []) (putEf ef e f) := by
  have hneutral : Neutral (putEf ef e f) := by
    cases ef with
    | false => exact ⟨fun _ _ => rfl, fun _ => rfl⟩
    | true => exact ⟨fun _ _ => rfl, fun _ => rfl⟩
  refine ⟨hneutral, fun c rest hn hstands => ?_⟩
  have hguard : (b == .hd6309 && c.regs.native) = ef := hn
  unfold pullEf Cpu.regs
  rw [Act.gets_bind, hguard]
  cases ef with
  | false =>
    show c = _
    simp [putEf]
  | true =>
    have hpull : Pulls bus b true (pullInto8 bus .s Regs.setE >>= fun _ =>
        pullInto8 bus .s Regs.setF >>= fun _ => tick 2) ([e] ++ ([f] ++ []))
          ((id ∘ Regs.setF f) ∘ Regs.setE e) :=
      (pullInto8_pulls ⟨fun _ _ => rfl, fun _ => rfl⟩).bind
        ((pullInto8_pulls ⟨fun _ _ => rfl, fun _ => rfl⟩).bind (tick_pulls 2))
    exact hpull.st c rest hn hstands

/-! ## RTI -/

theorem store_halves (v : Word) (hi lo : Byte) :
    (((v &&& 0x00FF) ||| (hi.setWidth 16 <<< 8)) &&& 0xFF00) ||| lo.setWidth 16 = word hi lo := by
  unfold word
  apply BitVec.eq_of_getLsbD_eq
  intro i h
  simp [getLsbD_lowMask, getLsbD_highMask]
  grind

theorem Regs.setA_setB (r : Regs) (v : Word) :
    (r.setA (hiByte v)).setB (loByte v) = { r with d := v } := by
  simp only [Regs.setA, Regs.setB, store_halves, word_hiByte_loByte]

theorem Regs.setE_setF (r : Regs) (v : Word) :
    (r.setE (hiByte v)).setF (loByte v) = { r with w := v } := by
  simp only [Regs.setE, Regs.setF, store_halves, word_hiByte_loByte]

/-- The registers `r'` after the entire state of `r` was pulled. -/
def unstacked (b : Build) (r r' : Regs) : Regs :=
  { r' with
    cc := r.cc, d := r.d, w := if stacksEf b r then r.w else r'.w
    dp := r.dp, x := r.x, y := r.y, u := r.u, pc := r.pc }

/-- The pulls of RTI after CC, for the entire state. -/
theorem rtiEntire_pulls {r : Regs} (hn : stacksEf b r = ef) :
    ∃ g, (∀ r', g { r' with cc := r.cc } = unstacked b r r') ∧
      Pulls bus b ef (do
        pullInto8 bus .s Regs.setA
        pullInto8 bus .s Regs.setB
        pullEf bus b
        pullInto8 bus .s fun v r => { r with dp := v }
        pullInto16 bus .s fun v r => { r with x := v }
        pullInto16 bus .s fun v r => { r with y := v }
        pullInto16 bus .s fun v r => { r with u := v }
        pullInto16 bus .s fun v r => { r with pc := v }
        tick 15)
        ([r.a] ++ ([r.b] ++ ((if ef then [r.e, r.f] else []) ++ ([r.dp] ++
          ([hiByte r.x, loByte r.x] ++ ([hiByte r.y, loByte r.y] ++
            ([hiByte r.u, loByte r.u] ++ ([hiByte r.pc, loByte r.pc] ++ [])))))))) g := by
  refine ⟨_, ?_, (pullInto8_pulls ⟨fun _ _ => rfl, fun _ => rfl⟩).bind
    ((pullInto8_pulls ⟨fun _ _ => rfl, fun _ => rfl⟩).bind ((pullEf_pulls r.e r.f).bind
      ((pullInto8_pulls ⟨fun _ _ => rfl, fun _ => rfl⟩).bind
        ((pullInto16_pulls ⟨fun _ _ => rfl, fun _ => rfl⟩).bind
          ((pullInto16_pulls ⟨fun _ _ => rfl, fun _ => rfl⟩).bind
            ((pullInto16_pulls ⟨fun _ _ => rfl, fun _ => rfl⟩).bind
              ((pullInto16_pulls ⟨fun _ _ => rfl, fun _ => rfl⟩).bind (tick_pulls 15))))))))⟩
  intro r'
  have hd := Regs.setA_setB { r' with cc := r.cc } r.d
  have hw := Regs.setE_setF { r' with cc := r.cc, d := r.d } r.w
  simp only [Function.comp, id]
  unfold Regs.a Regs.b Regs.e Regs.f
  rw [hd]
  cases ef with
  | false => simp [putEf, unstacked, hn]
  | true =>
    simp only [putEf, if_true]
    rw [hw]
    simp [unstacked, hn]

theorem entireBytes_reverse (b : Build) (r : Regs) :
    (entireBytes b r).reverse = [r.cc] ++ ([r.a] ++ ([r.b] ++
      ((if stacksEf b r then [r.e, r.f] else []) ++ ([r.dp] ++ ([hiByte r.x, loByte r.x] ++
        ([hiByte r.y, loByte r.y] ++ ([hiByte r.u, loByte r.u] ++
          ([hiByte r.pc, loByte r.pc] ++ [])))))))) := by
  unfold entireBytes efBytes
  cases stacksEf b r with
  | false => simp
  | true => simp

/-- RTI pulls CC first. -/
theorem rti_cc (b : Build) {cc : Byte} {rest : List Byte}
    (h : Stands bus c.env c.regs.s (cc :: rest)) :
    (pullInto8 bus .s (fun v r => { r with cc := v }) c).st =
        { c with regs := { c.regs with cc := cc, s := c.regs.s + 1 } } ∧
      Stands bus c.env (c.regs.s + 1) rest := by
  have hpull : Pulls bus b (stacksEf b c.regs) (pullInto8 bus .s fun v r => { r with cc := v })
      [cc] fun r => { r with cc := cc } := pullInto8_pulls ⟨fun _ _ => rfl, fun _ => rfl⟩
  exact ⟨hpull.st c rest rfl h, h.2.2⟩

/-- RTI after the entire state was stacked. -/
theorem rti_entire {r : Regs} (hE : ccTst flagE r.cc = true)
    (hn : stacksEf b c.regs = stacksEf b r)
    (h : Stands bus c.env c.regs.s (entireBytes b r).reverse) :
    (rti bus b c).st = { c with regs := { unstacked b r c.regs with
      s := c.regs.s + BitVec.ofNat 16 (entireBytes b r).length } } := by
  obtain ⟨g, hg, hpulls⟩ := @rtiEntire_pulls σ bus b _ r rfl
  have hlen := congrArg List.length (entireBytes_reverse b r)
  rw [List.length_reverse, List.singleton_append, List.length_cons] at hlen
  rw [entireBytes_reverse, List.singleton_append] at h
  obtain ⟨hcc, hrest⟩ := rti_cc b h
  have hst := hpulls.st { c with regs := { c.regs with cc := r.cc, s := c.regs.s + 1 } } [] hn
    (by rw [List.append_nil]; exact hrest)
  have hadd (k : Nat) : c.regs.s + 1 + BitVec.ofNat 16 k = c.regs.s + BitVec.ofNat 16 (k + 1) := by
    rw [BitVec.ofNat_add]
    bv_omega
  unfold rti Cpu.regs
  rw [Act.bind_st, hcc, Act.gets_bind, if_pos hE]
  refine hst.trans ?_
  rw [hlen, ← hadd, hg { c.regs with s := c.regs.s + 1 }]
  rfl

/-- RTI after CC and PC were stacked. -/
theorem rti_fast (b : Build) {r : Regs} (hE : ccTst flagE r.cc = false)
    (h : Stands bus c.env c.regs.s [r.cc, hiByte r.pc, loByte r.pc]) :
    (rti bus b c).st =
      { c with regs := { c.regs with cc := r.cc, pc := r.pc, s := c.regs.s + 3 } } := by
  obtain ⟨hcc, hrest⟩ := rti_cc b h
  have hpull : Pulls bus b (stacksEf b c.regs) (pullInto16 bus .s fun v r => { r with pc := v })
      [hiByte r.pc, loByte r.pc] fun r' => { r' with pc := r.pc } :=
    pullInto16_pulls ⟨fun _ _ => rfl, fun _ => rfl⟩
  have hst := hpull.st { c with regs := { c.regs with cc := r.cc, s := c.regs.s + 1 } } [] rfl hrest
  have hclear : ¬ccTst flagE r.cc = true := by simp [hE]
  unfold rti Cpu.regs
  rw [Act.bind_st, hcc, Act.gets_bind, if_neg hclear]
  refine hst.trans ?_
  have hadd : c.regs.s + 1 + BitVec.ofNat 16 2 = c.regs.s + 3 := BitVec.add_assoc ..
  show { c with regs := { c.regs with
    cc := r.cc, pc := r.pc, s := c.regs.s + 1 + BitVec.ofNat 16 2 } } = _
  rw [hadd]

/-- The frame of the registers `r`, by the E flag in it. -/
def frameBytes (b : Build) (r : Regs) : List Byte :=
  if ccTst flagE r.cc then entireBytes b r else [loByte r.pc, hiByte r.pc, r.cc]

theorem frameBytes_length (b : Build) (r : Regs) :
    (frameBytes b r).length =
      if ccTst flagE r.cc then (if stacksEf b r then 14 else 12) else 3 := by
  unfold frameBytes entireBytes efBytes
  cases ccTst flagE r.cc with
  | false => rfl
  | true => cases stacksEf b r <;> rfl

/-- The registers `r'` after the frame of `r` was pulled. -/
def unframed (b : Build) (r r' : Regs) : Regs :=
  if ccTst flagE r.cc then unstacked b r r' else { r' with cc := r.cc, pc := r.pc }

theorem rti_frame {r : Regs} (hn : stacksEf b c.regs = stacksEf b r)
    (h : Stands bus c.env c.regs.s (frameBytes b r).reverse) :
    (rti bus b c).st = { c with regs := { unframed b r c.regs with
      s := c.regs.s + BitVec.ofNat 16 (frameBytes b r).length } } := by
  unfold frameBytes at h ⊢
  unfold unframed
  cases hE : ccTst flagE r.cc with
  | false =>
    rw [hE] at h
    exact rti_fast b hE h
  | true =>
    rw [hE] at h
    exact rti_entire hE hn h

theorem nativeSave_st (b : Build) (save : OpTable) (op : Byte) (c : Core σ) :
    (nativeSave b save op c).st = c := by
  unfold nativeSave Cpu.regs
  rw [Act.gets_bind]
  cases b == .hd6309 && c.regs.native <;> rfl

theorem executeOne_rti (fuel : Nat) (h : Stands bus c.env c.regs.pc [0x3B]) :
    (executeOne bus b fuel c).st =
      (rti bus b { c with regs := { c.regs with pc := c.regs.pc + 1 } }).st := by
  obtain ⟨hval, -, hst⟩ := fetch8_stands h
  have hop : page1.get 0x3B = some (.insn .rti) := rfl
  unfold executeOne
  rw [Act.bind_st, hval, hst]
  unfold executeOp
  rw [hop]
  dsimp only
  rw [Act.bind_st, Act.bind_st, nativeSave_st]
  rfl

end

/-! ## Entry -/

/-- The ways into a handler. -/
inductive Entry
  /-- an interrupt line -/
  | line (sv : Service)
  /-- CWAI with its operand, and the interrupt that ends the wait -/
  | cwai (imm : Byte) (p : Pins) (sv : Service)
  | swi
  | swi2
  | swi3
  /-- the trap, with the bit it sets in MD -/
  | trap (mdBit : Byte)
  deriving DecidableEq, Repr, Inhabited

def Service.vector : Service → Word
  | .nmi => 0xFFFC
  | .firq => 0xFFF6
  | .irq => 0xFFF8

namespace Entry

/-- From the poll for a line, and from behind the opcode for an instruction. -/
def run (b : Build) : Entry → M σ Unit
  | .line _ => checkInterrupts bus b
  | .cwai _ p _ => do
      exec bus b .cwai
      setPins fun _ => p
      checkInterrupts bus b
  | .swi => exec bus b .swi
  | .swi2 => exec bus b .swi2
  | .swi3 => exec bus b .swi3
  | .trap mdBit => hd6309Trap bus mdBit

def vector : Entry → Word
  | .line sv => sv.vector
  | .cwai _ _ sv => sv.vector
  | .swi => 0xFFFA
  | .swi2 => 0xFFF4
  | .swi3 => 0xFFF2
  | .trap _ => 0xFFF0

/-- The registers the entry interrupts: CWAI has fetched its operand and cleared flags. -/
def interrupted : Entry → Regs → Regs
  | .cwai imm _ _, r => { r with pc := r.pc + 1, cc := r.cc &&& imm }
  | .trap mdBit, r => { r with md := r.md ||| mdBit }
  | _, r => r

/-- Is the entire state stacked?  Only a FIRQ that finds MD.FM clear stacks less. -/
def entire (b : Build) : Entry → Regs → Bool
  | .line .firq, r => b == .hd6309 && r.md &&& 0x02 != 0
  | _, _ => true

/-- The registers as they are stacked: E says whether all of them are. -/
def stacked (b : Build) (i : Entry) (r : Regs) : Regs :=
  (i.interrupted r).mapCc (if i.entire b r then ccSet flagE else ccClr flagE)

/-- The bytes on the stack. -/
def frameLength (b : Build) (i : Entry) (r : Regs) : Nat :=
  if i.entire b r then (if stacksEf b (i.interrupted r) then 14 else 12) else 3

/-- When the entry is taken. -/
def Enters (b : Build) (c : Core σ) : Entry → Prop
  | .line sv => c.regs.cwaiState = false ∧ pendingService c.regs c.env.pins = some sv
  | .cwai imm p sv => Stands bus c.env c.regs.pc [imm] ∧
      pendingService (stacked b (.cwai imm p sv) c.regs) p = some sv
  | .trap _ => b = .hd6309
  | _ => True

end Entry

/-- In the handler: the frame of `r` is below S, and the rest of `r` is as it was. -/
structure Entered (b : Build) (handler : Word) (r : Regs) (c c' : Core σ) : Prop where
  regs : c'.regs = { r with
    pc := handler, cc := c'.regs.cc, s := c.regs.s - BitVec.ofNat 16 (frameBytes b r).length
    waitForInterrupt := c'.regs.waitForInterrupt, cwaiState := c'.regs.cwaiState }
  env : ∃ before after, LinesOnly before ∧ LinesOnly after ∧
    c'.env = runAll (FrameOp.step bus c.regs.s)
      (before ++ pushOps 0 (frameBytes b r) ++ after) c.env

section

variable {bus} {c : Core σ} {b : Build} {handler : Word}

theorem ccTst_stacked (i : Entry) (r : Regs) :
    ccTst flagE (i.stacked b r).cc = i.entire b r := by
  have hset (cc : Byte) : ccTst flagE (ccSet flagE cc) = true :=
    ccTst_ccSet (by decide) (by decide) cc
  have hclr (cc : Byte) : ccTst flagE (ccClr flagE cc) = false := by
    unfold ccTst ccClr putFlags
    simp [BitVec.and_assoc]
  unfold Entry.stacked
  cases i.entire b r with
  | false => exact hclr _
  | true => exact hset _

theorem frameBytes_stacked (i : Entry) (r : Regs) :
    (frameBytes b (i.stacked b r)).length = i.frameLength b r := by
  rw [frameBytes_length, ccTst_stacked]
  rfl

/-- The vector is read, and nothing else happens to the bus. -/
theorem memRead16_stands {a v : Word} (h : Stands bus c.env a [hiByte v, loByte v]) :
    (memRead16 bus a c).val = v ∧ (memRead16 bus a c).st = c := by
  obtain ⟨hval, henv, hval', henv', -⟩ := h
  rw [memRead16_eq]
  unfold readWord
  dsimp only
  rw [henv, hval, hval', henv', word_hiByte_loByte]
  exact ⟨rfl, rfl⟩

theorem enterHandler_st {mask : Byte} {vec : Word}
    (h : Stands bus c.env vec [hiByte handler, loByte handler]) :
    (enterHandler bus mask vec c).st = { c with regs := { c.regs with
      cc := ccSet mask c.regs.cc, pc := handler
      waitForInterrupt := false, cwaiState := false } } := by
  obtain ⟨hval, hst⟩ := @memRead16_stands σ bus { c with regs := c.regs.mapCc (ccSet mask) } _ _ h
  unfold enterHandler setCc setRegs
  rw [Act.modify_bind, Act.bind_st, hval, hst]
  rfl

/-- A software interrupt stacks the entire state with E set. -/
theorem softwareInterrupt_st {mask : Byte} {vec : Word} {n : Cycles}
    (h : Stands bus (pushed bus { c with regs := c.regs.mapCc (ccSet flagE) }
      (entireBytes b (c.regs.mapCc (ccSet flagE)))).env vec [hiByte handler, loByte handler]) :
    (softwareInterrupt bus b mask vec n c).st =
      let c' := pushed bus { c with regs := c.regs.mapCc (ccSet flagE) }
        (entireBytes b (c.regs.mapCc (ccSet flagE)))
      { c' with regs := { c'.regs with cc := ccSet mask c'.regs.cc, pc := handler } } := by
  have hpush := @pushEntire_pushes σ bus { c with regs := c.regs.mapCc (ccSet flagE) } b
  unfold Pushes at hpush
  generalize hc' : pushed bus { c with regs := c.regs.mapCc (ccSet flagE) }
    (entireBytes b (c.regs.mapCc (ccSet flagE))) = c' at h hpush ⊢
  obtain ⟨hval, hst⟩ := @memRead16_stands σ bus { c' with regs := c'.regs.mapCc (ccSet mask) } _ _ h
  unfold softwareInterrupt setCc setRegs
  rw [Act.modify_bind, Act.bind_st, hpush, Act.modify_bind, Act.bind_st, hval, hst]
  rfl

/-- Pushes below `c`'s S, after changes of the lines. -/
theorem pushed_from {r : Regs} {t : Tfm} {e₀ : Env σ} {before : List FrameOp} (bs : List Byte)
    (hs : r.s = c.regs.s) (he : e₀ = runAll (FrameOp.step bus c.regs.s) before c.env) :
    (pushed bus ⟨r, t, e₀⟩ bs).env =
      runAll (FrameOp.step bus c.regs.s) (before ++ pushOps 0 bs ++ []) c.env := by
  have hzero : r.s = c.regs.s - BitVec.ofNat 16 0 := by
    rw [hs]
    exact (BitVec.sub_zero _).symm
  rw [pushed_env _ bs hzero, he, List.append_nil, runAll_append]

theorem softwareInterrupt_entered {c₀ : Core σ} {r : Regs} {mask : Byte} {vec : Word} {n : Cycles}
    (hs : c₀.regs.s = c.regs.s) (he : c₀.env = c.env) (hr : c₀.regs.mapCc (ccSet flagE) = r)
    (hvec : Fixed bus c.env c.regs.s (frameBytes b r).length vec [hiByte handler, loByte handler]) :
    Entered bus b handler r c (softwareInterrupt bus b mask vec n c₀).st := by
  have hE : ccTst flagE r.cc = true := by
    rw [← hr]
    exact ccTst_ccSet (by decide) (by decide) _
  have hframe : frameBytes b r = entireBytes b r := if_pos hE
  have hrs : r.s = c.regs.s := by
    rw [← hr]
    exact hs
  have henv : (pushed bus { c₀ with regs := r } (entireBytes b r)).env = _ :=
    @pushed_from σ bus c _ _ _ [] (entireBytes b r) hrs he
  have hregs := (@pushed_regs σ bus { c₀ with regs := r } (entireBytes b r)).1
  have hstands := hvec ([] ++ pushOps 0 (frameBytes b r) ++ [])
    (framed_within .nil .nil _ (Nat.le_refl _))
  rw [hframe, ← henv] at hstands
  have hst := @softwareInterrupt_st σ bus c₀ b handler mask vec n (by rw [hr]; exact hstands)
  rw [hr] at hst
  refine ⟨?_, [], [], .nil, .nil, ?_⟩
  · rw [hst]
    dsimp only
    rw [hregs, hframe, ← hrs]
  · rw [hst, hframe]
    exact henv

/-- What the service of an interrupt stacks. -/
def stackFor (bus : Bus σ) (b : Build) : Service → M σ Unit
  | .firq => stackFirq bus b
  | _ => stackEntire bus b

/-- A service changes the lines and the part-done transfer, stacks, and enters the handler. -/
theorem service_st (sv : Service) :
    ∃ mask p t, (service bus b sv c).st = (enterHandler bus mask sv.vector
      (stackFor bus b sv ⟨c.regs, t, { c.env with pins := p }⟩).st).st := by
  have hentry (c : Core σ) : ∃ t, (irqEntry b c : Outcome Cost (Core σ) Unit).st =
      { c with tfm := t } := by
    cases b with
    | mc6809 => exact ⟨c.tfm, rfl⟩
    | hd6309 => exact ⟨{ c.tfm with busy := false }, rfl⟩
  unfold service
  cases sv with
  | nmi =>
    let p : Pins := { c.env.pins with nmiPending := false, nmiLine := false }
    obtain ⟨t, ht⟩ := hentry { c with env := { c.env with pins := p } }
    refine ⟨flagI ||| flagF, p, t, ?_⟩
    unfold setPins
    dsimp only
    rw [Act.modify_bind, Act.bind_st, Act.bind_st, ht]
    rfl
  | firq =>
    obtain ⟨t, ht⟩ := hentry c
    refine ⟨flagI ||| flagF, c.env.pins, t, ?_⟩
    dsimp only
    rw [Act.bind_st, Act.bind_st, ht]
    rfl
  | irq =>
    obtain ⟨t, ht⟩ := hentry c
    refine ⟨flagI, c.env.pins, t, ?_⟩
    dsimp only
    rw [Act.bind_st, Act.bind_st, ht]
    rfl

theorem frameBytes_entire {i : Entry} {r : Regs} (h : i.entire b r = true) :
    frameBytes b (i.stacked b r) = entireBytes b (i.stacked b r) :=
  if_pos ((ccTst_stacked i r).trans h)

theorem stackEntire_st (hwait : c.regs.cwaiState = false) :
    (stackEntire bus b c).st = pushed bus { c with regs := c.regs.mapCc (ccSet flagE) }
      (entireBytes b (c.regs.mapCc (ccSet flagE))) := by
  have hpush := @pushEntire_pushes σ bus { c with regs := c.regs.mapCc (ccSet flagE) } b
  have hguard : ¬c.regs.cwaiState = true := by simp [hwait]
  unfold stackEntire Cpu.regs setCc setRegs
  rw [Act.gets_bind, if_neg hguard, Act.modify_bind, Act.bind_st]
  exact hpush

/-- FIRQ without MD.FM pushes PC and CC with E clear. -/
theorem stackFirq_fast (hwait : c.regs.cwaiState = false)
    (hfm : (b == .hd6309 && c.regs.md &&& 0x02 != 0) = false) :
    (stackFirq bus b c).st = pushed bus { c with regs := c.regs.mapCc (ccClr flagE) }
      ([loByte c.regs.pc, hiByte c.regs.pc] ++ [ccClr flagE c.regs.cc]) := by
  let c₀ : Core σ := { c with regs := c.regs.mapCc (ccClr flagE) }
  have hpc : (push16s bus c.regs.pc c₀).st = pushed bus c₀ [loByte c.regs.pc, hiByte c.regs.pc] :=
    push16_pushes c.regs.pc
  have hcc := (@pushed_regs σ bus c₀ [loByte c.regs.pc, hiByte c.regs.pc]).1
  have hpush (c' : Core σ) (v : Byte) : (push8s bus v c').st = pushed bus c' [v] := push8_pushes v
  have hguard : ¬c.regs.cwaiState = true := by simp [hwait]
  have hguard' : ¬(b == .hd6309 && c.regs.md &&& 0x02 != 0) = true := by
    rw [hfm]
    exact Bool.false_ne_true
  unfold stackFirq Cpu.regs setRegs
  rw [Act.gets_bind, if_neg hguard, if_neg hguard', Act.modify_bind, Act.bind_st, hpc,
    Act.gets_bind, Act.bind_st, hpush, pushed_append, hcc]
  rfl

theorem stackFirq_entire (hwait : c.regs.cwaiState = false)
    (hfm : (b == .hd6309 && c.regs.md &&& 0x02 != 0) = true) :
    (stackFirq bus b c).st = pushed bus { c with regs := c.regs.mapCc (ccSet flagE) }
      (entireBytes b (c.regs.mapCc (ccSet flagE))) := by
  have hpush := @pushEntire_pushes σ bus { c with regs := c.regs.mapCc (ccSet flagE) } b
  have hguard : ¬c.regs.cwaiState = true := by simp [hwait]
  unfold stackFirq Cpu.regs setCc setRegs
  rw [Act.gets_bind, if_neg hguard, if_pos hfm, Act.modify_bind, Act.bind_st]
  exact hpush

/-- Without CWAI, the frame of the entry is pushed. -/
theorem stackFor_st (sv : Service) (hwait : c.regs.cwaiState = false) :
    (stackFor bus b sv c).st =
      pushed bus { c with regs := (Entry.line sv).stacked b c.regs }
        (frameBytes b ((Entry.line sv).stacked b c.regs)) := by
  cases sv with
  | nmi =>
    rw [frameBytes_entire (i := .line .nmi) rfl]
    exact stackEntire_st hwait
  | irq =>
    rw [frameBytes_entire (i := .line .irq) rfl]
    exact stackEntire_st hwait
  | firq =>
    cases hfm : (Entry.line .firq).entire b c.regs with
    | true =>
      rw [frameBytes_entire hfm]
      unfold Entry.stacked
      rw [hfm]
      exact stackFirq_entire hwait hfm
    | false =>
      have hE := (ccTst_stacked (b := b) (.line .firq) c.regs).trans hfm
      have hclear : ¬ccTst flagE ((Entry.line .firq).stacked b c.regs).cc = true := by simp [hE]
      unfold frameBytes
      rw [if_neg hclear]
      unfold Entry.stacked
      rw [hfm]
      exact stackFirq_fast hwait hfm

/-- After CWAI the frame is on the stack already. -/
theorem stackFor_waiting (sv : Service) (hwait : c.regs.cwaiState = true) :
    (stackFor bus b sv c).st = c := by
  have hentire : (stackEntire bus b c).st = c := by
    unfold stackEntire Cpu.regs
    rw [Act.gets_bind, if_pos hwait]
    rfl
  cases sv with
  | nmi => exact hentire
  | irq => exact hentire
  | firq =>
    show (stackFirq bus b c).st = c
    unfold stackFirq Cpu.regs
    rw [Act.gets_bind, if_pos hwait]
    rfl

theorem checkInterrupts_service {sv : Service} (h : pendingService c.regs c.env.pins = some sv) :
    (checkInterrupts bus b c).st = (service bus b sv c).st := by
  rw [checkInterrupts_st, h]

theorem line_entered {sv : Service} (h : (Entry.line sv).Enters bus b c)
    (hvec : Fixed bus c.env c.regs.s (frameBytes b ((Entry.line sv).stacked b c.regs)).length
      sv.vector [hiByte handler, loByte handler]) :
    Entered bus b handler ((Entry.line sv).stacked b c.regs) c (checkInterrupts bus b c).st := by
  obtain ⟨hwait, hpending⟩ := h
  obtain ⟨mask, p, t, hst⟩ := @service_st σ bus c b sv
  let c₀ : Core σ := ⟨c.regs, t, { c.env with pins := p }⟩
  have hpush : (stackFor bus b sv c₀).st = _ := stackFor_st sv hwait
  let r := (Entry.line sv).stacked b c.regs
  have henv : (pushed bus ⟨r, t, { c.env with pins := p }⟩ (frameBytes b r)).env = _ :=
    @pushed_from σ bus c _ _ _ [.lines p] _ rfl rfl
  have hregs := (@pushed_regs σ bus ⟨r, t, { c.env with pins := p }⟩ (frameBytes b r)).1
  have hstands := hvec ([.lines p] ++ pushOps 0 (frameBytes b r) ++ [])
    (framed_within (.cons p .nil) .nil _ (Nat.le_refl _))
  rw [← henv] at hstands
  rw [checkInterrupts_service hpending, hst, hpush, enterHandler_st hstands]
  refine ⟨?_, [.lines p], [], .cons p .nil, .nil, henv⟩
  dsimp only
  rw [hregs]
  rfl

/-- CWAI clears flags, stacks the entire state and waits. -/
theorem cwai_st {imm : Byte} (h : Stands bus c.env c.regs.pc [imm]) :
    let r : Regs := { c.regs with pc := c.regs.pc + 1, cc := ccSet flagE (c.regs.cc &&& imm) }
    let c' := pushed bus { c with regs := r } (entireBytes b r)
    (cwai bus b c).st =
      { c' with regs := { c'.regs with waitForInterrupt := true, cwaiState := true } } := by
  intro r c'
  obtain ⟨hval, -, hst⟩ := fetch8_stands h
  have hpush : (pushEntire bus b { c with regs := r }).st = c' := pushEntire_pushes b
  unfold cwai setRegs
  rw [Act.bind_st, hval, hst, Act.modify_bind, Act.bind_st]
  show ((Act.modify _ >>= _ : M σ Unit) (pushEntire bus b { c with regs := r }).st).st = _
  rw [hpush, Act.modify_bind]
  rfl

theorem cwai_entered {imm : Byte} {p : Pins} {sv : Service}
    (h : (Entry.cwai imm p sv).Enters bus b c)
    (hvec : Fixed bus c.env c.regs.s
      (frameBytes b ((Entry.cwai imm p sv).stacked b c.regs)).length
      sv.vector [hiByte handler, loByte handler]) :
    Entered bus b handler ((Entry.cwai imm p sv).stacked b c.regs) c
      ((Entry.cwai imm p sv).run bus b c).st := by
  obtain ⟨himm, hpending⟩ := h
  let r := (Entry.cwai imm p sv).stacked b c.regs
  have hframe : frameBytes b r = entireBytes b r := frameBytes_entire rfl
  generalize hc' : pushed bus { c with regs := r } (frameBytes b r) = c'
  have hregs := (@pushed_regs σ bus { c with regs := r } (frameBytes b r)).1
  have henv : (pushed bus { c with regs := r } (frameBytes b r)).env = _ :=
    @pushed_from σ bus c _ _ _ [] (frameBytes b r) rfl rfl
  rw [hc'] at hregs henv
  have hwait : (exec bus b .cwai c).st =
      { c' with regs := { c'.regs with waitForInterrupt := true, cwaiState := true } } := by
    rw [← hc', hframe]
    exact cwai_st himm
  let c₂ : Core σ := ⟨{ c'.regs with waitForInterrupt := true, cwaiState := true }, c'.tfm,
    { c'.env with pins := p }⟩
  have hpending₂ : pendingService c₂.regs c₂.env.pins = some sv := by
    show pendingService { c'.regs with waitForInterrupt := true, cwaiState := true } p = _
    rw [hregs]
    exact hpending
  obtain ⟨mask, p', t, hst⟩ := @service_st σ bus c₂ b sv
  have henv₂ : ({ c₂.env with pins := p' } : Env σ) = runAll (FrameOp.step bus c.regs.s)
      ([] ++ pushOps 0 (frameBytes b r) ++ [.lines p, .lines p']) c.env := by
    rw [runAll_append]
    rw [List.append_nil] at henv
    show ({ c'.env with pins := p' } : Env σ) = _
    rw [henv]
    rfl
  have hlines : LinesOnly [.lines p, .lines p'] := .cons p (.cons p' .nil)
  have hstands := hvec _ (framed_within .nil hlines (frameBytes b r) (Nat.le_refl _))
  rw [← henv₂] at hstands
  have hrun : ((Entry.cwai imm p sv).run bus b c).st = (checkInterrupts bus b c₂).st := by
    show (checkInterrupts bus b { (exec bus b .cwai c).st with
      env := { (exec bus b .cwai c).st.env with pins := p } }).st = _
    rw [hwait]
  rw [hrun, checkInterrupts_service hpending₂, hst, stackFor_waiting sv rfl,
    enterHandler_st hstands]
  refine ⟨?_, [], _, .nil, hlines, henv₂⟩
  dsimp only [c₂]
  rw [hregs]
  rfl

/-- Every entry stacks its frame and goes to its handler. -/
theorem Entry.entered {i : Entry} (h : i.Enters bus b c)
    (hvec : Fixed bus c.env c.regs.s (i.frameLength b c.regs) i.vector
      [hiByte handler, loByte handler]) :
    Entered bus b handler (i.stacked b c.regs) c (i.run bus b c).st := by
  rw [← frameBytes_stacked] at hvec
  cases i with
  | line sv => exact line_entered h hvec
  | cwai imm p sv => exact cwai_entered h hvec
  | swi => exact softwareInterrupt_entered rfl rfl rfl hvec
  | swi2 => exact softwareInterrupt_entered rfl rfl rfl hvec
  | swi3 => exact softwareInterrupt_entered rfl rfl rfl hvec
  | trap mdBit =>
    have hb : b = .hd6309 := h
    subst hb
    let c₀ : Core σ := { c with
      regs := { c.regs with md := c.regs.md ||| mdBit }
      tfm := { c.tfm with busy := false } }
    have hentered := @softwareInterrupt_entered σ bus c .hd6309 handler c₀ _
      (flagI ||| flagF) 0xFFF0 17 rfl rfl rfl hvec
    exact hentered

end

/-! ## In plain RAM -/

section

variable {e : Env (Nat → Byte)} {s : Word} {n : Nat}

theorem writeByte_ram (a : Word) (v : Byte) (e : Env (Nat → Byte)) :
    writeByte (ramBus 0) a v e = { e with host := poke e.host a.toNat v } := rfl

theorem frameAddr_inj {i j : Nat} (hi : i < 0x10000) (hj : j < 0x10000)
    (h : frameAddr s i = frameAddr s j) : i = j := by
  have hsub : BitVec.ofNat 16 (i + 1) = BitVec.ofNat 16 (j + 1) := by
    unfold frameAddr at h
    bv_omega
  have hmod := congrArg BitVec.toNat hsub
  simp only [BitVec.toNat_ofNat] at hmod
  omega

/-- The frame in memory. -/
theorem ramBus_frame {ops : List FrameOp} {init : Nat → Byte} (hn : n ≤ 0x10000)
    (hops : ∀ op ∈ ops, op.Within n) (he : ∀ i < n, e.host (frameAddr s i).toNat = init i) :
    ∀ i < n, (runAll (FrameOp.step (ramBus 0) s) ops e).host (frameAddr s i).toNat =
      runAll FrameOp.store ops init i := by
  induction ops generalizing e init with
  | nil => exact he
  | cons op ops ih =>
    rw [runAll_cons, runAll_cons]
    refine ih (fun op' hop => hops op' (List.mem_cons_of_mem _ hop)) fun i hi => ?_
    have hop := hops op List.mem_cons_self
    cases op with
    | lines p => exact he i hi
    | write j v =>
      have hj : j < n := hop
      show (writeByte (ramBus 0) (frameAddr s j) v e).host _ = Function.update init j v i
      rw [writeByte_ram]
      show (if _ then v else e.host (frameAddr s i).toNat) = _
      by_cases hij : i = j
      · rw [hij, if_pos rfl, Function.update_self]
      · have hne : (frameAddr s i).toNat ≠ (frameAddr s j).toNat := fun heq =>
          hij (frameAddr_inj (by omega) (by omega) (BitVec.eq_of_toNat_eq heq))
        rw [if_neg hne, Function.update_of_ne hij]
        exact he i hi

/-- The rest of memory. -/
theorem ramBus_rest {ops : List FrameOp} {a : Word} (hops : ∀ op ∈ ops, op.Within n)
    (ha : ∀ i < n, a ≠ frameAddr s i) :
    (runAll (FrameOp.step (ramBus 0) s) ops e).host a.toNat = e.host a.toNat := by
  induction ops generalizing e with
  | nil => rfl
  | cons op ops ih =>
    rw [runAll_cons, ih fun op' hop => hops op' (List.mem_cons_of_mem _ hop)]
    have hop := hops op List.mem_cons_self
    cases op with
    | lines p => rfl
    | write j v =>
      have hne : a.toNat ≠ (frameAddr s j).toNat := fun heq =>
        ha j hop (BitVec.eq_of_toNat_eq heq)
      show (writeByte (ramBus 0) (frameAddr s j) v e).host _ = _
      rw [writeByte_ram]
      exact if_neg hne

theorem ramBus_stackRam (hn : n ≤ 0x10000) : StackRam (ramBus 0) e s n := by
  refine ⟨fun i => e.host (frameAddr s i).toNat, fun ops hops i hi => ?_⟩
  rw [readByte_ram]
  exact ⟨ramBus_frame hn hops (fun _ _ => rfl) i hi, rfl⟩

/-- Bytes outside the frame are fixed. -/
theorem ramBus_fixed {a : Word} {bs : List Byte}
    (ha : ∀ k < bs.length, ∀ i < n, a + BitVec.ofNat 16 k ≠ frameAddr s i)
    (hbs : ∀ k (hk : k < bs.length), e.host (a + BitVec.ofNat 16 k).toNat = bs[k]) :
    Fixed (ramBus 0) e s n a bs := by
  intro ops hops
  refine stands_of_bytes fun k hk => ?_
  rw [readByte_ram]
  exact ⟨(ramBus_rest hops (ha k hk)).trans (hbs k hk), rfl⟩

end

/-! ## There and back -/

section

variable {bus} {c : Core σ} {b : Build} {handler : Word}

/-- What is restored. -/
structure Restored (r r' : Regs) : Prop where
  a : r'.a = r.a
  b : r'.b = r.b
  dp : r'.dp = r.dp
  x : r'.x = r.x
  y : r'.y = r.y
  u : r'.u = r.u
  s : r'.s = r.s
  pc : r'.pc = r.pc
  flags : r'.cc &&& ~~~flagE = r.cc &&& ~~~flagE
  e : r'.e = r.e
  f : r'.f = r.f

theorem stacked_flags (b : Build) (i : Entry) (r : Regs) :
    (i.stacked b r).cc &&& ~~~flagE = (i.interrupted r).cc &&& ~~~flagE := by
  have hset (cc : Byte) : ccSet flagE cc &&& ~~~flagE = cc &&& ~~~flagE := by
    unfold ccSet putFlags
    ext k hk
    simp
    grind
  have hclr (cc : Byte) : ccClr flagE cc &&& ~~~flagE = cc &&& ~~~flagE := by
    unfold ccClr putFlags
    ext k hk
    simp
  unfold Entry.stacked
  cases i.entire b r with
  | false => exact hclr _
  | true => exact hset _

/-- Pulling the frame of `r` in its handler gives `r` back. -/
theorem unframed_entered {r : Regs} {pc s : Word} {cc : Byte} {wait cwai : Bool} :
    unframed b r { r with
        pc := pc, cc := cc, s := s, waitForInterrupt := wait, cwaiState := cwai } =
      { r with s := s, waitForInterrupt := wait, cwaiState := cwai } := by
  unfold unframed unstacked
  cases ccTst flagE r.cc with
  | false => rfl
  | true => simp

/-- An entry followed at once by an RTI in the handler: the entry moves S down by its frame, the
RTI moves it back up by as much and restores what the entry saved, and E says which frame it
was.  The bus is any with RAM under the frame and the vector and the RTI out of its way. -/
theorem interrupt_rti (i : Entry) (fuel : Nat) (h : i.Enters bus b c)
    (hram : StackRam bus c.env c.regs.s (i.frameLength b c.regs))
    (hvec : Fixed bus c.env c.regs.s (i.frameLength b c.regs) i.vector
      [hiByte handler, loByte handler])
    (hcode : Fixed bus c.env c.regs.s (i.frameLength b c.regs) handler [0x3B]) :
    let c₁ := (i.run bus b c).st
    let c₂ := (executeOne bus b fuel c₁).st
    c₁.regs.pc = handler ∧
      c₁.regs.s = c.regs.s - BitVec.ofNat 16 (i.frameLength b c.regs) ∧
      c₂.regs.s = c₁.regs.s + BitVec.ofNat 16 (i.frameLength b c.regs) ∧
      Restored (i.interrupted c.regs) c₂.regs ∧
      ccTst flagE c₂.regs.cc = i.entire b c.regs := by
  intro c₁ c₂
  have hentered := i.entered h hvec
  obtain ⟨before, after, hbefore, hafter, henv⟩ := hentered.env
  let r := i.stacked b c.regs
  have hlen : (frameBytes b r).length = i.frameLength b c.regs := frameBytes_stacked i c.regs
  obtain ⟨cc, wait, cwai, hregs⟩ : ∃ cc wait cwai, c₁.regs = { r with
      pc := handler, cc := cc, s := c.regs.s - BitVec.ofNat 16 (frameBytes b r).length
      waitForInterrupt := wait, cwaiState := cwai } := ⟨_, _, _, hentered.regs⟩
  have hs : r.s = c.regs.s := by
    cases i <;> rfl
  have hrti : Stands bus c₁.env c₁.regs.pc [0x3B] := by
    rw [hregs, henv]
    exact hcode _ (framed_within hbefore hafter _ (Nat.le_of_eq hlen))
  have hframe : Stands bus c₁.env c₁.regs.s (frameBytes b r).reverse := by
    rw [← hlen] at hram
    rw [hregs, henv]
    exact hram.stands hbefore hafter
  have hmode : stacksEf b { c₁.regs with pc := c₁.regs.pc + 1 } = stacksEf b r := by
    rw [hregs]
    rfl
  have hback : c₂.regs = { r with
      waitForInterrupt := wait, cwaiState := cwai
      s := c₁.regs.s + BitVec.ofNat 16 (frameBytes b r).length } := by
    have hst := (executeOne_rti fuel hrti).trans (rti_frame hmode hframe)
    have hunframed := congrArg Core.regs hst
    refine hunframed.trans ?_
    dsimp only
    rw [hregs, unframed_entered]
  have hsum : c₁.regs.s + BitVec.ofNat 16 (frameBytes b r).length = c.regs.s := by
    rw [hregs]
    exact BitVec.sub_add_cancel ..
  refine ⟨?_, ?_, ?_, ?_, ?_⟩
  · rw [hregs]
  · rw [hregs, hlen]
  · rw [hback, hlen]
  · rw [hback, hsum, ← hs]
    exact ⟨rfl, rfl, rfl, rfl, rfl, rfl, rfl, rfl, stacked_flags b i c.regs, rfl, rfl⟩
  · rw [hback]
    exact ccTst_stacked i c.regs

end

/-- A 6309 in native mode with an IRQ pending; the handler at `$4000` is an RTI. -/
def irqCore : Core (Nat → Byte) where
  regs := { pc := 0x1234, d := 0xA1B2, x := 0x1111, y := 0x2222, u := 0x3333, s := 0x2000,
            dp := 0x44, cc := 0x0F, w := 0xE5F6, md := 0x01 }
  tfm := {}
  env := ⟨{ irqPending := true },
    fun p => if p = 0xFFF8 then 0x40 else if p = 0x4000 then 0x3B else 0⟩

theorem interrupt_rti_irq :
    Restored irqCore.regs
      (executeOne (ramBus 0) .hd6309 0
        ((Entry.line .irq).run (ramBus 0) .hd6309 irqCore).st).st.regs := by
  have hvec : Fixed (ramBus 0) irqCore.env 0x2000 14 0xFFF8 [hiByte 0x4000, loByte 0x4000] :=
    ramBus_fixed (by decide) (by decide)
  have hcode : Fixed (ramBus 0) irqCore.env 0x2000 14 0x4000 [0x3B] :=
    ramBus_fixed (by decide) (by decide)
  exact (interrupt_rti (Entry.line .irq) 0 ⟨rfl, by decide⟩ (ramBus_stackRam (by decide))
    hvec hcode).2.2.2.1

end CocoEmulator.Cpu
