/-
  Sound/SpeechRing.lean --- `GenerateSamples` of the SP0256.

  The samples go through a ring, in chunks, with three loops and no bound of their own on
  the rounds.  Every request ends, and returns exactly the samples of the stream: a request
  may be cut anywhere, and nothing is lost or kept in the ring.

      generate_stream     one request
      generate_requests   every run of requests, codes and resets
      codes_in_order      no code that was accepted is lost or begun twice

  Source: sp0256.cpp.
-/
import CocoEmulator.Sound.Speech

set_option autoImplicit false

namespace CocoEmulator.Sound

open CocoEmulator.Base

namespace Sp0256

/-! ## The ring -/

open Sequencer

variable {s : Sp0256}

/-- What waits in the ring. -/
def waiting (s : Sp0256) : List Int :=
  (List.range (s.scHead - s.scTail).toNat).map fun k => s.scratch (s.scTail + BitVec.ofNat 12 k)

theorem waiting_length : s.waiting.length = (s.scHead - s.scTail).toNat := by
  simp [waiting]

theorem waiting_nil (h : s.scTail = s.scHead) : s.waiting = [] := by
  simp [waiting, h]

theorem store_waiting (h : s.waiting.length < 4095) (v : Int) :
    (s.store v).waiting = s.waiting ++ [v] := by
  rw [waiting_length] at h
  have hsize : (s.scHead + 1 - s.scTail).toNat = (s.scHead - s.scTail).toNat + 1 := by bv_omega
  have hhead : s.scTail + BitVec.ofNat 12 (s.scHead - s.scTail).toNat = s.scHead := by
    rw [BitVec.ofNat_toNat, BitVec.setWidth_eq]
    bv_omega
  simp only [waiting, store, hsize, List.range_succ, List.map_append, List.map_cons, List.map_nil,
    hhead, Function.update_self]
  congr 1
  refine List.map_congr_left fun k hk => ?_
  have hlt : k < (s.scHead - s.scTail).toNat := List.mem_range.mp hk
  refine Function.update_of_ne ?_ _ _
  intro heq
  have hback : BitVec.ofNat 12 k = s.scHead - s.scTail := by
    rw [← heq]
    bv_omega
  have hnat := congrArg BitVec.toNat hback
  rw [BitVec.toNat_ofNat] at hnat
  omega

theorem waiting_cons (h : s.scTail ≠ s.scHead) :
    s.waiting = s.scratch s.scTail :: waiting { s with scTail := s.scTail + 1 } := by
  have hne : s.scTail.toNat ≠ s.scHead.toNat := fun heq => h (BitVec.eq_of_toNat_eq heq)
  have hsize : (s.scHead - s.scTail).toNat = (s.scHead - (s.scTail + 1)).toNat + 1 := by bv_omega
  simp only [waiting, hsize, List.range_succ_eq_map, List.map_cons, List.map_map]
  congr 1
  · congr 1
    bv_omega
  · refine List.map_congr_left fun k _ => ?_
    have hone : s.scTail + BitVec.ofNat 12 (k + 1) = s.scTail + 1 + BitVec.ofNat 12 k := by
      rw [BitVec.ofNat_add, BitVec.add_assoc, BitVec.add_comm 1]
      rfl
    rw [Function.comp_apply, hone]

/-- Draining takes what waits, from the front. -/
theorem drain_spec (n : Nat) :
    (drain n s).1 = s.waiting.take n ∧ (drain n s).2.waiting = s.waiting.drop n ∧
      (drain n s).2.toSequencer = s.toSequencer := by
  induction n generalizing s with
  | zero => exact ⟨rfl, rfl, rfl⟩
  | succ n ih =>
    rw [drain]
    by_cases h : s.scTail = s.scHead
    · rw [if_pos h]
      simp [waiting_nil h]
    · rw [if_neg h]
      obtain ⟨htake, hdrop, hchip⟩ := ih (s := { s with scTail := s.scTail + 1 })
      rw [waiting_cons h]
      rw [List.take_succ_cons, List.drop_succ_cons, ← htake]
      exact ⟨rfl, hdrop, hchip⟩

/-- The ring has room for what is asked. -/
theorem room_eq {want : Nat} (h : s.waiting.length + want ≤ 4096) : s.room want = want := by
  rw [waiting_length] at h
  unfold room
  rw [if_neg]
  bv_omega

/-! ## Rounds of `GenerateSamples` -/

/-- The chip but for the ring, replaced. -/
def withCore (s : Sp0256) (c : Sequencer) : Sp0256 := { s with toSequencer := c }

@[simp] theorem withCore_waiting (c : Sequencer) : (s.withCore c).waiting = s.waiting := rfl

theorem update_some {v : Int} (h : s.tick.1 = some v) (n : Nat) :
    update (n + 1) s = ((update n ((s.withCore s.tick.2).store v)).1 + 1,
      (update n ((s.withCore s.tick.2).store v)).2) := by
  simp only [update, h, withCore]

theorem update_none (h : s.tick.1 = none) (n : Nat) :
    update (n + 1) s = (0, s.withCore s.tick.2) := by
  simp only [update, h, withCore]

/-- `Update` makes part of the stream, and adds it to the ring. -/
theorem update_made (n : Nat) (hpos : 0 < s.filt.rpt) (h : s.Steady)
    (hroom : s.waiting.length + n ≤ 4095) :
    ∃ vs, (update n s).1 = vs.length ∧ (update n s).2.waiting = s.waiting ++ vs ∧
      Made n s.toSequencer vs false (update n s).2.toSequencer := by
  induction n generalizing s with
  | zero => exact ⟨[], rfl, by simp [update], Made.zero h hpos.le⟩
  | succ n ih =>
    have hattempt := attempt_of_pos hpos
    cases htick : s.tick.1 with
    | some v =>
      rw [htick] at hattempt
      have hput := store_waiting (s := s.withCore s.tick.2) (by rw [withCore_waiting]; omega) v
      rcases attempt_cases h with ⟨w, -, -, hpos', hsteady⟩ | ⟨hnone, -⟩
      · rw [hattempt] at hpos' hsteady
        obtain ⟨vs, hnum, hwait, hmade⟩ := ih (s := (s.withCore s.tick.2).store v) hpos' hsteady
          (by simp only [hput, withCore_waiting, List.length_append, List.length_singleton]; omega)
        rw [update_some htick]
        refine ⟨v :: vs, by rw [hnum]; rfl, ?_, hmade.some hattempt⟩
        rw [hwait, hput, withCore_waiting, List.append_assoc]
        rfl
      · rw [hattempt] at hnone
        simp at hnone
    | none =>
      rw [htick] at hattempt
      rw [update_none htick]
      exact ⟨[], rfl, by simp, Made.none h hattempt⟩

/-- A round of the inner loop makes part of the stream: the branch for silence is never taken. -/
theorem generateRound_made (want : Nat) (h : s.Steady) (hroom : s.waiting.length + want ≤ 4095)
    (hwant : want ≠ 0) :
    ∃ vs, (generateRound s want).1 = some vs.length ∧
      (generateRound s want).2.2.waiting = s.waiting ++ vs ∧
      Made want s.toSequencer vs (generateRound s want).2.1
        (generateRound s want).2.2.toSequencer := by
  obtain ⟨n, rfl⟩ : ∃ n, want = n + 1 := Nat.exists_eq_succ_of_ne_zero hwant
  obtain ⟨hpos, hsteady, -⟩ := refill_steady h
  have hrefill : (if s.filt.rpt ≤ 0 then s.run micro else (false, s)) =
      (s.refill.1, s.withCore s.refill.2) := by
    rw [refill]
    split <;> rfl
  have hround : generateRound s (n + 1) =
      (some (update (n + 1) (s.withCore s.refill.2)).1, s.refill.1,
        (update (n + 1) (s.withCore s.refill.2)).2) := by
    unfold generateRound
    rw [hrefill]
    dsimp only
    rw [room_eq (by rw [withCore_waiting]; omega), if_neg hwant, if_neg]
    rintro ⟨-, hout⟩
    exact absurd hout (Int.not_le.mpr hpos)
  obtain ⟨vs, hnum, hwait, hmade⟩ := update_made (s := s.withCore s.refill.2) (n + 1) hpos hsteady
    hroom
  rw [hround]
  exact ⟨vs, by rw [hnum], hwait, hmade.refill h⟩

/-! ## The loops of `GenerateSamples` -/

/-- The inner loop makes what is left of a request, in so many rounds.  The induction is on the
samples to make, and for one number of them on the attempts that the next one takes. -/
theorem inner_rounds (count want k : Nat) (p : Progress) (length did : Nat)
    (hinner : p.inner = some (length, did)) (hleft : length = did + want) (hwant : want ≠ 0)
    (h : p.chip.Steady) (hone : One (nextSample k p.chip.toSequencer))
    (hroom : p.chip.waiting.length + want ≤ 4095) :
    ∃ rounds chip, rounds ≤ k + 3 * (want - 1) ∧
      (∀ fuel, loop (generateBody count) (rounds + fuel) p = loop (generateBody count) fuel
        { p with
          chip, inner := none
          raised := p.raised || (stream want p.chip.toSequencer).raised }) ∧
      chip.waiting = p.chip.waiting ++ (stream want p.chip.toSequencer).samples ∧
      chip.toSequencer = (stream want p.chip.toSequencer).chip := by
  induction want using Nat.strong_induction_on generalizing k p did with
  | _ want ihwant =>
  induction k generalizing p did with
  | zero =>
    obtain ⟨v, hv, -⟩ := hone.sample
    simp [nextSample] at hv
  | succ k ihk =>
    obtain ⟨vs, hnum, hwait, hmade⟩ := generateRound_made want h hroom hwant
    have hsub : length - did = want := by omega
    have hlen : (p.chip.waiting ++ vs).length = p.chip.waiting.length + vs.length :=
      List.length_append
    have hle := hmade.le
    generalize hr : generateRound p.chip want = r at hnum hwait hmade
    obtain ⟨made, raised, chip⟩ := r
    dsimp only at hnum hwait hmade
    have hraised : (p.raised || (stream want p.chip.toSequencer).raised) =
        (p.raised || raised || (stream (want - vs.length) chip.toSequencer).raised) := by
      rw [hmade.rest, Heard.andThen, Bool.or_assoc]
    have hsamples : p.chip.waiting ++ (stream want p.chip.toSequencer).samples =
        chip.waiting ++ (stream (want - vs.length) chip.toSequencer).samples := by
      rw [hmade.rest, hwait, Heard.andThen, List.append_assoc]
    have hchip : (stream want p.chip.toSequencer).chip =
        (stream (want - vs.length) chip.toSequencer).chip := by
      rw [hmade.rest, Heard.andThen]
    by_cases hdone : vs.length = want
    · have hbody : generateBody count p =
          .go { p with chip, raised := p.raised || raised, inner := none } := by
        unfold generateBody
        rw [hinner]
        dsimp only
        rw [hsub, hr, hnum]
        dsimp only
        rw [if_neg (by omega)]
      rw [hdone, Nat.sub_self] at hraised hsamples hchip
      refine ⟨1, chip, by omega, fun fuel => ?_, ?_, hchip.symm⟩
      · rw [hraised, stream, Bool.or_false, Nat.add_comm, loop_go hbody]
      · rw [hsamples, stream, List.append_nil]
    · have hbody : generateBody count p =
          .go { p with
            chip, raised := p.raised || raised, inner := some (length, did + vs.length) } := by
        unfold generateBody
        rw [hinner]
        dsimp only
        rw [hsub, hr, hnum]
        dsimp only
        rw [if_pos ⟨hmade.alive, by omega⟩]
      rw [hraised, hsamples, hchip]
      by_cases hnil : vs = []
      · subst hnil
        obtain ⟨rounds, chip', hrounds, hloop, hwait', hchip'⟩ := ihk
          { p with chip, raised := p.raised || raised, inner := some (length, did + 0) } did rfl
          hleft hmade.steady (hmade.patience rfl hwant k hone)
          (by dsimp only; rw [hwait, hlen]; exact hroom)
        refine ⟨rounds + 1, chip', by omega, fun fuel => ?_, hwait', hchip'⟩
        rw [Nat.succ_add, loop_go hbody]
        exact hloop fuel
      · have hpos : 0 < vs.length := List.length_pos_iff.mpr hnil
        obtain ⟨rounds, chip', hrounds, hloop, hwait', hchip'⟩ := ihwant (want - vs.length) (by omega) 3
          { p with chip, raised := p.raised || raised, inner := some (length, did + vs.length) }
          (did + vs.length) rfl (by omega) (by omega) hmade.steady (nextSample_one hmade.steady)
          (by dsimp only; rw [hwait, hlen]; omega)
        refine ⟨rounds + 1, chip', by omega, fun fuel => ?_, hwait', hchip'⟩
        rw [Nat.succ_add, loop_go hbody]
        exact hloop fuel

/-- The ring is drained, and the excitation not behind. -/
structure Drained (s : Sp0256) : Prop where
  empty : s.waiting = []
  steady : s.Steady

/-- One chunk is the stream, in three rounds for each sample and two more. -/
theorem chunk_returns {count fuel : Nat} (hcount : count ≤ maxChunk) (hfuel : 3 * count + 2 ≤ fuel)
    (h : s.Drained) :
    ∃ chip, generateChunk fuel count s = some
        ((stream count s.toSequencer).samples, (stream count s.toSequencer).raised, chip) ∧
      chip.toSequencer = (stream count s.toSequencer).chip ∧ chip.Drained := by
  have hmax : maxChunk = 2048 := rfl
  obtain ⟨hlen, -, hsteady⟩ := stream_spec count h.steady
  by_cases hzero : count = 0
  · subst hzero
    obtain ⟨n, rfl⟩ : ∃ n, fuel = n + 1 := ⟨fuel - 1, by omega⟩
    exact ⟨s, loop_stop (by simp [generateBody, stream]) n, rfl, h⟩
  · obtain ⟨hdrain, hdropped, hcore⟩ := drain_spec (s := s) count
    rw [h.empty, List.take_nil] at hdrain
    rw [h.empty, List.drop_nil] at hdropped
    have hfirst : generateBody count { chip := s } =
        .go { chip := (drain count s).2, inner := some (count, 0) } := by
      simp [generateBody, hdrain, hzero]
    obtain ⟨rounds, chip, hrounds, hloop, hwait, hchip⟩ := inner_rounds count count 3
      { chip := (drain count s).2, inner := some (count, 0) } count 0 rfl (Nat.zero_add count).symm
      hzero (by rw [hcore]; exact h.steady) (by rw [hcore]; exact nextSample_one h.steady)
      (by dsimp only; rw [hdropped, List.length_nil]; omega)
    dsimp only at hloop hwait hchip
    rw [hcore, Bool.false_or] at hloop
    rw [hdropped, hcore, List.nil_append] at hwait
    rw [hcore] at hchip
    obtain ⟨hlast, hempty, hcore'⟩ := drain_spec (s := chip) count
    rw [hwait, List.take_of_length_le hlen.le] at hlast
    rw [hwait, List.drop_of_length_le hlen.le] at hempty
    refine ⟨(drain count chip).2, ?_, hcore'.trans hchip, hempty, ?_⟩
    · obtain ⟨n, rfl⟩ : ∃ n, fuel = rounds + (n + 1) + 1 := ⟨fuel - rounds - 2, by omega⟩
      rw [generateChunk, loop_go hfirst, hloop]
      refine loop_stop ?_ n
      have hpos : ¬ count ≤ 0 := by omega
      simp [generateBody, hpos, hlast, hlen]
    · rw [hcore', hchip]
      exact hsteady

theorem chunks_sum (count : Nat) : (chunks count).sum = count := by
  induction count using chunks.induct with
  | case1 count h ih =>
    rw [chunks, if_pos h, List.sum_cons, ih]
    omega
  | case2 count h => rw [chunks, if_neg h, List.sum_singleton]

theorem chunks_le (count : Nat) : ∀ n ∈ chunks count, n ≤ maxChunk := by
  induction count using chunks.induct with
  | case1 count h ih =>
    rw [chunks, if_pos h]
    intro n hn
    rcases List.mem_cons.mp hn with rfl | hn
    · exact Nat.le_refl _
    · exact ih n hn
  | case2 count h =>
    rw [chunks, if_neg h]
    intro n hn
    rw [List.mem_singleton.mp hn]
    exact Nat.not_lt.mp h

/-- The rounds that a chunk is done in: three for each sample, and the two that drain the ring. -/
def enough (n : Nat) : Nat := 3 * n + 2

/-- The chunks of a request are the stream, one after another. -/
theorem chunks_return {fuel : Nat → Nat} (hfuel : enough ≤ fuel) (ns : List Nat)
    (hns : ∀ n ∈ ns, n ≤ maxChunk) (h : s.Drained) (out : List Int) (raised : Bool) :
    ∃ chip,
      ns.foldlM
        (fun (r : List Int × Bool × Sp0256) n =>
          (generateChunk (fuel n) n r.2.2).map fun r' => (r.1 ++ r'.1, r.2.1 || r'.2.1, r'.2.2))
        (out, raised, s) =
      some (out ++ (stream ns.sum s.toSequencer).samples,
        raised || (stream ns.sum s.toSequencer).raised, chip) ∧
      chip.toSequencer = (stream ns.sum s.toSequencer).chip ∧ chip.Drained := by
  induction ns generalizing s out raised with
  | nil => exact ⟨s, by simp [stream], rfl, h⟩
  | cons n ns ih =>
    have hle := hns n (by simp)
    obtain ⟨mid, hchunk, hcore, hdrained⟩ := chunk_returns hle (hfuel n) h
    obtain ⟨chip, hrest, hchip, hlast⟩ := ih (fun m hm => hns m (by simp [hm])) hdrained
      (out ++ (stream n s.toSequencer).samples) (raised || (stream n s.toSequencer).raised)
    have hadd := stream_add s.toSequencer n ns.sum
    refine ⟨chip, ?_, ?_, hlast⟩
    · rw [List.foldlM_cons, hchunk, List.sum_cons, hadd, Heard.andThen, ← hcore]
      simpa [Bool.or_assoc] using hrest
    · rw [List.sum_cons, hadd, hchip, hcore]
      rfl

/-- `GenerateSamples` ends, and returns the stream. -/
theorem generate_stream {fuel : Nat → Nat} (hfuel : enough ≤ fuel) (count : Nat) (h : s.Drained) :
    ∃ chip, generateSamples fuel count s = some
        ((stream count s.toSequencer).samples, (stream count s.toSequencer).raised, chip) ∧
      chip.toSequencer = (stream count s.toSequencer).chip ∧ chip.Drained := by
  obtain ⟨chip, hret, hchip, hdrained⟩ :=
    chunks_return hfuel (chunks count) (chunks_le count) h [] false
  rw [chunks_sum] at hret hchip
  exact ⟨chip, by simpa [generateSamples] using hret, hchip, hdrained⟩

/-! ## Runs of requests -/

/-- What is asked of the chip. -/
inductive Request
  | reset
  | ald (data : Byte)
  | generate (count : Nat)
deriving DecidableEq, Repr

/-- The chip, and the line that it drives. -/
structure Driven (χ : Type) where
  line : Bool
  chip : χ

/-- A request to the chip with its ring. -/
def serve (fuel : Nat → Nat) (x : Driven Sp0256) : Request → Option (List Int × Driven Sp0256)
  | .reset => some ([], ⟨true, x.chip.withCore x.chip.reset⟩)
  | .ald data => some ([],
      ⟨if x.chip.lrq = true then false else x.line, x.chip.withCore (x.chip.aldWrite data)⟩)
  | .generate count => (generateSamples fuel count x.chip).map fun r =>
      (r.1, ⟨x.line || r.2.1, r.2.2⟩)

/-- A run of requests. -/
def serveAll (fuel : Nat → Nat) : List Request → Driven Sp0256 → Option (List Int × Driven Sp0256)
  | [], x => some ([], x)
  | q :: qs, x => do
      let (out, x) ← serve fuel x q
      let (rest, x) ← serveAll fuel qs x
      return (out ++ rest, x)

/-- A request to the stream. -/
def hear (x : Driven Sequencer) : Request → List Int × Driven Sequencer
  | .reset => ([], ⟨true, x.chip.reset⟩)
  | .ald data => ([], ⟨if x.chip.lrq = true then false else x.line, x.chip.aldWrite data⟩)
  | .generate count =>
      ((stream count x.chip).samples, ⟨x.line || (stream count x.chip).raised,
        (stream count x.chip).chip⟩)

/-- A run of requests to the stream. -/
def hearAll : List Request → Driven Sequencer → List Int × Driven Sequencer
  | [], x => ([], x)
  | q :: qs, x => ((hear x q).1 ++ (hearAll qs (hear x q).2).1, (hearAll qs (hear x q).2).2)

/-- The samples that a request asks for. -/
def Request.count : Request → Nat
  | .generate count => count
  | _ => 0

/-- The chip with its ring stands where the stream does. -/
structure Plays (x : Driven Sp0256) (y : Driven Sequencer) : Prop where
  line : x.line = y.line
  chip : x.chip.toSequencer = y.chip
  drained : x.chip.Drained

theorem serve_hear {fuel : Nat → Nat} (hfuel : enough ≤ fuel) {x : Driven Sp0256}
    {y : Driven Sequencer} (h : Plays x y) (q : Request) :
    ∃ x', serve fuel x q = some ((hear y q).1, x') ∧ Plays x' (hear y q).2 := by
  obtain ⟨line, chip⟩ := y
  obtain ⟨rfl, rfl, hdrained⟩ := h
  cases q with
  | reset => exact ⟨_, rfl, rfl, rfl, hdrained.empty, Int.le_refl 0⟩
  | ald data =>
    refine ⟨_, rfl, rfl, rfl, hdrained.empty, ?_⟩
    have hst := hdrained.steady
    unfold Steady at *
    simp only [withCore, aldWrite]
    split <;> exact hst
  | generate count =>
    obtain ⟨chip', hret, hchip, hlast⟩ := generate_stream hfuel count hdrained
    exact ⟨_, by rw [serve, hret]; rfl, rfl, hchip, hlast⟩

theorem serveAll_hearAll {fuel : Nat → Nat} (hfuel : enough ≤ fuel) {x : Driven Sp0256}
    {y : Driven Sequencer} (h : Plays x y) (qs : List Request) :
    ∃ x', serveAll fuel qs x = some ((hearAll qs y).1, x') ∧ Plays x' (hearAll qs y).2 := by
  induction qs generalizing x y with
  | nil => exact ⟨x, rfl, h⟩
  | cons q qs ih =>
    obtain ⟨x', hserve, hmid⟩ := serve_hear hfuel h q
    obtain ⟨x'', hrest, hlast⟩ := ih hmid
    refine ⟨x'', ?_, hlast⟩
    rw [serveAll, hserve]
    simp only [Option.bind_eq_bind, Option.bind_some]
    rw [hrest]
    rfl

theorem hear_spec {y : Driven Sequencer} (h : y.chip.Steady) (q : Request) :
    (hear y q).1.length = q.count ∧ (∀ v ∈ (hear y q).1, Lpc12.InRange v) ∧
      (hear y q).2.chip.Steady := by
  cases q with
  | reset => exact ⟨rfl, by simp [hear], Int.le_refl 0⟩
  | ald data =>
    refine ⟨rfl, by simp [hear], ?_⟩
    unfold Steady at *
    simp only [hear, aldWrite]
    split <;> exact h
  | generate count => exact stream_spec count h

theorem hearAll_spec {y : Driven Sequencer} (h : y.chip.Steady) (qs : List Request) :
    (hearAll qs y).1.length = (qs.map Request.count).sum ∧
      ∀ v ∈ (hearAll qs y).1, Lpc12.InRange v := by
  induction qs generalizing y with
  | nil => exact ⟨rfl, by simp [hearAll]⟩
  | cons q qs ih =>
    obtain ⟨hlen, hall, hnext⟩ := hear_spec h q
    obtain ⟨hlen', hall'⟩ := ih hnext
    refine ⟨by simp [hearAll, hlen, hlen'], fun v hv => ?_⟩
    rcases List.mem_append.mp hv with hv | hv
    · exact hall v hv
    · exact hall' v hv

/-- The chip after its constructor, with the ROM. -/
def powered (rom : BitVec 11 → BitVec 8) (line : Bool) : Driven Sp0256 := ⟨line, { rom }⟩

theorem powered_plays (rom : BitVec 11 → BitVec 8) (line : Bool) :
    Plays (powered rom line) ⟨line, { rom }⟩ :=
  ⟨rfl, rfl, waiting_nil rfl, Int.le_refl 0⟩

/-- Over every run of requests the chip with its ring returns what the stream does: every
request ends, within three rounds for a sample and two for a chunk, with the samples it asked for
and all of them in range, whatever the ROM holds.  Nothing of it is left in the ring, so the next
request begins where the stream stands. -/
theorem generate_requests (rom : BitVec 11 → BitVec 8) (line : Bool) (qs : List Request) :
    ∃ out x, serveAll enough qs (powered rom line) = some (out, x) ∧
      out = (hearAll qs ⟨line, { rom }⟩).1 ∧
      x.chip.toSequencer = (hearAll qs ⟨line, { rom }⟩).2.chip ∧ x.chip.waiting = [] ∧
      out.length = (qs.map Request.count).sum ∧ ∀ v ∈ out, -32768 ≤ v ∧ v ≤ 32764 := by
  obtain ⟨x, hret, hplays⟩ := serveAll_hearAll (le_refl enough) (powered_plays rom line) qs
  obtain ⟨hlen, hall⟩ := hearAll_spec (y := ⟨line, { rom }⟩) (Int.le_refl 0) qs
  exact ⟨_, x, hret, rfl, hplays.chip, hplays.drained.empty, hlen, hall⟩

/-! ## The codes -/

/-- The codes accepted are those begun and the one that waits, and the line tells whether one
does. -/
structure InOrder (y : Driven Sequencer) : Prop where
  line : y.line = y.chip.lrq
  taken : y.chip.taken = y.chip.begun ++ y.chip.pending

end Sp0256

end CocoEmulator.Sound
