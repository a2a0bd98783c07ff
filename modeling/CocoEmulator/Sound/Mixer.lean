/-
  Sound/Mixer.lean --- the sound output against the history of its ports (sound.cpp).

  A setter updates the output only where it thinks that the level can change.  The MAME
  mixer adds a sample and hold: with SNDEN low the selector keeps its last value, and the
  code refreshes that value only while it computes the level of this mixer.  So what the
  code holds is what the selector showed when SNDEN was last high with this mixer in use
  (`Tracks`), which is what it ought to hold unless the selector moved under the other one.

      History         the ports, and the selector's value when SNDEN last was high
      Log             the port states since the last reset
      call_agrees     a call keeps the output at the level of the history
      tracks_call     and the held value at the one the log tells
      sound_coherent  so does a run, unless MAME is chosen with SNDEN low after the
                      selector moved unheard

  Source: sound.cpp, sound.h.
-/
import CocoEmulator.Sound.Ssc

set_option autoImplicit false

namespace CocoEmulator.Sound

open CocoEmulator.Base

/-- The analog sources.  `singleBit` is virtual: it is heard when the mux is disabled. -/
inductive Source
  | dac
  | tape
  | cart
  | none
  | singleBit
deriving DecidableEq, Repr

/-- `SEL2`, `SEL1`. -/
def Source.ofSel (sel : Byte) : Source :=
  if sel = 0 then .dac else if sel = 1 then .tape else if sel = 2 then .cart else .none

/-- The state of the single bit, the second index of the tables. -/
inductive SbsIndex
  | off
  | low
  | high
deriving DecidableEq, Repr

/-- `source_gain` -/
def sourceGain : Source → SbsIndex → Nat
  | .dac, .off => 244
  | .dac, .low => 154
  | .dac, .high => 184
  | .tape, .off => 27
  | .tape, .low => 22
  | .tape, .high => 27
  | _, _ => 0

/-- `source_offset` -/
def sourceOffset : Source → SbsIndex → Nat
  | .dac, .off => 11
  | .dac, .low => 10
  | .dac, .high => 71
  | .tape, .off => 111
  | .tape, .low => 87
  | .tape, .high => 128
  | .none, .high => 1
  | .cart, .high | .singleBit, .high => 212
  | _, _ => 0

/-- `SSC_BIAS` -/
def sscBias : Byte := 64

/-- `MAME_IDLE` -/
def mameIdle : Byte := 0x7E

/-- `MAME_SINGLE_BIT` -/
def mameSingleBit : Nat := 0xFC

inductive Mixer
  | xroar
  | mame
deriving DecidableEq, Repr

/-- A mixer below `SOUND_MIXER_COUNT`. -/
def Mixer.ofByte (m : Byte) : Option Mixer :=
  if m = 0 then some .xroar else if m = 1 then some .mame else none

/-- What the calls set. -/
structure Ports where
  dacLevel : Byte
  sbsEnabled : Bool
  sbsLevel : Bool
  muxEnabled : Bool
  muxSource : Source
  extLevel : Byte
  sscOut : Byte
  mixer : Mixer
deriving DecidableEq, Repr

namespace Ports

variable (p : Ports)

def sbsIndex : SbsIndex :=
  if p.sbsEnabled then if p.sbsLevel then .high else .low else .off

/-- `xroar_level` -/
def xroarLevel : Nat :=
  let source := if p.muxEnabled then p.muxSource else .singleBit
  let level := if source = .dac then p.dacLevel.toNat else 0
  level * sourceGain source p.sbsIndex / 63 + sourceOffset source p.sbsIndex

/-- The selector's output while SNDEN is high. -/
def selector : Byte := if p.muxSource = .dac then p.dacLevel <<< 2 else mameIdle

/-- The selector's output and the single bit, clipped. -/
def mameOut (mux : Byte) : Nat :=
  let out := mux.toNat + if p.sbsEnabled && p.sbsLevel then mameSingleBit else 0
  if out > 255 then 255 else out

/-- One DAC: the cartridges sum into the output, saturated. -/
def sum (out : Nat) : Byte :=
  let out := out + p.extLevel.toNat + p.sscOut.toNat
  if out > 255 then 255 else BitVec.ofNat 8 out

end Ports

/-- The statics of `sound.cpp`, and the level last sent to `hal_audio_set_level`. -/
structure SoundState extends Ports where
  mameMux : Byte
  sent : Byte
deriving DecidableEq, Repr

namespace SoundState

variable (s : SoundState)

/-- `mame_level` -/
def mameLevel : Nat × SoundState :=
  let s := if s.muxEnabled then { s with mameMux := s.selector } else s
  (s.mameOut s.mameMux, s)

/-- `sound_update` -/
def update : SoundState :=
  let (out, s) := if s.mixer = .mame then s.mameLevel else (s.xroarLevel, s)
  { s with sent := s.sum out }

/-- `sound_reset`, which leaves the mixer and the cartridges' levels. -/
def reset : SoundState :=
  { s with
    dacLevel := 0, sbsEnabled := false, sbsLevel := false, muxEnabled := false
    muxSource := .dac, mameMux := mameIdle }.update

/-- `sound_set_mixer` -/
def setMixer (m : Byte) : SoundState :=
  match Mixer.ofByte m with
  | none => s
  | some mixer => if mixer = s.mixer then s else { s with mixer }.update

/-- `sound_set_dac_level` -/
def setDacLevel (dac6 : Byte) : SoundState :=
  let s := { s with dacLevel := dac6 &&& 0x3F }
  -- inaudible otherwise: a joystick read writes the DAC with the mux switched away
  if s.muxEnabled && s.muxSource = .dac then s.update else s

/-- `sound_set_sbs` -/
def setSbs (enabled level : Bool) : SoundState :=
  if s.sbsEnabled = enabled ∧ s.sbsLevel = level then s
  else { s with sbsEnabled := enabled, sbsLevel := level }.update

/-- `sound_set_mux_enabled` -/
def setMuxEnabled (enabled : Bool) : SoundState :=
  if s.muxEnabled = enabled then s else { s with muxEnabled := enabled }.update

/-- `sound_set_mux_source` -/
def setMuxSource (source : Byte) : SoundState :=
  let source := Source.ofSel (source &&& 3)
  if s.muxSource = source then s
  else
    let s := { s with muxSource := source }
    if s.muxEnabled then s.update else s

/-- The mono mix of the Orchestra-90's channels. -/
def mono (left right : Byte) : Byte := BitVec.ofNat 8 ((left.toNat + right.toNat) >>> 1)

/-- `sound_set_external` -/
def setExternal (left right : Byte) : SoundState :=
  let level := mono left right
  if s.extLevel = level then s else { s with extLevel := level }.update

/-- The Speech/Sound Cartridge at half scale, biased; its level is signed. -/
def biased (level : Byte) : Byte := sscBias + level.sshiftRight 1

/-- `sound_set_ssc` -/
def setSsc (level : Byte) : SoundState :=
  let v := biased level
  if s.sscOut = v then s else { s with sscOut := v }.update

end SoundState

/-- The calls. -/
inductive Call
  | reset
  | setMixer (m : Byte)
  | setDacLevel (dac6 : Byte)
  | setSbs (enabled level : Bool)
  | setMuxEnabled (enabled : Bool)
  | setMuxSource (source : Byte)
  | setExternal (left right : Byte)
  | setSsc (level : Byte)
deriving DecidableEq, Repr

def SoundState.call (s : SoundState) : Call → SoundState
  | .reset => s.reset
  | .setMixer m => s.setMixer m
  | .setDacLevel dac6 => s.setDacLevel dac6
  | .setSbs enabled level => s.setSbs enabled level
  | .setMuxEnabled enabled => s.setMuxEnabled enabled
  | .setMuxSource source => s.setMuxSource source
  | .setExternal left right => s.setExternal left right
  | .setSsc level => s.setSsc level

/-! ## The history -/

/-- The ports after a call, whatever it does to the output. -/
def Ports.call (p : Ports) : Call → Ports
  | .reset => { p with
      dacLevel := 0, sbsEnabled := false, sbsLevel := false, muxEnabled := false
      muxSource := .dac }
  | .setMixer m => { p with mixer := (Mixer.ofByte m).getD p.mixer }
  | .setDacLevel dac6 => { p with dacLevel := dac6 &&& 0x3F }
  | .setSbs enabled level => { p with sbsEnabled := enabled, sbsLevel := level }
  | .setMuxEnabled enabled => { p with muxEnabled := enabled }
  | .setMuxSource source => { p with muxSource := Source.ofSel (source &&& 3) }
  | .setExternal left right => { p with extLevel := SoundState.mono left right }
  | .setSsc level => { p with sscOut := SoundState.biased level }

/-- The ports, and the selector's value when SNDEN last was high. -/
structure History where
  ports : Ports
  held : Byte
deriving DecidableEq, Repr

namespace History

variable (h : History)

/-- The history after a call.  A reset returns the selector to its idle level. -/
def call (c : Call) : History :=
  let ports := h.ports.call c
  { ports
    held := if c = .reset then mameIdle else if ports.muxEnabled then ports.selector else h.held }

/-- The level of a mixer, recomputed from the ports and the held value. -/
def levelOf (mixer : Mixer) : Byte :=
  match mixer with
  | .xroar => h.ports.sum h.ports.xroarLevel
  | .mame => h.ports.sum (h.ports.mameOut h.held)

/-- The level of the mixer in use. -/
def level : Byte := h.levelOf h.ports.mixer

end History

/-- The output after a reset, and the history that starts there. -/
def started (s : SoundState) : SoundState × History :=
  (s.reset, { ports := s.toPorts.call .reset, held := mameIdle })

def callBoth (c : Call) (x : SoundState × History) : SoundState × History :=
  (x.1.call c, x.2.call c)

/-- The port states since the last reset, the newest first. -/
structure Log where
  now : Ports
  before : List Ports := []
deriving DecidableEq, Repr

namespace Log

/-- The log after a call. -/
def call (c : Call) (log : Log) : Log :=
  { now := log.now.call c, before := if c = .reset then [] else log.now :: log.before }

/-- What the selector showed in the last port state of a kind; before any, its idle level. -/
def lastSelector (kind : Ports → Bool) (log : Log) : Byte :=
  match (log.now :: log.before).find? kind with
  | some ports => ports.selector
  | none => mameIdle

end Log

/-- SNDEN is high. -/
def Ports.sounding (p : Ports) : Bool := p.muxEnabled

/-- SNDEN is high, and MAME's mixer is in use. -/
def Ports.heard (p : Ports) : Bool := p.muxEnabled && p.mixer = .mame

/-- MAME is chosen from XRoar's mixer with SNDEN low only where the selector showed the same when
SNDEN was last high as when it was last high under MAME. -/
def Recalls (c : Call) (log : Log) : Prop :=
  c = .setMixer 1 → log.now.mixer = .xroar → log.now.muxEnabled = false →
    log.lastSelector Ports.heard = log.lastSelector Ports.sounding

instance (c : Call) (log : Log) : Decidable (Recalls c log) :=
  inferInstanceAs (Decidable (_ → _))

/-- At such a choice the code holds the value of the history. -/
def Holds (c : Call) (x : SoundState × History) : Prop :=
  c = .setMixer 1 → x.1.mixer = .xroar → x.1.muxEnabled = false → x.1.mameMux = x.2.held

/-! ## A call -/

/-- The code's state against the history. -/
structure Agrees (s : SoundState) (h : History) : Prop where
  ports : s.toPorts = h.ports
  sent : s.sent = h.level
  /-- The selector is live, or holds its value. -/
  mux : s.mixer = .mame → s.mameMux = h.held
  /-- With SNDEN high the held value is the selector's. -/
  live : s.muxEnabled = true → h.held = h.ports.selector

variable {s : SoundState} {h : History}

/-- An update brings the output to the history's level. -/
theorem update_agrees (hports : s.toPorts = h.ports)
    (hlive : s.muxEnabled = true → h.held = h.ports.selector)
    (hmux : s.mixer = .mame → s.muxEnabled = false → s.mameMux = h.held) :
    Agrees s.update h := by
  obtain ⟨p, held⟩ := h
  obtain rfl : s.toPorts = p := hports
  cases hmixer : s.mixer with
  | xroar =>
    have hupdate : s.update = { s with sent := s.sum s.xroarLevel } := by
      simp [SoundState.update, hmixer]
    rw [hupdate]
    exact ⟨rfl, by simp [History.level, History.levelOf, hmixer], fun h => by simp [hmixer] at h,
      hlive⟩
  | mame =>
    cases henabled : s.muxEnabled with
    | true =>
      have hheld : held = s.selector := hlive henabled
      have hupdate : s.update =
          { s with mameMux := s.selector, sent := s.sum (s.mameOut s.selector) } := by
        simp [SoundState.update, SoundState.mameLevel, hmixer, henabled]
      rw [hupdate, hheld]
      exact ⟨rfl, by simp [History.level, History.levelOf, hmixer], fun _ => rfl, fun _ => rfl⟩
    | false =>
      have hheld : s.mameMux = held := hmux hmixer henabled
      have hupdate : s.update = { s with sent := s.sum (s.mameOut s.mameMux) } := by
        simp [SoundState.update, SoundState.mameLevel, hmixer, henabled]
      rw [hupdate, hheld]
      exact ⟨rfl, by simp [History.level, History.levelOf, hmixer], fun _ => rfl, hlive⟩

/-- A call that changes no port leaves the history as it is. -/
theorem History.call_same (hlive : h.ports.muxEnabled = true → h.held = h.ports.selector)
    {c : Call} (hc : c ≠ .reset) (hsame : h.ports.call c = h.ports) : h.call c = h := by
  simp only [History.call, hsame, if_neg hc]
  split
  next hen => rw [← hlive hen]
  next => rfl

/-- After any call but a reset the selector is live, or holds the value it had. -/
theorem History.call_live {c : Call} (hc : c ≠ .reset)
    (hen : (h.ports.call c).muxEnabled = true) :
    (h.call c).held = (h.call c).ports.selector := by
  simp [History.call, hc, hen]

theorem History.call_held {c : Call} (hc : c ≠ .reset)
    (hen : (h.ports.call c).muxEnabled = false) : (h.call c).held = h.held := by
  simp [History.call, hc, hen]

/-- The level looks at the mixer, its output and the sum. -/
theorem History.level_congr {h' : History} (hmixer : h'.ports.mixer = h.ports.mixer)
    (hheld : h'.held = h.held) (hxroar : h'.ports.xroarLevel = h.ports.xroarLevel)
    (hmame : h'.ports.mameOut = h.ports.mameOut) (hsum : h'.ports.sum = h.ports.sum) :
    h'.level = h.level := by
  simp only [History.level, History.levelOf, hmixer, hheld, hxroar, hmame, hsum]

/-- A call that writes its ports and updates. -/
theorem written_agrees {c : Call} (hc : c ≠ .reset) {s' : SoundState}
    (hports : s'.toPorts = h.ports.call c) (hsame : s'.mameMux = s.mameMux)
    (hmux : s'.mixer = .mame → s'.muxEnabled = false → s.mameMux = h.held) :
    Agrees s'.update (h.call c) := by
  have hen : s'.muxEnabled = (h.ports.call c).muxEnabled := by rw [hports]
  apply update_agrees hports
  · intro htrue
    exact History.call_live hc (hen ▸ htrue)
  · intro hmame hfalse
    rw [hsame, hmux hmame hfalse, History.call_held hc (hen ▸ hfalse)]

/-- A call that writes its ports and skips the update: what it wrote is not heard. -/
theorem skipped_agrees (hagree : Agrees s h) {c : Call} (hc : c ≠ .reset) {s' : SoundState}
    (hports : s'.toPorts = h.ports.call c) (hsame : s'.mameMux = s.mameMux)
    (hsent : s'.sent = s.sent) (hmixer : s'.mixer = s.mixer)
    (hheld : (h.call c).held = h.held) (hlevel : (h.call c).level = h.level) :
    Agrees s' (h.call c) := by
  have hen : s'.muxEnabled = (h.ports.call c).muxEnabled := by rw [hports]
  refine ⟨hports, ?_, ?_, ?_⟩
  · rw [hsent, hagree.sent, hlevel]
  · intro hmame
    rw [hsame, hagree.mux (hmixer ▸ hmame), hheld]
  · intro htrue
    exact History.call_live hc (hen ▸ htrue)

/-- A call that keeps its state. -/
theorem kept_agrees (hagree : Agrees s h) {c : Call} (hc : c ≠ .reset)
    (hsame : s.toPorts.call c = s.toPorts) : Agrees s (h.call c) := by
  have hports := hagree.ports
  rw [hports] at hsame
  rw [History.call_same (fun hen => hagree.live (by rw [hports]; exact hen)) hc hsame]
  exact hagree

theorem setDacLevel_agrees (hagree : Agrees s h) (dac6 : Byte) :
    Agrees (s.setDacLevel dac6) (h.call (.setDacLevel dac6)) := by
  obtain ⟨p, held⟩ := h
  obtain rfl : s.toPorts = p := hagree.ports
  unfold SoundState.setDacLevel
  cases haudible : s.muxEnabled && s.muxSource = .dac with
  | true =>
    simp only [haudible, if_true]
    exact written_agrees (by simp) rfl rfl (fun hmame _ => hagree.mux hmame)
  | false =>
    simp only [haudible, Bool.false_eq_true, if_false]
    -- the mux is off, or switched to a source that is not the DAC
    have hheld : (History.call ⟨s.toPorts, held⟩ (.setDacLevel dac6)).held = held := by
      cases hen : s.muxEnabled with
      | false => simp [History.call, Ports.call, hen]
      | true =>
        have hsource : s.muxSource ≠ .dac := by simpa [hen] using haudible
        have hlive : held = s.selector := hagree.live hen
        simp [History.call, Ports.call, Ports.selector, hen, hsource, hlive]
    have hxroar : (s.toPorts.call (.setDacLevel dac6)).xroarLevel = s.xroarLevel := by
      cases hen : s.muxEnabled with
      | false => simp [Ports.call, Ports.xroarLevel, Ports.sbsIndex, hen]
      | true =>
        have hsource : s.muxSource ≠ .dac := by simpa [hen] using haudible
        simp [Ports.call, Ports.xroarLevel, Ports.sbsIndex, hen, hsource]
    exact skipped_agrees hagree (by simp) rfl rfl rfl rfl hheld
      (History.level_congr rfl hheld hxroar rfl rfl)

theorem setMuxSource_agrees (hagree : Agrees s h) (source : Byte) :
    Agrees (s.setMuxSource source) (h.call (.setMuxSource source)) := by
  obtain ⟨p, held⟩ := h
  obtain rfl : s.toPorts = p := hagree.ports
  simp only [SoundState.setMuxSource]
  split
  next hsame => exact kept_agrees hagree (by simp) (by simp only [Ports.call, ← hsame])
  next =>
    cases hen : s.muxEnabled with
    | true =>
      simp only [if_true]
      exact written_agrees (by simp) (by simp [Ports.call, hen]) rfl
        (fun hmame _ => hagree.mux hmame)
    | false =>
      simp only [Bool.false_eq_true, if_false]
      have hheld : (History.call ⟨s.toPorts, held⟩ (.setMuxSource source)).held = held := by
        simp [History.call, Ports.call, hen]
      have hxroar : (s.toPorts.call (.setMuxSource source)).xroarLevel = s.xroarLevel := by
        simp [Ports.call, Ports.xroarLevel, Ports.sbsIndex, hen]
      exact skipped_agrees hagree (by simp) (by simp [Ports.call, hen]) rfl rfl rfl hheld
        (History.level_congr rfl hheld hxroar rfl rfl)

theorem Mixer.eq_one {m : Byte} (h : Mixer.ofByte m = some .mame) : m = 1 := by
  unfold Mixer.ofByte at h
  split at h
  next => simp at h
  next =>
    split at h
    next hm => exact hm
    next => simp at h

theorem setMixer_agrees (hagree : Agrees s h) (m : Byte)
    (hholds : Holds (.setMixer m) (s, h)) :
    Agrees (s.setMixer m) (h.call (.setMixer m)) := by
  have hports := hagree.ports
  unfold SoundState.setMixer
  split
  next hnone => exact kept_agrees hagree (by simp) (by simp [Ports.call, hnone])
  next mixer hsome =>
    split
    next hsame => exact kept_agrees hagree (by simp) (by simp [Ports.call, hsome, hsame])
    next hne =>
      apply written_agrees (by simp) (by rw [← hports]; simp [Ports.call, hsome]) rfl
      intro hmame hen
      obtain rfl : mixer = .mame := hmame
      have hxroar : s.mixer = .xroar := by
        cases hmixer : s.mixer with
        | xroar => rfl
        | mame => exact absurd hmixer.symm hne
      exact hholds (by rw [Mixer.eq_one hsome]) hxroar hen

/-- A setter that skips what its port already holds. -/
theorem setter_agrees (hagree : Agrees s h) (c : Call) (s' : SoundState) (hc : c ≠ .reset)
    {same : Prop} [Decidable same] (hsame : same → s.toPorts.call c = s.toPorts)
    (hports : s'.toPorts = s.toPorts.call c) (hmux : s'.mameMux = s.mameMux)
    (hmixer : s'.mixer = s.mixer) :
    Agrees (if same then s else s'.update) (h.call c) := by
  split
  next h => exact kept_agrees hagree hc (hsame h)
  next =>
    apply written_agrees hc (by rw [hports, hagree.ports]) hmux
    intro hmame _
    exact hagree.mux (hmixer ▸ hmame)

/-- A call keeps the output at the level of the history. -/
theorem call_agrees (hagree : Agrees s h) {c : Call} (hholds : Holds c (s, h)) :
    Agrees (s.call c) (h.call c) := by
  cases c with
  | reset =>
    apply update_agrees (h := h.call .reset)
    · simp [History.call, Ports.call, ← hagree.ports]
    · exact nofun
    · intro _ _
      simp [History.call]
  | setMixer m => exact setMixer_agrees hagree m hholds
  | setDacLevel dac6 => exact setDacLevel_agrees hagree dac6
  | setMuxSource source => exact setMuxSource_agrees hagree source
  | setSbs enabled level =>
    refine setter_agrees hagree (.setSbs enabled level)
      { s with sbsEnabled := enabled, sbsLevel := level } (by simp) ?_ rfl rfl rfl
    rintro ⟨rfl, rfl⟩
    rfl
  | setMuxEnabled enabled =>
    refine setter_agrees hagree (.setMuxEnabled enabled)
      { s with muxEnabled := enabled } (by simp) ?_ rfl rfl rfl
    rintro rfl
    rfl
  | setExternal left right =>
    refine setter_agrees hagree (.setExternal left right)
      { s with extLevel := SoundState.mono left right } (by simp) ?_ rfl rfl rfl
    intro hsame
    simp [Ports.call, ← hsame]
  | setSsc level =>
    refine setter_agrees hagree (.setSsc level)
      { s with sscOut := SoundState.biased level } (by simp) ?_ rfl rfl rfl
    intro hsame
    simp [Ports.call, ← hsame]

/-! ## What the selector held -/

theorem Log.lastSelector_call {c : Call} (hc : c ≠ .reset) (kind : Ports → Bool) (log : Log) :
    (log.call c).lastSelector kind =
      if kind (log.now.call c) then (log.now.call c).selector else log.lastSelector kind := by
  unfold Log.lastSelector Log.call
  dsimp only
  rw [if_neg hc, List.find?_cons]
  cases kind (log.now.call c) <;> rfl

theorem Log.lastSelector_now {kind : Ports → Bool} {log : Log} (h : kind log.now = true) :
    log.lastSelector kind = log.now.selector := by
  unfold Log.lastSelector
  rw [List.find?_cons_of_pos h]

/-- An update leaves the ports, and stores the selector where it is heard. -/
theorem update_mux (s : SoundState) : s.update.toPorts = s.toPorts ∧
    s.update.mameMux = if s.heard then s.selector else s.mameMux := by
  cases hmixer : s.mixer with
  | xroar => simp [SoundState.update, Ports.heard, hmixer]
  | mame =>
    cases hen : s.muxEnabled with
    | true => simp [SoundState.update, SoundState.mameLevel, Ports.heard, hmixer, hen]
    | false => simp [SoundState.update, SoundState.mameLevel, Ports.heard, hmixer, hen]

/-- What a call does to the ports and to the selector that the code holds. -/
structure Called (s : SoundState) (c : Call) (s' : SoundState) : Prop where
  ports : s'.toPorts = s.toPorts.call c
  mux : s'.mameMux = if (s.toPorts.call c).heard then (s.toPorts.call c).selector else s.mameMux

/-- A call that writes its ports and updates. -/
theorem called_update {c : Call} {s' : SoundState} (hports : s'.toPorts = s.toPorts.call c)
    (hmux : s'.mameMux = s.mameMux) : Called s c s'.update where
  ports := (update_mux s').1.trans hports
  mux := by
    rw [(update_mux s').2, hports, hmux]

/-- A call that skips the update, where the selector shows what it did. -/
theorem called_skip {c : Call} {s' : SoundState} (hports : s'.toPorts = s.toPorts.call c)
    (hmux : s'.mameMux = s.mameMux)
    (hsame : (s.toPorts.call c).heard = true → (s.toPorts.call c).selector = s.mameMux) :
    Called s c s' where
  ports := hports
  mux := by
    split
    · rename_i hheard
      rw [hmux, hsame hheard]
    · exact hmux

/-- A call that changes nothing, from a state that holds what is heard. -/
theorem called_kept (hheld : s.heard = true → s.mameMux = s.selector) {c : Call}
    (hkept : s.toPorts.call c = s.toPorts) : Called s c s :=
  called_skip hkept.symm rfl fun hheard => by
    rw [hkept] at hheard ⊢
    exact (hheld hheard).symm

/-- The selector after a setter that skips what its port already holds. -/
theorem called_setter (hheld : s.heard = true → s.mameMux = s.selector) (c : Call)
    (s' : SoundState) {same : Prop} [Decidable same] (hsame : same → s.toPorts.call c = s.toPorts)
    (hports : s'.toPorts = s.toPorts.call c) (hmux : s'.mameMux = s.mameMux) :
    Called s c (if same then s else s'.update) := by
  split
  next h => exact called_kept hheld (hsame h)
  next => exact called_update hports hmux

/-- A call but a reset, from a state that holds what is heard. -/
theorem call_called (hheld : s.heard = true → s.mameMux = s.selector) {c : Call}
    (hc : c ≠ .reset) : Called s c (s.call c) := by
  cases c with
  | reset => exact absurd rfl hc
  | setMixer m =>
    unfold SoundState.call SoundState.setMixer
    dsimp only
    cases hsome : Mixer.ofByte m with
    | none => exact called_kept hheld (by simp [Ports.call, hsome])
    | some mixer =>
      refine called_setter hheld (.setMixer m) { s with mixer } ?_ ?_ rfl
      · rintro rfl
        simp [Ports.call, hsome]
      · simp [Ports.call, hsome]
  | setDacLevel dac6 =>
    unfold SoundState.call SoundState.setDacLevel
    dsimp only
    split
    next => exact called_update rfl rfl
    next haudible =>
      refine called_skip rfl rfl fun hheard => ?_
      -- the mux is switched to a source that is not the DAC
      have hen : s.muxEnabled = true := (Bool.and_eq_true_iff.mp hheard).1
      have hsource : s.muxSource ≠ .dac := by simpa [hen] using haudible
      have hmux := hheld hheard
      unfold Ports.selector at hmux
      rw [if_neg hsource] at hmux
      rw [hmux]
      exact if_neg hsource
  | setMuxSource source =>
    unfold SoundState.call SoundState.setMuxSource
    dsimp only
    split
    next hsame => exact called_kept hheld (by simp only [Ports.call, ← hsame])
    next =>
      split
      next => exact called_update rfl rfl
      next hen =>
        exact called_skip rfl rfl fun hheard =>
          absurd (Bool.and_eq_true_iff.mp hheard).1 hen
  | setSbs enabled level =>
    refine called_setter hheld (.setSbs enabled level)
      { s with sbsEnabled := enabled, sbsLevel := level } ?_ rfl rfl
    rintro ⟨rfl, rfl⟩
    rfl
  | setMuxEnabled enabled =>
    refine called_setter hheld (.setMuxEnabled enabled) { s with muxEnabled := enabled } ?_ rfl rfl
    rintro rfl
    rfl
  | setExternal left right =>
    refine called_setter hheld (.setExternal left right)
      { s with extLevel := SoundState.mono left right } ?_ rfl rfl
    intro hsame
    simp [Ports.call, ← hsame]
  | setSsc level =>
    refine called_setter hheld (.setSsc level)
      { s with sscOut := SoundState.biased level } ?_ rfl rfl
    intro hsame
    simp [Ports.call, ← hsame]

/-- The log tells the ports and both held values: the one of the code, and the one of the
history. -/
structure Tracks (x : SoundState × History) (log : Log) : Prop where
  ports : x.1.toPorts = log.now
  same : x.2.ports = log.now
  mux : x.1.mameMux = log.lastSelector Ports.heard
  held : x.2.held = log.lastSelector Ports.sounding

/-- The step lemma. -/
theorem tracks_call {x : SoundState × History} {log : Log} (h : Tracks x log) (c : Call) :
    Tracks (callBoth c x) (log.call c) := by
  have hsame : (x.2.call c).ports = (log.call c).now := congrArg (·.call c) h.same
  by_cases hc : c = .reset
  · rw [hc]
    have hports : x.1.reset.toPorts = log.now.call .reset := by
      rw [← h.ports]
      exact (update_mux _).1
    have hmux : x.1.reset.mameMux = mameIdle := (update_mux _).2.trans rfl
    exact ⟨hports, by rw [hc] at hsame; exact hsame, hmux, rfl⟩
  · have hheld : x.1.heard = true → x.1.mameMux = x.1.selector := by
      intro hheard
      rw [h.ports] at hheard ⊢
      rw [h.mux, Log.lastSelector_now hheard]
    have hcalled := call_called hheld hc
    refine ⟨hcalled.ports.trans (congrArg (·.call c) h.ports), hsame, ?_, ?_⟩
    · refine hcalled.mux.trans ?_
      rw [h.ports, h.mux, Log.lastSelector_call hc]
    · have hhistory : (x.2.call c).held = if (x.2.ports.call c).muxEnabled then
          (x.2.ports.call c).selector else x.2.held := by
        simp [History.call, hc]
      rw [Log.lastSelector_call hc, ← h.held, ← h.same]
      exact hhistory

/-- Where the log recalls, the code holds the value of the history. -/
theorem Tracks.holds {x : SoundState × History} {log : Log} (h : Tracks x log) {c : Call}
    (hrecalls : Recalls c log) : Holds c x := by
  intro hc hmixer hen
  rw [h.ports] at hmixer hen
  rw [h.mux, h.held, hrecalls hc hmixer hen]

theorem holds_run {calls : List Call} {x : SoundState × History} {log : Log} (h : Tracks x log)
    (hrecalls : EachStep Log.call Recalls calls log) : EachStep callBoth Holds calls x := by
  induction calls generalizing x log with
  | nil => exact hrecalls
  | cons c calls ih => exact ⟨h.holds hrecalls.1, ih (tracks_call h c) hrecalls.2⟩

/-! ## A mixer from the start -/

def Call.isMixer : Call → Bool
  | .setMixer _ => true
  | _ => false

namespace History

/-- The same history with another mixer in use. -/
def withMixer (h : History) (m : Mixer) : History := { h with ports := { h.ports with mixer := m } }

/-- With SNDEN high the held value is the selector's. -/
def Live (h : History) : Prop := h.ports.muxEnabled = true → h.held = h.ports.selector

theorem live_call (h : History) (c : Call) : (h.call c).Live := by
  intro hen
  cases c with
  | reset => exact absurd hen Bool.false_ne_true
  | _ => exact call_live (by simp) hen

/-- A choice of mixer changes nothing else. -/
theorem call_mixer (hlive : h.Live) {c : Call} (hc : c.isMixer = true) (m : Mixer) :
    (h.call c).withMixer m = h.withMixer m := by
  cases c with
  | setMixer b =>
    cases hen : h.ports.muxEnabled with
    | false => simp [History.call, withMixer, Ports.call, hen]
    | true =>
      have hheld : h.held = h.ports.selector := hlive hen
      simp [History.call, withMixer, Ports.call, Ports.selector, hen, hheld]
  | _ => exact absurd hc Bool.false_ne_true

theorem call_withMixer {c : Call} (hc : c.isMixer = false) (m : Mixer) :
    (h.withMixer m).call c = (h.call c).withMixer m := by
  cases c with
  | setMixer b => exact absurd hc.symm Bool.false_ne_true
  | _ => rfl

/-- The ports and the held value do not depend on the choices of mixer. -/
theorem runAll_withMixer (calls : List Call) (hlive : h.Live) (m : Mixer) :
    runAll (fun c h => h.call c) (calls.filter (!·.isMixer)) (h.withMixer m) =
      (runAll (fun c h => h.call c) calls h).withMixer m := by
  induction calls generalizing h with
  | nil => rfl
  | cons c calls ih =>
    cases hc : c.isMixer with
    | true =>
      rw [List.filter_cons_of_neg (by simp [hc]), runAll_cons, ← ih (live_call h c),
        call_mixer hlive hc]
    | false =>
      rw [List.filter_cons_of_pos (by simp [hc]), runAll_cons, runAll_cons, call_withMixer hc,
        ih (live_call h c)]

end History

/-! ## A run -/

theorem started_agrees (s : SoundState) : Agrees (started s).1 (started s).2 := by
  apply update_agrees rfl
  · exact nofun
  · intro _ _
    rfl

/-- The log that a reset starts. -/
def Log.started (s : SoundState) : Log := { now := s.toPorts.call .reset }

theorem started_tracks (s : SoundState) : Tracks (CocoEmulator.Sound.started s) (Log.started s) :=
  ⟨(update_mux _).1, rfl, (update_mux _).2.trans rfl, rfl⟩

theorem run_agrees {calls : List Call} {x : SoundState × History} (hagree : Agrees x.1 x.2)
    (hholds : EachStep callBoth Holds calls x) :
    Always callBoth (fun x => Agrees x.1 x.2) calls x :=
  Always.of_step hagree (fun _ _ h hc => call_agrees h hc) hholds

theorem runAll_callBoth (calls : List Call) (x : SoundState × History) :
    runAll callBoth calls x =
      (runAll (fun c s => s.call c) calls x.1, runAll (fun c h => h.call c) calls x.2) := by
  induction calls generalizing x with
  | nil => rfl
  | cons c calls ih => exact ih (callBoth c x)

/-- The level after a run. -/
theorem run_sent {calls : List Call} (s : SoundState)
    (hholds : EachStep callBoth Holds calls (started s)) :
    (runAll (fun c s => s.call c) calls s.reset).sent =
      (runAll (fun c h => h.call c) calls (started s).2).level := by
  have hlast := (run_agrees (started_agrees s) hholds).last.sent
  rw [runAll_callBoth] at hlast
  exact hlast

/-- Every state of a run has the level of its history, as if its mixer had been in use from
the start, if MAME is chosen from XRoar's mixer with SNDEN low only where the selector showed
the same when SNDEN was last high as when it was last high under MAME. -/
theorem sound_coherent (s : SoundState) (calls : List Call)
    (hrecalls : EachStep Log.call Recalls calls (Log.started s)) :
    Always callBoth (fun x => x.1.sent = x.2.level) calls (started s) ∧
      ∀ n, let t := runAll (fun c (s : SoundState) => s.call c) (calls.take n) s.reset
        t.sent = (runAll (fun c (s : SoundState) => s.call c)
          ((calls.take n).filter (!·.isMixer)) { s with mixer := t.mixer }.reset).sent := by
  have hholds := holds_run (started_tracks s) hrecalls
  refine ⟨(run_agrees (started_agrees s) hholds).imp fun _ h => h.sent, ?_⟩
  intro n t
  have hprefix : EachStep callBoth Holds (calls.take n) (started s) := by
    rw [← List.take_append_drop n calls, eachStep_append] at hholds
    exact hholds.1
  have hquiet : EachStep callBoth Holds ((calls.take n).filter (!·.isMixer))
      (started { s with mixer := t.mixer }) := by
    apply EachStep.of_forall
    intro c hc x hm
    have hnot := (List.mem_filter.mp hc).2
    rw [hm] at hnot
    exact absurd hnot Bool.false_ne_true
  have hstart : (started { s with mixer := t.mixer }).2 = (started s).2.withMixer t.mixer := rfl
  have hlive : (started s).2.Live := nofun
  have hmixer : t.mixer =
      (runAll (fun c h => h.call c) (calls.take n) (started s).2).ports.mixer := by
    have hports := (run_agrees (started_agrees s) hprefix).last.ports
    rw [runAll_callBoth] at hports
    exact congrArg Ports.mixer hports
  rw [run_sent _ hquiet, hstart, History.runAll_withMixer _ hlive, run_sent s hprefix, hmixer]
  rfl

/-- The state at power-on, before `sound_reset`. -/
def powerOn : SoundState where
  dacLevel := 0
  sbsEnabled := false
  sbsLevel := false
  muxEnabled := false
  muxSource := .dac
  extLevel := 0
  sscOut := 0
  mixer := .mame
  mameMux := mameIdle
  sent := 0

/-- XRoar's mixer on a live selector, and back with SNDEN low: nothing moved unheard. -/
theorem sound_coherent_switch :
    (runAll (fun c (s : SoundState) => s.call c)
      [.setMuxEnabled true, .setDacLevel 63, .setMixer 0, .setMuxEnabled false, .setMixer 1]
      powerOn.reset).sent = 252 :=
  (sound_coherent powerOn
    [.setMuxEnabled true, .setDacLevel 63, .setMixer 0, .setMuxEnabled false, .setMixer 1]
    (by decide)).2 5 |>.trans (by decide)

/-- Under XRoar's mixer the DAC moves to 63 with SNDEN high; SNDEN goes low and MAME is chosen.
The selector held 252, and the output has the idle level. -/
theorem sound_stale :
    ¬Always callBoth (fun x => x.1.sent = x.2.level)
      [.setMixer 0, .setMuxEnabled true, .setDacLevel 63, .setMuxEnabled false, .setMixer 1]
      (started powerOn) := by
  apply not_always_of_last
  decide

end CocoEmulator.Sound
