import SrtlaOutput.Abr.Range

/-! What one sample can do to the controller, said once for every clock, and the states
that runs of its operations reach. -/

namespace Srtla.Abr

/-- How a deadline is taken from the clock, and which clock value may follow which. -/
structure Clock where
  later : Nat → Nat → Nat
  follows : Nat → Nat → Prop

/-- The `u64` clock of the source, with arbitrary readings. -/
def Clock.u64 : Clock where
  later := saturatingAdd
  follows _ _ := True

def Clock.forward : Clock where
  later := saturatingAdd
  follows := (· ≤ ·)

/-- A clock that never ends, for what holds in the long run. -/
def Clock.unbounded : Clock where
  later := (· + ·)
  follows := (· ≤ ·)

def wideConfig : AbrConfig where
  maxBps := 6000000

namespace AbrController
variable {F : Type}

/-! The tests of the control law, on thresholds already updated from the sample. -/

def Severe (c : AbrController F) (srt : SrtCapacity) : Prop :=
  srt.rttMs ≥ srt.latencyMs / 3 ∨ srt.sendBufferPackets > c.queueSeverePackets

def Heavy (c : AbrController F) (srt : SrtCapacity) : Prop :=
  srt.rttMs > srt.latencyMs / 5 ∨ srt.sendBufferPackets > c.queueHeavyPackets

def Light (c : AbrController F) (srt : SrtCapacity) : Prop :=
  srt.rttMs > c.rttDecreaseAboveMs ∨ srt.sendBufferPackets > c.queueLightPackets

def Congested (c : AbrController F) (srt : SrtCapacity) : Prop :=
  c.Severe srt ∨ c.Heavy srt ∨ c.Light srt

instance (c : AbrController F) (srt : SrtCapacity) : Decidable (c.Severe srt) :=
  inferInstanceAs (Decidable (_ ∨ _))

instance (c : AbrController F) (srt : SrtCapacity) : Decidable (c.Heavy srt) :=
  inferInstanceAs (Decidable (_ ∨ _))

instance (c : AbrController F) (srt : SrtCapacity) : Decidable (c.Light srt) :=
  inferInstanceAs (Decidable (_ ∨ _))

/-- A sample `decide` consumes: some link is up, and there is feedback newer than the
last sample consumed. -/
structure Fresh (c : AbrController F) (sample : AbrSample) : Prop where
  up : sample.allLinksDown = false
  usable : unusable sample.srt = false
  newer : ∀ last ∈ c.lastSrtSampleMs, last < sample.srt.sampledAtMs

theorem fresh_iff {c : AbrController F} {sample : AbrSample} :
    c.Fresh sample ↔ sample.allLinksDown = false ∧ c.holds sample.srt = false := by
  have hnewer : (c.lastSrtSampleMs == some sample.srt.sampledAtMs) = false ∧
      (c.lastSrtSampleMs.any fun last => sample.srt.sampledAtMs < last) = false ↔
      ∀ last ∈ c.lastSrtSampleMs, last < sample.srt.sampledAtMs := by
    cases c.lastSrtSampleMs with
    | none => simp
    | some last =>
      simp only [Option.some_beq_some, beq_eq_false_iff_ne, Option.any_some,
        decide_eq_false_iff_not, Option.mem_def, Option.some.injEq, forall_eq']
      omega
  simp only [holds, Bool.or_eq_false_iff, and_assoc, hnewer]
  exact ⟨fun h => ⟨h.up, h.usable, h.newer⟩, fun h => ⟨h.1, h.2.1, h.2.2⟩⟩

instance (c : AbrController F) (sample : AbrSample) : Decidable (c.Fresh sample) :=
  decidable_of_iff _ fresh_iff.symm

def increase (bps : Nat) : Nat :=
  saturatingAdd bps (saturatingAdd bitrateIncreaseMinBps (bps / bitrateIncreaseScale))

def heavyDecrease (bps : Nat) : Nat :=
  bps - saturatingAdd bitrateDecreaseMinBps (bps / bitrateDecreaseScale)

variable [F64 F]

def MayIncrease (c : AbrController F) (srt : SrtCapacity) : Prop :=
  srt.rttMs < c.rttIncreaseBelowMs ∧ c.rttAverageDelta < 0.01

instance (c : AbrController F) (srt : SrtCapacity) : Decidable (c.MayIncrease srt) :=
  inferInstanceAs (Decidable (_ ∧ _))

def controlOn (clock : Clock) (c : AbrController F) (sample : AbrSample) : AbrController F :=
  if c.internalBitrateBps > c.config.minBps ∧ c.Severe sample.srt then
    { c with
      internalBitrateBps := c.config.minBps
      nextDecreaseMs := clock.later sample.nowMs bitrateDecreaseIntervalMs
      lastControlState := .severe }
  else if sample.nowMs > c.nextDecreaseMs ∧ c.Heavy sample.srt then
    { c with
      internalBitrateBps := heavyDecrease c.internalBitrateBps
      nextDecreaseMs := clock.later sample.nowMs bitrateDecreaseFastIntervalMs
      lastControlState := .heavy }
  else if sample.nowMs > c.nextDecreaseMs ∧ c.Light sample.srt then
    { c with
      internalBitrateBps := c.internalBitrateBps - bitrateDecreaseMinBps
      nextDecreaseMs := clock.later sample.nowMs bitrateDecreaseIntervalMs
      lastControlState := .light }
  else if sample.nowMs > c.nextIncreaseMs ∧ c.MayIncrease sample.srt then
    { c with
      internalBitrateBps := increase c.internalBitrateBps
      nextIncreaseMs := clock.later sample.nowMs bitrateIncreaseIntervalMs
      lastControlState := .increasing }
  else { c with lastControlState := .hold }

theorem control_eq_controlOn (c : AbrController F) (sample : AbrSample) :
    (c.control sample).1 = c.controlOn .u64 sample := by
  simp only [control, controlOn, Severe, Heavy, Light, MayIncrease, apply_ite Prod.fst]
  rfl

def decideOn (clock : Clock) (c : AbrController F) (sample : AbrSample) : AbrController F :=
  if sample.allLinksDown then
    { c with internalBitrateBps := c.config.minBps, lastControlState := .disconnected }
  else if c.holds sample.srt then
    if unusable sample.srt then { c with lastControlState := .waiting } else c
  else ((c.learn sample.srt).controlOn clock sample).clampInternal

theorem decide_eq_decideOn (c : AbrController F) (sample : AbrSample) :
    (c.decide sample).1 = c.decideOn .u64 sample := by
  simp only [decide, decideOn, apply_ite Prod.fst, control_eq_controlOn]

inductive Branch (clock : Clock) (c : AbrController F) (sample : AbrSample) :
    AbrController F → Prop
  | severe (hmin : c.config.minBps < c.internalBitrateBps) (hsevere : c.Severe sample.srt) :
      Branch clock c sample { c with
        internalBitrateBps := c.config.minBps
        nextDecreaseMs := clock.later sample.nowMs bitrateDecreaseIntervalMs
        lastControlState := .severe }
  | heavy (hsevere : ¬(c.config.minBps < c.internalBitrateBps ∧ c.Severe sample.srt))
      (hdue : c.nextDecreaseMs < sample.nowMs) (hheavy : c.Heavy sample.srt) :
      Branch clock c sample { c with
        internalBitrateBps := heavyDecrease c.internalBitrateBps
        nextDecreaseMs := clock.later sample.nowMs bitrateDecreaseFastIntervalMs
        lastControlState := .heavy }
  | light (hsevere : ¬(c.config.minBps < c.internalBitrateBps ∧ c.Severe sample.srt))
      (hdue : c.nextDecreaseMs < sample.nowMs) (hheavy : ¬c.Heavy sample.srt)
      (hlight : c.Light sample.srt) :
      Branch clock c sample { c with
        internalBitrateBps := c.internalBitrateBps - bitrateDecreaseMinBps
        nextDecreaseMs := clock.later sample.nowMs bitrateDecreaseIntervalMs
        lastControlState := .light }
  | increasing (hsevere : ¬(c.config.minBps < c.internalBitrateBps ∧ c.Severe sample.srt))
      (hdown : ¬(c.nextDecreaseMs < sample.nowMs ∧ (c.Heavy sample.srt ∨ c.Light sample.srt)))
      (hdue : c.nextIncreaseMs < sample.nowMs) (hmay : c.MayIncrease sample.srt) :
      Branch clock c sample { c with
        internalBitrateBps := increase c.internalBitrateBps
        nextIncreaseMs := clock.later sample.nowMs bitrateIncreaseIntervalMs
        lastControlState := .increasing }
  | hold (hsevere : ¬(c.config.minBps < c.internalBitrateBps ∧ c.Severe sample.srt))
      (hdown : ¬(c.nextDecreaseMs < sample.nowMs ∧ (c.Heavy sample.srt ∨ c.Light sample.srt)))
      (hup : ¬(c.nextIncreaseMs < sample.nowMs ∧ c.MayIncrease sample.srt)) :
      Branch clock c sample { c with lastControlState := .hold }

theorem controlOn_branch (clock : Clock) (c : AbrController F) (sample : AbrSample) :
    Branch clock c sample (c.controlOn clock sample) := by
  unfold controlOn
  split_ifs with hsevere hheavy hlight hup
  · exact .severe hsevere.1 hsevere.2
  · exact .heavy hsevere hheavy.1 hheavy.2
  · exact .light hsevere hlight.1 (fun h => hheavy ⟨hlight.1, h⟩) hlight.2
  · exact .increasing hsevere (fun h => h.2.elim (fun h' => hheavy ⟨h.1, h'⟩)
      fun h' => hlight ⟨h.1, h'⟩) hup.1 hup.2
  · exact .hold hsevere (fun h => h.2.elim (fun h' => hheavy ⟨h.1, h'⟩)
      fun h' => hlight ⟨h.1, h'⟩) hup

theorem decideOn_of_fresh {clock : Clock} {c : AbrController F} {sample : AbrSample}
    (h : c.Fresh sample) :
    c.decideOn clock sample = ((c.learn sample.srt).controlOn clock sample).clampInternal := by
  obtain ⟨hup, hfresh⟩ := fresh_iff.mp h
  simp only [decideOn, hup, hfresh, Bool.false_eq_true, if_false]

theorem decideOn_of_held (clock : Clock) {c : AbrController F} {sample : AbrSample}
    (hup : sample.allLinksDown = false) (h : ¬c.Fresh sample) :
    ∃ st, c.decideOn clock sample = { c with lastControlState := st } := by
  have hhold : c.holds sample.srt = true := by
    by_contra hn
    exact h (fresh_iff.mpr ⟨hup, by simpa using hn⟩)
  simp only [decideOn, hup, hhold, Bool.false_eq_true, if_false, if_true]
  split_ifs
  · exact ⟨.waiting, rfl⟩
  · exact ⟨c.lastControlState, rfl⟩

theorem decideOn_of_down {clock : Clock} {c : AbrController F} {sample : AbrSample}
    (hdown : sample.allLinksDown = true) :
    c.decideOn clock sample =
      { c with internalBitrateBps := c.config.minBps, lastControlState := .disconnected } := by
  simp only [decideOn, hdown, if_true]

/-- The states a controller can be in when its clock stands at `t`. Limits are `u64`. -/
inductive Reached (clock : Clock) : Nat → AbrController F → Prop
  | new (config : AbrConfig) (h : config.maxBps ≤ u64Max) (t : Nat) :
      Reached clock t (AbrController.new config)
  | decide {t : Nat} {c : AbrController F} (hc : Reached clock t c) (sample : AbrSample)
      (h : clock.follows t sample.nowMs) : Reached clock sample.nowMs (c.decideOn clock sample)
  | setMax {t : Nat} {c : AbrController F} (hc : Reached clock t c) (bps : Nat)
      (h : bps ≤ u64Max) : Reached clock t (c.setMaxBps bps).1
  | setCurrent {t : Nat} {c : AbrController F} (hc : Reached clock t c) (bps : Nat) :
      Reached clock t (c.setCurrentBps bps).1
  | reset {t : Nat} {c : AbrController F} (hc : Reached clock t c) (bps : Nat) :
      Reached clock t (c.resetForBitrate bps)

variable {clock : Clock}

@[simp] theorem controlOn_config (clock : Clock) (c : AbrController F) (sample : AbrSample) :
    (c.controlOn clock sample).config = c.config := by
  have h := controlOn_branch clock c sample
  generalize c.controlOn clock sample = c' at h
  cases h <;> rfl

@[simp] theorem decideOn_config (clock : Clock) (c : AbrController F) (sample : AbrSample) :
    (c.decideOn clock sample).config = c.config := by
  simp only [decideOn, apply_ite AbrController.config, clampInternal, controlOn_config,
    learn_config, ite_self]

theorem decideOn_inRange (clock : Clock) {c : AbrController F} (h : c.InRange)
    (sample : AbrSample) :
    (c.decideOn clock sample).InRange := by
  cases hup : sample.allLinksDown with
  | true =>
    rw [decideOn_of_down hup]
    exact ⟨h.min_le_max, le_refl _, h.min_le_max⟩
  | false =>
    by_cases hfresh : c.Fresh sample
    · rw [decideOn_of_fresh hfresh]
      have hconfig : ((c.learn sample.srt).controlOn clock sample).clampInternal.config =
          c.config := controlOn_config _ _ _
      apply h.of_clamp hconfig
      simp only [clampInternal, controlOn_config, learn_config]
      rfl
    · obtain ⟨st, hc⟩ := decideOn_of_held clock hup hfresh
      rw [hc]
      exact ⟨h.min_le_max, h.min_le, h.le_max⟩

theorem Reached.inRange {t : Nat} {c : AbrController F} (h : Reached clock t c) :
    c.InRange := by
  induction h with
  | new config => exact new_inRange config
  | decide _ sample _ ih => exact decideOn_inRange clock ih sample
  | setMax _ bps _ ih => exact setMaxBps_inRange ih bps
  | setCurrent _ bps ih => exact setCurrentBps_inRange ih bps
  | reset _ bps ih => exact resetForBitrate_inRange ih bps

theorem Reached.max_le_u64 {t : Nat} {c : AbrController F} (h : Reached clock t c) :
    c.config.maxBps ≤ u64Max := by
  induction h with
  | new config hmax =>
    exact max_le hmax (by decide)
  | decide _ sample _ ih => rwa [decideOn_config]
  | setMax hc bps hbps ih =>
    exact max_le (max_le hbps (hc.inRange.min_le_max.trans ih)) (by decide)
  | setCurrent _ bps ih => exact ih
  | reset _ bps ih => exact ih

theorem Reached.deadlines_le {t : Nat} {c : AbrController F} (h : Reached clock t c)
    (hlater : ∀ a b, clock.later a b ≤ a + b) (hfollows : ∀ a b, clock.follows a b → a ≤ b) :
    c.nextDecreaseMs ≤ t + 250 ∧ c.nextIncreaseMs ≤ t + 500 := by
  induction h with
  | new config _ t => exact ⟨Nat.zero_le _, Nat.zero_le _⟩
  | @decide t c hc sample hclock ih =>
    have hforward := hfollows _ _ hclock
    have h200 := hlater sample.nowMs bitrateDecreaseIntervalMs
    have h250 := hlater sample.nowMs bitrateDecreaseFastIntervalMs
    have h500 := hlater sample.nowMs bitrateIncreaseIntervalMs
    unfold bitrateDecreaseIntervalMs at h200
    unfold bitrateDecreaseFastIntervalMs at h250
    unfold bitrateIncreaseIntervalMs at h500
    -- either the deadlines stay, or one of them is taken from this sample's clock
    have hbranch := controlOn_branch clock (c.learn sample.srt) sample
    cases hup : sample.allLinksDown with
    | true =>
      rw [decideOn_of_down hup]
      exact ⟨by simp only; omega, by simp only; omega⟩
    | false =>
      by_cases hfresh : c.Fresh sample
      · rw [decideOn_of_fresh hfresh]
        have hlearned : (c.learn sample.srt).nextDecreaseMs = c.nextDecreaseMs ∧
            (c.learn sample.srt).nextIncreaseMs = c.nextIncreaseMs := ⟨rfl, rfl⟩
        simp only [clampInternal]
        generalize (c.learn sample.srt).controlOn clock sample = c' at hbranch
        cases hbranch <;>
          simp only [bitrateDecreaseIntervalMs, bitrateDecreaseFastIntervalMs,
            bitrateIncreaseIntervalMs] <;> omega
      · obtain ⟨st, hheld⟩ := decideOn_of_held clock hup hfresh
        rw [hheld]
        exact ⟨by simp only; omega, by simp only; omega⟩
  | setMax _ bps _ ih => exact ih
  | setCurrent _ bps ih => exact ih
  | reset _ bps ih => exact ⟨Nat.zero_le _, Nat.zero_le _⟩

end AbrController
end Srtla.Abr
