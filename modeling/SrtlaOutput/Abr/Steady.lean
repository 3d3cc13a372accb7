import SrtlaOutput.Abr.Learned

/-! On a steady path the target climbs to the maximum and stays there, in exact
arithmetic and on a clock that does not end. The trend dies out, the average closes in
on the round trip, and the minimum drifts up to it from below; from then on no sample
is congested and every sample may raise the target. -/

namespace Srtla.Abr.AbrController
open Smoothing

/-- What arrives from clock `t` on: fresh feedback every 20 ms with one round trip, one
latency and an empty queue. -/
structure Steady (c : AbrController ℚ) (t : Nat) (samples : Nat → AbrSample)
    (rttMs latencyMs : Nat) : Prop where
  up : ∀ n, (samples n).allLinksDown = false
  ready : ∀ n, (samples n).srt.ready = true
  newer : ∀ last ∈ c.lastSrtSampleMs, last < (samples 0).srt.sampledAtMs
  sampled : ∀ n, (samples n).srt.sampledAtMs < (samples (n + 1)).srt.sampledAtMs
  rtt_pos : 1 ≤ rttMs
  rtt_short : rttMs ≤ latencyMs / 5
  latency_min : 120 ≤ latencyMs
  latency_typed : latencyMs ≤ u32Max
  rtt : ∀ n, (samples n).srt.rttMs = rttMs
  latency : ∀ n, (samples n).srt.latencyMs = latencyMs
  empty : ∀ n, (samples n).srt.sendBufferPackets = 0
  starts : t ≤ (samples 0).nowMs
  advances : ∀ n, (samples (n + 1)).nowMs = (samples n).nowMs + 20

def after (clock : Clock) (c : AbrController ℚ) (samples : Nat → AbrSample) :
    Nat → AbrController ℚ
  | 0 => c
  | n + 1 => (after clock c samples n).decideOn clock (samples n)

theorem Reached.rttMinimum_pos {clock : Clock} {t : Nat} {c : AbrController ℚ}
    (h : Reached clock t c) : 0 < c.rttMinimum := by
  induction h with
  | new config =>
    have hstart : (0 : ℚ) < 200.0 := by norm_num
    exact hstart
  | @decide t c hc sample _ ih =>
    cases hup : sample.allLinksDown with
    | true =>
      rw [decideOn_of_down hup]
      exact ih
    | false =>
      by_cases hfresh : c.Fresh sample
      · obtain ⟨_, _, _, _, hdecide⟩ := decideOn_learned clock hfresh
        rw [hdecide]
        change 0 < (c.learn sample.srt).rttMinimum
        have hrtt : 0 < sample.srt.rttMs := by
          have husable := hfresh.usable
          simp only [unusable, Bool.or_eq_false_iff, beq_eq_false_iff_ne] at husable
          omega
        rw [learn_rttMinimum]
        split_ifs
        · exact_mod_cast hrtt
        · positivity
      · obtain ⟨_, hheld⟩ := decideOn_of_held clock hup hfresh
        rw [hheld]
        exact ih
  | setMax _ bps _ ih => exact ih
  | setCurrent _ bps ih => exact ih
  | reset _ bps ih =>
    have hstart : (0 : ℚ) < 200.0 := by norm_num
    exact hstart

/-- No congestion test takes the sample, and the raise would. -/
structure Clear (c : AbrController ℚ) (srt : SrtCapacity) : Prop where
  not_severe : ¬c.Severe srt
  not_heavy : ¬c.Heavy srt
  not_light : ¬c.Light srt
  may : c.MayIncrease srt

theorem climb {bps lo hi : Nat} (hlo : lo ≤ bps) (hhi : hi ≤ u64Max) :
    min hi (bps + 30000) ≤ clamp (increase bps) lo hi := by
  unfold increase saturatingAdd bitrateIncreaseMinBps bitrateIncreaseScale clamp
  split_ifs <;> omega

theorem clear_step (clock : Clock) {c : AbrController ℚ} (hrange : c.InRange)
    (hmax : c.config.maxBps ≤ u64Max) {sample : AbrSample} (hfresh : c.Fresh sample)
    (hclear : (c.learn sample.srt).Clear sample.srt) :
    (c.nextIncreaseMs < sample.nowMs ∧
      min c.config.maxBps (c.internalBitrateBps + 30000) ≤
        (c.decideOn clock sample).internalBitrateBps) ∨
    (sample.nowMs ≤ c.nextIncreaseMs ∧
      (c.decideOn clock sample).internalBitrateBps = c.internalBitrateBps ∧
      (c.decideOn clock sample).nextIncreaseMs = c.nextIncreaseMs) := by
  have hbranch := controlOn_branch clock (c.learn sample.srt) sample
  have hconfig := controlOn_config clock (c.learn sample.srt) sample
  rw [decideOn_of_fresh hfresh]
  simp only [clampInternal, hconfig, learn_config]
  generalize (c.learn sample.srt).controlOn clock sample = c' at hbranch
  cases hbranch with
  | severe hmin hsevere => exact absurd hsevere hclear.not_severe
  | heavy hsevere hdue hheavy => exact absurd hheavy hclear.not_heavy
  | light hsevere hdue hheavy hlight => exact absurd hlight hclear.not_light
  | increasing hsevere hdown hdue hmay => exact .inl ⟨hdue, climb hrange.min_le hmax⟩
  | hold hsevere hdown hup =>
    have hheld : sample.nowMs ≤ c.nextIncreaseMs :=
      Nat.not_lt.mp fun hdue => hup ⟨hdue, hclear.may⟩
    exact .inr ⟨hheld, clamp_of_mem hrange.min_le hrange.le_max, rfl⟩

section Path
variable {c : AbrController ℚ} {t : Nat} {samples : Nat → AbrSample} {rttMs latencyMs : Nat}

variable {clock : Clock}

theorem Steady.fresh (h : c.Steady t samples rttMs latencyMs) (n : Nat) :
    (c.after clock samples n).Fresh (samples n) := by
  have husable : ∀ n, unusable (samples n).srt = false := by
    intro n
    have hrtt := h.rtt_pos
    have hlatency := h.latency_min
    simp only [unusable, h.ready, h.rtt, h.latency, Bool.not_true, Bool.false_or,
      Bool.or_eq_false_iff, beq_eq_false_iff_ne]
    omega
  induction n with
  | zero => exact ⟨h.up 0, husable 0, h.newer⟩
  | succ n ih =>
    refine ⟨h.up _, husable _, ?_⟩
    obtain ⟨_, _, _, _, hdecide⟩ := decideOn_learned clock ih
    rw [after, hdecide]
    intro last hlast
    obtain rfl : (samples n).srt.sampledAtMs = last := Option.some.inj hlast
    exact h.sampled n

theorem Steady.learns (h : c.Steady t samples rttMs latencyMs) (clock : Clock) (n : Nat) :
    ∃ bps increaseMs decreaseMs state, c.after clock samples (n + 1) =
      { (c.after clock samples n).learn (samples n).srt with
        internalBitrateBps := bps
        nextIncreaseMs := increaseMs
        nextDecreaseMs := decreaseMs
        lastControlState := state } := decideOn_learned clock (h.fresh n)

theorem Steady.trend (h : c.Steady t samples rttMs latencyMs) (n : Nat) :
    (c.after clock samples (n + 2)).rttAverageDelta =
      (c.after clock samples (n + 1)).rttAverageDelta * 0.8 := by
  have hprevious : (c.after clock samples (n + 1)).previousRttMs = rttMs := by
    obtain ⟨_, _, _, _, hn⟩ := h.learns clock n
    rw [hn]
    exact h.rtt n
  obtain ⟨_, _, _, _, hn⟩ := h.learns clock (n + 1)
  rw [hn]
  change ((c.after clock samples (n + 1)).learn (samples (n + 1)).srt).rttAverageDelta = _
  rw [learn_rttAverageDelta, hprevious, h.rtt, sub_self, average, zero_mul, add_zero]

theorem Steady.average (h : c.Steady t samples rttMs latencyMs) (n : Nat) :
    |(c.after clock samples (n + 1)).rttAverage - rttMs| ≤
      |(c.after clock samples n).rttAverage - rttMs| * 0.99 := by
  obtain ⟨_, _, _, _, hn⟩ := h.learns clock n
  rw [hn]
  change |((c.after clock samples n).learn (samples n).srt).rttAverage - rttMs| ≤ _
  rw [learn_rttAverage, h.rtt]
  split_ifs
  · rw [sub_self, abs_zero]
    positivity
  · rw [average_sub (by norm_num), abs_mul, abs_of_nonneg (by norm_num : (0 : ℚ) ≤ 0.99)]

theorem Steady.minimum (h : c.Steady t samples rttMs latencyMs) (n : Nat) :
    min ((c.after clock samples n).rttMinimum * 1.001) rttMs ≤
      (c.after clock samples (n + 1)).rttMinimum := by
  obtain ⟨_, _, _, _, hn⟩ := h.learns clock n
  rw [hn]
  change _ ≤ ((c.after clock samples n).learn (samples n).srt).rttMinimum
  rw [learn_rttMinimum, h.rtt]
  split_ifs
  · exact min_le_right _ _
  · exact min_le_left _ _

theorem Steady.clear_of_close (h : c.Steady t samples rttMs latencyMs) (clock : Clock) (n : Nat)
    (htrend : ((c.after clock samples n).learn (samples n).srt).rttAverageDelta < 0.01)
    (haverage : |((c.after clock samples n).learn (samples n).srt).rttAverage - rttMs| < rttMs * 0.1)
    (hminimum : (rttMs : ℚ) ≤ ((c.after clock samples n).learn (samples n).srt).rttMinimum) :
    ((c.after clock samples n).learn (samples n).srt).Clear (samples n).srt := by
  have hshort := h.rtt_short
  have hlatency := h.latency_min
  have htyped := h.latency_typed
  have hu32 : u32Max = 4294967295 := rfl
  have hempty : ∀ packets, ¬(samples n).srt.sendBufferPackets > packets := by
    intro packets
    rw [h.empty]
    exact Nat.not_lt_zero packets
  constructor
  · rintro (hlong | hqueue)
    · rw [h.rtt, h.latency] at hlong
      omega
    · exact hempty _ hqueue
  · rintro (hlong | hqueue)
    · rw [h.rtt, h.latency] at hlong
      omega
    · exact hempty _ hqueue
  · rintro (hlong | hqueue)
    · -- the average is within a tenth of the round trip, the threshold 15 percent above it
      rw [h.rtt, learn_rttDecreaseAboveMs] at hlong
      apply Nat.not_lt.mpr _ hlong
      apply le_toU32 (by omega)
      have hclose := (abs_lt.mp haverage).1
      have hwide := le_max_right
        (((c.after clock samples n).learn (samples n).srt).rttJitter * 4.0)
        (((c.after clock samples n).learn (samples n).srt).rttAverage * 0.15)
      linarith
    · exact hempty _ hqueue
  · refine ⟨?_, htrend⟩
    -- the threshold is at least one above the minimum, which has reached the round trip
    rw [h.rtt, learn_rttIncreaseBelowMs]
    apply le_toU32 (n := rttMs + 1) (by omega)
    have hwide := le_max_left (1.0 : ℚ)
      (((c.after clock samples n).learn (samples n).srt).rttJitter * 2.0)
    push_cast
    linarith

theorem Steady.eventually_clear (h : c.Steady t samples rttMs latencyMs) (clock : Clock)
    (hpos : 0 < c.rttMinimum) :
    ∃ N, ∀ n ≥ N, ((c.after clock samples n).learn (samples n).srt).Clear (samples n).srt := by
  have hrtt : (0 : ℚ) < rttMs := Nat.cast_pos.mpr h.rtt_pos
  obtain ⟨N₁, htrend⟩ := eventually_lt (x := fun n => (c.after clock samples (n + 1)).rttAverageDelta)
    (p := 0.8) (by norm_num) (by norm_num) (fun n => (h.trend n).le)
    (show (0 : ℚ) < 0.01 by norm_num)
  obtain ⟨N₂, haverage⟩ := eventually_lt
    (x := fun n => |(c.after clock samples n).rttAverage - rttMs|) (p := 0.99) (by norm_num)
    (by norm_num) h.average (show (0 : ℚ) < rttMs * 0.1 by positivity)
  obtain ⟨N₃, hminimum⟩ := eventually_ge (x := fun n => (c.after clock samples n).rttMinimum)
    (g := 1.001) (by norm_num) hrtt.le hpos h.minimum
  refine ⟨max N₁ (max N₂ N₃), fun n hn => ?_⟩
  obtain ⟨hn₁, hn⟩ := max_le_iff.mp hn
  obtain ⟨hn₂, hn₃⟩ := max_le_iff.mp hn
  have htrend := htrend n hn₁
  have haverage := haverage (n + 1) (Nat.le_succ_of_le hn₂)
  have hminimum := hminimum (n + 1) (Nat.le_succ_of_le hn₃)
  obtain ⟨_, _, _, _, hlearn⟩ := h.learns clock n
  simp only [hlearn] at htrend haverage hminimum
  exact h.clear_of_close clock n htrend haverage hminimum

theorem Steady.reached (h : c.Steady t samples rttMs latencyMs) (hc : Reached .unbounded t c)
    (n : Nat) :
    ∃ t' ≤ (samples n).nowMs, Reached .unbounded t' (c.after .unbounded samples n) := by
  induction n with
  | zero => exact ⟨t, h.starts, hc⟩
  | succ n ih =>
    obtain ⟨t', hle, hreached⟩ := ih
    refine ⟨(samples n).nowMs, ?_, .decide hreached (samples n) hle⟩
    rw [h.advances]
    exact Nat.le_add_right _ _

theorem after_config (clock : Clock) (n : Nat) : (c.after clock samples n).config = c.config := by
  induction n with
  | zero => rfl
  | succ n ih => rw [after, decideOn_config, ih]

theorem Steady.now (h : c.Steady t samples rttMs latencyMs) (n j : Nat) :
    (samples (n + j)).nowMs = (samples n).nowMs + 20 * j := by
  induction j with
  | zero => rfl
  | succ j ih =>
    rw [← Nat.add_assoc, h.advances, ih]
    omega

def target (c : AbrController ℚ) (samples : Nat → AbrSample) (n : Nat) : Nat :=
  (c.after .unbounded samples n).internalBitrateBps

section Climb
variable {N : Nat}
  (h : c.Steady t samples rttMs latencyMs) (hc : Reached .unbounded t c)
  (hclear : ∀ n ≥ N,
    ((c.after .unbounded samples n).learn (samples n).srt).Clear (samples n).srt)
include h hc hclear

theorem Steady.clear_step {n : Nat} (hn : N ≤ n) :
    (min c.config.maxBps (c.target samples n + 30000) ≤ c.target samples (n + 1)) ∨
    ((samples n).nowMs ≤ (c.after .unbounded samples n).nextIncreaseMs ∧
      c.target samples (n + 1) = c.target samples n ∧
      (c.after .unbounded samples (n + 1)).nextIncreaseMs =
        (c.after .unbounded samples n).nextIncreaseMs) := by
  obtain ⟨t', _, hreached⟩ := h.reached hc n
  have hstep := AbrController.clear_step .unbounded hreached.inRange
    hreached.max_le_u64 (h.fresh n) (hclear n hn)
  rw [after_config] at hstep
  exact hstep.imp And.right id

theorem Steady.target_mono {n : Nat} (hn : N ≤ n) (j : Nat) :
    c.target samples n ≤ c.target samples (n + j) := by
  induction j with
  | zero => exact le_refl _
  | succ j ih =>
    obtain ⟨_, _, hreached⟩ := h.reached hc (n + j)
    have hmax := hreached.inRange.le_max
    rw [after_config] at hmax
    change c.target samples (n + j) ≤ c.config.maxBps at hmax
    rcases h.clear_step hc hclear (n := n + j) (Nat.le_add_right_of_le hn) with hup | ⟨_, hsame, _⟩
    · exact ih.trans ((le_min hmax (Nat.le_add_right _ _)).trans hup)
    · exact ih.trans hsame.ge

theorem Steady.raised {n : Nat} (hn : N ≤ n) :
    min c.config.maxBps (c.target samples n + 30000) ≤ c.target samples (n + 27) := by
  -- within 27 samples the target is raised: a raise is due 500 ms after the last one
  -- until the raise comes, the target and its deadline stay what they are at `n`
  have hwait : ∀ j, min c.config.maxBps (c.target samples n + 30000) ≤ c.target samples (n + j) ∨
      (c.target samples (n + j) = c.target samples n ∧
        (c.after .unbounded samples (n + j)).nextIncreaseMs =
          (c.after .unbounded samples n).nextIncreaseMs) := by
    intro j
    induction j with
    | zero => exact .inr ⟨rfl, rfl⟩
    | succ j ih =>
      have hj : N ≤ n + j := Nat.le_add_right_of_le hn
      rcases ih with hup | ⟨hsame, hnext⟩
      · exact .inl (hup.trans (h.target_mono hc hclear hj 1))
      · rcases h.clear_step hc hclear hj with hup | ⟨_, hsame', hnext'⟩
        · exact .inl (hsame ▸ hup)
        · exact .inr ⟨hsame'.trans hsame, hnext'.trans hnext⟩
  have h26 : N ≤ n + 26 := Nat.le_add_right_of_le hn
  rcases hwait 26 with hup | ⟨hsame, hnext⟩
  · exact hup.trans (h.target_mono hc hclear h26 1)
  · rcases h.clear_step hc hclear h26 with hup | ⟨hheld, _, _⟩
    · rwa [hsame] at hup
    · obtain ⟨t', hle, hreached⟩ := h.reached hc n
      have hdeadline := (hreached.deadlines_le (fun _ _ => le_refl _) fun _ _ h => h).2
      rw [h.now n 26, hnext] at hheld
      omega

theorem Steady.climbs (k : Nat) :
    min c.config.maxBps (30000 * k) ≤ c.target samples (N + 27 * k) := by
  induction k with
  | zero => exact (min_le_right _ _).trans (Nat.zero_le _)
  | succ k ih =>
    have hup := h.raised hc hclear (n := N + 27 * k) (Nat.le_add_right _ _)
    have hindex : N + 27 * (k + 1) = N + 27 * k + 27 := by omega
    rw [hindex]
    omega

end Climb

/-- On a steady path the target reaches the maximum after finitely many samples and
stays there. -/
theorem steady_reaches_ceiling (hc : Reached .unbounded t c)
    (h : c.Steady t samples rttMs latencyMs) :
    ∃ N, ∀ n ≥ N, (c.after .unbounded samples n).internalBitrateBps = c.config.maxBps := by
  obtain ⟨N, hclear⟩ := h.eventually_clear .unbounded hc.rttMinimum_pos
  refine ⟨N + 27 * c.config.maxBps, fun n hn => ?_⟩
  obtain ⟨j, rfl⟩ := Nat.exists_eq_add_of_le hn
  have hreach := h.climbs hc hclear c.config.maxBps
  have hmono := h.target_mono hc hclear (n := N + 27 * c.config.maxBps) (Nat.le_add_right _ _) j
  obtain ⟨_, _, hreached⟩ := h.reached hc (N + 27 * c.config.maxBps + j)
  have hmax := hreached.inRange.le_max
  rw [after_config] at hmax
  apply le_antisymm hmax
  change c.config.maxBps ≤ c.target samples (N + 27 * c.config.maxBps + j)
  omega

end Path

def calmSample (n : Nat) : AbrSample where
  links := []
  audioBps := 128000
  currentVideoBps := 1500000
  nowMs := 20 * n
  capacityReady := true
  allLinksDown := false
  srt :=
    { ready := true
      sampledAtMs := 20 * n
      bandwidthBps := 0
      sendRateBps := 1500000
      sendBufferMs := 0
      sendBufferPackets := 0
      rttMs := 50
      latencyMs := 2000
      retransmitPermille := 0
      droppedBytes := 0 }

theorem calm_steady : (new wideConfig).Steady 0 calmSample 50 2000 where
  rtt_pos := by decide
  rtt_short := by decide
  latency_min := by decide
  latency_typed := by decide
  up _ := rfl
  ready _ := rfl
  newer := by simp [new]
  sampled n := by simp only [calmSample]; omega
  rtt _ := rfl
  latency _ := rfl
  empty _ := rfl
  starts := Nat.zero_le _
  advances n := by simp only [calmSample]; omega

theorem steady_reaches_ceiling_calm :
    ∃ N, ∀ n ≥ N,
      ((new wideConfig : AbrController ℚ).after .unbounded calmSample n).internalBitrateBps =
        6000000 :=
  steady_reaches_ceiling (.new wideConfig (by decide) 0) calm_steady

end Srtla.Abr.AbrController
