import SrtlaOutput.Abr.Learned

/-! The learned baselines stay within the samples since the last reset. The minimum of
the round trip alone can leave them: it drifts upwards by a thousandth with each sample,
and a sample of exactly 100 ms, or one under a rising trend, does not pull it back. -/

namespace Srtla.Abr

/-! A history lists the samples consumed since the last reset, the newest first. -/

def previousRtt : List SrtCapacity → Nat
  | [] => 300
  | srt :: _ => srt.rttMs

def trend : List SrtCapacity → ℚ
  | [] => 0
  | srt :: past => Smoothing.average 0.8 0.2 (trend past) ((srt.rttMs : ℚ) - (previousRtt past : ℚ))

/-- The samples since the last one that could pull the minimum back. -/
def stalled : List SrtCapacity → Nat
  | [] => 0
  | srt :: past => if srt.rttMs ≠ 100 ∧ trend (srt :: past) < 1 then 0 else stalled past + 1

namespace AbrController
open Smoothing

/-- The states after a reset and the given samples, with anything else in between. -/
inductive Since : List SrtCapacity → AbrController ℚ → Prop
  | new (config : AbrConfig) : Since [] (AbrController.new config)
  | reset (c : AbrController ℚ) (bps : Nat) : Since [] (c.resetForBitrate bps)
  | consumed {past : List SrtCapacity} {c : AbrController ℚ} (hc : Since past c)
      {sample : AbrSample} (h : c.Fresh sample) : Since (sample.srt :: past) (c.decide sample).1
  | ignored {past : List SrtCapacity} {c : AbrController ℚ} (hc : Since past c)
      {sample : AbrSample} (h : ¬c.Fresh sample) : Since past (c.decide sample).1
  | setMax {past : List SrtCapacity} {c : AbrController ℚ} (hc : Since past c) (bps : Nat) :
      Since past (c.setMaxBps bps).1
  | setCurrent {past : List SrtCapacity} {c : AbrController ℚ} (hc : Since past c) (bps : Nat) :
      Since past (c.setCurrentBps bps).1

/-- Every baseline against bounds on the samples it was learned from: `R` on the round
trips, `Q` on the queue and `S` on the send rate. -/
structure Baselines (R Q S : Nat) (past : List SrtCapacity) (c : AbrController ℚ) : Prop where
  queue_average : 0 ≤ c.sendBufferAverage ∧ c.sendBufferAverage ≤ Q
  queue_jitter : 0 ≤ c.sendBufferJitter ∧ c.sendBufferJitter ≤ Q
  rtt_none : past = [] → c.rttAverage = 0
  rtt_average : past ≠ [] → ∀ lo hi : Nat, (∀ srt ∈ past, lo ≤ srt.rttMs ∧ srt.rttMs ≤ hi) →
    lo ≤ c.rttAverage ∧ c.rttAverage ≤ hi
  rtt_trend : c.rttAverageDelta = trend past
  rtt_previous : c.previousRttMs = previousRtt past
  rtt_minimum : 0 < c.rttMinimum ∧ c.rttMinimum ≤ 1.001 ^ stalled past * max 200 (R : ℚ)
  rtt_jitter : 0 ≤ c.rttJitter ∧ c.rttJitter ≤ R
  throughput : 0 ≤ c.throughput ∧ c.throughput ≤ (S : ℚ) / 1024

structure Thresholds (R Q : Nat) (past : List SrtCapacity) (c : AbrController ℚ) : Prop where
  severe : c.queueSeverePackets ≤ 8 * Q
  heavy : c.queueHeavyPackets ≤ max 50 (4 * Q)
  light : c.queueLightPackets ≤ max 50 (4 * Q)
  decrease : c.rttDecreaseAboveMs ≤ 5 * R
  increase : (c.rttIncreaseBelowMs : ℚ) ≤
    1.001 ^ stalled past * max 200 (R : ℚ) + max 1 (2 * (R : ℚ))

variable {R Q S : Nat} {past : List SrtCapacity} {c : AbrController ℚ}

theorem frame (h : c.Baselines R Q S past ∧ c.Thresholds R Q past) (config : AbrConfig)
    (bps increaseMs decreaseMs : Nat) (state : ControlState) :
    let c' := { c with
      config
      internalBitrateBps := bps
      nextIncreaseMs := increaseMs
      nextDecreaseMs := decreaseMs
      lastControlState := state }
    c'.Baselines R Q S past ∧ c'.Thresholds R Q past :=
  ⟨⟨h.1.queue_average, h.1.queue_jitter, h.1.rtt_none, h.1.rtt_average, h.1.rtt_trend,
      h.1.rtt_previous, h.1.rtt_minimum, h.1.rtt_jitter, h.1.throughput⟩,
    ⟨h.2.severe, h.2.heavy, h.2.light, h.2.decrease, h.2.increase⟩⟩

theorem new_baselines (config : AbrConfig) :
    (new config : AbrController ℚ).Baselines R Q S [] ∧ (new config).Thresholds R Q [] := by
  have hzero : (0.0 : ℚ) = 0 := by norm_num
  have hmin : (200.0 : ℚ) = 200 := by norm_num
  refine ⟨⟨?_, ?_, fun _ => hzero, fun h => absurd rfl h, hzero, rfl, ?_, ?_, ?_⟩,
    ⟨Nat.zero_le _, Nat.zero_le _, Nat.zero_le _, Nat.zero_le _, ?_⟩⟩ <;>
    simp only [new, hzero, hmin, stalled, pow_zero, one_mul]
  · exact ⟨le_refl _, Nat.cast_nonneg _⟩
  · exact ⟨le_refl _, Nat.cast_nonneg _⟩
  · exact ⟨by norm_num, le_max_left _ _⟩
  · exact ⟨le_refl _, Nat.cast_nonneg _⟩
  · exact ⟨le_refl _, by positivity⟩
  · rw [Nat.cast_zero]
    positivity

section Step
variable {srt : SrtCapacity}

theorem Baselines.learn_minimum (h : c.Baselines R Q S past) (hrtt : 1 ≤ srt.rttMs)
    (hR : srt.rttMs ≤ R) (htrend : (c.learn srt).rttAverageDelta = trend (srt :: past)) :
    0 < (c.learn srt).rttMinimum ∧
      (c.learn srt).rttMinimum ≤ 1.001 ^ stalled (srt :: past) * max 200 (R : ℚ) := by
  obtain ⟨hpos, hle⟩ := h.rtt_minimum
  have hone : (1.0 : ℚ) = 1 := by norm_num
  have hrtt' : (0 : ℚ) < srt.rttMs := by exact_mod_cast hrtt
  have hR' : (srt.rttMs : ℚ) ≤ max 200 (R : ℚ) :=
    (Nat.cast_le.mpr hR).trans (le_max_right _ _)
  rw [learn_rttMinimum, htrend, hone, stalled]
  by_cases hpull : srt.rttMs ≠ 100 ∧ trend (srt :: past) < 1
  · -- the sample may pull the minimum back, and does where the drift has passed it
    rw [if_pos hpull, pow_zero, one_mul]
    split_ifs with hbelow
    · exact ⟨hrtt', hR'⟩
    · have hdrift : c.rttMinimum * 1.001 ≤ srt.rttMs := by
        by_contra hlt
        exact hbelow ⟨hpull.1, not_le.mp hlt, hpull.2⟩
      exact ⟨by positivity, hdrift.trans hR'⟩
  · rw [if_neg hpull, if_neg fun hall => hpull ⟨hall.1, hall.2.2⟩]
    refine ⟨by positivity, ?_⟩
    calc c.rttMinimum * 1.001
        ≤ 1.001 ^ stalled past * max 200 (R : ℚ) * 1.001 :=
          mul_le_mul_of_nonneg_right hle (by norm_num)
      _ = 1.001 ^ (stalled past + 1) * max 200 (R : ℚ) := by ring

theorem Baselines.learn_average (h : c.Baselines R Q S past)
    {lo hi : Nat} (hmem : ∀ s ∈ srt :: past, lo ≤ s.rttMs ∧ s.rttMs ≤ hi) :
    lo ≤ (c.learn srt).rttAverage ∧ (c.learn srt).rttAverage ≤ hi := by
  obtain ⟨hlo, hhi⟩ := hmem srt List.mem_cons_self
  have hlo' : (lo : ℚ) ≤ srt.rttMs := Nat.cast_le.mpr hlo
  have hhi' : (srt.rttMs : ℚ) ≤ hi := Nat.cast_le.mpr hhi
  rw [learn_rttAverage]
  split_ifs with hfirst
  · exact ⟨hlo', hhi'⟩
  · have hpast : past ≠ [] := fun hnil => hfirst (h.rtt_none hnil)
    obtain ⟨halo, hahi⟩ :=
      h.rtt_average hpast lo hi fun s hs => hmem s (List.mem_cons_of_mem _ hs)
    exact ⟨le_average (by norm_num) (by norm_num) (by norm_num) halo hlo',
      average_le (by norm_num) (by norm_num) (by norm_num) hahi hhi'⟩

theorem Baselines.learn (h : c.Baselines R Q S past) (hrtt : 1 ≤ srt.rttMs) (hR : srt.rttMs ≤ R)
    (hQ : srt.sendBufferPackets ≤ Q) (hS : srt.sendRateBps ≤ S) :
    (c.learn srt).Baselines R Q S (srt :: past) := by
  have hQ' : (srt.sendBufferPackets : ℚ) ≤ Q := Nat.cast_le.mpr hQ
  have hR' : (srt.rttMs : ℚ) ≤ R := Nat.cast_le.mpr hR
  have hS' : (srt.sendRateBps : ℚ) / 1024 ≤ (S : ℚ) / 1024 :=
    div_le_div_of_nonneg_right (Nat.cast_le.mpr hS) (by norm_num)
  have hqueue := Nat.cast_nonneg (α := ℚ) srt.sendBufferPackets
  have hrate : (0 : ℚ) ≤ (srt.sendRateBps : ℚ) / 1024 := by positivity
  have htrend : (c.learn srt).rttAverageDelta = trend (srt :: past) := by
    rw [learn_rttAverageDelta, h.rtt_trend, h.rtt_previous, trend]
  -- a difference between two samples is at most the later one
  have hqueueDelta : (srt.sendBufferPackets : ℚ) - (c.previousSendBuffer : ℚ) ≤ Q :=
    (sub_le_self _ (Nat.cast_nonneg _)).trans hQ'
  have hrttDelta : (srt.rttMs : ℚ) - (c.previousRttMs : ℚ) ≤ R :=
    (sub_le_self _ (Nat.cast_nonneg _)).trans hR'
  refine ⟨?_, ?_, fun hnil => absurd hnil (List.cons_ne_nil _ _), fun _ lo hi => h.learn_average,
    htrend, rfl, h.learn_minimum hrtt hR htrend, ?_, ?_⟩
  · rw [learn_sendBufferAverage]
    exact ⟨le_average (by norm_num) (by norm_num) (by norm_num) h.queue_average.1 hqueue,
      average_le (by norm_num) (by norm_num) (by norm_num) h.queue_average.2 hQ'⟩
  · rw [learn_sendBufferJitter]
    exact ⟨peak_nonneg (by norm_num) h.queue_jitter.1,
      peak_le (by norm_num) h.queue_jitter.1 h.queue_jitter.2 hqueueDelta⟩
  · rw [learn_rttJitter]
    exact ⟨peak_nonneg (by norm_num) h.rtt_jitter.1,
      peak_le (by norm_num) h.rtt_jitter.1 h.rtt_jitter.2 hrttDelta⟩
  · rw [learn_throughput]
    exact ⟨le_average (by norm_num) (by norm_num) (by norm_num) h.throughput.1 hrate,
      average_le (by norm_num) (by norm_num) (by norm_num) h.throughput.2 hS'⟩

theorem toU32_le_nat {v : ℚ} {n : Nat} (h : v ≤ n) : toU32 v ≤ n := by
  have hle : (toU32 v : ℚ) ≤ n := toU32_le h (Nat.cast_nonneg _)
  exact_mod_cast hle

theorem Baselines.thresholds (h : (c.learn srt).Baselines R Q S (srt :: past))
    (hmem : ∀ s ∈ srt :: past, 1 ≤ s.rttMs ∧ s.rttMs ≤ R) :
    (c.learn srt).Thresholds R Q (srt :: past) := by
  -- the thresholds are computed from the baselines the same sample has just updated
  obtain ⟨hqa0, hqa⟩ := h.queue_average
  obtain ⟨hqj0, hqj⟩ := h.queue_jitter
  obtain ⟨hra0, hra⟩ := h.rtt_average (List.cons_ne_nil _ _) 1 R hmem
  obtain ⟨hrj0, hrj⟩ := h.rtt_jitter
  obtain ⟨hmin0, hmin⟩ := h.rtt_minimum
  have hQ : (0 : ℚ) ≤ Q := Nat.cast_nonneg _
  have hR : (0 : ℚ) ≤ R := Nat.cast_nonneg _
  constructor
  · rw [learn_queueSeverePackets]
    apply toU32_le_nat
    push_cast
    linarith
  · rw [learn_queueHeavyPackets]
    apply toU32_le_nat
    push_cast
    apply (min_le_left _ _).trans (max_le_max (by norm_num) _)
    have hwide : max ((c.learn srt).sendBufferJitter * 3.0) (c.learn srt).sendBufferAverage ≤
        3 * (Q : ℚ) := max_le (by linarith) (by linarith)
    linarith
  · rw [learn_queueLightPackets]
    apply toU32_le_nat
    push_cast
    exact max_le_max (by norm_num) (by linarith)
  · rw [learn_rttDecreaseAboveMs]
    apply toU32_le_nat
    push_cast
    have hwide : max ((c.learn srt).rttJitter * 4.0) ((c.learn srt).rttAverage * 0.15) ≤
        4 * (R : ℚ) := max_le (by linarith) (by linarith)
    linarith
  · rw [learn_rttIncreaseBelowMs]
    apply toU32_le
    · exact add_le_add hmin (max_le_max (by norm_num) (by linarith))
    · positivity

end Step

theorem Since.rtt_pos (h : Since past c) : ∀ srt ∈ past, 1 ≤ srt.rttMs := by
  induction h with
  | new config => simp
  | reset c bps => simp
  | @consumed past c hc sample hfresh ih =>
    have hrtt : 1 ≤ sample.srt.rttMs := by
      have husable := hfresh.usable
      simp only [unusable, Bool.or_eq_false_iff, beq_eq_false_iff_ne] at husable
      omega
    intro srt hsrt
    rcases List.mem_cons.mp hsrt with rfl | hpast
    · exact hrtt
    · exact ih srt hpast
  | ignored hc h ih => exact ih
  | setMax hc bps ih => exact ih
  | setCurrent hc bps ih => exact ih

/-- In every state since a reset the baselines and the published thresholds are bounded
by what bounds the samples since then; the drift of the minimum is the power. -/
theorem learned_within (h : Since past c)
    (hbound : ∀ srt ∈ past, srt.rttMs ≤ R ∧ srt.sendBufferPackets ≤ Q ∧ srt.sendRateBps ≤ S) :
    c.Baselines R Q S past ∧ c.Thresholds R Q past := by
  induction h with
  | new config => exact new_baselines config
  | reset c bps => exact frame (new_baselines c.config) c.config _ 0 0 .waiting
  | @consumed past c hc sample hfresh ih =>
    have hpos := (Since.consumed hc hfresh).rtt_pos
    obtain ⟨hR, hQ, hS⟩ := hbound sample.srt List.mem_cons_self
    obtain ⟨hbase, _⟩ := ih fun srt hsrt => hbound srt (List.mem_cons_of_mem _ hsrt)
    have hlearn := hbase.learn (hpos sample.srt List.mem_cons_self) hR hQ hS
    have hthresholds := hlearn.thresholds fun srt hsrt => ⟨hpos srt hsrt, (hbound srt hsrt).1⟩
    obtain ⟨bps, increaseMs, decreaseMs, state, hdecide⟩ :=
      decideOn_learned .u64 hfresh
    rw [decide_eq_decideOn, hdecide]
    exact frame ⟨hlearn, hthresholds⟩ _ bps increaseMs decreaseMs state
  | @ignored past c hc sample hheld ih =>
    have hprev := ih hbound
    rw [decide_eq_decideOn]
    cases hup : sample.allLinksDown with
    | true =>
      rw [decideOn_of_down hup]
      exact frame hprev _ _ _ _ _
    | false =>
      obtain ⟨state, hdecide⟩ := decideOn_of_held .u64 hup hheld
      rw [hdecide]
      exact frame hprev _ _ _ _ state
  | setMax hc bps ih => exact frame (ih hbound) _ _ _ _ _
  | setCurrent hc bps ih => exact frame (ih hbound) _ _ _ _ _

def steadySample (rttMs sampledAtMs : Nat) : AbrSample where
  links := []
  audioBps := 128000
  currentVideoBps := 1500000
  nowMs := sampledAtMs
  capacityReady := true
  allLinksDown := false
  srt :=
    { ready := true
      sampledAtMs
      bandwidthBps := 0
      sendRateBps := 1500000
      sendBufferMs := 0
      sendBufferPackets := 0
      rttMs
      latencyMs := 2000
      retransmitPermille := 0
      droppedBytes := 0 }

def afterSteady (rttMs : Nat) : Nat → AbrController ℚ
  | 0 => new AbrConfig.default
  | n + 1 => ((afterSteady rttMs n).decide (steadySample rttMs (20 * (n + 1)))).1

theorem learned_within_steady :
    Baselines 40 0 1500000 [(steadySample 40 40).srt, (steadySample 40 20).srt]
        (afterSteady 40 2) ∧
      Thresholds 40 0 [(steadySample 40 40).srt, (steadySample 40 20).srt] (afterSteady 40 2) :=
  learned_within
    (.consumed (.consumed (.new AbrConfig.default) (by decide +kernel)) (by decide +kernel))
    (by decide +kernel)

/-- Two samples of 100 ms take the minimum of the round trip over the bound by a
thousandth of the largest sample or the initial value. -/
theorem minimum_escapes :
    Since [(steadySample 100 40).srt, (steadySample 100 20).srt] (afterSteady 100 2) ∧
      1.001 * max 200 ((100 : Nat) : ℚ) < (afterSteady 100 2).rttMinimum :=
  ⟨.consumed (.consumed (.new AbrConfig.default) (by decide +kernel)) (by decide +kernel),
    by decide +kernel⟩

end AbrController
end Srtla.Abr
