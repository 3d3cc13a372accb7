import Mathlib.Algebra.Order.Floor.Semiring
import Mathlib.Tactic.NormNum
import SrtlaOutput.Abr.Runs
import SrtlaOutput.Lib.Smoothing

/-! What a sample teaches the controller, in exact arithmetic: each learned value is a
smoothing filter of its own samples. -/

namespace Srtla.Abr.AbrController
open Smoothing

section Learn
variable (c : AbrController ℚ) (srt : SrtCapacity)

theorem learn_sendBufferAverage : (c.learn srt).sendBufferAverage =
    average 0.99 0.01 c.sendBufferAverage (srt.sendBufferPackets : ℚ) := rfl

theorem learn_sendBufferJitter : (c.learn srt).sendBufferJitter =
    peak 0.99 c.sendBufferJitter ((srt.sendBufferPackets : ℚ) - (c.previousSendBuffer : ℚ)) := by
  rfl

theorem learn_rttAverage : (c.learn srt).rttAverage =
    if c.rttAverage = 0 then (srt.rttMs : ℚ) else average 0.99 0.01 c.rttAverage (srt.rttMs : ℚ) := by
  have hzero : (0.0 : ℚ) = 0 := by norm_num
  have hbeq : F64.beq c.rttAverage 0.0 = true ↔ c.rttAverage = 0 := by
    rw [← hzero]
    exact beq_iff_eq
  exact if_congr hbeq rfl rfl

theorem learn_rttAverageDelta : (c.learn srt).rttAverageDelta =
    average 0.8 0.2 c.rttAverageDelta ((srt.rttMs : ℚ) - (c.previousRttMs : ℚ)) := rfl

theorem learn_rttMinimum : (c.learn srt).rttMinimum =
    if srt.rttMs ≠ 100 ∧ (srt.rttMs : ℚ) < c.rttMinimum * 1.001 ∧
        (c.learn srt).rttAverageDelta < 1.0 then (srt.rttMs : ℚ)
    else c.rttMinimum * 1.001 := rfl

theorem learn_rttJitter : (c.learn srt).rttJitter =
    peak 0.99 c.rttJitter ((srt.rttMs : ℚ) - (c.previousRttMs : ℚ)) := rfl

theorem learn_throughput : (c.learn srt).throughput =
    average 0.97 0.03 c.throughput ((srt.sendRateBps : ℚ) / 1024) := by
  have hkilo : (1024.0 : ℚ) = 1024 := by norm_num
  rw [← hkilo]
  rfl

/-! The thresholds use the values the sample has just updated. -/

theorem learn_queueSeverePackets : (c.learn srt).queueSeverePackets =
    toU32 (((c.learn srt).sendBufferAverage + (c.learn srt).sendBufferJitter) * 4.0 : ℚ) := rfl

theorem learn_queueHeavyPackets : (c.learn srt).queueHeavyPackets =
    toU32 (min (max 50.0 ((c.learn srt).sendBufferAverage +
        max ((c.learn srt).sendBufferJitter * 3.0) (c.learn srt).sendBufferAverage))
      ((c.learn srt).throughput / 8.0 * ((srt.latencyMs / 2 : Nat) : ℚ) / 1316.0) : ℚ) := rfl

theorem learn_queueLightPackets : (c.learn srt).queueLightPackets =
    toU32 (max 50.0 ((c.learn srt).sendBufferAverage + (c.learn srt).sendBufferJitter * 2.5) : ℚ) :=
  rfl

theorem learn_rttDecreaseAboveMs : (c.learn srt).rttDecreaseAboveMs =
    toU32 ((c.learn srt).rttAverage +
      max ((c.learn srt).rttJitter * 4.0) ((c.learn srt).rttAverage * 0.15) : ℚ) := rfl

theorem learn_rttIncreaseBelowMs : (c.learn srt).rttIncreaseBelowMs =
    toU32 ((c.learn srt).rttMinimum + max 1.0 ((c.learn srt).rttJitter * 2.0) : ℚ) := rfl

end Learn

theorem le_toU32 {v : ℚ} {n : Nat} (hn : n ≤ u32Max) (h : (n : ℚ) ≤ v) : n ≤ toU32 v := by
  have hzero : (0.0 : ℚ) = 0 := by norm_num
  rcases Nat.eq_zero_or_pos n with rfl | hpos
  · exact Nat.zero_le _
  · have hv : (0.0 : ℚ) < v := by
      rw [hzero]
      exact (Nat.cast_pos.mpr hpos).trans_le h
    have hfloor : n ≤ ⌊v⌋.toNat := by
      apply (Int.le_toNat (Int.floor_nonneg.mpr (hzero ▸ hv.le))).mpr
      exact Int.le_floor.mpr (by exact_mod_cast h)
    unfold toU32
    split_ifs with hbad hbig
    · simp [F64.isFinite, hv] at hbad
    · exact hn
    · exact hfloor

theorem toU32_le {v b : ℚ} (h : v ≤ b) (hb : 0 ≤ b) : (toU32 v : ℚ) ≤ b := by
  have hzero : (0.0 : ℚ) = 0 := by norm_num
  unfold toU32
  split_ifs with hbad hbig
  · exact_mod_cast hb
  · have hle : (u32Max : ℚ) ≤ v := by simpa [F64.ofNat] using hbig
    exact hle.trans h
  · have hv : 0 < v := by simpa [F64.isFinite, hzero] using hbad
    have hcast : ((⌊v⌋.toNat : ℕ) : ℚ) = (⌊v⌋ : ℚ) := by
      exact_mod_cast Int.toNat_of_nonneg (Int.floor_nonneg.mpr hv.le)
    calc ((⌊v⌋.toNat : ℕ) : ℚ) = (⌊v⌋ : ℚ) := hcast
      _ ≤ v := Int.floor_le v
      _ ≤ b := h

theorem decideOn_learned {F : Type} [F64 F] (clock : Clock) {c : AbrController F}
    {sample : AbrSample} (h : c.Fresh sample) :
    ∃ bps increaseMs decreaseMs state, c.decideOn clock sample =
      { c.learn sample.srt with
        internalBitrateBps := bps
        nextIncreaseMs := increaseMs
        nextDecreaseMs := decreaseMs
        lastControlState := state } := by
  have hbranch := controlOn_branch clock (c.learn sample.srt) sample
  rw [decideOn_of_fresh h]
  generalize (c.learn sample.srt).controlOn clock sample = c' at hbranch
  cases hbranch <;> exact ⟨_, _, _, _, rfl⟩

end Srtla.Abr.AbrController
