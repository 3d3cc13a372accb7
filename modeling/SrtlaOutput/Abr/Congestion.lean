import SrtlaOutput.Abr.Runs

/-! What a congested sample does to the target. The congestion tests come before the
test for a raise, but each is bound to the target or to a deadline, so a congested
sample can fall through to the raise. -/

namespace Srtla.Abr.AbrController
variable {F : Type} [F64 F]

/-- No branch that lowers the target takes the sample, and the raise does. -/
structure FallsThrough (c : AbrController F) (sample : AbrSample) : Prop where
  not_severe : ¬(c.config.minBps < c.internalBitrateBps ∧
    (c.learn sample.srt).Severe sample.srt)
  held_off : ¬(c.nextDecreaseMs < sample.nowMs ∧
    ((c.learn sample.srt).Heavy sample.srt ∨ (c.learn sample.srt).Light sample.srt))
  due : c.nextIncreaseMs < sample.nowMs
  may : (c.learn sample.srt).MayIncrease sample.srt
  room : c.internalBitrateBps < c.config.maxBps

theorem heavyDecrease_le (bps : Nat) : heavyDecrease bps ≤ bps := Nat.sub_le _ _

theorem lt_increase {bps : Nat} (h : bps < u64Max) : bps < increase bps := by
  have hmax : 0 < u64Max := by decide
  unfold increase saturatingAdd bitrateIncreaseMinBps bitrateIncreaseScale
  omega

theorem clamp_le_of_le {x y lo : Nat} (hx : x ≤ y) (hlo : lo ≤ y) (hi : Nat) :
    clamp x lo hi ≤ y := by
  unfold clamp
  split_ifs <;> omega

theorem lt_clamp {x y lo hi : Nat} (hx : y < x) (hhi : y < hi) : y < clamp x lo hi := by
  unfold clamp
  split_ifs <;> omega

theorem raised_iff {t : Nat} {clock : Clock} {c : AbrController F} (hc : Reached clock t c)
    {sample : AbrSample} (hfresh : c.Fresh sample) :
    c.internalBitrateBps < (c.decideOn clock sample).internalBitrateBps ↔
      c.FallsThrough sample := by
  have hrange := hc.inRange
  have hbranch := controlOn_branch clock (c.learn sample.srt) sample
  have hconfig := controlOn_config clock (c.learn sample.srt) sample
  rw [decideOn_of_fresh hfresh]
  simp only [clampInternal, hconfig, learn_config]
  generalize (c.learn sample.srt).controlOn clock sample = c' at hbranch
  cases hbranch with
  | severe hmin hsevere =>
    have hle := clamp_le_of_le hrange.min_le hrange.min_le c.config.maxBps
    exact ⟨fun h => absurd h (Nat.not_lt.mpr hle), fun h => absurd ⟨hmin, hsevere⟩ h.not_severe⟩
  | heavy hsevere hdue hheavy =>
    have hle := clamp_le_of_le (heavyDecrease_le c.internalBitrateBps) hrange.min_le
      c.config.maxBps
    exact ⟨fun h => absurd h (Nat.not_lt.mpr hle), fun h => absurd ⟨hdue, .inl hheavy⟩ h.held_off⟩
  | light hsevere hdue hheavy hlight =>
    have hle := clamp_le_of_le (Nat.sub_le c.internalBitrateBps bitrateDecreaseMinBps)
      hrange.min_le c.config.maxBps
    exact ⟨fun h => absurd h (Nat.not_lt.mpr hle), fun h => absurd ⟨hdue, .inr hlight⟩ h.held_off⟩
  | increasing hsevere hdown hdue hmay =>
    refine ⟨fun h => ⟨hsevere, hdown, hdue, hmay, ?_⟩, fun h => ?_⟩
    · exact h.trans_le (clamp_mem hrange.min_le_max _).2
    · exact lt_clamp (lt_increase (h.room.trans_le hc.max_le_u64)) h.room
  | hold hsevere hdown hup =>
    have hle := clamp_le_of_le (le_refl c.internalBitrateBps) hrange.min_le c.config.maxBps
    exact ⟨fun h => absurd h (Nat.not_lt.mpr hle), fun h => absurd ⟨h.due, h.may⟩ hup⟩

def queuedSample (atMs : Nat) : AbrSample where
  links := []
  audioBps := 128000
  currentVideoBps := 1500000
  nowMs := atMs
  capacityReady := true
  allLinksDown := false
  srt :=
    { ready := true
      sampledAtMs := atMs
      bandwidthBps := 0
      sendRateBps := 1500000
      sendBufferMs := 10
      sendBufferPackets := 10
      rttMs := 50
      latencyMs := 2000
      retransmitPermille := 0
      droppedBytes := 0 }

def heldOff : AbrController ℚ := (new wideConfig).decideOn .u64 (queuedSample 1000)

theorem heldOff_reached : Reached .u64 1000 heldOff :=
  .decide (.new wideConfig (by decide) 0) (queuedSample 1000) trivial

/-- A congested sample leaves the target where it is or lowers it, unless it falls
through to the raise; then it raises it. -/
theorem congested_not_raised_iff {t : Nat} {c : AbrController F} (hc : Reached .u64 t c)
    {sample : AbrSample} (hfresh : c.Fresh sample) :
    ((c.learn sample.srt).Congested sample.srt →
        (c.decide sample).1.internalBitrateBps ≤ c.internalBitrateBps) ↔
      ¬((c.learn sample.srt).Congested sample.srt ∧ c.FallsThrough sample) := by
  rw [not_and, decide_eq_decideOn]
  apply imp_congr_right
  intro _
  rw [← raised_iff hc hfresh, Nat.not_lt]

theorem congested_not_raised_first :
    (new wideConfig : AbrController ℚ).Fresh (queuedSample 1000) ∧
      (((new wideConfig : AbrController ℚ).learn (queuedSample 1000).srt).Congested
          (queuedSample 1000).srt →
        ((new wideConfig : AbrController ℚ).decide (queuedSample 1000)).1.internalBitrateBps ≤
          1500000) := by
  have hfresh : (new wideConfig : AbrController ℚ).Fresh (queuedSample 1000) :=
    fresh_iff.mpr (by decide)
  refine ⟨hfresh, (congested_not_raised_iff (.new wideConfig (by decide) 0) hfresh).mpr ?_⟩
  exact fun h => h.2.held_off (by decide +kernel)

/-- Twenty milliseconds after a heavy decrease the same queue is heavy again, and the
target rises by 71666 bits per second. -/
theorem congestion_raises :
    Reached .u64 1000 heldOff ∧ heldOff.Fresh (queuedSample 1020) ∧
      (heldOff.learn (queuedSample 1020).srt).Congested (queuedSample 1020).srt ∧
      heldOff.internalBitrateBps = 1250000 ∧
      (heldOff.decide (queuedSample 1020)).1.internalBitrateBps = 1321666 := by
  refine ⟨heldOff_reached, fresh_iff.mpr ?_, .inr (.inl ?_), ?_, ?_⟩ <;> decide +kernel

end Srtla.Abr.AbrController
