import SrtlaOutput.Abr.Defs

/-! The limits stay ordered and the internal target stays between them, through every
operation of the controller. -/

namespace Srtla

theorem clamp_mem {lo hi : Nat} (h : lo ≤ hi) (x : Nat) :
    lo ≤ clamp x lo hi ∧ clamp x lo hi ≤ hi := by
  unfold clamp
  split_ifs <;> omega

theorem clamp_of_mem {x lo hi : Nat} (h : lo ≤ x) (h' : x ≤ hi) : clamp x lo hi = x := by
  unfold clamp
  split_ifs <;> omega

theorem clamp_idem {lo hi : Nat} (h : lo ≤ hi) (x : Nat) :
    clamp (clamp x lo hi) lo hi = clamp x lo hi :=
  clamp_of_mem (clamp_mem h x).1 (clamp_mem h x).2

namespace Abr

theorem roundedBps_le (x : Nat) : roundedBps x ≤ x := Nat.div_mul_le_self x roundingBps

theorem lt_roundedBps_add (x : Nat) : x < roundedBps x + 100000 := by
  unfold roundedBps roundingBps
  omega

theorem clamp_roundedBps {x lo hi : Nat} (hlo : lo ≤ x) (hhi : x ≤ hi) :
    clamp (roundedBps x) lo hi ≤ x ∧ x < clamp (roundedBps x) lo hi + 100000 := by
  have hle := roundedBps_le x
  have hlt := lt_roundedBps_add x
  unfold clamp
  split_ifs <;> omega

structure AbrConfig.Ordered (c : AbrConfig) : Prop where
  min_le_max : c.minBps ≤ c.maxBps

theorem AbrConfig.normalized_ordered (c : AbrConfig) : c.normalized.Ordered :=
  ⟨Nat.min_le_right _ _⟩

theorem AbrConfig.normalized_start (c : AbrConfig) :
    c.normalized.minBps ≤ c.normalized.startBps ∧
      c.normalized.startBps ≤ c.normalized.maxBps :=
  clamp_mem (AbrConfig.normalized_ordered c).min_le_max c.startBps

namespace AbrController
variable {F : Type}

/-- What every operation keeps. The clamps of the source panic only where
`min_le_max` fails. -/
structure InRange (c : AbrController F) : Prop where
  min_le_max : c.config.minBps ≤ c.config.maxBps
  min_le : c.config.minBps ≤ c.internalBitrateBps
  le_max : c.internalBitrateBps ≤ c.config.maxBps

theorem setMaxBps_inRange {c : AbrController F} (h : c.InRange) (maxBps : Nat) :
    (c.setMaxBps maxBps).1.InRange := by
  obtain ⟨h1, h2, h3⟩ := h
  constructor <;> simp only [setMaxBps] <;> omega

theorem InRange.of_clamp {c c' : AbrController F} (h : c.InRange)
    (hconfig : c'.config = c.config) {x : Nat}
    (hx : c'.internalBitrateBps = clamp x c.config.minBps c.config.maxBps) : c'.InRange := by
  have hc := clamp_mem h.min_le_max x
  exact ⟨hconfig ▸ h.min_le_max, by rw [hx, hconfig]; exact hc.1, by rw [hx, hconfig]; exact hc.2⟩

theorem setCurrentBps_inRange {c : AbrController F} (h : c.InRange) (bps : Nat) :
    (c.setCurrentBps bps).1.InRange := h.of_clamp rfl rfl

theorem appliedBps_mem {c : AbrController F} (h : c.InRange) :
    c.config.minBps ≤ c.appliedBps ∧ c.appliedBps ≤ c.config.maxBps :=
  clamp_mem h.min_le_max _

theorem appliedBps_near {c : AbrController F} (h : c.InRange) :
    c.appliedBps ≤ c.internalBitrateBps ∧ c.internalBitrateBps < c.appliedBps + 100000 :=
  clamp_roundedBps h.min_le h.le_max

theorem decide_cases (c : AbrController F) (sample : AbrSample) :
    sample.allLinksDown = true ∨ (sample.allLinksDown = false ∧ c.holds sample.srt = true) ∨
      (sample.allLinksDown = false ∧ c.holds sample.srt = false) := by
  cases sample.allLinksDown <;> cases c.holds sample.srt <;> simp

variable [F64 F]

theorem new_inRange (config : AbrConfig) : (new config : AbrController F).InRange :=
  ⟨(AbrConfig.normalized_ordered config).min_le_max, (AbrConfig.normalized_start config).1,
    (AbrConfig.normalized_start config).2⟩

theorem resetForBitrate_inRange {c : AbrController F} (h : c.InRange) (bps : Nat) :
    (c.resetForBitrate bps).InRange := h.of_clamp rfl rfl

theorem resetForBitrate_congr {c c' : AbrController F} (h : c.config = c'.config) (bps : Nat) :
    c.resetForBitrate bps = c'.resetForBitrate bps := by
  rw [resetForBitrate, resetForBitrate, h]

@[simp] theorem learn_config (c : AbrController F) (srt : SrtCapacity) :
    (c.learn srt).config = c.config := rfl

@[simp] theorem control_config (c : AbrController F) (sample : AbrSample) :
    (c.control sample).1.config = c.config := by
  simp only [control, apply_ite Prod.fst, apply_ite AbrController.config, ite_self]

theorem decide_of_down (c : AbrController F) {sample : AbrSample}
    (hdown : sample.allLinksDown = true) :
    (c.decide sample).1 =
        { c with internalBitrateBps := c.config.minBps, lastControlState := .disconnected } ∧
      (c.decide sample).2.appliedBps = (c.decide sample).1.appliedBps := by
  simp only [decide, hdown, if_true, decision, and_self]

theorem decide_of_holds (c : AbrController F) {sample : AbrSample}
    (hup : sample.allLinksDown = false) (hhold : c.holds sample.srt = true) :
    (∃ st, (c.decide sample).1 = { c with lastControlState := st }) ∧
      (c.decide sample).2.appliedBps =
        clamp sample.currentVideoBps c.config.minBps c.config.maxBps := by
  simp only [decide, hup, hhold, if_true, Bool.false_eq_true, if_false, decision, and_true]
  by_cases hu : unusable sample.srt = true
  · exact ⟨.waiting, by rw [if_pos hu]⟩
  · exact ⟨c.lastControlState, by rw [if_neg hu]⟩

theorem decide_of_fresh (c : AbrController F) {sample : AbrSample}
    (hup : sample.allLinksDown = false) (hfresh : c.holds sample.srt = false) :
    (c.decide sample).1 = ((c.learn sample.srt).control sample).1.clampInternal ∧
      (c.decide sample).2.appliedBps = (c.decide sample).1.appliedBps := by
  simp only [decide, hup, hfresh, Bool.false_eq_true, if_false, decision, and_self]

@[simp] theorem decide_config (c : AbrController F) (sample : AbrSample) :
    (c.decide sample).1.config = c.config := by
  obtain hdown | ⟨hup, hhold⟩ | ⟨hup, hfresh⟩ := decide_cases c sample
  · rw [(decide_of_down c hdown).1]
  · obtain ⟨st, hc⟩ := (decide_of_holds c hup hhold).1
    rw [hc]
  · rw [(decide_of_fresh c hup hfresh).1]
    exact control_config _ _

theorem decide_inRange {c : AbrController F} (h : c.InRange) (sample : AbrSample) :
    (c.decide sample).1.InRange := by
  obtain hdown | ⟨hup, hhold⟩ | ⟨hup, hfresh⟩ := decide_cases c sample
  · rw [(decide_of_down c hdown).1]
    exact ⟨h.min_le_max, le_refl _, h.min_le_max⟩
  · obtain ⟨st, hc⟩ := (decide_of_holds c hup hhold).1
    rw [hc]
    exact ⟨h.min_le_max, h.min_le, h.le_max⟩
  · -- wherever the control law moves the target, it is clamped afterwards
    have hcontrol := control_config (c.learn sample.srt) sample
    rw [(decide_of_fresh c hup hfresh).1]
    refine h.of_clamp hcontrol (x := ((c.learn sample.srt).control sample).1.internalBitrateBps) ?_
    simp only [clampInternal, hcontrol, learn_config]

theorem decide_applied_mem {c : AbrController F} (h : c.InRange) (sample : AbrSample) :
    c.config.minBps ≤ (c.decide sample).2.appliedBps ∧
      (c.decide sample).2.appliedBps ≤ c.config.maxBps := by
  have happlied := appliedBps_mem (decide_inRange h sample)
  rw [decide_config] at happlied
  obtain hdown | ⟨hup, hhold⟩ | ⟨hup, hfresh⟩ := decide_cases c sample
  · rwa [(decide_of_down c hdown).2]
  · rw [(decide_of_holds c hup hhold).2]
    exact clamp_mem h.min_le_max _
  · rwa [(decide_of_fresh c hup hfresh).2]

theorem decide_applied_of_down {c : AbrController F} (h : c.InRange) {sample : AbrSample}
    (hdown : sample.allLinksDown = true) :
    (c.decide sample).2.appliedBps = c.config.minBps := by
  obtain ⟨hc, ha⟩ := decide_of_down c hdown
  have hnear := appliedBps_near (decide_inRange h sample)
  have hmem := appliedBps_mem (decide_inRange h sample)
  rw [hc] at ha hnear hmem
  -- the rounded minimum is clamped back to the minimum
  rw [ha]
  exact le_antisymm hnear.1 hmem.1

theorem decide_applied_of_fresh {c : AbrController F} (h : c.InRange) {sample : AbrSample}
    (hup : sample.allLinksDown = false) (hfresh : c.holds sample.srt = false) :
    (c.decide sample).2.appliedBps ≤ (c.decide sample).1.internalBitrateBps ∧
      (c.decide sample).1.internalBitrateBps < (c.decide sample).2.appliedBps + 100000 := by
  rw [(decide_of_fresh c hup hfresh).2]
  exact appliedBps_near (decide_inRange h sample)

end AbrController
end Abr
end Srtla
