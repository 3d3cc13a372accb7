import SrtlaOutput.Engine.Ipv4
import SrtlaOutput.Engine.Range
import SrtlaOutput.Engine.Visible
import SrtlaOutput.Lib.Schedule

/-! The published target against the live cap. A snapshot takes the target from the last
decision, from the minimum, or from the current bitrate. A cap change clears the
decision and leaves the current bitrate, so it must not go below that. -/

namespace Srtla
open Abr
variable {F A : Type}

namespace Engine

structure UnderCap (e : Engine F A) : Prop where
  inRange : e.abr.InRange
  current : e.currentVideoBps ≤ e.abr.config.maxBps
  decision : e.lastAbrDecision.recommendedBps ≤ e.abr.config.maxBps

def CapKept (e : Engine F A) : Input F A → Prop
  | .setMaxVideoBitrate maxVideoBps =>
    maxVideoBps ≠ 0 → e.currentVideoBps ≤ (e.abr.setMaxBps maxVideoBps).2
  | _ => True

def SetsVideoBitrate : Input F A → Prop
  | .setVideoBitrate _ => True
  | _ => False

theorem UnderCap.of_frame {e e' : Engine F A} (h : e.UnderCap) (habr : e'.abr = e.abr)
    (hcurrent : e'.currentVideoBps = e.currentVideoBps)
    (hdecision : e'.lastAbrDecision = e.lastAbrDecision) : e'.UnderCap :=
  ⟨habr ▸ h.inRange, by rw [habr, hcurrent]; exact h.current,
    by rw [habr, hdecision]; exact h.decision⟩

theorem UnderCap.of_peripheral {e e' : Engine F A} (h : e.UnderCap) (hframe : Peripheral e e') :
    e'.UnderCap := h.of_frame hframe.abr hframe.currentVideoBps hframe.lastAbrDecision

theorem UnderCap.published {e : Engine F A} (h : e.UnderCap) :
    e.snapshot.recommendedVideoBps ≤ e.abr.config.maxBps := by
  simp only [snapshot]
  split_ifs
  · exact h.decision
  · exact h.inRange.min_le_max
  · exact h.current

theorem setMaxVideoBitrate_underCap {e : Engine F A} (hrange : e.abr.InRange) {maxVideoBps : Nat}
    (hmax : maxVideoBps ≠ 0) (hkept : e.CapKept (.setMaxVideoBitrate maxVideoBps)) :
    (e.setMaxVideoBitrate maxVideoBps).1.UnderCap := by
  have hrange' := setMaxVideoBitrate_inRange hrange maxVideoBps
  simp only [setMaxVideoBitrate, if_neg hmax] at hrange' ⊢
  exact ⟨hrange', hkept hmax, Nat.zero_le _⟩

theorem UnderCap.updateSrtStats {e : Engine F A} (h : e.UnderCap) (stats : Option SrtlaSrtStats) :
    (e.updateSrtStats stats).1.UnderCap := by
  cases stats with
  | none => exact h
  | some stats =>
    simp only [Engine.updateSrtStats]
    split_ifs
    · exact h
    · exact h.of_frame rfl rfl rfl

section Controller
variable [F64 F]

theorem setSessionState_keeps (e : Engine F A) (state : Nat) (error : Option String) :
    (e.setSessionState state error).1.abr.config = e.abr.config ∧
      (e.setSessionState state error).1.currentVideoBps = e.currentVideoBps ∧
      ((e.setSessionState state error).1.lastAbrDecision = e.lastAbrDecision ∨
        (e.setSessionState state error).1.lastAbrDecision = {}) := by
  unfold setSessionState
  split
  · exact ⟨rfl, rfl, .inl rfl⟩
  · refine ⟨?_, rfl, ?_⟩
    · change (if _ then _ else _ : AbrController F).config = _
      split_ifs <;> rfl
    · change (if _ then _ else _ : AbrDecision) = _ ∨ (if _ then _ else _ : AbrDecision) = _
      split_ifs
      · exact .inr rfl
      · exact .inl rfl

theorem UnderCap.setSessionState {e : Engine F A} (h : e.UnderCap) (state : Nat)
    (error : Option String) : (e.setSessionState state error).1.UnderCap := by
  obtain ⟨hconfig, hcurrent, hdecision⟩ := setSessionState_keeps e state error
  refine ⟨setSessionState_inRange h.inRange state error, ?_, ?_⟩ <;> rw [hconfig]
  · rw [hcurrent]
    exact h.current
  · rcases hdecision with hsame | hcleared
    · rw [hsame]
      exact h.decision
    · rw [hcleared]
      exact Nat.zero_le _

theorem UnderCap.decideAbr {e : Engine F A} (h : e.UnderCap) (nowMs : Nat) :
    (e.decideAbr nowMs).1.UnderCap := by
  have hconfig : (e.decideAbr nowMs).1.abr.config = e.abr.config :=
    AbrController.decide_config _ _
  have happlied := (AbrController.decide_applied_mem h.inRange (e.abrSample nowMs)).2
  have hrecommended : (e.abr.decide (e.abrSample nowMs)).2.recommendedBps =
      (e.abr.decide (e.abrSample nowMs)).2.appliedBps := by
    simp only [AbrController.decide]
    split_ifs <;> rfl
  refine ⟨AbrController.decide_inRange h.inRange _, ?_, ?_⟩ <;> rw [hconfig]
  · exact happlied
  · exact hrecommended ▸ happlied

variable [IpAddr A]

theorem UnderCap.step {e : Engine F A} (h : e.UnderCap) {i : Input F A}
    (hother : ¬SetsVideoBitrate i) (hkept : e.CapKept i) : (e.step i).1.UnderCap := by
  cases i with
  | start =>
    have hfresh : e.freshRun.UnderCap :=
      ⟨AbrController.resetForBitrate_inRange h.inRange _, h.current, Nat.zero_le _⟩
    change e.start.1.UnderCap
    rw [start_eq]
    exact hfresh.of_peripheral (ensureRunner_peripheral _)
  | stop => exact ⟨h.inRange, h.current, Nat.zero_le _⟩
  | submitSrtDatagram data => exact h.of_peripheral (submitSrtDatagram_peripheral e data)
  | receiveSrtDatagram capacity => exact h.of_peripheral (receiveSrtDatagram_peripheral e capacity)
  | setLinkEnabled linkId enabled =>
    exact h.of_peripheral (setLinkEnabled_peripheral e linkId enabled)
  | updateAdapters adapters => exact h.of_peripheral (updateAdapters_peripheral e adapters)
  | updateLinkStats stats => exact h.of_peripheral (updateLinkStats_peripheral e stats)
  | updateSrtStats stats => exact h.updateSrtStats stats
  | setAudioBitrate bps => exact ⟨h.inRange, h.current, h.decision⟩
  | setVideoBitrate bps => exact absurd trivial hother
  | setMaxVideoBitrate bps =>
    by_cases hmax : bps = 0
    · change (e.setMaxVideoBitrate bps).1.UnderCap
      rwa [setMaxVideoBitrate, if_pos hmax]
    · exact setMaxVideoBitrate_underCap h.inRange hmax hkept
  | setSessionState state error => exact h.setSessionState state error
  | applyAbr nowMs => exact (h.of_peripheral (syncRunnerStats_peripheral e)).decideAbr nowMs
  | copyStatsJson => exact h.of_peripheral (syncRunnerStats_peripheral e)
  | lastError => exact h
  | runner effect => exact ⟨h.inRange, h.current, h.decision⟩

/-- Once a cap is set and kept above the current bitrate at this and every later cap
change, every snapshot of the run publishes a target under the cap then in force. A cap
change that goes below the current bitrate, while some link is enabled and connected,
publishes a target above it at once. -/
theorem published_under_cap (config : EngineConfig) (ins : List (Input F A)) {maxVideoBps : Nat}
    (hmax : maxVideoBps ≠ 0) :
    let e : Engine F A := reached config ins
    let capped := (e.setMaxVideoBitrate maxVideoBps).1
    (e.CapKept (.setMaxVideoBitrate maxVideoBps) → ∀ later last,
        Schedule.Run (fun e i => some (e.step i).1) (fun e i => ¬SetsVideoBitrate i ∧ e.CapKept i)
          capped later last →
        last.copyStatsJson.2.recommendedVideoBps ≤ last.abr.config.maxBps) ∧
      (¬e.CapKept (.setMaxVideoBitrate maxVideoBps) →
        (capped.syncRunnerStats.config.links.any fun l => l.enabled && l.connected) = true →
        capped.abr.config.maxBps < capped.copyStatsJson.2.recommendedVideoBps) := by
  intro e capped
  have hrange : e.abr.InRange := reached_inRange config ins
  constructor
  · intro hkept later last hrun
    have hunder : last.UnderCap := by
      apply hrun.invariant _ (setMaxVideoBitrate_underCap hrange hmax hkept)
      intro s i t hs hok hstep
      obtain rfl := Option.some.inj hstep
      exact hs.step hok.1 hok.2
    have hframe := syncRunnerStats_peripheral last
    exact hframe.abr ▸ (hunder.of_peripheral hframe).published
  · intro hbroken hup
    have hover : (e.abr.setMaxBps maxVideoBps).2 < e.currentVideoBps := by
      by_contra hle
      exact hbroken fun _ => not_lt.mp hle
    have hframe := syncRunnerStats_peripheral capped
    have hcapped : capped =
        { e with abr := (e.abr.setMaxBps maxVideoBps).1, lastAbrDecision := {} } := by
      simp only [capped, setMaxVideoBitrate, if_neg hmax]
    have hcleared : capped.syncRunnerStats.lastAbrDecision.recommendedBps = 0 := by
      rw [hframe.lastAbrDecision, hcapped]
    have hcurrent : capped.syncRunnerStats.currentVideoBps = e.currentVideoBps := by
      rw [hframe.currentVideoBps, hcapped]
    simp only [copyStatsJson, snapshot, hcleared, hup, hcurrent, lt_self_iff_false, decide_false,
      Bool.false_eq_true, if_false, Bool.not_true]
    rw [hcapped]
    exact hover

end Controller

def oneLink : EngineConfig where
  links := [{ id := 1, label := "wan" }]
  abr := some { startBps := 6000000, maxBps := 6000000 }

def connectedSession : List (Input ℚ Ipv4) :=
  [.start, .setSessionState sessionConnected none,
    .updateLinkStats (.array [{ id := 1, connected := true }])]

def cappedAt (maxVideoBps : Nat) : Engine ℚ Ipv4 :=
  ((reached oneLink connectedSession).setMaxVideoBitrate maxVideoBps).1

theorem published_under_cap_raised :
    ((cappedAt 8000000).step (.applyAbr 5)).1.copyStatsJson.2.recommendedVideoBps ≤
      ((cappedAt 8000000).step (.applyAbr 5)).1.abr.config.maxBps :=
  (published_under_cap oneLink connectedSession (by decide : 8000000 ≠ 0)).1
    (fun _ => by decide) [.applyAbr 5] _ (.cons ⟨id, trivial⟩ rfl (.nil _))

/-- The cap goes down to 2 Mbit/s and the next snapshot recommends 6. -/
theorem cap_overtaken :
    ((reached oneLink connectedSession : Engine ℚ Ipv4).setMaxVideoBitrate 2000000).2 = 0 ∧
      (cappedAt 2000000).abr.config.maxBps = 2000000 ∧
      (cappedAt 2000000).copyStatsJson.2.recommendedVideoBps = 6000000 := by
  decide

end Engine
end Srtla
