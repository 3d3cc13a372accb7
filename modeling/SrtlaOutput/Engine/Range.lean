import SrtlaOutput.Engine.Feedback
import SrtlaOutput.Abr.Range
import SrtlaOutput.Lib.Reactive

/-! The bitrate stays between the limits through every run of the engine. -/

namespace Srtla
open Abr Reactive
variable {F A : Type}

namespace Engine

theorem setMaxVideoBitrate_inRange {e : Engine F A} (h : e.abr.InRange) (bps : Nat) :
    (e.setMaxVideoBitrate bps).1.abr.InRange := by
  unfold setMaxVideoBitrate
  split_ifs
  · exact h
  · exact AbrController.setMaxBps_inRange h bps

theorem updateSrtStats_abr (e : Engine F A) (stats : Option SrtlaSrtStats) :
    (e.updateSrtStats stats).1.abr = e.abr := by
  cases stats with
  | none => rfl
  | some stats =>
    simp only [updateSrtStats]
    split_ifs <;> rfl

variable [F64 F]

theorem create_inRange (config : EngineConfig) : (create config : Engine F A).abr.InRange :=
  AbrController.new_inRange _

theorem setSessionState_inRange {e : Engine F A} (h : e.abr.InRange) (state : Nat)
    (error : Option String) : (e.setSessionState state error).1.abr.InRange := by
  have hreset := AbrController.resetForBitrate_inRange h e.currentVideoBps
  unfold setSessionState
  split
  · exact h
  · show (if e.sessionState ≠ state then _ else e.abr).InRange
    split_ifs
    · exact hreset
    · exact h

variable [IpAddr A]

theorem start_inRange {e : Engine F A} (h : e.abr.InRange) : e.start.1.abr.InRange := by
  have hreset := AbrController.resetForBitrate_inRange h e.currentVideoBps
  simp only [start]
  split_ifs <;> exact hreset

theorem step_inRange (e : Engine F A) (i : Input F A) (h : e.abr.InRange) :
    (e.step i).1.abr.InRange := by
  cases i with
  | start => exact start_inRange h
  | stop => exact h
  | submitSrtDatagram data => exact (submitSrtDatagram_peripheral e data).abr ▸ h
  | receiveSrtDatagram capacity => exact (receiveSrtDatagram_peripheral e capacity).abr ▸ h
  | setLinkEnabled linkId enabled => exact (setLinkEnabled_peripheral e linkId enabled).abr ▸ h
  | updateAdapters adapters => exact (updateAdapters_peripheral e adapters).abr ▸ h
  | updateLinkStats stats => exact (updateLinkStats_peripheral e stats).abr ▸ h
  | updateSrtStats stats => exact updateSrtStats_abr e stats ▸ h
  | setAudioBitrate bps => exact h
  | setVideoBitrate bps => exact AbrController.setCurrentBps_inRange h bps
  | setMaxVideoBitrate bps => exact setMaxVideoBitrate_inRange h bps
  | setSessionState state error => exact setSessionState_inRange h state error
  | applyAbr nowMs =>
    exact AbrController.decide_inRange ((syncRunnerStats_peripheral e).abr ▸ h) _
  | copyStatsJson => exact (syncRunnerStats_peripheral e).abr ▸ h
  | lastError => exact h
  | runner effect => exact h

def reached (config : EngineConfig) (ins : List (Input F A)) : Engine F A :=
  exec step (create config) ins

theorem reached_inRange (config : EngineConfig) (ins : List (Input F A)) :
    (reached config ins).abr.InRange :=
  exec_invariant step_inRange (create_inRange config) ins

theorem applyAbr_config (e : Engine F A) (nowMs : Nat) :
    (e.applyAbr nowMs).1.abr.config = e.abr.config := by
  rw [← (syncRunnerStats_peripheral e).abr]
  exact AbrController.decide_config _ _

/-- In every state a run reaches, the limits are ordered and the target lies between
them. A call of `srtla_engine_apply_abr` there returns a bitrate within the limits: the
minimum when the session or every link is down, and otherwise, on a fresh sample, the
target rounded down by less than 100 kb/s. -/
theorem bitrate_in_limits (config : EngineConfig) (ins : List (Input F A)) (nowMs : Nat) :
    let e : Engine F A := reached config ins
    let after := (e.applyAbr nowMs).1
    let applied := (e.applyAbr nowMs).2
    (e.abr.config.minBps ≤ e.abr.config.maxBps ∧
        e.abr.config.minBps ≤ e.abr.internalBitrateBps ∧
        e.abr.internalBitrateBps ≤ e.abr.config.maxBps) ∧
      after.abr.config = e.abr.config ∧
      (e.abr.config.minBps ≤ applied ∧ applied ≤ e.abr.config.maxBps) ∧
      (¬e.syncRunnerStats.Up → applied = e.abr.config.minBps) ∧
      (e.syncRunnerStats.Up → ¬e.syncRunnerStats.NoNewerStatistics nowMs →
        applied ≤ after.abr.internalBitrateBps ∧
          after.abr.internalBitrateBps < applied + 100000) := by
  intro e after applied
  have hrange : e.abr.InRange := reached_inRange config ins
  -- the decision is taken after the sync, which leaves the controller alone
  have habr := (syncRunnerStats_peripheral e).abr
  have hsynced : e.syncRunnerStats.abr.InRange := habr ▸ hrange
  refine ⟨⟨hrange.min_le_max, hrange.min_le, hrange.le_max⟩, applyAbr_config e nowMs, ?_, ?_, ?_⟩
  · rw [← habr]
    exact AbrController.decide_applied_mem hsynced _
  · intro hdown
    rw [← habr]
    exact AbrController.decide_applied_of_down hsynced (allLinksDown_eq_true.mpr hdown)
  · intro hup hfresh
    have hheld : e.syncRunnerStats.abr.holds (e.syncRunnerStats.srtCapacity nowMs) = false := by
      rw [← Bool.not_eq_true, holds_iff hup.1]
      exact hfresh
    exact AbrController.decide_applied_of_fresh hsynced (allLinksDown_eq_false.mpr hup) hheld

end Engine
end Srtla
