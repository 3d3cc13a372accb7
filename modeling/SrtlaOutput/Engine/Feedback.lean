import SrtlaOutput.Engine.Frame

/-! When the engine has feedback to act on. -/

namespace Srtla
open Abr
variable {F A : Type}

namespace Engine

def Up (e : Engine F A) : Prop :=
  e.sessionState = sessionConnected ∧
    ∃ l ∈ e.config.links, l.enabled = true ∧ l.connected = true

def NoNewerStatistics (e : Engine F A) (nowMs : Nat) : Prop :=
  e.srtStats.rttMs = 0 ∨ 200 < nowMs - e.srtStats.sampledAtMs ∨
    ∃ last, e.abr.lastSrtSampleMs = some last ∧ e.srtStats.sampledAtMs ≤ last

theorem allLinksDown_eq_false {e : Engine F A} : e.allLinksDown = false ↔ e.Up := by
  simp [allLinksDown, Up]

theorem allLinksDown_eq_true {e : Engine F A} : e.allLinksDown = true ↔ ¬e.Up := by
  rw [← allLinksDown_eq_false, Bool.not_eq_false]

theorem unusable_iff {e : Engine F A} (h : e.sessionState = sessionConnected) (nowMs : Nat) :
    AbrController.unusable (e.srtCapacity nowMs) = true ↔
      e.srtStats.rttMs = 0 ∨ 200 < nowMs - e.srtStats.sampledAtMs := by
  have hlatency : (e.srtCapacity nowMs).latencyMs ≠ 0 := by
    unfold srtCapacity
    dsimp only
    split_ifs <;> omega
  have hready : (e.srtCapacity nowMs).ready =
      decide (nowMs - e.srtStats.sampledAtMs ≤ 200) := by
    simp [srtCapacity, h, srtStatsMaxAgeMs]
  have hrtt : (e.srtCapacity nowMs).rttMs = e.srtStats.rttMs := rfl
  simp only [AbrController.unusable, hready, hrtt, Bool.or_eq_true, Bool.not_eq_true',
    decide_eq_false_iff_not, beq_iff_eq, hlatency, or_false]
  omega

theorem seen_iff (last : Option Nat) (sampled : Nat) :
    (last = some sampled ∨ last.any (fun last => decide (sampled < last)) = true) ↔
      ∃ t, last = some t ∧ sampled ≤ t := by
  cases last with
  | none => simp
  | some t =>
    simp only [Option.some.injEq, Option.any_some, decide_eq_true_eq, exists_eq_left']
    omega

theorem holds_iff {e : Engine F A} (h : e.sessionState = sessionConnected) (nowMs : Nat) :
    e.abr.holds (e.srtCapacity nowMs) = true ↔ e.NoNewerStatistics nowMs := by
  have hsampled : (e.srtCapacity nowMs).sampledAtMs = e.srtStats.sampledAtMs := rfl
  simp only [AbrController.holds, Bool.or_eq_true, unusable_iff h, beq_iff_eq, hsampled, or_assoc,
    seen_iff, NoNewerStatistics]

end Engine
end Srtla
