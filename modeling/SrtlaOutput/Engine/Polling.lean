import SrtlaOutput.Engine.Range
import SrtlaOutput.Engine.Ipv4

/-! Polling does not count as evidence. A call of `srtla_engine_apply_abr` that finds no
newer statistics writes nothing the control law reads, so a run is not changed by
inserting any number of such calls. -/

namespace Srtla
open Abr Reactive
variable {F A : Type}

inductive Poll
  | updateSrtStats (stats : Option SrtlaSrtStats)
  | applyAbr (nowMs : Nat)

def Poll.input : Poll → Input F A
  | .updateSrtStats stats => .updateSrtStats stats
  | .applyAbr nowMs => .applyAbr nowMs

namespace Engine

/-- The second engine differs only in what a held sample may write: the last decision,
the shown control state, and a current bitrate that the limits clamp to the same value. -/
def Alike (s t : Engine F A) : Prop :=
  ∃ bps decision state,
    t =
        { s with
          currentVideoBps := bps
          lastAbrDecision := decision
          abr := { s.abr with lastControlState := state } } ∧
      clamp bps s.abr.config.minBps s.abr.config.maxBps =
        clamp s.currentVideoBps s.abr.config.minBps s.abr.config.maxBps

theorem Alike.refl (s : Engine F A) : Alike s s :=
  ⟨s.currentVideoBps, s.lastAbrDecision, s.abr.lastControlState, rfl, rfl⟩

theorem Alike.symm {s t : Engine F A} (h : Alike s t) : Alike t s := by
  obtain ⟨bps, decision, state, rfl, hbps⟩ := h
  exact ⟨s.currentVideoBps, s.lastAbrDecision, s.abr.lastControlState, rfl, hbps.symm⟩

theorem Alike.trans {s t u : Engine F A} (h : Alike s t) (h' : Alike t u) : Alike s u := by
  obtain ⟨_, _, _, rfl, hbps⟩ := h
  obtain ⟨bps, decision, state, rfl, hbps'⟩ := h'
  exact ⟨bps, decision, state, rfl, hbps'.trans hbps⟩

structure Steady (e : Engine F A) : Prop where
  runner : e.runner = none
  up : e.Up
  inRange : e.abr.InRange

theorem Steady.of_alike {s t : Engine F A} (h : Alike s t) (hs : Steady s) : Steady t := by
  obtain ⟨bps, decision, state, rfl, -⟩ := h
  exact ⟨hs.runner, hs.up, hs.inRange.min_le_max, hs.inRange.min_le, hs.inRange.le_max⟩

theorem Alike.srtCapacity {s t : Engine F A} (h : Alike s t) (nowMs : Nat) :
    t.srtCapacity nowMs = s.srtCapacity nowMs := by
  obtain ⟨bps, decision, state, rfl, -⟩ := h
  rfl

theorem Alike.holds {s t : Engine F A} (h : Alike s t) (srt : SrtCapacity) :
    t.abr.holds srt = s.abr.holds srt := by
  obtain ⟨bps, decision, state, rfl, -⟩ := h
  rfl

theorem updateSrtStats_of_steady {e : Engine F A} (h : e.Steady) (stats : Option SrtlaSrtStats) :
    (e.updateSrtStats stats).1.Steady := by
  cases stats with
  | none => exact h
  | some stats =>
    simp only [updateSrtStats]
    split_ifs <;> exact ⟨h.runner, h.up, h.inRange⟩

variable [F64 F]

theorem control_of_state (c : AbrController F) (state : ControlState) (sample : AbrSample)
    (bps : Nat) :
    { c with lastControlState := state }.control { sample with currentVideoBps := bps } =
      c.control sample := by
  simp only [AbrController.control]

theorem decideAbr_of_holds {e : Engine F A} (h : e.Steady) {nowMs : Nat}
    (hhold : e.abr.holds (e.srtCapacity nowMs) = true) :
    Alike e (e.decideAbr nowMs).1 ∧ (e.decideAbr nowMs).2.appliedBps =
      clamp e.currentVideoBps e.abr.config.minBps e.abr.config.maxBps := by
  have hup : (e.abrSample nowMs).allLinksDown = false := allLinksDown_eq_false.mpr h.up
  obtain ⟨⟨state, habr⟩, hbps⟩ := AbrController.decide_of_holds e.abr hup hhold
  refine ⟨⟨(e.decideAbr nowMs).2.appliedBps, (e.decideAbr nowMs).2, state, ?_, ?_⟩, hbps⟩
  -- only the last decision, the shown state and the current bitrate are written
  · show { e with abr := _, currentVideoBps := _, lastAbrDecision := _ } = _
    rw [habr]
    rfl
  · show clamp (e.abr.decide _).2.appliedBps _ _ = _
    rw [hbps]
    exact clamp_idem h.inRange.min_le_max _

theorem decideAbr_of_fresh {s t : Engine F A} (h : Alike s t) (hs : s.Steady) {nowMs : Nat}
    (hfresh : s.abr.holds (s.srtCapacity nowMs) = false) :
    (t.decideAbr nowMs).1.abr = (s.decideAbr nowMs).1.abr ∧
      (t.decideAbr nowMs).2.appliedBps = (s.decideAbr nowMs).2.appliedBps := by
  have ht := hs.of_alike h
  have hups : (s.abrSample nowMs).allLinksDown = false := allLinksDown_eq_false.mpr hs.up
  have hupt : (t.abrSample nowMs).allLinksDown = false := allLinksDown_eq_false.mpr ht.up
  have hfresht : t.abr.holds (t.abrSample nowMs).srt = false := by
    rw [h.holds, show (t.abrSample nowMs).srt = s.srtCapacity nowMs from h.srtCapacity nowMs]
    exact hfresh
  obtain ⟨hcs, hbs⟩ := AbrController.decide_of_fresh s.abr hups hfresh
  obtain ⟨hct, hbt⟩ := AbrController.decide_of_fresh t.abr hupt hfresht
  -- the fields in which the two differ are written before they are read
  have hcontrol : (t.abr.decide (t.abrSample nowMs)).1 = (s.abr.decide (s.abrSample nowMs)).1 := by
    rw [hcs, hct]
    obtain ⟨bps, decision, state, rfl, -⟩ := h
    exact congrArg (fun c : AbrController F × Bool × Bool => c.1.clampInternal)
      (control_of_state (s.abr.learn (s.srtCapacity nowMs)) state (s.abrSample nowMs) bps)
  exact ⟨hcontrol, by rw [decideAbr, hbt, hcontrol, ← hbs]; rfl⟩

variable [IpAddr A]

theorem applyAbr_of_steady {e : Engine F A} (h : e.Steady) (nowMs : Nat) :
    e.applyAbr nowMs = ((e.decideAbr nowMs).1, (e.decideAbr nowMs).2.appliedBps) := by
  have hsync : e.syncRunnerStats = e := by rw [syncRunnerStats, h.runner]; rfl
  rw [applyAbr, hsync]

theorem applyAbr_steady {e : Engine F A} (h : e.Steady) (nowMs : Nat) :
    (e.applyAbr nowMs).1.Steady := by
  rw [applyAbr_of_steady h]
  exact ⟨h.runner, h.up, AbrController.decide_inRange h.inRange _⟩

def poll (e : Engine F A) (p : Poll) : Engine F A × Reply := e.step p.input

theorem poll_steady {e : Engine F A} (h : e.Steady) (p : Poll) : (e.poll p).1.Steady := by
  cases p with
  | updateSrtStats stats => exact updateSrtStats_of_steady h stats
  | applyAbr nowMs => exact applyAbr_steady h nowMs

theorem applyAbr_alike {s t : Engine F A} (h : Alike s t) (hs : s.Steady) (nowMs : Nat) :
    Alike (s.applyAbr nowMs).1 (t.applyAbr nowMs).1 ∧
      (s.applyAbr nowMs).2 = (t.applyAbr nowMs).2 := by
  have ht := hs.of_alike h
  rw [applyAbr_of_steady hs, applyAbr_of_steady ht]
  cases hhold : s.abr.holds (s.srtCapacity nowMs) with
  | true =>
    -- both hold, each at its own clamped bitrate
    have hholdt : t.abr.holds (t.srtCapacity nowMs) = true := by
      rw [h.srtCapacity, h.holds, hhold]
    obtain ⟨hkeeps, hbps⟩ := decideAbr_of_holds hs hhold
    obtain ⟨hkeept, hbpt⟩ := decideAbr_of_holds ht hholdt
    refine ⟨(hkeeps.symm.trans h).trans hkeept, ?_⟩
    obtain ⟨bps, decision, state, rfl, hclamp⟩ := h
    rw [hbps, hbpt]
    exact hclamp.symm
  | false =>
    obtain ⟨habr, hbps⟩ := decideAbr_of_fresh h hs hhold
    refine ⟨?_, hbps.symm⟩
    refine ⟨(t.decideAbr nowMs).2.appliedBps, (t.decideAbr nowMs).2,
      (s.decideAbr nowMs).1.abr.lastControlState, ?_, congrArg (clamp · _ _) hbps⟩
    calc (t.decideAbr nowMs).1
        = { t with
            abr := (t.decideAbr nowMs).1.abr
            currentVideoBps := (t.decideAbr nowMs).2.appliedBps
            lastAbrDecision := (t.decideAbr nowMs).2 } := rfl
      _ = { t with
            abr := (s.decideAbr nowMs).1.abr
            currentVideoBps := (t.decideAbr nowMs).2.appliedBps
            lastAbrDecision := (t.decideAbr nowMs).2 } := by rw [habr]
      _ = _ := by
        obtain ⟨bps, decision, state, rfl, -⟩ := h
        rfl

theorem poll_alike {s t : Engine F A} (h : Alike s t) (hs : s.Steady) (p : Poll) :
    Alike (s.poll p).1 (t.poll p).1 ∧ (s.poll p).2 = (t.poll p).2 := by
  cases p with
  | updateSrtStats stats =>
    obtain ⟨bps, decision, state, rfl, hclamp⟩ := h
    cases stats with
    | none => exact ⟨⟨bps, decision, state, rfl, hclamp⟩, rfl⟩
    | some stats =>
      simp only [poll, Poll.input, step, updateSrtStats]
      split_ifs <;> exact ⟨⟨bps, decision, state, rfl, hclamp⟩, rfl⟩
  | applyAbr nowMs =>
    obtain ⟨hstate, hbps⟩ := applyAbr_alike h hs nowMs
    exact ⟨hstate, congrArg Reply.bitrate hbps⟩

def Silent (e : Engine F A) (p : Poll) : Prop :=
  ∃ nowMs, p = .applyAbr nowMs ∧ e.NoNewerStatistics nowMs

theorem applyAbr_of_noNewerStatistics {e : Engine F A} (h : e.Steady) {nowMs : Nat}
    (hold : e.NoNewerStatistics nowMs) :
    Alike e (e.applyAbr nowMs).1 ∧ (e.applyAbr nowMs).2 =
      clamp e.currentVideoBps e.abr.config.minBps e.abr.config.maxBps := by
  rw [applyAbr_of_steady h]
  exact decideAbr_of_holds h ((holds_iff h.up.1 nowMs).mpr hold)

theorem stutter_poll :
    Stutter (poll (F := F) (A := A)) Silent (fun s t => Alike t s ∧ t.Steady) id where
  lockstep :=
    { keeps := fun _ _ p h => ⟨(poll_alike h.1 h.2 p).1, poll_steady h.2 p⟩
      agrees := fun _ _ p h => (poll_alike h.1 h.2 p).2.symm }
  absorbs s t p h hsilent := by
    obtain ⟨nowMs, rfl, hold⟩ := hsilent
    have hs := h.2.of_alike h.1
    exact ⟨h.1.trans (applyAbr_of_noNewerStatistics hs hold).1, h.2⟩

/-- From a reached engine without a runner and with feedback to expect: wherever the
sampling loop has got to, a call without newer statistics keeps the controller and returns
the clamped current bitrate, and inserting such calls changes no reply of the run. -/
theorem polling_is_no_evidence (config : EngineConfig) (ins : List (Input F A))
    (hrunner : (reached config ins : Engine F A).runner = none)
    (hup : (reached config ins : Engine F A).Up) (padded : List (Poll ⊕ Poll))
    (hpadded : Padded poll Silent (reached config ins : Engine F A) padded) :
    (∀ (before : List Poll) (nowMs : Nat),
        let e : Engine F A := exec poll (reached config ins) before
        let after := (e.applyAbr nowMs).1
        e.NoNewerStatistics nowMs →
          after.abr = { e.abr with lastControlState := after.abr.lastControlState } ∧
          (e.applyAbr nowMs).2 =
            clamp e.currentVideoBps e.abr.config.minBps e.abr.config.maxBps) ∧
      baseReplies poll (reached config ins : Engine F A) padded =
        replies poll (reached config ins : Engine F A) (base padded) := by
  have hsteady : (reached config ins : Engine F A).Steady :=
    ⟨hrunner, hup, reached_inRange config ins⟩
  constructor
  · intro before nowMs e after hold
    have he : e.Steady :=
      exec_invariant (I := Steady) (fun _ p h => poll_steady h p) hsteady before
    obtain ⟨⟨bps, decision, state, hafter, -⟩, hbps⟩ := applyAbr_of_noNewerStatistics he hold
    refine ⟨?_, hbps⟩
    have habr : after.abr = { e.abr with lastControlState := state } := congrArg Engine.abr hafter
    rw [habr]
  · have hrun := stutter_poll.baseReplies ⟨Alike.refl _, hsteady⟩ padded hpadded
    rwa [List.map_id, List.map_id] at hrun

theorem polling_is_no_evidence_aged :
    let config : EngineConfig := { links := [{ id := 1, label := "wan", connected := true }] }
    let e : Engine ℚ Ipv4 := reached config [.start, .setSessionState 2 none]
    let sample : SrtlaSrtStats :=
      { structSize := 88, sampledAtMs := 100, bandwidthBps := 0, sendRateBps := 900000,
        sentUniqueBytes := 0, retransmittedBytes := 0, droppedBytes := 0, sendBufferMs := 0,
        packetsInFlight := 0, senderLossPackets := 0, rttMs := 40, sendBufferPackets := 3,
        latencyMs := 1000 }
    baseReplies poll e
        [.inl (.updateSrtStats sample), .inr (.applyAbr 400), .inr (.applyAbr 500),
          .inl (.applyAbr 120)] =
      replies poll e [.updateSrtStats sample, .applyAbr 120] := by
  intro config e sample
  refine (polling_is_no_evidence config [.start, .setSessionState 2 none] rfl
    ⟨rfl, _, List.mem_singleton.mpr rfl, rfl, rfl⟩ _ ?_).2
  exact ⟨⟨400, rfl, .inr (.inl (by decide))⟩, ⟨500, rfl, .inr (.inl (by decide))⟩, trivial⟩

end Engine
end Srtla
