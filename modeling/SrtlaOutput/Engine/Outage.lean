import SrtlaOutput.Engine.Ipv4
import SrtlaOutput.Engine.Frame
import SrtlaOutput.Abr.Range
import SrtlaOutput.Lib.Reactive

/-! An outage erases what was learned. Once a session change has reset the controller,
two engines can differ in their error texts and in their queued datagrams only, and
neither of these reaches a bitrate or a statistics field again. -/

namespace Srtla
open Abr Reactive FirstMatch
variable {F A : Type}

/-- The part of a reply that shows the controller or the SRT statistics. -/
inductive AbrView
  | bitrate (bps : Nat)
  | snapshot (snapshot : EngineSnapshot)
  | other
  deriving DecidableEq

def Reply.abrView : Reply → AbrView
  | .bitrate bps => .bitrate bps
  | .snapshot s => .snapshot { s with state := "", error := "", queueIn := 0, queueOut := 0 }
  | _ => .other

namespace Engine

/-- The engine without its error texts and its queues. -/
def core (e : Engine F A) : Engine F A :=
  { e with
    input := { capacity := 0 }
    output := { capacity := 0 }
    lastError := ""
    sessionError := "" }

def mapRunner (e : Engine F A) (f : EmbeddedSender F A → EmbeddedSender F A) : Engine F A :=
  { e with runner := e.runner.map f }

theorem core_submitResult (e : Engine F A) (r : Except EmbeddedSubmitError Unit) :
    (e.submitResult r).1.core = e.core := by
  rcases r with (_ | _) | _ <;> rfl

theorem core_deliver (e : Engine F A) (capacity : Nat) (packet : Option (List UInt8)) :
    (e.deliver capacity packet).1.core = e.core := by
  cases packet with
  | none => rfl
  | some packet =>
    simp only [deliver]
    split_ifs <;> rfl

theorem core_submitSrtDatagram (e : Engine F A) (data : List UInt8) :
    (e.submitSrtDatagram data).1.core =
      if data.isEmpty || !e.running then e.core
      else e.core.mapRunner fun r => (r.submit data).1 := by
  rcases e with ⟨_, input, _, running, _, _, _, _, _, _, _, _, runner⟩
  unfold submitSrtDatagram
  cases data.isEmpty with
  | true => rfl
  | false =>
    cases running with
    | false => rfl
    | true =>
      cases runner with
      | none => cases hpush : (input.push data).2 <;> simp [hpush, core, mapRunner]
      | some r => exact core_submitResult _ _

theorem core_receiveSrtDatagram (e : Engine F A) (capacity : Nat) :
    (e.receiveSrtDatagram capacity).1.core =
      if capacity = 0 ∨ e.running = false then e.core
      else e.core.mapRunner fun r => r.receive.1 := by
  rcases e with ⟨_, _, output, running, _, _, _, _, _, _, _, _, runner⟩
  unfold receiveSrtDatagram
  by_cases hcap : capacity = 0
  · simp only [hcap, if_true, true_or]
  · cases running with
    | false => simp only [if_neg hcap, Bool.not_false, if_true, or_true]
    | true =>
      have hopen : ¬(capacity = 0 ∨ true = false) := by simp [hcap]
      rw [if_neg hopen]
      simp only [if_neg hcap, Bool.not_true, Bool.false_eq_true, if_false]
      cases runner with
      | none =>
        dsimp only
        split_ifs
        · rfl
        · exact core_deliver _ _ _
      | some r => exact core_deliver _ _ _

theorem core_tellRunner (e : Engine F A) (send : EmbeddedSender F A → EmbeddedSender F A × Bool)
    (backpressure : String) :
    (e.tellRunner send backpressure).1.core = e.core.mapRunner fun r => (send r).1 := by
  rcases e with ⟨_, _, _, _, _, _, _, _, _, _, _, _, runner⟩
  cases runner with
  | none => rfl
  | some r => cases h : (send r).2 <;> simp [tellRunner, h, core, mapRunner]

theorem core_updateLinkStats (e : Engine F A) (stats : JsonArg LinkStatsUpdate) :
    (e.updateLinkStats stats).1.core = (e.core.updateLinkStats stats).1.core := by
  cases stats <;> rfl

theorem core_updateSrtStats (e : Engine F A) (stats : Option SrtlaSrtStats) :
    (e.updateSrtStats stats).1.core = (e.core.updateSrtStats stats).1.core := by
  cases stats with
  | none => rfl
  | some stats =>
    simp only [updateSrtStats]
    split_ifs <;> rfl

theorem core_setMaxVideoBitrate (e : Engine F A) (maxVideoBps : Nat) :
    (e.setMaxVideoBitrate maxVideoBps).1.core =
      (e.core.setMaxVideoBitrate maxVideoBps).1.core := by
  unfold setMaxVideoBitrate
  split_ifs <;> rfl

theorem abrView_snapshot (e : Engine F A) :
    (Reply.snapshot e.snapshot).abrView = (Reply.snapshot e.core.snapshot).abrView := rfl

section Addresses
variable [IpAddr A]

theorem core_ensureRunner (e : Engine F A) : e.ensureRunner.core = e.core.ensureRunner := by
  unfold ensureRunner
  show _ = if e.running && e.wantsRunner then _ else _
  split_ifs <;> rfl

theorem core_setLinkEnabled (e : Engine F A) (linkId : UInt64) (enabled : Bool) :
    (e.setLinkEnabled linkId enabled).1.core = (e.core.setLinkEnabled linkId enabled).1.core := by
  have hlinks : e.core.config.links = e.config.links := rfl
  have hrunning : e.core.running = e.running := rfl
  simp only [setLinkEnabled, hlinks, hrunning]
  split_ifs
  · rfl
  · rfl
  · rw [core_tellRunner, core_tellRunner, core_ensureRunner, core_ensureRunner]
    rfl

theorem core_replaceLinks (e : Engine F A) (links : List EngineLinkConfig) :
    (e.replaceLinks links).1.core = (e.core.replaceLinks links).1.core := by
  simp only [replaceLinks, core_tellRunner, core_ensureRunner, ensureRunner_config]
  rfl

theorem core_updateAdapters (e : Engine F A) (adapters : JsonArg EngineLinkConfig) :
    (e.updateAdapters adapters).1.core = (e.core.updateAdapters adapters).1.core := by
  cases adapters with
  | null => rfl
  | invalid => rfl
  | array links => exact core_replaceLinks e links
  | object config => exact core_replaceLinks e config.links

end Addresses

/-- Two engines with one setup, whatever they learned, measured, queued or reported. -/
structure SameSetup (e e' : Engine F A) : Prop where
  config : e.config = e'.config
  limits : e.abr.config = e'.abr.config
  audioBps : e.audioBps = e'.audioBps
  running : e.running = e'.running
  sessionState : e.sessionState = e'.sessionState
  currentVideoBps : e.currentVideoBps = e'.currentVideoBps
  runner : e.runner = e'.runner

section Controller
variable [F64 F]

theorem core_setSessionState (e : Engine F A) (state : Nat) (error : Option String) :
    (e.setSessionState state error).1.core = (e.core.setSessionState state error).1.core := by
  unfold setSessionState
  by_cases hstate : state > sessionStopped
  · rw [if_pos hstate, if_pos hstate]
    rfl
  · rw [if_neg hstate, if_neg hstate]
    rfl

theorem core_decideAbr (e : Engine F A) (nowMs : Nat) :
    (e.decideAbr nowMs).1.core = (e.core.decideAbr nowMs).1.core := rfl

theorem decideAbr_core (e : Engine F A) (nowMs : Nat) :
    (e.decideAbr nowMs).2 = (e.core.decideAbr nowMs).2 := rfl

theorem core_of_outage {e e' : Engine F A} (h : SameSetup e e') {state : Nat}
    (hvalid : state ≤ sessionStopped) (hchange : state ≠ e.sessionState)
    (hdown : state ≠ sessionConnected) (error error' : Option String) :
    (e.setSessionState state error).1.core = (e'.setSessionState state error').1.core := by
  have hreset := AbrController.resetForBitrate_congr h.limits e'.currentVideoBps
  have hne : e'.sessionState ≠ state := h.sessionState ▸ hchange.symm
  simp only [setSessionState, if_neg (Nat.not_lt.mpr hvalid), if_pos hdown, if_pos hne,
    if_pos hchange.symm, core, h.config, h.audioBps, h.running, h.currentVideoBps, h.runner, hreset]

end Controller

variable [F64 F] [IpAddr A]

theorem core_start (e : Engine F A) : e.start.1.core = e.core.start.1.core := by
  show core { (if e.wantsRunner then _ else _ : Engine F A) with running := true } =
    core { (if e.wantsRunner then _ else _ : Engine F A) with running := true }
  cases e.wantsRunner <;> rfl

theorem core_syncRunnerStats (e : Engine F A) :
    e.syncRunnerStats.core = e.core.syncRunnerStats.core := by
  have hrunner : e.core.runner = e.runner := rfl
  simp only [syncRunnerStats, hrunner]
  cases e.runner.bind (·.stats) <;> rfl

/-- What one step keeps. Each call below either writes nothing the core keeps, or
writes it from the core alone. -/
theorem forgets_core : Forgets (step (F := F) (A := A)) core Reply.abrView where
  keeps e i := by
    cases i with
    | start => exact core_start e
    | stop => rfl
    | submitSrtDatagram data =>
      simp only [step, core_submitSrtDatagram]
      rfl
    | receiveSrtDatagram capacity =>
      simp only [step, core_receiveSrtDatagram]
      rfl
    | setLinkEnabled linkId enabled => exact core_setLinkEnabled e linkId enabled
    | updateAdapters adapters => exact core_updateAdapters e adapters
    | updateLinkStats stats => exact core_updateLinkStats e stats
    | updateSrtStats stats => exact core_updateSrtStats e stats
    | setAudioBitrate bps => rfl
    | setVideoBitrate bps => rfl
    | setMaxVideoBitrate bps => exact core_setMaxVideoBitrate e bps
    | setSessionState state error => exact core_setSessionState e state error
    | applyAbr nowMs =>
      show (e.syncRunnerStats.decideAbr nowMs).1.core = (e.core.syncRunnerStats.decideAbr nowMs).1.core
      rw [core_decideAbr, core_syncRunnerStats, ← core_decideAbr]
    | copyStatsJson => exact core_syncRunnerStats e
    | lastError => rfl
    | runner effect => rfl
  agrees e i := by
    cases i with
    | applyAbr nowMs =>
      show AbrView.bitrate _ = AbrView.bitrate _
      rw [applyAbr, decideAbr_core, core_syncRunnerStats, ← decideAbr_core]
      rfl
    | copyStatsJson =>
      show (Reply.snapshot e.syncRunnerStats.snapshot).abrView = _
      rw [abrView_snapshot, core_syncRunnerStats, ← abrView_snapshot]
      rfl
    | _ => rfl

/-- After an outage every bitrate and every statistics field is the same in two engines
with one setup, whatever calls and runner actions follow. -/
theorem outage_forgets {e e' : Engine F A} (h : SameSetup e e') {state : Nat}
    (hvalid : state ≤ sessionStopped) (hchange : state ≠ e.sessionState)
    (hdown : state ≠ sessionConnected) (error error' : Option String) (ins : List (Input F A)) :
    (replies step (e.setSessionState state error).1 ins).map Reply.abrView =
      (replies step (e'.setSessionState state error').1 ins).map Reply.abrView :=
  forgets_core.lockstep.replies (core_of_outage h hvalid hchange hdown error error') ins

def learned : Engine ℚ Ipv4 :=
  let e : Engine ℚ Ipv4 := create {}
  { e with
    sessionState := sessionConnected
    srtStats := { sampledAtMs := 90, rttMs := 40, sendBufferPackets := 7 }
    lastAbrDecision := { recommendedBps := 900000 }
    abr := { e.abr with internalBitrateBps := 600000, lastSrtSampleMs := some 90 } }

theorem outage_forgets_learned :
    let fresh : Engine ℚ Ipv4 := { (create {} : Engine ℚ Ipv4) with sessionState := sessionConnected }
    (replies step (learned.setSessionState sessionReconnecting none).1
        [.copyStatsJson, .applyAbr 100]).map Reply.abrView =
      (replies step (fresh.setSessionState sessionReconnecting none).1
        [.copyStatsJson, .applyAbr 100]).map Reply.abrView :=
  outage_forgets ⟨rfl, rfl, rfl, rfl, rfl, rfl, rfl⟩ (by decide) (by decide) (by decide) none none _

end Engine
end Srtla
