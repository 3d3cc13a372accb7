import SrtlaOutput.Control.Startup
import SrtlaOutput.Engine.Range

/-! The output over its whole life: starts and stops, the ABR worker, the control calls and
what else reaches the engine. A step is one region under the engine mutex or the bitrate
mutex, or one access to an atomic flag. -/

namespace Srtla
open Abr Schedule
variable {F A : Type}

inductive StopAt
  | signal
  | join
  | teardown
  | restore
  | release
  deriving DecidableEq, Repr

inductive Phase
  | stopped
  | running
  | stopping (next : StopAt)
  deriving DecidableEq, Repr

structure OutputSystem (F A : Type) where
  out : OutputState F A
  phase : Phase
  deriving DecidableEq

inductive OutputStep (F A : Type)
  | update (settings : Option OutputSettings) (config : Option EngineConfig)
      (credentialError : Bool)
  | start (outcomes : StartOutcomes F A)
  | stop
  | setBitrateControl (automatic : Bool) (manualBitrateKbps : Int)
  | setMaxBitrate (maxBitrateKbps : Int)
  | external (call : Input F A)
  | abrWorker (nowMs : Nat) (sampled : Option SrtlaSrtStats)

def targetKbps (appliedBps : Nat) : Int := toInt32 (appliedBps / 1000 : Nat)

namespace OutputState

/-- The locked section of the ABR worker. -/
def writeTarget (d : OutputState F A) (appliedBps : Nat) : OutputState F A :=
  if d.autoBitrate && d.dynBitrate && decide (0 < targetKbps appliedBps) then
    d.changeBitrate (targetKbps appliedBps)
  else d

/-- What a stop ends before it restores the encoder: the sender thread, the session and the
engine. -/
def teardown (d : OutputState F A) : OutputState F A :=
  { d with worker := false, session := false }.stopEngine

def abrWorkerEnded (d : OutputState F A) : Bool := d.abrWorker.all fun worker => worker == .returned

variable [F64 F] [IpAddr A]

def updateSrtStats (d : OutputState F A) (sampled : Option SrtlaSrtStats) : OutputState F A :=
  match sampled with
  | none => d
  | some stats => d.onEngine fun e => (e.updateSrtStats (some stats)).1

def decideTarget (d : OutputState F A) (nowMs : Nat) : OutputState F A :=
  match d.engine with
  | none => { d with abrWorker := some .top }
  | some engine =>
    let applied := engine.applyAbr nowMs
    { d with
      engine := some applied.1
      abrWorker := some (if applied.2 = 0 then .top else .writing applied.2) }

def stepAbrWorker (d : OutputState F A) (nowMs : Nat) (sampled : Option SrtlaSrtStats) :
    AbrWorker → Option (OutputState F A)
  | .top => some { d with abrWorker := some (if d.abrStop then .returned else .awake) }
  | .awake =>
    some
      { d with
        abrWorker := some
          (if d.abrStop || !d.running || d.engine.isNone then .top else .polling) }
  | .polling =>
    -- an engine error becomes a stop on the UI thread
    some { d with abrWorker := some (if d.engine.any (·.lastError ≠ "") then .top else .sampling) }
  | .sampling => some { d.updateSrtStats sampled with abrWorker := some .testing }
  | .testing => some { d with abrWorker := some (if d.autoBitrate then .deciding else .top) }
  | .deciding => some (d.decideTarget nowMs)
  | .writing appliedBps => some { d.writeTarget appliedBps with abrWorker := some .top }
  | .returned => none

end OutputState

namespace OutputSystem

/-- `srtla_output_stop`, one step at a time. -/
def stop (s : OutputSystem F A) : Option (OutputSystem F A) :=
  match s.phase with
  | .stopping .signal => some ⟨{ s.out with abrStop := true }, .stopping .join⟩
  | .stopping .join =>
    if s.out.abrWorkerEnded then some ⟨{ s.out with abrWorker := none }, .stopping .teardown⟩ else none
  | .stopping .teardown => some ⟨s.out.teardown, .stopping .restore⟩
  | .stopping .restore => some ⟨s.out.restoreSharedBitrate, .stopping .release⟩
  | .stopping .release => some ⟨{ s.out with muxer := false }, .stopped⟩
  | _ => some ⟨{ s.out with running := false }.endCapture, .stopping .signal⟩

variable [F64 F] [IpAddr A]

def next (s : OutputSystem F A) : OutputStep F A → Option (OutputSystem F A)
  | .update settings config credentialError =>
    if s.phase = .stopped then some { s with out := s.out.update settings config credentialError }
    else none
  | .start outcomes =>
    if s.phase = .stopped then
      some ⟨(s.out.start outcomes).1, if (s.out.start outcomes).2 then .running else .stopped⟩
    else none
  | .stop => s.stop
  | .setBitrateControl automatic manualBitrateKbps =>
    some { s with out := (s.out.setBitrateControl automatic manualBitrateKbps).1 }
  | .setMaxBitrate maxBitrateKbps => some { s with out := (s.out.setMaxBitrate maxBitrateKbps).1 }
  | .external call =>
    if call.external then some { s with out := s.out.onEngine fun e => (e.step call).1 } else none
  | .abrWorker nowMs sampled =>
    (s.out.abrWorker.bind (s.out.stepAbrWorker nowMs sampled)).map fun out => { s with out }

/-! What the steps do that have a guard. -/

variable {s t : OutputSystem F A}

theorem next_update {settings : Option OutputSettings} {config : Option EngineConfig}
    {credentialError : Bool} (h : s.next (.update settings config credentialError) = some t) :
    s.phase = .stopped ∧ t = { s with out := s.out.update settings config credentialError } := by
  simp only [next] at h
  split_ifs at h with hphase
  exact ⟨hphase, (Option.some.inj h).symm⟩

theorem next_start {outcomes : StartOutcomes F A} (h : s.next (.start outcomes) = some t) :
    s.phase = .stopped ∧
      t = ⟨(s.out.start outcomes).1, if (s.out.start outcomes).2 then .running else .stopped⟩ := by
  simp only [next] at h
  by_cases hphase : s.phase = .stopped
  · rw [if_pos hphase] at h
    exact ⟨hphase, (Option.some.inj h).symm⟩
  · rw [if_neg hphase] at h
    cases h

theorem next_external {call : Input F A} (h : s.next (.external call) = some t) :
    call.external = true ∧ t = { s with out := s.out.onEngine fun e => (e.step call).1 } := by
  simp only [next] at h
  split_ifs at h with hcall
  exact ⟨hcall, (Option.some.inj h).symm⟩

theorem next_abrWorker {nowMs : Nat} {sampled : Option SrtlaSrtStats}
    (h : s.next (.abrWorker nowMs sampled) = some t) :
    ∃ worker out, s.out.abrWorker = some worker ∧
      s.out.stepAbrWorker nowMs sampled worker = some out ∧ t = { s with out } := by
  obtain ⟨out, hstep, rfl⟩ := Option.map_eq_some_iff.mp h
  obtain ⟨worker, hworker, hstep⟩ := Option.bind_eq_some_iff.mp hstep
  exact ⟨worker, out, hworker, hstep, rfl⟩

def created (settings : Option OutputSettings) (config : Option EngineConfig)
    (videoEncoder : Option VideoEncoder) (audioEncoder : Option AudioEncoder)
    (credentialError : Bool) : OutputSystem F A :=
  ⟨.create settings config videoEncoder audioEncoder credentialError, .stopped⟩

end OutputSystem
end Srtla
