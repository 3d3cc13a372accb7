import SrtlaOutput.Control.Frame

/-! What a stop has released by the time it takes its next step, and that it ends with an
output that can be started again. -/

namespace Srtla
open Schedule
variable {F A : Type}

namespace OutputState

structure Parked (d : OutputState F A) : Prop where
  running : d.running = false
  capturing : d.capturing = false
  captureActive : d.captureActive = false
  lifecycle : ∀ c ∈ d.lifecycle, c.active = false

theorem Stopped.parked {d : OutputState F A} (h : d.Stopped) : d.Parked :=
  ⟨h.running, h.capturing, h.captureActive, h.lifecycle⟩

structure TornDown (d : OutputState F A) : Prop extends d.Parked where
  abrWorker : d.abrWorker = none
  worker : d.worker = false
  session : d.session = false
  engine : ∀ e ∈ d.engine, e.running = false

namespace Keeps
variable {d d' : OutputState F A}

theorem parked (h : Keeps d d') (hparked : d.Parked) : d'.Parked :=
  ⟨h.running.trans hparked.running, h.capturing.trans hparked.capturing,
    (congrArg (·.captureActive) h.frame).trans hparked.captureActive,
    h.lifecycle ▸ hparked.lifecycle⟩

theorem tornDown (h : Keeps d d') (htorn : d.TornDown) : d'.TornDown :=
  ⟨h.parked htorn.toParked, h.abrWorker htorn.abrWorker,
    (congrArg (·.worker) h.frame).trans htorn.worker, h.session.trans htorn.session,
    h.engine htorn.engine⟩

end Keeps

theorem endCapture_parked {d : OutputState F A}
    (hcapture : d.capturing = d.lifecycle.any (·.active)) :
    { d with running := false }.endCapture.Parked := by
  have hcapturing := endCapture_capturing (d := { d with running := false }) hcapture
  exact ⟨rfl, hcapturing, rfl, endCapture_lifecycle { d with running := false }⟩

end OutputState

namespace OutputSystem
open OutputState

def Orderly (s : OutputSystem F A) : Prop :=
  match s.phase with
  | .stopped => s.out.Stopped
  | .running => s.out.running = true ∧ s.out.capturing = s.out.lifecycle.any (·.active)
  | .stopping .signal => s.out.Parked
  | .stopping .join => s.out.Parked
  | .stopping .teardown => s.out.Parked ∧ s.out.abrWorker = none
  | .stopping .restore => s.out.TornDown
  | .stopping .release => s.out.TornDown ∧ s.out.bitrateOverridden = false

theorem Orderly.keeps {s : OutputSystem F A} (h : s.Orderly) {d : OutputState F A}
    (hkeeps : Keeps s.out d) : Orderly { s with out := d } := by
  obtain ⟨out, phase⟩ := s
  cases phase with
  | stopped => exact hkeeps.stopped h
  | running => exact ⟨hkeeps.running.trans h.1, by rw [hkeeps.capturing, hkeeps.lifecycle]; exact h.2⟩
  | stopping next =>
    cases next with
    | signal => exact hkeeps.parked h
    | join => exact hkeeps.parked h
    | teardown => exact ⟨hkeeps.parked h.1, hkeeps.abrWorker h.2⟩
    | restore => exact hkeeps.tornDown h
    | release => exact ⟨hkeeps.tornDown h.1, hkeeps.bitrateOverridden.trans h.2⟩

theorem Orderly.phase_running {s : OutputSystem F A} (h : s.Orderly)
    (hrunning : s.out.running = true) : s.phase = .running := by
  have hidle (hoff : s.out.running = false) : s.phase = .running := by
    rw [hrunning] at hoff
    cases hoff
  obtain ⟨out, phase⟩ := s
  cases phase with
  | stopped => exact hidle (Stopped.parked h).running
  | running => rfl
  | stopping next =>
    cases next with
    | signal => exact hidle h.running
    | join => exact hidle h.running
    | teardown => exact hidle h.1.running
    | restore => exact hidle h.running
    | release => exact hidle h.1.running

theorem stop_phase {s t : OutputSystem F A} (h : s.stop = some t) : t.phase ≠ .running := by
  unfold stop at h
  split at h
  · obtain rfl := Option.some.inj h
    simp
  · split_ifs at h
    obtain rfl := Option.some.inj h
    simp
  all_goals
    obtain rfl := Option.some.inj h
    simp

theorem teardown_tornDown {d : OutputState F A} (h : d.Parked) (hjoined : d.abrWorker = none) :
    d.teardown.TornDown :=
  ⟨⟨h.running, h.capturing, h.captureActive, h.lifecycle⟩, hjoined, rfl, rfl, stopEngine_idle _⟩

theorem restore_tornDown {d : OutputState F A} (h : d.TornDown) :
    d.restoreSharedBitrate.TornDown ∧ d.restoreSharedBitrate.bitrateOverridden = false := by
  obtain ⟨_, heq⟩ := restoreSharedBitrate_eq d
  rw [heq]
  exact ⟨⟨⟨h.running, h.capturing, h.captureActive, h.lifecycle⟩, h.abrWorker, h.worker, h.session,
    h.engine⟩, rfl⟩

theorem stop_orderly {s t : OutputSystem F A} (h : s.Orderly) (hstop : s.stop = some t) :
    t.Orderly := by
  obtain ⟨out, phase⟩ := s
  cases phase with
  | stopped =>
    obtain rfl := Option.some.inj hstop
    have hparked := Stopped.parked h
    exact endCapture_parked (capturing_of_inactive hparked.capturing hparked.lifecycle)
  | running =>
    obtain rfl := Option.some.inj hstop
    exact endCapture_parked h.2
  | stopping next =>
    cases next with
    | signal =>
      obtain rfl := Option.some.inj hstop
      exact ⟨h.running, h.capturing, h.captureActive, h.lifecycle⟩
    | join =>
      simp only [stop] at hstop
      split_ifs at hstop
      obtain rfl := Option.some.inj hstop
      exact ⟨⟨h.running, h.capturing, h.captureActive, h.lifecycle⟩, rfl⟩
    | teardown =>
      obtain rfl := Option.some.inj hstop
      exact teardown_tornDown h.1 h.2
    | restore =>
      obtain rfl := Option.some.inj hstop
      exact restore_tornDown h
    | release =>
      obtain rfl := Option.some.inj hstop
      obtain ⟨htorn, hover⟩ := h
      exact ⟨⟨htorn.running, rfl, htorn.worker, htorn.abrWorker, htorn.capturing,
        htorn.captureActive, htorn.lifecycle⟩, htorn.engine, htorn.session, hover⟩

variable [F64 F]

theorem create_stopped (settings : Option OutputSettings) (config : Option EngineConfig)
    (videoEncoder : Option VideoEncoder) (audioEncoder : Option AudioEncoder)
    (credentialError : Bool) :
    (create settings config videoEncoder audioEncoder credentialError :
      OutputState F A).Stopped := by
  have hlifecycle : (create settings config videoEncoder audioEncoder credentialError :
      OutputState F A).lifecycle = none := rfl
  refine ⟨⟨rfl, rfl, rfl, rfl, rfl, rfl, by simp [hlifecycle]⟩, ?_, rfl, rfl⟩
  intro e he
  obtain ⟨config, -, rfl⟩ := Option.map_eq_some_iff.mp he
  rfl

theorem update_stopped {d : OutputState F A} (h : d.Stopped) (settings : Option OutputSettings)
    (config : Option EngineConfig) (credentialError : Bool) :
    (d.update settings config credentialError).Stopped := by
  unfold update
  split_ifs
  · exact h
  · refine ⟨⟨h.running, h.muxer, h.worker, h.abrWorker, h.capturing, h.captureActive, h.lifecycle⟩,
      ?_, h.session, h.bitrateOverridden⟩
    intro e he
    obtain ⟨config, -, rfl⟩ := Option.map_eq_some_iff.mp he
    rfl

variable [IpAddr A]

theorem start_orderly {d : OutputState F A} (h : d.Stopped) (w : StartOutcomes F A) :
    Orderly ⟨(d.start w).1, if (d.start w).2 then .running else .stopped⟩ := by
  have hends := start_ends h w
  cases hresult : (d.start w).2 with
  | true =>
    rw [EndsWell, hresult] at hends
    exact ⟨hends.running, hends.capturing⟩
  | false =>
    rw [EndsWell, hresult] at hends
    exact hends.1

theorem next_orderly {s t : OutputSystem F A} {l : OutputStep F A} (h : s.Orderly)
    (hnext : s.next l = some t) : t.Orderly := by
  cases l with
  | update settings config credentialError =>
    obtain ⟨out, phase⟩ := s
    obtain ⟨rfl, rfl⟩ := next_update hnext
    exact update_stopped h settings config credentialError
  | start outcomes =>
    obtain ⟨out, phase⟩ := s
    obtain ⟨rfl, rfl⟩ := next_start hnext
    exact start_orderly h outcomes
  | stop => exact stop_orderly h hnext
  | setBitrateControl automatic manual =>
    obtain rfl := Option.some.inj hnext
    exact h.keeps (setBitrateControl_keeps s.out automatic manual)
  | setMaxBitrate maxBitrateKbps =>
    obtain rfl := Option.some.inj hnext
    exact h.keeps (setMaxBitrate_keeps s.out maxBitrateKbps)
  | external call =>
    obtain ⟨hcall, rfl⟩ := next_external hnext
    exact h.keeps (onEngine_keeps s.out fun e => (Engine.external_sameControl hcall e).running)
  | abrWorker nowMs sampled =>
    obtain ⟨worker, out, hworker, hstep, rfl⟩ := next_abrWorker hnext
    exact h.keeps (stepAbrWorker_keeps hworker hstep)

theorem update_idle {s t : OutputSystem F A} (h : s.Orderly) {settings : Option OutputSettings}
    {config : Option EngineConfig} {credentialError : Bool}
    (hnext : s.next (.update settings config credentialError) = some t) : t.out.running ≠ true := by
  intro hrunning
  have hphase := (next_orderly h hnext).phase_running hrunning
  obtain ⟨hstopped, rfl⟩ := next_update hnext
  rw [hstopped] at hphase
  cases hphase

theorem stop_idle {s t : OutputSystem F A} (h : s.Orderly) (hnext : s.next .stop = some t) :
    t.out.running ≠ true := by
  intro hrunning
  exact stop_phase hnext ((next_orderly h hnext).phase_running hrunning)

theorem reached_orderly {settings : Option OutputSettings} {config : Option EngineConfig}
    {videoEncoder : Option VideoEncoder} {audioEncoder : Option AudioEncoder}
    {credentialError : Bool} {ok : OutputSystem F A → OutputStep F A → Prop}
    {steps : List (OutputStep F A)} {s : OutputSystem F A}
    (h : Run next ok (created settings config videoEncoder audioEncoder credentialError) steps s) :
    s.Orderly :=
  h.invariant (fun _ _ _ hs _ hnext => next_orderly hs hnext)
    (create_stopped settings config videoEncoder audioEncoder credentialError)

end OutputSystem
end Srtla
