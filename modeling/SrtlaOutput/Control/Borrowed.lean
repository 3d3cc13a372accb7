import SrtlaOutput.Control.Ceiling

/-! The encoder that a run borrows. It is lent from the start until the stop restores it, and
after that only a call for manual mode still writes it. -/

namespace Srtla
open Schedule
variable {F A : Type}

namespace OutputState

/-- The encoder is back with its user, and no worker is left that writes it. -/
structure Returned (d : OutputState F A) (prior : Option Int) : Prop where
  bitrate : d.bitrate = prior
  bitrateOverridden : d.bitrateOverridden = false
  abrWorker : d.abrWorker = none
  running : d.running = false

namespace Returned
variable {d d' : OutputState F A} {prior : Option Int}

theorem keeps (h : d.Returned prior) (hkeeps : Keeps d d') (hbitrate : d'.bitrate = d.bitrate) :
    d'.Returned prior :=
  ⟨hbitrate.trans h.bitrate, hkeeps.bitrateOverridden.trans h.bitrateOverridden,
    hkeeps.abrWorker h.abrWorker, hkeeps.running.trans h.running⟩

theorem setBitrateControl (h : d.Returned prior) {automatic : Bool} {manual : Int}
    (hsame : automatic = false → d.engine ≠ none → ∀ kbps ∈ d.bitrate, manualKbps manual = kbps) :
    (d.setBitrateControl automatic manual).1.Returned prior := by
  refine h.keeps (d.setBitrateControl_keeps automatic manual) ?_
  rcases d.setBitrateControl_cases automatic manual with
    ⟨code, heq, -⟩ | ⟨engine, bps, hengine, -, -, heq⟩
  · rw [heq]
  · rw [heq]
    cases automatic with
    | true => rfl
    | false =>
      have hkept := hsame rfl (by rw [hengine]; simp)
      show (d.changeBitrate (manualKbps manual)).bitrate = d.bitrate
      rw [changeBitrate_bitrate]
      cases hbitrate : d.bitrate with
      | none => rfl
      | some kbps => rw [Option.map_some, hkept kbps hbitrate]

theorem setMaxBitrate (h : d.Returned prior) (maxBitrateKbps : Int) :
    (d.setMaxBitrate maxBitrateKbps).1.Returned prior := by
  refine h.keeps (d.setMaxBitrate_keeps maxBitrateKbps) ?_
  rcases d.setMaxBitrate_cases maxBitrateKbps with
    ⟨code, heq, -⟩ | ⟨engine, -, -, heq⟩ | ⟨engine, _, bps, -, hmode, -⟩
  · rw [heq]
  · rw [heq]
    rfl
  · rw [h.running, Bool.false_and] at hmode
    cases hmode

theorem restore (h : d.Returned prior) : d.restoreSharedBitrate.Returned prior := by
  have hsame : d.restoreSharedBitrate = d := by
    rw [restoreSharedBitrate, h.bitrateOverridden]
    rfl
  rw [hsame]
  exact h

theorem update [F64 F] (h : d.Returned prior) (settings : Option OutputSettings)
    (config : Option EngineConfig) (credentialError : Bool) :
    (d.update settings config credentialError).Returned prior := by
  unfold OutputState.update
  split_ifs
  · exact h
  · exact ⟨h.bitrate, h.bitrateOverridden, h.abrWorker, h.running⟩

end Returned
end OutputState

namespace OutputSystem
open OutputState

/-- Until the restore the encoder is lent; from then on it is returned. -/
def Owes (s : OutputSystem F A) (prior : Option Int) : Prop :=
  (s.phase ≠ .stopped ∧ s.phase ≠ .stopping .release ∧ s.out.Lent prior) ∨ s.out.Returned prior

/-- No start, and no call for manual mode at another bitrate than the encoder's once the
encoder is not overridden any more. -/
def BorrowMet (s : OutputSystem F A) : OutputStep F A → Prop
  | .start _ => False
  | .setBitrateControl automatic manual =>
    s.out.bitrateOverridden = false → automatic = false → s.out.engine ≠ none →
      ∀ kbps ∈ s.out.bitrate, manualKbps manual = kbps
  | _ => True

theorem stop_returned {s t : OutputSystem F A} {prior : Option Int} (h : s.out.Returned prior)
    (hstop : s.stop = some t) : t.out.Returned prior := by
  unfold stop at hstop
  split at hstop
  · obtain rfl := Option.some.inj hstop
    exact ⟨h.bitrate, h.bitrateOverridden, h.abrWorker, h.running⟩
  · split_ifs at hstop
    obtain rfl := Option.some.inj hstop
    exact ⟨h.bitrate, h.bitrateOverridden, rfl, h.running⟩
  · obtain rfl := Option.some.inj hstop
    exact ⟨h.bitrate, h.bitrateOverridden, h.abrWorker, h.running⟩
  · obtain rfl := Option.some.inj hstop
    exact h.restore
  · obtain rfl := Option.some.inj hstop
    exact ⟨h.bitrate, h.bitrateOverridden, h.abrWorker, h.running⟩
  · obtain rfl := Option.some.inj hstop
    exact ⟨h.bitrate, h.bitrateOverridden, h.abrWorker, rfl⟩

theorem stop_lent {s t : OutputSystem F A} {prior : Option Int} (horderly : s.Orderly)
    (hphase : s.phase ≠ .stopped) (hrelease : s.phase ≠ .stopping .release)
    (hlent : s.out.Lent prior) (hstop : s.stop = some t) : t.Owes prior := by
  obtain ⟨out, phase⟩ := s
  cases phase with
  | stopped => exact absurd rfl hphase
  | running =>
    obtain rfl := Option.some.inj hstop
    exact .inl ⟨by simp, by simp, hlent.congr rfl rfl rfl⟩
  | stopping next =>
    cases next with
    | signal =>
      obtain rfl := Option.some.inj hstop
      exact .inl ⟨by simp, by simp, hlent.congr rfl rfl rfl⟩
    | join =>
      simp only [stop] at hstop
      split_ifs at hstop
      obtain rfl := Option.some.inj hstop
      exact .inl ⟨by simp, by simp, hlent.congr rfl rfl rfl⟩
    | teardown =>
      obtain rfl := Option.some.inj hstop
      exact .inl ⟨by simp, by simp, hlent.congr rfl rfl rfl⟩
    | restore =>
      -- the worker was joined before, and the bitrate is put back under the mutex
      obtain rfl := Option.some.inj hstop
      obtain ⟨htorn, hover⟩ := restore_tornDown (d := out) horderly
      exact .inr ⟨hlent.restore, hover, htorn.abrWorker, htorn.running⟩
    | release => exact absurd rfl hrelease

variable [F64 F] [IpAddr A]

theorem next_owes {s t : OutputSystem F A} {l : OutputStep F A} {prior : Option Int}
    (horderly : s.Orderly) (howes : s.Owes prior) (hok : s.BorrowMet l)
    (hnext : s.next l = some t) : t.Owes prior := by
  have hkept {d : OutputState F A} (hkeeps : Keeps s.out d)
      (hbitrate : s.out.Returned prior → d.Returned prior) : Owes { s with out := d } prior := by
    rcases howes with ⟨hphase, hrelease, hlent⟩ | hreturned
    · exact .inl ⟨hphase, hrelease, hkeeps.lent hlent⟩
    · exact .inr (hbitrate hreturned)
  cases l with
  | update settings config credentialError =>
    obtain ⟨hstopped, rfl⟩ := next_update hnext
    rcases howes with ⟨hphase, -, -⟩ | hreturned
    · exact absurd hstopped hphase
    · exact .inr (hreturned.update settings config credentialError)
  | start outcomes => exact hok.elim
  | stop =>
    rcases howes with ⟨hphase, hrelease, hlent⟩ | hreturned
    · exact stop_lent horderly hphase hrelease hlent hnext
    · exact .inr (stop_returned hreturned hnext)
  | setBitrateControl automatic manual =>
    obtain rfl := Option.some.inj hnext
    exact hkept (setBitrateControl_keeps s.out automatic manual) fun hreturned =>
      hreturned.setBitrateControl (hok hreturned.bitrateOverridden)
  | setMaxBitrate maxBitrateKbps =>
    obtain rfl := Option.some.inj hnext
    exact hkept (setMaxBitrate_keeps s.out maxBitrateKbps) fun hreturned =>
      hreturned.setMaxBitrate maxBitrateKbps
  | external call =>
    obtain ⟨hcall, rfl⟩ := next_external hnext
    have hkeeps := onEngine_keeps s.out fun e => (Engine.external_sameControl hcall e).running
    exact hkept hkeeps fun hreturned => hreturned.keeps hkeeps rfl
  | abrWorker nowMs sampled =>
    obtain ⟨worker, out, hworker, hstep, rfl⟩ := next_abrWorker hnext
    refine hkept (stepAbrWorker_keeps hworker hstep) fun hreturned => ?_
    rw [hreturned.abrWorker] at hworker
    cases hworker

/-- When the stop of a run has returned, and until the next start, the encoder has the bitrate
it had before the run started. The bitrate fits the `int` in which the plugin remembers it,
and no call for manual mode comes after the restore with another bitrate. -/
theorem encoder_returned {settings : Option OutputSettings} {config : Option EngineConfig}
    {videoEncoder : Option VideoEncoder} {audioEncoder : Option AudioEncoder}
    {credentialError : Bool} {before : List (OutputStep F A)} {s : OutputSystem F A}
    (hreach : Run next (fun _ _ => True)
      (created settings config videoEncoder audioEncoder credentialError) before s)
    (hphase : s.phase = .stopped) (hfits : ∀ kbps ∈ s.out.bitrate, toInt32 kbps = kbps)
    {w : StartOutcomes F A} (hstart : (s.out.start w).2 = true)
    {after : List (OutputStep F A)} {u : OutputSystem F A}
    (hrun : Run next BorrowMet ⟨(s.out.start w).1, .running⟩ after u)
    (hreturned : u.phase = .stopped) : u.out.bitrate = s.out.bitrate := by
  have hstopped : s.out.Stopped := by
    have horderly := reached_orderly hreach
    rw [Orderly, hphase] at horderly
    exact horderly
  have horderly := start_orderly hstopped w
  have hends := start_ends hstopped w
  rw [EndsWell, hstart, map_toInt32 hfits] at hends
  rw [hstart] at horderly
  have hinv := hrun.invariant
    (I := fun t : OutputSystem F A => t.Orderly ∧ t.Owes s.out.bitrate)
    (fun s l t h hok hnext => ⟨next_orderly h.1 hnext, next_owes h.1 h.2 hok hnext⟩)
    ⟨horderly, .inl ⟨by simp, by simp, hends.lent⟩⟩
  rcases hinv.2 with ⟨hphase', -, -⟩ | hreturned'
  · exact absurd hreturned hphase'
  · exact hreturned'.bitrate

instance (s : OutputSystem F A) (l : OutputStep F A) : Decidable (s.BorrowMet l) :=
  match l with
  | .setBitrateControl automatic manual =>
    inferInstanceAs (Decidable (_ = false → automatic = false → s.out.engine ≠ none →
      ∀ kbps ∈ s.out.bitrate, manualKbps manual = kbps))
  | .start _ => instDecidableFalse
  | .update _ _ _ | .stop | .setMaxBitrate _ | .external _ | .abrWorker _ _ => instDecidableTrue

/-- The first step of a stop and its signal, the worker's last test, and the other steps. -/
def stopRun : List (OutputStep ℚ Ipv4) :=
  [.stop, .stop, .abrWorker 0 none, .stop, .stop, .stop, .stop]

/-- The output has stopped, and a call for manual mode writes the encoder of its user. -/
theorem encoder_altered :
    let s := (exec next live stopRun).get (by decide +kernel)
    onLan.out.bitrate = some 2500 ∧ s.phase = .stopped ∧ s.out.bitrate = some 2500 ∧
      (s.out.setBitrateControl false 8000).2 = 0 ∧
      (exec next s [.setBitrateControl false 8000]).map (fun u => (u.phase, u.out.bitrate)) =
        some (.stopped, some 8000) := by
  decide +kernel

def borrowRun : List (OutputStep ℚ Ipv4) :=
  [.setMaxBitrate 2000, .setBitrateControl false 8000] ++ stopRun ++
    [.setMaxBitrate 3000, .setBitrateControl true 4000]

def borrowed : OutputSystem ℚ Ipv4 :=
  (exec (guard next BorrowMet)
    ⟨(onLan.out.start { noMuxer with muxerCreated := true }).1, .running⟩ borrowRun).get
      (by decide +kernel)

theorem encoder_returned_after_run : borrowed.out.bitrate = onLan.out.bitrate := by
  have hrun : Run next BorrowMet
      ⟨(onLan.out.start { noMuxer with muxerCreated := true }).1, .running⟩ borrowRun borrowed :=
    .of_exec (Option.some_get _).symm
  have hfits : ∀ kbps ∈ onLan.out.bitrate, toInt32 kbps = kbps := by decide +kernel
  exact encoder_returned (.nil onLan) rfl hfits (by decide +kernel) hrun (by decide +kernel)

end OutputSystem
end Srtla
