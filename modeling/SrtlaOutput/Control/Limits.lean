import SrtlaOutput.Control.Frame

/-! The engine and the plugin hold the same limits all along. -/

namespace Srtla
open Abr Schedule Reactive
variable {F A : Type}

/-- The engine's limits are the plugin's, in b/s. -/
structure Engine.Limited (e : Engine F A) (minKbps maxKbps : Int) : Prop where
  inRange : e.abr.InRange
  minBps : (e.abr.config.minBps : Int) = minKbps * 1000
  maxBps : (e.abr.config.maxBps : Int) = maxKbps * 1000

namespace Engine.Limited
variable {e : Engine F A} {minKbps maxKbps : Int}

theorem of_config {e' : Engine F A} (h : e.Limited minKbps maxKbps) (hrange : e'.abr.InRange)
    (hconfig : e'.abr.config = e.abr.config) : e'.Limited minKbps maxKbps :=
  ⟨hrange, hconfig ▸ h.minBps, hconfig ▸ h.maxBps⟩

theorem setVideoBitrate (h : e.Limited minKbps maxKbps) (bps : Nat) :
    (e.setVideoBitrate bps).1.Limited minKbps maxKbps :=
  h.of_config (AbrController.setCurrentBps_inRange h.inRange bps) rfl

theorem setMaxVideoBitrate (h : e.Limited minKbps maxKbps) {maximum : Int}
    (hfloor : 500 ≤ maximum) (hmin : minKbps ≤ maximum) :
    (e.setMaxVideoBitrate (maximum.toNat * 1000)).1.Limited minKbps maximum := by
  have hnonzero : ¬maximum.toNat * 1000 = 0 := by omega
  have hminBps := h.minBps
  have hrange := AbrController.setMaxBps_inRange h.inRange (maximum.toNat * 1000)
  have hmax : max (max (maximum.toNat * 1000) e.abr.config.minBps) roundingBps =
      maximum.toNat * 1000 := by
    unfold roundingBps
    omega
  rw [Engine.setMaxVideoBitrate, if_neg hnonzero]
  refine ⟨hrange, h.minBps, ?_⟩
  show ((max (max (maximum.toNat * 1000) e.abr.config.minBps) roundingBps : Nat) : Int) = _
  rw [hmax]
  omega

variable [F64 F] [IpAddr A]

theorem start (h : e.Limited minKbps maxKbps) : e.start.1.Limited minKbps maxKbps := by
  have hconfig : e.start.1.abr.config = e.abr.config := by
    simp only [Engine.start]
    split_ifs <;> rfl
  exact h.of_config (start_inRange h.inRange) hconfig

theorem external (h : e.Limited minKbps maxKbps) {i : Input F A} (hi : i.external = true) :
    (e.step i).1.Limited minKbps maxKbps :=
  h.of_config (step_inRange e i h.inRange) (external_sameControl hi e).config

theorem applyAbr (h : e.Limited minKbps maxKbps) (nowMs : Nat) :
    (e.applyAbr nowMs).1.Limited minKbps maxKbps :=
  h.of_config (step_inRange e (.applyAbr nowMs) h.inRange) (applyAbr_config e nowMs)

theorem targetKbps_le (h : e.Limited minKbps maxKbps) (hmax : maxKbps ≤ absoluteMaxBitrateKbps)
    (nowMs : Nat) : targetKbps (e.applyAbr nowMs).2 ≤ maxKbps := by
  have hsynced : e.syncRunnerStats.abr.InRange := (syncRunnerStats_peripheral e).abr ▸ h.inRange
  have happlied : (e.applyAbr nowMs).2 ≤ e.abr.config.maxBps := by
    rw [← (syncRunnerStats_peripheral e).abr]
    exact (AbrController.decide_applied_mem hsynced _).2
  have hmaxBps := h.maxBps
  unfold absoluteMaxBitrateKbps at hmax
  have hsmall : (((e.applyAbr nowMs).2 / 1000 : Nat) : Int) ≤ maxKbps := by omega
  unfold targetKbps toInt32
  rw [Int.bmod_eq_of_le (by omega) (by omega)]
  exact hsmall

end Engine.Limited

namespace OutputState

structure Limits (d : OutputState F A) : Prop where
  floor : 500 ≤ d.minBitrateKbps
  min_le_max : d.minBitrateKbps ≤ d.maxBitrateKbps
  max_le : d.maxBitrateKbps ≤ absoluteMaxBitrateKbps
  engine : ∀ e ∈ d.engine, e.Limited d.minBitrateKbps d.maxBitrateKbps

namespace Limits
variable {d : OutputState F A}

theorem congr (h : d.Limits) {d' : OutputState F A} (hengine : d'.engine = d.engine)
    (hmin : d'.minBitrateKbps = d.minBitrateKbps) (hmax : d'.maxBitrateKbps = d.maxBitrateKbps) :
    d'.Limits := by
  obtain ⟨h1, h2, h3, h4⟩ := h
  rw [← hmin] at h1 h2 h4
  rw [← hmax] at h2 h3 h4
  rw [← hengine] at h4
  exact ⟨h1, h2, h3, h4⟩

theorem withEngine (h : d.Limits) {engine : Engine F A}
    (hengine : engine.Limited d.minBitrateKbps d.maxBitrateKbps) :
    { d with engine := some engine }.Limits := by
  refine ⟨h.floor, h.min_le_max, h.max_le, ?_⟩
  rintro e ⟨rfl⟩
  exact hengine

theorem onEngine (h : d.Limits) {f : Engine F A → Engine F A}
    (hf : ∀ e minKbps maxKbps, e.Limited minKbps maxKbps → (f e).Limited minKbps maxKbps) :
    (d.onEngine f).Limits := by
  refine ⟨h.floor, h.min_le_max, h.max_le, ?_⟩
  intro e he
  obtain ⟨e₀, he₀, rfl⟩ := Option.map_eq_some_iff.mp he
  exact hf e₀ _ _ (h.engine e₀ he₀)

theorem stopEngine (h : d.Limits) : d.stopEngine.Limits :=
  h.onEngine fun _ _ _ he => he.of_config he.inRange rfl

theorem restoreSharedBitrate (h : d.Limits) : d.restoreSharedBitrate.Limits := by
  obtain ⟨_, heq⟩ := restoreSharedBitrate_eq d
  rw [heq]
  exact h.congr rfl rfl rfl

theorem changeBitrate (h : d.Limits) (kbps : Int) : (d.changeBitrate kbps).Limits := by
  obtain ⟨_, heq⟩ := changeBitrate_eq d kbps
  rw [heq]
  exact h.congr rfl rfl rfl

theorem abandon (h : d.Limits) : d.abandon.Limits := by
  have hsession : { d with session := false }.Limits := h.congr rfl rfl rfl
  exact hsession.stopEngine.restoreSharedBitrate

theorem unwind (h : d.Limits) : d.unwind.Limits := by
  have hparked :
      ({ { d with running := false }.endCapture with
        abrStop := true, abrWorker := none, worker := false, session := false } :
          OutputState F A).Limits := h.congr rfl rfl rfl
  exact hparked.stopEngine.restoreSharedBitrate.congr rfl rfl rfl

theorem launch (h : d.Limits) (w : StartOutcomes F A) : (d.launch w).1.Limits := by
  have hsame (d' : OutputState F A) (hengine : d'.engine = d.engine)
      (hmin : d'.minBitrateKbps = d.minBitrateKbps) (hmax : d'.maxBitrateKbps = d.maxBitrateKbps) :
      d'.unwind.Limits := (h.congr hengine hmin hmax).unwind
  unfold OutputState.launch
  dsimp only
  split_ifs
  · exact hsame _ rfl rfl rfl
  · exact hsame _ rfl rfl rfl
  · exact hsame _ rfl rfl rfl
  · exact h.congr rfl rfl rfl

theorem startBitrate (h : d.Limits) (w : StartOutcomes F A) : (d.startBitrate w).1.Limits := by
  have hinit : d.initializeBitrate.Limits := by
    obtain ⟨_, _, _, _, heq⟩ := initializeBitrate_eq d
    rw [heq]
    exact h.congr rfl rfl rfl
  have hset := hinit.onEngine fun e _ _ (he : e.Limited _ _) =>
    he.setVideoBitrate ((max 1 d.initializeBitrate.activeBitrateKbps).toNat * 1000)
  unfold OutputState.startBitrate
  dsimp only
  split_ifs
  · exact hinit.abandon
  · exact hset.abandon
  · refine launch ?_ w
    exact hset.congr rfl rfl rfl

theorem clampInt_mem {lo hi : Int} (h : lo ≤ hi) (x : Int) :
    lo ≤ clampInt x lo hi ∧ clampInt x lo hi ≤ hi := by
  unfold clampInt
  split_ifs <;> omega

theorem setBitrateControl (h : d.Limits) (automatic : Bool) (manual : Int) :
    (d.setBitrateControl automatic manual).1.Limits := by
  rcases d.setBitrateControl_cases automatic manual with
    ⟨code, heq, -⟩ | ⟨engine, bps, hengine, -, -, heq⟩
  · rw [heq]
    exact h
  · have hset := (h.engine engine hengine).setVideoBitrate bps
    rw [heq]
    cases automatic with
    | true => exact (h.withEngine hset).congr rfl rfl rfl
    | false =>
      obtain ⟨_, hchange⟩ := changeBitrate_eq d (manualKbps manual)
      rw [hchange]
      exact (h.withEngine hset).congr rfl rfl rfl

theorem withMaximum (h : d.Limits) {engine : Engine F A} (hengine : d.engine = some engine)
    (maxBitrateKbps : Int) :
    { d with
      engine := some (engine.setMaxVideoBitrate
        ((d.effectiveMaximum maxBitrateKbps).toNat * 1000)).1
      maxBitrateKbps := d.effectiveMaximum maxBitrateKbps }.Limits := by
  have hfloor := h.floor
  have hordered : max 1 d.minBitrateKbps ≤ absoluteMaxBitrateKbps := by
    have hle := h.min_le_max.trans h.max_le
    unfold absoluteMaxBitrateKbps at hle ⊢
    omega
  obtain ⟨hmin, hmax⟩ := clampInt_mem hordered maxBitrateKbps
  have hmin' : d.minBitrateKbps ≤ d.effectiveMaximum maxBitrateKbps := by
    unfold effectiveMaximum
    omega
  have hcapped := (h.engine engine hengine).setMaxVideoBitrate (hfloor.trans hmin') hmin'
  refine ⟨hfloor, hmin', hmax, ?_⟩
  rintro e ⟨rfl⟩
  exact hcapped

theorem setMaxBitrate (h : d.Limits) (maxBitrateKbps : Int) :
    (d.setMaxBitrate maxBitrateKbps).1.Limits := by
  rcases d.setMaxBitrate_cases maxBitrateKbps with
    ⟨code, heq, -⟩ | ⟨engine, hengine, -, heq⟩ | ⟨engine, kbps, bps, hengine, -, -, -, heq⟩
  · rw [heq]
    exact h
  · rw [heq]
    exact h.withMaximum hengine maxBitrateKbps
  · have hraised := h.withMaximum hengine maxBitrateKbps
    have hset := (hraised.engine _ rfl).setVideoBitrate bps
    obtain ⟨_, hchange⟩ :=
      changeBitrate_eq { d with maxBitrateKbps := d.effectiveMaximum maxBitrateKbps }
        (cappedKbps kbps (d.effectiveMaximum maxBitrateKbps))
    rw [heq, hchange]
    exact (hraised.withEngine hset).congr rfl rfl rfl

/-! A new output. -/

theorem configured_ordered (settings : Option OutputSettings) :
    500 ≤ configuredMinBitrateKbps settings (configuredMaxBitrateKbps settings) ∧
      configuredMinBitrateKbps settings (configuredMaxBitrateKbps settings) ≤
        configuredMaxBitrateKbps settings ∧
      configuredMaxBitrateKbps settings ≤ absoluteMaxBitrateKbps := by
  have hmax : 500 ≤ configuredMaxBitrateKbps settings ∧
      configuredMaxBitrateKbps settings ≤ absoluteMaxBitrateKbps := clampInt_mem (by decide) _
  have hmin : 500 ≤ configuredMinBitrateKbps settings (configuredMaxBitrateKbps settings) ∧
      configuredMinBitrateKbps settings (configuredMaxBitrateKbps settings) ≤
        configuredMaxBitrateKbps settings := clampInt_mem hmax.1 _
  exact ⟨hmin.1, hmin.2, hmax.2⟩

variable [F64 F]

theorem createEngine_limited (settings : Option OutputSettings) (config : EngineConfig) :
    (createEngineFromSettings settings config : Engine F A).Limited
      (configuredMinBitrateKbps settings (configuredMaxBitrateKbps settings))
      (configuredMaxBitrateKbps settings) := by
  have hordered := configured_ordered settings
  refine ⟨AbrController.new_inRange _, ?_, ?_⟩
  · show ((min (max 1 (configuredMinBitrateKbps settings (configuredMaxBitrateKbps settings))
      * 1000).toNat (max (max 1 (configuredMaxBitrateKbps settings) * 1000).toNat 100000) : Nat) :
        Int) = _
    omega
  · show ((max (max 1 (configuredMaxBitrateKbps settings) * 1000).toNat 100000 : Nat) : Int) = _
    omega

theorem of_settings {settings : Option OutputSettings} {config : Option EngineConfig}
    (hengine : d.engine = config.map (createEngineFromSettings settings))
    (hmin : d.minBitrateKbps =
      configuredMinBitrateKbps settings (configuredMaxBitrateKbps settings))
    (hmax : d.maxBitrateKbps = configuredMaxBitrateKbps settings) : d.Limits := by
  obtain ⟨hfloor, hle, hceiling⟩ := configured_ordered settings
  rw [← hmin] at hfloor hle
  rw [← hmax] at hle hceiling
  refine ⟨hfloor, hle, hceiling, ?_⟩
  intro e he
  rw [hengine] at he
  obtain ⟨config, -, rfl⟩ := Option.map_eq_some_iff.mp he
  rw [hmin, hmax]
  exact createEngine_limited settings config

/-! A start. -/

variable [IpAddr A]

theorem connect (h : d.Limits) (calls : List (Input F A)) : (d.connect calls).Limits := by
  have hsession : { d with session := true }.Limits := h.congr rfl rfl rfl
  refine hsession.onEngine fun e minKbps maxKbps he => ?_
  refine exec_invariant_of (I := fun e : Engine F A => e.Limited minKbps maxKbps)
    (P := fun i : Input F A => i.external = true) ?_ he ?_
  · intro e i hi he
    exact he.external hi
  · intro i hi
    exact (List.mem_filter.mp hi).2

theorem startSession (h : d.Limits) (w : StartOutcomes F A) : (d.startSession w).1.Limits := by
  have haudio := h.onEngine (f := fun e => (e.setAudioBitrate d.audioBitrateBps).1)
    fun _ _ _ he => he.of_config he.inRange rfl
  have hconnect := haudio.connect w.sessionCalls
  unfold OutputState.startSession
  dsimp only
  split_ifs
  · exact h.stopEngine
  · exact haudio.stopEngine
  · refine stopEngine ?_
    exact hconnect.congr rfl rfl rfl
  · exact hconnect.startBitrate w

theorem start (h : d.Limits) (w : StartOutcomes F A) : (d.start w).1.Limits := by
  have hprepared (engine : Option (Engine F A)) (hengine : engine = d.engine) :
      { d with
        engine
        lifecycle := some (({} : CaptureLifecycle).prepare w.canBegin).1
        muxer := false, captureActive := false, running := false }.Limits :=
    h.congr hengine rfl rfl
  unfold OutputState.start
  dsimp only
  split_ifs
  · exact h
  · exact h
  · exact h.congr rfl rfl rfl
  · exact h.congr rfl rfl rfl
  · exact h.congr rfl rfl rfl
  · refine startSession ((hprepared d.engine rfl).onEngine ?_) w
    intro e _ _ he
    exact he.start

theorem updateSrtStats (h : d.Limits) (sampled : Option SrtlaSrtStats) :
    (d.updateSrtStats sampled).Limits := by
  cases sampled with
  | none => exact h
  | some stats => exact h.onEngine fun _ _ _ he => he.external (i := .updateSrtStats (some stats)) rfl

theorem stepAbrWorker (h : d.Limits) {worker : AbrWorker} {nowMs : Nat}
    {sampled : Option SrtlaSrtStats} {d' : OutputState F A}
    (hstep : d.stepAbrWorker nowMs sampled worker = some d') : d'.Limits := by
  cases worker with
  | sampling =>
    obtain rfl := Option.some.inj hstep
    exact (h.updateSrtStats sampled).congr rfl rfl rfl
  | deciding =>
    obtain rfl := Option.some.inj hstep
    rcases d.decideTarget_cases nowMs with ⟨-, heq⟩ | ⟨engine, hengine, heq⟩
    · rw [heq]
      exact h.congr rfl rfl rfl
    · rw [heq]
      exact (h.withEngine ((h.engine engine hengine).applyAbr nowMs)).congr rfl rfl rfl
  | writing appliedBps =>
    obtain rfl := Option.some.inj hstep
    have hwrite : (d.writeTarget appliedBps).Limits := by
      unfold writeTarget
      split_ifs
      · exact h.changeBitrate _
      · exact h
    exact hwrite.congr rfl rfl rfl
  | returned => cases hstep
  | _ =>
    obtain rfl := Option.some.inj hstep
    exact h.congr rfl rfl rfl

end Limits
end OutputState

namespace OutputSystem
theorem stop_limits {s t : OutputSystem F A} (h : s.out.Limits) (hstop : s.stop = some t) :
    t.out.Limits := by
  unfold stop at hstop
  split at hstop
  · obtain rfl := Option.some.inj hstop
    exact h.congr rfl rfl rfl
  · split_ifs at hstop
    obtain rfl := Option.some.inj hstop
    exact h.congr rfl rfl rfl
  · obtain rfl := Option.some.inj hstop
    refine OutputState.Limits.stopEngine ?_
    exact h.congr rfl rfl rfl
  · obtain rfl := Option.some.inj hstop
    exact h.restoreSharedBitrate
  · obtain rfl := Option.some.inj hstop
    exact h.congr rfl rfl rfl
  · obtain rfl := Option.some.inj hstop
    exact h.congr rfl rfl rfl

variable [F64 F] [IpAddr A]

theorem next_limits {s t : OutputSystem F A} {l : OutputStep F A} (h : s.out.Limits)
    (hnext : s.next l = some t) : t.out.Limits := by
  cases l with
  | update settings config credentialError =>
    obtain ⟨-, rfl⟩ := next_update hnext
    show (s.out.update settings config credentialError).Limits
    unfold OutputState.update
    split_ifs
    · exact h
    · exact .of_settings rfl rfl rfl
  | start outcomes =>
    obtain ⟨-, rfl⟩ := next_start hnext
    exact h.start outcomes
  | stop => exact stop_limits h hnext
  | setBitrateControl automatic manual =>
    obtain rfl := Option.some.inj hnext
    exact h.setBitrateControl automatic manual
  | setMaxBitrate maxBitrateKbps =>
    obtain rfl := Option.some.inj hnext
    exact h.setMaxBitrate maxBitrateKbps
  | external call =>
    obtain ⟨hcall, rfl⟩ := next_external hnext
    exact h.onEngine fun _ _ _ he => he.external hcall
  | abrWorker nowMs sampled =>
    obtain ⟨worker, out, -, hstep, rfl⟩ := next_abrWorker hnext
    exact h.stepAbrWorker hstep

theorem reached_limits {settings : Option OutputSettings} {config : Option EngineConfig}
    {videoEncoder : Option VideoEncoder} {audioEncoder : Option AudioEncoder}
    {credentialError : Bool} {ok : OutputSystem F A → OutputStep F A → Prop}
    {steps : List (OutputStep F A)} {s : OutputSystem F A}
    (h : Run next ok (created settings config videoEncoder audioEncoder credentialError) steps s) :
    s.out.Limits :=
  h.invariant (fun _ _ _ hs _ hnext => next_limits hs hnext) (.of_settings rfl rfl rfl)

end OutputSystem
end Srtla
