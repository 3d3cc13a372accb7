import SrtlaOutput.Control.System

/-! What the control calls, the ABR worker and the other calls on the engine leave alone. -/

namespace Srtla
open Abr
variable {F A : Type}

namespace Engine

/-- Neither the run flag, nor the bitrate, nor the limits. -/
structure SameControl (e e' : Engine F A) : Prop where
  running : e'.running = e.running
  currentVideoBps : e'.currentVideoBps = e.currentVideoBps
  config : e'.abr.config = e.abr.config

theorem Peripheral.sameControl {e e' : Engine F A} (h : Peripheral e e') : SameControl e e' :=
  ⟨h.running, h.currentVideoBps, congrArg AbrController.config h.abr⟩

theorem updateSrtStats_sameControl (e : Engine F A) (stats : Option SrtlaSrtStats) :
    SameControl e (e.updateSrtStats stats).1 := by
  cases stats with
  | none => exact ⟨rfl, rfl, rfl⟩
  | some stats =>
    simp only [updateSrtStats]
    split_ifs <;> exact ⟨rfl, rfl, rfl⟩

theorem setVideoBitrate_running (e : Engine F A) (bps : Nat) :
    (e.setVideoBitrate bps).1.running = e.running := rfl

theorem setMaxVideoBitrate_running (e : Engine F A) (bps : Nat) :
    (e.setMaxVideoBitrate bps).1.running = e.running := by
  unfold setMaxVideoBitrate
  split_ifs <;> rfl

variable [F64 F]

theorem setSessionState_sameControl (e : Engine F A) (state : Nat) (error : Option String) :
    SameControl e (e.setSessionState state error).1 := by
  unfold setSessionState
  by_cases hstate : state > sessionStopped
  · rw [if_pos hstate]
    exact ⟨rfl, rfl, rfl⟩
  · rw [if_neg hstate]
    refine ⟨rfl, rfl, ?_⟩
    show (if e.sessionState ≠ state then _ else e.abr).config = e.abr.config
    split_ifs <;> rfl

variable [IpAddr A]

theorem external_sameControl {i : Input F A} (h : i.external = true) (e : Engine F A) :
    SameControl e (e.step i).1 := by
  cases i with
  | submitSrtDatagram data => exact (submitSrtDatagram_peripheral e data).sameControl
  | receiveSrtDatagram capacity => exact (receiveSrtDatagram_peripheral e capacity).sameControl
  | setLinkEnabled linkId enabled => exact (setLinkEnabled_peripheral e linkId enabled).sameControl
  | updateAdapters adapters => exact (updateAdapters_peripheral e adapters).sameControl
  | updateLinkStats stats => exact (updateLinkStats_peripheral e stats).sameControl
  | updateSrtStats stats => exact updateSrtStats_sameControl e stats
  | setSessionState state error => exact setSessionState_sameControl e state error
  | copyStatsJson => exact (syncRunnerStats_peripheral e).sameControl
  | lastError => exact ⟨rfl, rfl, rfl⟩
  | runner effect => exact ⟨rfl, rfl, rfl⟩
  | _ => cases h

theorem applyAbr_running (e : Engine F A) (nowMs : Nat) :
    (e.applyAbr nowMs).1.running = e.running := (syncRunnerStats_peripheral e).running

end Engine

namespace OutputState

/-- The engine still does not run, if it did not; the encoder still hands out settings; and
no ABR worker has come into being. The first field names all that may differ. -/
structure Keeps (d d' : OutputState F A) : Prop where
  frame : d' =
    { d with
      engine := d'.engine
      videoEncoder := d'.videoEncoder
      autoBitrate := d'.autoBitrate
      maxBitrateKbps := d'.maxBitrateKbps
      manualBitrateKbps := d'.manualBitrateKbps
      abrWorker := d'.abrWorker }
  engine : (∀ e ∈ d.engine, e.running = false) → ∀ e ∈ d'.engine, e.running = false
  settings : d'.bitrate.isSome = d.bitrate.isSome
  abrWorker : d.abrWorker = none → d'.abrWorker = none

namespace Keeps
variable {d d' d'' : OutputState F A}

theorem refl (d : OutputState F A) : Keeps d d := ⟨rfl, id, rfl, id⟩

theorem trans (h : Keeps d d') (h' : Keeps d' d'') : Keeps d d'' := by
  refine ⟨?_, fun hidle => h'.engine (h.engine hidle), h'.settings.trans h.settings,
    fun hnone => h'.abrWorker (h.abrWorker hnone)⟩
  have hframe' := h'.frame
  rw [h.frame] at hframe'
  exact hframe'

theorem running (h : Keeps d d') : d'.running = d.running := congrArg (·.running) h.frame

theorem bitrateOverridden (h : Keeps d d') : d'.bitrateOverridden = d.bitrateOverridden :=
  congrArg (·.bitrateOverridden) h.frame

theorem lifecycle (h : Keeps d d') : d'.lifecycle = d.lifecycle := congrArg (·.lifecycle) h.frame

theorem capturing (h : Keeps d d') : d'.capturing = d.capturing := congrArg (·.capturing) h.frame

theorem session (h : Keeps d d') : d'.session = d.session := congrArg (·.session) h.frame

theorem lent (h : Keeps d d') {prior : Option Int} (hlent : d.Lent prior) : d'.Lent prior := by
  have horiginal : d'.originalBitrateKbps = d.originalBitrateKbps :=
    congrArg (·.originalBitrateKbps) h.frame
  exact ⟨h.bitrateOverridden.trans hlent.overridden, horiginal ▸ hlent.original,
    h.settings.trans hlent.settings⟩

theorem idle (h : Keeps d d') (hidle : d.Idle) : d'.Idle where
  running := h.running.trans hidle.running
  muxer := (congrArg (·.muxer) h.frame).trans hidle.muxer
  worker := (congrArg (·.worker) h.frame).trans hidle.worker
  abrWorker := h.abrWorker hidle.abrWorker
  capturing := h.capturing.trans hidle.capturing
  captureActive := (congrArg (·.captureActive) h.frame).trans hidle.captureActive
  lifecycle := h.lifecycle ▸ hidle.lifecycle

theorem stopped (h : Keeps d d') (hstopped : d.Stopped) : d'.Stopped :=
  ⟨h.idle hstopped.toIdle, h.engine hstopped.engine, h.session.trans hstopped.session,
    h.bitrateOverridden.trans hstopped.bitrateOverridden⟩

end Keeps

theorem onEngine_keeps (d : OutputState F A) {f : Engine F A → Engine F A}
    (h : ∀ e, (f e).running = e.running) : Keeps d (d.onEngine f) := by
  refine ⟨rfl, ?_, rfl, id⟩
  intro hidle e he
  obtain ⟨e₀, he₀, rfl⟩ := Option.map_eq_some_iff.mp he
  rw [h e₀, hidle e₀ he₀]

theorem changeBitrate_dynBitrate (d : OutputState F A) (kbps : Int) :
    (d.changeBitrate kbps).dynBitrate = d.dynBitrate := by
  unfold changeBitrate setBitrate dynBitrate
  split_ifs
  · rfl
  · cases d.videoEncoder <;> rfl

theorem changeBitrate_keeps (d : OutputState F A) (kbps : Int) : Keeps d (d.changeBitrate kbps) := by
  have hsettings : (d.changeBitrate kbps).bitrate.isSome = d.bitrate.isSome := by
    rw [changeBitrate_bitrate, Option.isSome_map]
  obtain ⟨videoEncoder, heq⟩ := changeBitrate_eq d kbps
  rw [heq] at hsettings ⊢
  exact ⟨rfl, id, hsettings, id⟩

theorem changeBitrate_engine (d : OutputState F A) (kbps : Int) :
    (d.changeBitrate kbps).engine = d.engine := by
  obtain ⟨videoEncoder, heq⟩ := changeBitrate_eq d kbps
  rw [heq]

theorem engine_keeps {d : OutputState F A} {engine engine' : Engine F A}
    (hengine : d.engine = some engine) (hrunning : engine'.running = engine.running)
    (autoBitrate : Bool) (maxBitrateKbps manualBitrateKbps : Int) :
    Keeps d
      { d with engine := some engine', autoBitrate, maxBitrateKbps, manualBitrateKbps } := by
  refine ⟨rfl, ?_, rfl, id⟩
  rintro hidle e ⟨rfl⟩
  rw [hrunning, hidle engine hengine]

/-! What the two control calls do, each outcome once. -/

def manualKbps (manualBitrateKbps : Int) : Int :=
  clampInt manualBitrateKbps minVideoBitrateKbps maxManualBitrateKbps

def effectiveMaximum (d : OutputState F A) (maxBitrateKbps : Int) : Int :=
  clampInt maxBitrateKbps (max 1 d.minBitrateKbps) absoluteMaxBitrateKbps

def cappedKbps (kbps maximum : Int) : Int :=
  min (if toInt32 kbps ≤ 0 then maximum else toInt32 kbps) maximum

theorem clampInt_pos {lo hi : Int} (hlo : 0 < lo) (hhi : 0 < hi) (x : Int) :
    0 < clampInt x lo hi := by
  unfold clampInt
  split_ifs <;> omega

theorem effectiveMaximum_pos (d : OutputState F A) (maxBitrateKbps : Int) :
    0 < d.effectiveMaximum maxBitrateKbps :=
  clampInt_pos (by omega) (by decide) maxBitrateKbps

theorem setBitrateControl_cases (d : OutputState F A) (automatic : Bool) (manual : Int) :
    (∃ code, d.setBitrateControl automatic manual = (d, code) ∧ code ≠ 0) ∨
      ∃ engine bps, d.engine = some engine ∧ (d.running = true → d.bitrate.isSome = true) ∧
        (automatic = false → bps = (manualKbps manual).toNat * 1000) ∧
        d.setBitrateControl automatic manual =
          ({ (if automatic then d else d.changeBitrate (manualKbps manual)) with
              engine := some (engine.setVideoBitrate bps).1
              manualBitrateKbps := manualKbps manual
              autoBitrate := automatic }, 0) := by
  unfold setBitrateControl
  cases hengine : d.engine with
  | none => exact .inl ⟨-1, rfl, by decide⟩
  | some engine =>
    by_cases hfixed : (d.running && !d.dynBitrate) = true
    · exact .inl ⟨-2, if_pos hfixed, by decide⟩
    by_cases hsettings : d.videoEncoder.any (·.bitrate.isNone) = true
    · exact .inl ⟨-3, (if_neg hfixed).trans (if_pos hsettings), by decide⟩
    refine .inr ⟨engine, _, rfl, ?_, ?_, (if_neg hfixed).trans (if_neg hsettings)⟩
    · intro hrunning
      have hdyn : d.dynBitrate = true := by simpa [hrunning] using hfixed
      unfold dynBitrate at hdyn
      unfold bitrate
      cases hencoder : d.videoEncoder with
      | none => simp [hencoder] at hdyn
      | some encoder =>
        have hsome : encoder.bitrate ≠ none := by simpa [hencoder] using hsettings
        exact Option.isSome_iff_ne_none.mpr hsome
    · rintro rfl
      have hpos : 0 < manualKbps manual := clampInt_pos (by decide) (by decide) manual
      have hmax : max 1 (manualKbps manual) = manualKbps manual := by omega
      show (max 1 (manualKbps manual)).toNat * 1000 = _
      rw [hmax]

theorem setMaxBitrate_cases (d : OutputState F A) (maxBitrateKbps : Int) :
    (∃ code, d.setMaxBitrate maxBitrateKbps = (d, code) ∧ code ≠ 0) ∨
      (∃ engine, d.engine = some engine ∧ (d.running && d.autoBitrate) = false ∧
        d.setMaxBitrate maxBitrateKbps =
          ({ d with
              engine := some
                (engine.setMaxVideoBitrate ((d.effectiveMaximum maxBitrateKbps).toNat * 1000)).1
              maxBitrateKbps := d.effectiveMaximum maxBitrateKbps }, 0)) ∨
      ∃ engine kbps bps, d.engine = some engine ∧ (d.running && d.autoBitrate) = true ∧
        d.dynBitrate = true ∧ d.bitrate = some kbps ∧
        d.setMaxBitrate maxBitrateKbps =
          ({ { d with maxBitrateKbps := d.effectiveMaximum maxBitrateKbps }.changeBitrate
                (cappedKbps kbps (d.effectiveMaximum maxBitrateKbps)) with
              engine := some
                ((engine.setMaxVideoBitrate
                  ((d.effectiveMaximum maxBitrateKbps).toNat * 1000)).1.setVideoBitrate bps).1 },
            0) := by
  have hpos := d.effectiveMaximum_pos maxBitrateKbps
  rcases Option.eq_none_or_eq_some d.engine with hengine | ⟨engine, hengine⟩
  · exact .inl ⟨-1, by rw [setMaxBitrate, hengine], by decide⟩
  have hcode :
      (engine.setMaxVideoBitrate ((d.effectiveMaximum maxBitrateKbps).toNat * 1000)).2 = 0 := by
    rw [Engine.setMaxVideoBitrate, if_neg (by omega)]
  by_cases hfixed : (d.running && d.autoBitrate && !d.dynBitrate) = true
  · refine .inl ⟨-2, ?_, by decide⟩
    rw [setMaxBitrate, hengine]
    exact if_pos hfixed
  by_cases hsettings : (d.running && d.autoBitrate && d.bitrate.isNone) = true
  · refine .inl ⟨-3, ?_, by decide⟩
    rw [setMaxBitrate, hengine]
    exact (if_neg hfixed).trans (if_pos hsettings)
  right
  have hset : d.setMaxBitrate maxBitrateKbps =
      { d with maxBitrateKbps := d.effectiveMaximum maxBitrateKbps }.capEncoder
        (engine.setMaxVideoBitrate ((d.effectiveMaximum maxBitrateKbps).toNat * 1000)).1
        (d.effectiveMaximum maxBitrateKbps)
        (if (d.running && d.autoBitrate) = true then d.bitrate else none) := by
    rw [setMaxBitrate, hengine]
    exact ((if_neg hfixed).trans (if_neg hsettings)).trans (if_neg (not_not.mpr hcode))
  cases happly : d.running && d.autoBitrate with
  | false =>
    rw [happly] at hset
    exact .inl ⟨engine, hengine, rfl, hset⟩
  | true =>
    rw [happly, if_pos rfl] at hset
    rcases Option.eq_none_or_eq_some d.bitrate with hbitrate | ⟨kbps, hbitrate⟩
    · simp [happly, hbitrate] at hsettings
    · rw [hbitrate] at hset
      have hdyn : d.dynBitrate = true := by simpa [happly] using hfixed
      exact .inr ⟨engine, kbps, _, hengine, rfl, hdyn, hbitrate, hset⟩

theorem setBitrateControl_keeps (d : OutputState F A) (automatic : Bool) (manual : Int) :
    Keeps d (d.setBitrateControl automatic manual).1 := by
  rcases d.setBitrateControl_cases automatic manual with
    ⟨code, heq, -⟩ | ⟨engine, bps, hengine, -, -, heq⟩
  · rw [heq]
    exact .refl d
  · have hrunning := engine.setVideoBitrate_running bps
    rw [heq]
    cases automatic with
    | true => exact engine_keeps hengine hrunning _ _ _
    | false =>
      have hengine' := (d.changeBitrate_engine (manualKbps manual)).trans hengine
      exact (changeBitrate_keeps d _).trans (engine_keeps hengine' hrunning _ _ _)

theorem setMaxBitrate_keeps (d : OutputState F A) (maxBitrateKbps : Int) :
    Keeps d (d.setMaxBitrate maxBitrateKbps).1 := by
  rcases d.setMaxBitrate_cases maxBitrateKbps with
    ⟨code, heq, -⟩ | ⟨engine, hengine, -, heq⟩ | ⟨engine, kbps, bps, hengine, -, -, -, heq⟩
  · rw [heq]
    exact .refl d
  · rw [heq]
    exact engine_keeps hengine (engine.setMaxVideoBitrate_running _) _ _ _
  · let raised := { d with maxBitrateKbps := d.effectiveMaximum maxBitrateKbps }
    have hmaximum : Keeps d raised := ⟨rfl, id, rfl, id⟩
    let active := cappedKbps kbps (d.effectiveMaximum maxBitrateKbps)
    have hengine' : (raised.changeBitrate active).engine = some engine :=
      (raised.changeBitrate_engine active).trans hengine
    have hrunning := engine.setMaxVideoBitrate_running ((d.effectiveMaximum maxBitrateKbps).toNat * 1000)
    rw [heq]
    exact (hmaximum.trans (changeBitrate_keeps raised active)).trans
      (engine_keeps hengine' ((Engine.setVideoBitrate_running _ bps).trans hrunning) _ _ _)

theorem writeTarget_keeps (d : OutputState F A) (appliedBps : Nat) :
    Keeps d (d.writeTarget appliedBps) := by
  unfold writeTarget
  split_ifs
  · exact changeBitrate_keeps d _
  · exact .refl d

theorem updateSrtStats_keeps (d : OutputState F A) (sampled : Option SrtlaSrtStats) :
    Keeps d (d.updateSrtStats sampled) := by
  cases sampled with
  | none => exact .refl d
  | some stats => exact onEngine_keeps d fun e => (e.updateSrtStats_sameControl (some stats)).running

theorem abrWorker_keeps {d d' : OutputState F A} (h : Keeps d d') {worker : AbrWorker}
    (hworker : d.abrWorker = some worker) (worker' : Option AbrWorker) :
    Keeps d { d' with abrWorker := worker' } := by
  refine ⟨?_, h.engine, h.settings, fun hnone => ?_⟩
  · exact congrArg (fun d : OutputState F A => { d with abrWorker := worker' }) h.frame
  · rw [hworker] at hnone
    cases hnone

variable [F64 F] [IpAddr A]

theorem decideTarget_cases (d : OutputState F A) (nowMs : Nat) :
    (d.engine = none ∧ d.decideTarget nowMs = { d with abrWorker := some .top }) ∨
      ∃ engine, d.engine = some engine ∧
        d.decideTarget nowMs =
          { d with
            engine := some (engine.applyAbr nowMs).1
            abrWorker := some
              (if (engine.applyAbr nowMs).2 = 0 then .top
              else .writing (engine.applyAbr nowMs).2) } := by
  rcases Option.eq_none_or_eq_some d.engine with hengine | ⟨engine, hengine⟩
  · exact .inl ⟨hengine, by rw [decideTarget, hengine]⟩
  · exact .inr ⟨engine, hengine, by rw [decideTarget, hengine]⟩

theorem decideTarget_keeps {d : OutputState F A} {worker : AbrWorker}
    (hworker : d.abrWorker = some worker) (nowMs : Nat) : Keeps d (d.decideTarget nowMs) := by
  rcases d.decideTarget_cases nowMs with ⟨-, heq⟩ | ⟨engine, hengine, heq⟩
  · rw [heq]
    exact abrWorker_keeps (.refl d) hworker _
  · have hkeeps := engine_keeps hengine (engine.applyAbr_running nowMs) d.autoBitrate
      d.maxBitrateKbps d.manualBitrateKbps
    rw [heq]
    exact abrWorker_keeps hkeeps hworker _

theorem stepAbrWorker_keeps {d d' : OutputState F A} {worker : AbrWorker}
    (hworker : d.abrWorker = some worker) {nowMs : Nat} {sampled : Option SrtlaSrtStats}
    (hstep : d.stepAbrWorker nowMs sampled worker = some d') : Keeps d d' := by
  cases worker with
  | sampling =>
    obtain rfl := Option.some.inj hstep
    exact abrWorker_keeps (updateSrtStats_keeps d sampled) hworker _
  | deciding =>
    obtain rfl := Option.some.inj hstep
    exact decideTarget_keeps hworker nowMs
  | writing appliedBps =>
    obtain rfl := Option.some.inj hstep
    exact abrWorker_keeps (writeTarget_keeps d appliedBps) hworker _
  | returned => cases hstep
  | _ =>
    obtain rfl := Option.some.inj hstep
    exact abrWorker_keeps (.refl d) hworker _

end OutputState
end Srtla
