import SrtlaOutput.Control.Defs
import SrtlaOutput.Engine.Ipv4
import SrtlaOutput.Lib.Reactive

/-! `srtla_output_start`, with an answer for each step that can fail, and what its exits
leave behind. -/

namespace Srtla
open Reactive
variable {F A : Type}

/-- The calls that the rest of the plugin makes on the engine of a running output. -/
def Input.external : Input F A → Bool
  | .start | .stop | .setAudioBitrate _ | .setVideoBitrate _ | .setMaxVideoBitrate _
  | .applyAbr _ => false
  | _ => true

/-- The answers a start gets. `sourceOutput` is the output of a shared encoder: `none` where
it is unavailable, else whether it is busy. `sessionCalls` is what reaches the engine while
the session connects. -/
structure StartOutcomes (F A : Type) where
  canBegin : Bool
  sourceOutput : Option Bool
  engineStart : Bool
  audioBitrate : Bool
  sessionCreated : Bool
  sessionCalls : List (Input F A)
  connected : Bool
  videoBitrate : Bool
  muxerCreated : Bool
  workerStarted : Bool
  encodersInitialized : Bool
  captureBegun : Bool
  abrWorkerStarted : Bool

namespace OutputState

def onEngine (d : OutputState F A) (f : Engine F A → Engine F A) : OutputState F A :=
  { d with engine := d.engine.map f }

def stopEngine (d : OutputState F A) : OutputState F A := d.onEngine (·.stop.1)

def endCapture (d : OutputState F A) : OutputState F A :=
  { d with
    capturing := if d.lifecycle.any (·.active) then false else d.capturing
    lifecycle := d.lifecycle.map (·.finish)
    captureActive := false }

/-- The clean-up once the encoder may have been changed. -/
def abandon (d : OutputState F A) : OutputState F A :=
  { d with session := false }.stopEngine.restoreSharedBitrate

/-- The exception handler. -/
def unwind (d : OutputState F A) : OutputState F A :=
  let d := { d with running := false }.endCapture
  let d := { d with abrStop := true, abrWorker := none, worker := false, session := false }
  { d.stopEngine.restoreSharedBitrate with muxer := false }

/-- The `try` block of the threads and the capture. -/
def launch (d : OutputState F A) (w : StartOutcomes F A) : OutputState F A × Bool :=
  let d := { d with running := true }
  if !w.workerStarted then (d.unwind, false)
  else
    let begun := (d.lifecycle.getD {}).initializeAndBegin w.encodersInitialized w.captureBegun
    let d := { d with worker := true, lifecycle := some begun.1, capturing := begun.1.active }
    if !begun.2 then (d.unwind, false)
    else
      let d := { d with captureActive := begun.1.active, abrStop := false }
      if !w.abrWorkerStarted then (d.unwind, false)
      else ({ d with abrWorker := some .top }, true)

/-- Automatic mode needs a dynamic bitrate. -/
def settleMode (d : OutputState F A) : OutputState F A :=
  if d.autoBitrate && d.videoEncoder.any (!·.dynBitrate) then { d with autoBitrate := false } else d

def startFromMaximum (d : OutputState F A) : OutputState F A :=
  if d.autoBitrate then d.changeBitrate d.maxBitrateKbps else d

def initializeBitrate (d : OutputState F A) : OutputState F A :=
  d.settleMode.applyManualBitrate.startFromMaximum

def activeBitrateKbps (d : OutputState F A) : Int :=
  if d.autoBitrate then d.maxBitrateKbps else d.manualBitrateKbps

def startBitrate (d : OutputState F A) (w : StartOutcomes F A) : OutputState F A × Bool :=
  let d := d.initializeBitrate
  if !w.videoBitrate then (d.abandon, false)
  else
    let d := d.onEngine fun e => (e.setVideoBitrate ((max 1 d.activeBitrateKbps).toNat * 1000)).1
    if !w.muxerCreated then (d.abandon, false)
    else { d with muxer := true }.launch w

section
variable [F64 F] [IpAddr A]

/-- A session, with the calls that reach the engine until it is connected or gives up. -/
def connect (d : OutputState F A) (calls : List (Input F A)) : OutputState F A :=
  { d with session := true }.onEngine fun e => exec Engine.step e (calls.filter (·.external))

def startSession (d : OutputState F A) (w : StartOutcomes F A) : OutputState F A × Bool :=
  if !w.audioBitrate then (d.stopEngine, false)
  else
    let d := d.onEngine fun e => (e.setAudioBitrate d.audioBitrateBps).1
    if !w.sessionCreated then (d.stopEngine, false)
    else
      let d := d.connect w.sessionCalls
      if !w.connected then ({ d with session := false }.stopEngine, false)
      else d.startBitrate w

def start (d : OutputState F A) (w : StartOutcomes F A) : OutputState F A × Bool :=
  if !supportedVideoEncoder d.videoEncoder || !supportedAudioEncoder d.audioEncoder then (d, false)
  else if d.credentialError then (d, false)
  else
    let prepared := ({} : CaptureLifecycle).prepare w.canBegin
    let d := { d with lifecycle := some prepared.1 }
    if !prepared.2 then (d, false)
    else if d.sharedEncoder && w.sourceOutput != some false then (d, false)
    else
      let d := { d with muxer := false, captureActive := false, running := false }
      if d.engine.isNone || !w.engineStart then (d, false)
      else (d.onEngine (·.start.1)).startSession w

end

/-! What is left when the output does not run. -/

structure Idle (d : OutputState F A) : Prop where
  running : d.running = false
  muxer : d.muxer = false
  worker : d.worker = false
  abrWorker : d.abrWorker = none
  capturing : d.capturing = false
  captureActive : d.captureActive = false
  lifecycle : ∀ c ∈ d.lifecycle, c.active = false

structure Stopped (d : OutputState F A) : Prop extends d.Idle where
  engine : ∀ e ∈ d.engine, e.running = false
  session : d.session = false
  bitrateOverridden : d.bitrateOverridden = false

theorem Idle.onEngine {d : OutputState F A} (h : d.Idle) (f : Engine F A → Engine F A) :
    (d.onEngine f).Idle :=
  ⟨h.running, h.muxer, h.worker, h.abrWorker, h.capturing, h.captureActive, h.lifecycle⟩

theorem Idle.withSession {d : OutputState F A} (h : d.Idle) (session : Bool) :
    { d with session }.Idle :=
  ⟨h.running, h.muxer, h.worker, h.abrWorker, h.capturing, h.captureActive, h.lifecycle⟩

/-- The encoder is lent by a user to whom `prior` is owed. -/
structure Lent (d : OutputState F A) (prior : Option Int) : Prop where
  overridden : d.bitrateOverridden = prior.isSome
  original : ∀ kbps ∈ prior, d.originalBitrateKbps = kbps
  settings : d.bitrate.isSome = prior.isSome

/-- A running output, which owes `owed` to the user of the encoder. -/
structure Started (d : OutputState F A) (owed : Option Int) : Prop where
  running : d.running = true
  capturing : d.capturing = d.lifecycle.any (·.active)
  lent : d.Lent owed

/-- How a start ends on an encoder with bitrate `prior`. What the plugin remembers of the
bitrate is an `int`. -/
def EndsWell (prior : Option Int) (r : OutputState F A × Bool) : Prop :=
  if r.2 then r.1.Started (prior.map toInt32)
  else r.1.Stopped ∧ (r.1.bitrate = prior ∨ r.1.bitrate = prior.map toInt32)

@[simp] theorem setBitrate_bitrate (d : OutputState F A) (kbps : Int) :
    (d.setBitrate kbps).bitrate = d.bitrate.map fun _ => kbps := by
  unfold setBitrate bitrate
  cases d.videoEncoder <;> rfl

theorem changeBitrate_bitrate (d : OutputState F A) (kbps : Int) :
    (d.changeBitrate kbps).bitrate = d.bitrate.map fun _ => kbps := by
  unfold changeBitrate
  split_ifs with hsame
  · rw [hsame]
    rfl
  · exact setBitrate_bitrate d kbps

theorem changeBitrate_eq (d : OutputState F A) (kbps : Int) :
    ∃ videoEncoder, d.changeBitrate kbps = { d with videoEncoder } := by
  unfold changeBitrate
  split_ifs
  · exact ⟨d.videoEncoder, rfl⟩
  · exact ⟨_, rfl⟩

theorem changeBitrate_of_some {d : OutputState F A} {old : Int} (h : d.bitrate = some old)
    (kbps : Int) :
    ∃ videoEncoder, d.changeBitrate kbps = { d with videoEncoder } ∧
      ({ d with videoEncoder } : OutputState F A).bitrate = some kbps := by
  have hbitrate := changeBitrate_bitrate d kbps
  obtain ⟨videoEncoder, hchange⟩ := changeBitrate_eq d kbps
  rw [h, hchange] at hbitrate
  exact ⟨videoEncoder, hchange, hbitrate⟩

theorem Lent.congr {d d' : OutputState F A} {prior : Option Int} (h : d.Lent prior)
    (hover : d'.bitrateOverridden = d.bitrateOverridden)
    (horiginal : d'.originalBitrateKbps = d.originalBitrateKbps)
    (hencoder : d'.videoEncoder = d.videoEncoder) : d'.Lent prior := by
  refine ⟨hover.trans h.overridden, horiginal ▸ h.original, ?_⟩
  rw [bitrate, hencoder]
  exact h.settings

theorem Lent.changeBitrate {d : OutputState F A} {prior : Option Int} (h : d.Lent prior)
    (kbps : Int) : (d.changeBitrate kbps).Lent prior := by
  have hsettings : (d.changeBitrate kbps).bitrate.isSome = prior.isSome := by
    rw [changeBitrate_bitrate, Option.isSome_map, h.settings]
  obtain ⟨videoEncoder, heq⟩ := changeBitrate_eq d kbps
  rw [heq] at hsettings ⊢
  exact ⟨h.overridden, h.original, hsettings⟩

theorem Lent.restore {d : OutputState F A} {prior : Option Int} (h : d.Lent prior) :
    d.restoreSharedBitrate.bitrate = prior := by
  cases prior with
  | none =>
    have hnone : d.bitrate = none := by simpa using h.settings
    have hover : d.bitrateOverridden = false := h.overridden
    simp [restoreSharedBitrate, hover, hnone]
  | some kbps =>
    have hover : d.bitrateOverridden = true := h.overridden
    have horiginal : d.originalBitrateKbps = kbps := h.original kbps rfl
    obtain ⟨now, hnow⟩ := Option.isSome_iff_exists.mp (h.settings.trans rfl)
    have hset : (d.setBitrate kbps).bitrate = some kbps := by
      rw [setBitrate_bitrate, hnow]
      rfl
    simp only [restoreSharedBitrate, hover, horiginal, Bool.not_true, Bool.false_eq_true, if_false]
    exact hset

theorem restoreSharedBitrate_eq (d : OutputState F A) :
    ∃ videoEncoder, d.restoreSharedBitrate = { d with videoEncoder, bitrateOverridden := false } := by
  unfold restoreSharedBitrate
  cases hover : d.bitrateOverridden with
  | true => exact ⟨_, rfl⟩
  | false =>
    refine ⟨d.videoEncoder, ?_⟩
    show d = { d with bitrateOverridden := false }
    rw [← hover]

theorem stopEngine_idle (d : OutputState F A) : ∀ e ∈ d.stopEngine.engine, e.running = false := by
  intro e he
  obtain ⟨e₀, -, rfl⟩ := Option.map_eq_some_iff.mp he
  rfl

theorem abandon_stopped {d : OutputState F A} {prior : Option Int} (hidle : d.Idle)
    (hlent : d.Lent prior) : d.abandon.Stopped ∧ d.abandon.bitrate = prior := by
  -- the exits before the threads start: only the session, the engine and the encoder are to be
  -- put back
  have hlent' : { d with session := false }.stopEngine.Lent prior := hlent.congr rfl rfl rfl
  have hengine := stopEngine_idle { d with session := false }
  refine ⟨?_, hlent'.restore⟩
  obtain ⟨videoEncoder, heq⟩ := restoreSharedBitrate_eq { d with session := false }.stopEngine
  rw [abandon, heq]
  have hidle' : ({ { d with session := false }.stopEngine with
      videoEncoder, bitrateOverridden := false } : OutputState F A).Idle :=
    ⟨hidle.running, hidle.muxer, hidle.worker, hidle.abrWorker, hidle.capturing,
      hidle.captureActive, hidle.lifecycle⟩
  exact ⟨hidle', hengine, rfl, rfl⟩

theorem finish_active (c : CaptureLifecycle) : c.finish.active = false := by
  unfold CaptureLifecycle.finish
  cases hactive : c.active <;> simp [hactive]

theorem capturing_of_inactive {d : OutputState F A} (hcapturing : d.capturing = false)
    (hlifecycle : ∀ c ∈ d.lifecycle, c.active = false) :
    d.capturing = d.lifecycle.any (·.active) := by
  rw [hcapturing]
  cases hc : d.lifecycle with
  | none => rfl
  | some c => exact (hlifecycle c hc).symm

theorem endCapture_capturing {d : OutputState F A}
    (hcapture : d.capturing = d.lifecycle.any (·.active)) : d.endCapture.capturing = false := by
  show (if d.lifecycle.any (·.active) then false else d.capturing) = false
  rw [hcapture]
  cases d.lifecycle.any (·.active) <;> rfl

theorem endCapture_lifecycle (d : OutputState F A) :
    ∀ c ∈ d.endCapture.lifecycle, c.active = false := by
  intro c hc
  obtain ⟨c₀, -, rfl⟩ := Option.map_eq_some_iff.mp hc
  exact finish_active c₀

theorem unwind_stopped {d : OutputState F A} {prior : Option Int}
    (hcapture : d.capturing = d.lifecycle.any (·.active)) (hlent : d.Lent prior) :
    d.unwind.Stopped ∧ d.unwind.bitrate = prior := by
  -- the handler puts everything back, wherever in the `try` block it is entered from
  have hcapturing := endCapture_capturing (d := { d with running := false }) hcapture
  have hlifecycle := endCapture_lifecycle { d with running := false }
  let parked : OutputState F A :=
    { { d with running := false }.endCapture with
      abrStop := true, abrWorker := none, worker := false, session := false }
  have hlent' : parked.stopEngine.Lent prior := hlent.congr rfl rfl rfl
  have hengine := stopEngine_idle parked
  refine ⟨?_, hlent'.restore⟩
  obtain ⟨videoEncoder, heq⟩ := restoreSharedBitrate_eq parked.stopEngine
  show ({ parked.stopEngine.restoreSharedBitrate with muxer := false } : OutputState F A).Stopped
  rw [heq]
  exact ⟨⟨rfl, rfl, rfl, rfl, hcapturing, rfl, hlifecycle⟩, hengine, rfl, rfl⟩

theorem launch_ends {d : OutputState F A} {prior : Option Int}
    (hlent : d.Lent (prior.map toInt32)) (hcapture : d.capturing = d.lifecycle.any (·.active))
    (w : StartOutcomes F A) : EndsWell prior (d.launch w) := by
  have hunwind (d' : OutputState F A) (hcapture' : d'.capturing = d'.lifecycle.any (·.active))
      (hlent : d'.Lent (prior.map toInt32)) : EndsWell prior (d'.unwind, false) := by
    obtain ⟨hstopped, hbitrate⟩ := unwind_stopped hcapture' hlent
    exact ⟨hstopped, .inr hbitrate⟩
  unfold launch
  dsimp only
  split_ifs
  · exact hunwind _ hcapture (hlent.congr rfl rfl rfl)
  · exact hunwind _ rfl (hlent.congr rfl rfl rfl)
  · exact hunwind _ rfl (hlent.congr rfl rfl rfl)
  · exact ⟨rfl, rfl, hlent.congr rfl rfl rfl⟩

theorem applyManualBitrate_eq (d : OutputState F A) :
    ∃ videoEncoder originalBitrateKbps bitrateOverridden, d.applyManualBitrate =
      { d with videoEncoder, originalBitrateKbps, bitrateOverridden } := by
  unfold applyManualBitrate
  cases d.bitrate with
  | none => exact ⟨_, _, _, rfl⟩
  | some kbps =>
    dsimp only
    split_ifs <;> exact ⟨_, _, _, rfl⟩

theorem applyManualBitrate_lent {d : OutputState F A} (hover : d.bitrateOverridden = false) :
    d.applyManualBitrate.Lent (d.bitrate.map toInt32) := by
  unfold applyManualBitrate
  cases hbitrate : d.bitrate with
  | none => exact ⟨hover, by simp, by rw [hbitrate]; rfl⟩
  | some kbps =>
    have hsettings (d' : OutputState F A) (hencoder : d'.videoEncoder = d.videoEncoder)
        (manual : Int) : (d'.setBitrate manual).bitrate.isSome = true := by
      rw [setBitrate_bitrate, Option.isSome_map, bitrate, hencoder]
      exact Option.isSome_iff_exists.mpr ⟨kbps, hbitrate⟩
    simp only [hover, Bool.false_eq_true, if_false]
    split_ifs
    · exact ⟨rfl, by simp, Option.isSome_iff_exists.mpr ⟨kbps, hbitrate⟩⟩
    · exact ⟨rfl, by simp [setBitrate], hsettings _ rfl _⟩

theorem settleMode_eq (d : OutputState F A) :
    ∃ autoBitrate, d.settleMode = { d with autoBitrate } := by
  unfold settleMode
  split_ifs
  · exact ⟨false, rfl⟩
  · exact ⟨d.autoBitrate, rfl⟩

theorem startFromMaximum_eq (d : OutputState F A) :
    ∃ videoEncoder, d.startFromMaximum = { d with videoEncoder } := by
  unfold startFromMaximum
  split_ifs
  · exact changeBitrate_eq d _
  · exact ⟨d.videoEncoder, rfl⟩

theorem initializeBitrate_eq (d : OutputState F A) :
    ∃ videoEncoder autoBitrate originalBitrateKbps bitrateOverridden, d.initializeBitrate =
      { d with videoEncoder, autoBitrate, originalBitrateKbps, bitrateOverridden } := by
  obtain ⟨_, hsettle⟩ := settleMode_eq d
  obtain ⟨_, _, _, hmanual⟩ := applyManualBitrate_eq d.settleMode
  obtain ⟨_, hmaximum⟩ := startFromMaximum_eq d.settleMode.applyManualBitrate
  rw [initializeBitrate, hmaximum, hmanual, hsettle]
  exact ⟨_, _, _, _, rfl⟩

theorem initializeBitrate_lent {d : OutputState F A} (hover : d.bitrateOverridden = false) :
    d.initializeBitrate.Lent (d.bitrate.map toInt32) := by
  obtain ⟨_, hsettle⟩ := settleMode_eq d
  have hlent : d.settleMode.applyManualBitrate.Lent (d.bitrate.map toInt32) := by
    rw [hsettle]
    exact applyManualBitrate_lent hover
  unfold initializeBitrate startFromMaximum
  split_ifs
  · exact hlent.changeBitrate _
  · exact hlent

theorem startBitrate_ends {d : OutputState F A} (hidle : d.Idle)
    (hover : d.bitrateOverridden = false) (w : StartOutcomes F A) :
    EndsWell d.bitrate (d.startBitrate w) := by
  have hlent := initializeBitrate_lent hover
  have hidle' : d.initializeBitrate.Idle := by
    obtain ⟨_, _, _, _, heq⟩ := initializeBitrate_eq d
    rw [heq]
    exact ⟨hidle.running, hidle.muxer, hidle.worker, hidle.abrWorker, hidle.capturing,
      hidle.captureActive, hidle.lifecycle⟩
  have hinactive := capturing_of_inactive hidle'.capturing hidle'.lifecycle
  have habandon (d' : OutputState F A) (hidle : d'.Idle) (hlent : d'.Lent (d.bitrate.map toInt32)) :
      EndsWell d.bitrate (d'.abandon, false) := by
    obtain ⟨hstopped, hbitrate⟩ := abandon_stopped hidle hlent
    exact ⟨hstopped, .inr hbitrate⟩
  unfold startBitrate
  dsimp only
  split_ifs
  · exact habandon _ hidle' hlent
  · exact habandon _ (hidle'.onEngine _) (hlent.congr rfl rfl rfl)
  · refine launch_ends ?_ ?_ w
    · exact hlent.congr rfl rfl rfl
    · exact hinactive

section
variable [F64 F] [IpAddr A]

theorem Idle.connect {d : OutputState F A} (h : d.Idle) (calls : List (Input F A)) :
    (d.connect calls).Idle := (h.withSession true).onEngine _

theorem startSession_ends {d : OutputState F A} (hidle : d.Idle) (hsession : d.session = false)
    (hover : d.bitrateOverridden = false) (w : StartOutcomes F A) :
    EndsWell d.bitrate (d.startSession w) := by
  unfold startSession
  dsimp only
  split_ifs
  · exact ⟨⟨hidle.onEngine _, stopEngine_idle d, hsession, hover⟩, .inl rfl⟩
  · exact ⟨⟨(hidle.onEngine _).onEngine _, stopEngine_idle _, hsession, hover⟩, .inl rfl⟩
  · exact ⟨⟨((hidle.onEngine _).connect _).withSession false |>.onEngine _, stopEngine_idle _, rfl,
      hover⟩, .inl rfl⟩
  · exact startBitrate_ends ((hidle.onEngine _).connect _) hover w

theorem prepare_inactive (canBegin : Bool) :
    (({} : CaptureLifecycle).prepare canBegin).1.active = false := by
  cases canBegin <;> rfl

theorem start_ends {d : OutputState F A} (hstopped : d.Stopped) (w : StartOutcomes F A) :
    EndsWell d.bitrate (d.start w) := by
  have hlifecycle : ∀ c ∈ some (({} : CaptureLifecycle).prepare w.canBegin).1, c.active = false := by
    rintro c ⟨rfl⟩
    exact prepare_inactive w.canBegin
  have hprepared (engine : Option (Engine F A)) :
      { d with
        engine
        lifecycle := some (({} : CaptureLifecycle).prepare w.canBegin).1
        muxer := false, captureActive := false, running := false }.Idle :=
    ⟨rfl, rfl, hstopped.worker, hstopped.abrWorker, hstopped.capturing, rfl, hlifecycle⟩
  have hlifted : { d with
      lifecycle := some (({} : CaptureLifecycle).prepare w.canBegin).1 }.Stopped :=
    ⟨⟨hstopped.running, hstopped.muxer, hstopped.worker, hstopped.abrWorker, hstopped.capturing,
      hstopped.captureActive, hlifecycle⟩, hstopped.engine, hstopped.session,
      hstopped.bitrateOverridden⟩
  unfold start
  dsimp only
  split_ifs
  · exact ⟨hstopped, .inl rfl⟩
  · exact ⟨hstopped, .inl rfl⟩
  · exact ⟨hlifted, .inl rfl⟩
  · exact ⟨hlifted, .inl rfl⟩
  · exact ⟨⟨hprepared _, hstopped.engine, hstopped.session, hstopped.bitrateOverridden⟩, .inl rfl⟩
  · exact startSession_ends (hprepared _) hstopped.session hstopped.bitrateOverridden w

theorem map_toInt32 {bitrate : Option Int} (hfits : ∀ kbps ∈ bitrate, toInt32 kbps = kbps) :
    bitrate.map toInt32 = bitrate := by
  cases bitrate with
  | none => rfl
  | some kbps => rw [Option.map_some, hfits kbps rfl]

/-- A start that fails leaves the output stopped and the encoder as it was, if its bitrate
fits the `int` in which the plugin remembers it. -/
theorem failed_start_stopped {d : OutputState F A} (hstopped : d.Stopped)
    (hfits : ∀ kbps ∈ d.bitrate, toInt32 kbps = kbps) {w : StartOutcomes F A}
    (hfail : (d.start w).2 = false) :
    (d.start w).1.Stopped ∧ (d.start w).1.bitrate = d.bitrate := by
  have hends := start_ends hstopped w
  rw [EndsWell, hfail, map_toInt32 hfits, or_self] at hends
  exact hends

end

def h264 (kbps : Int) : VideoEncoder where
  codec := some "h264"
  dynBitrate := true
  bitrate := some kbps

def fresh (kbps : Int) : OutputState ℚ Ipv4 := create none (some {}) (some (h264 kbps)) none false

theorem fresh_stopped (kbps : Int) : (fresh kbps).Stopped := by
  refine ⟨⟨rfl, rfl, rfl, rfl, rfl, rfl, ?_⟩, ?_, rfl, rfl⟩
  · rintro c ⟨⟩
  · rintro e ⟨⟩
    rfl

def noMuxer : StartOutcomes ℚ Ipv4 where
  canBegin := true
  sourceOutput := none
  engineStart := true
  audioBitrate := true
  sessionCreated := true
  sessionCalls := [.setSessionState sessionConnecting none, .setSessionState sessionConnected none]
  connected := true
  videoBitrate := true
  muxerCreated := false
  workerStarted := true
  encodersInitialized := true
  captureBegun := true
  abrWorkerStarted := true

theorem failed_start_stopped_without_muxer :
    ((fresh 2500).start noMuxer).1.Stopped ∧ ((fresh 2500).start noMuxer).1.bitrate = some 2500 :=
  failed_start_stopped (fresh_stopped 2500) (by rintro kbps ⟨⟩; rfl) (by decide +kernel)

/-- The bitrate of an encoder is a 64-bit integer, and the plugin remembers an `int`. -/
theorem failed_start_truncates :
    (fresh (2 ^ 31)).Stopped ∧ ((fresh (2 ^ 31)).start noMuxer).2 = false ∧
      ((fresh (2 ^ 31)).start noMuxer).1.bitrate = some (-(2 ^ 31)) :=
  ⟨fresh_stopped _, by decide +kernel, by decide +kernel⟩

end OutputState
end Srtla
