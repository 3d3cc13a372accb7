import SrtlaOutput.Engine.Defs
import SrtlaOutput.Lib.Schedule

/-! The output object of the plugin outside of its media path: the encoder it drives, the
bitrate control, and what a start sets up and a stop releases. Bitrates are in kb/s where the
source's names say so. -/

namespace Srtla

def defaultMaxBitrateKbps : Int := 6000
def absoluteMaxBitrateKbps : Int := 30000
def legacyUnlimitedBitrateKbps : Int := 100000
def minVideoBitrateKbps : Int := 500
def maxManualBitrateKbps : Int := 100000

/-- `static_cast<int>`, and what `std::clamp` computes on ints. -/
def toInt32 (x : Int) : Int := x.bmod (2 ^ 32)

def clampInt (x lo hi : Int) : Int := if x < lo then lo else if hi < x then hi else x

/-- An encoder of OBS; `bitrate` is the integer of that name in its settings, and `none`
stands for an encoder that hands out no settings. -/
structure VideoEncoder where
  codec : Option String
  dynBitrate : Bool
  bitrate : Option Int
  deriving DecidableEq, Repr

structure AudioEncoder where
  codec : Option String
  deriving DecidableEq, Repr

def supportedVideoEncoder (encoder : Option VideoEncoder) : Bool :=
  encoder.any fun e => e.codec == some "h264" || e.codec == some "hevc"

def supportedAudioEncoder (encoder : Option AudioEncoder) : Bool :=
  encoder.all fun e => e.codec == some "aac" || e.codec == some "opus"

/-! `OutputCaptureLifecycle`. The callbacks' answers are arguments. -/

structure CaptureLifecycle where
  prepared : Bool := false
  active : Bool := false
  deriving DecidableEq, Repr

namespace CaptureLifecycle

def prepare (c : CaptureLifecycle) (canBegin : Bool) : CaptureLifecycle × Bool :=
  if c.prepared then (c, true)
  else if !canBegin then (c, false)
  else ({ c with prepared := true }, true)

def initializeAndBegin (c : CaptureLifecycle) (initialized begun : Bool) :
    CaptureLifecycle × Bool :=
  if !c.prepared then (c, false)
  else if c.active then (c, true)
  else if !initialized then (c, false)
  else if !begun then (c, false)
  else ({ c with active := true }, true)

def finish (c : CaptureLifecycle) : CaptureLifecycle :=
  if !c.active then c else { c with active := false }

end CaptureLifecycle

/-- Where the loop of the ABR worker is. Each state but the last is just before one atomic
access of the loop; `writing` holds the target that the engine returned. -/
inductive AbrWorker
  | top
  | awake
  | polling
  | sampling
  | testing
  | deciding
  | writing (appliedBps : Nat)
  | returned
  deriving DecidableEq, Repr

/-- `session`, `muxer` and `worker` say whether the object or the thread exists, and
`capturing` whether OBS delivers packets. -/
structure OutputState (F A : Type) where
  engine : Option (Engine F A)
  videoEncoder : Option VideoEncoder
  audioEncoder : Option AudioEncoder
  credentialError : Bool
  sharedEncoder : Bool
  audioBitrateBps : Nat
  autoBitrate : Bool
  minBitrateKbps : Int
  maxBitrateKbps : Int
  manualBitrateKbps : Int
  running : Bool := false
  originalBitrateKbps : Int := 0
  bitrateOverridden : Bool := false
  lifecycle : Option CaptureLifecycle := none
  capturing : Bool := false
  captureActive : Bool := false
  session : Bool := false
  muxer : Bool := false
  worker : Bool := false
  abrWorker : Option AbrWorker := none
  abrStop : Bool := false
  deriving DecidableEq

/-- The settings of the output, as far as the bitrate control reads them; `bitrate` and
`autoBitrate` are `none` without a value of the user. -/
structure OutputSettings where
  maxBitrate : Int
  minBitrate : Int
  bitrate : Option Int
  autoBitrate : Option Bool
  audioBitrate : Int
  sharedEncoder : Bool
  deriving DecidableEq, Repr

def configuredMaxBitrateKbps (settings : Option OutputSettings) : Int :=
  let maximum := (settings.map (toInt32 ·.maxBitrate)).getD defaultMaxBitrateKbps
  let maximum := if maximum = legacyUnlimitedBitrateKbps then defaultMaxBitrateKbps else maximum
  clampInt maximum minVideoBitrateKbps absoluteMaxBitrateKbps

def configuredMinBitrateKbps (settings : Option OutputSettings) (maximum : Int) : Int :=
  clampInt ((settings.map (toInt32 ·.minBitrate)).getD minVideoBitrateKbps)
    minVideoBitrateKbps maximum

def configuredManualBitrateKbps (settings : Option OutputSettings) : Int :=
  clampInt (((settings.bind (·.bitrate)).map toInt32).getD 1500)
    minVideoBitrateKbps maxManualBitrateKbps

variable {F A : Type}

def configuredAudioBitrateBps (settings : Option OutputSettings) : Nat :=
  (settings.map fun s => (max 0 s.audioBitrate).toNat * 1000 % 2 ^ 64).getD 128000

def createEngineFromSettings [F64 F] (settings : Option OutputSettings) (config : EngineConfig) :
    Engine F A :=
  let maxBitrate := configuredMaxBitrateKbps settings
  let minBitrate := configuredMinBitrateKbps settings maxBitrate
  .create
    { config with
      abr := some
        { minBps := (max 1 minBitrate * 1000).toNat
          startBps := (max 1 maxBitrate * 1000).toNat
          maxBps := (max 1 maxBitrate * 1000).toNat }
      audioBps := (max 0 ((settings.map (·.audioBitrate)).getD 128) * 1000).toNat }

namespace OutputState

/-- `srtla_output_create`. Where the engine rejects the text, `config` is `none`. -/
def create [F64 F] (settings : Option OutputSettings) (config : Option EngineConfig)
    (videoEncoder : Option VideoEncoder) (audioEncoder : Option AudioEncoder)
    (credentialError : Bool) : OutputState F A :=
  let maxBitrateKbps := configuredMaxBitrateKbps settings
  { engine := config.map (createEngineFromSettings settings)
    videoEncoder
    audioEncoder
    credentialError
    sharedEncoder := settings.any (·.sharedEncoder)
    audioBitrateBps := configuredAudioBitrateBps settings
    autoBitrate := (settings.bind (·.autoBitrate)).getD true
    minBitrateKbps := configuredMinBitrateKbps settings maxBitrateKbps
    maxBitrateKbps
    manualBitrateKbps := configuredManualBitrateKbps settings }

/-- `srtla_output_update`, which a running output ignores. -/
def update [F64 F] (d : OutputState F A) (settings : Option OutputSettings)
    (config : Option EngineConfig) (credentialError : Bool) : OutputState F A :=
  if d.running then d
  else
    let maxBitrateKbps := configuredMaxBitrateKbps settings
    { d with
      engine := config.map (createEngineFromSettings settings)
      credentialError
      sharedEncoder := settings.any (·.sharedEncoder)
      audioBitrateBps := configuredAudioBitrateBps settings
      autoBitrate := (settings.bind (·.autoBitrate)).getD true
      minBitrateKbps := configuredMinBitrateKbps settings maxBitrateKbps
      maxBitrateKbps
      manualBitrateKbps := configuredManualBitrateKbps settings }

def bitrate (d : OutputState F A) : Option Int := d.videoEncoder.bind (·.bitrate)

def dynBitrate (d : OutputState F A) : Bool := d.videoEncoder.any (·.dynBitrate)

def setBitrate (d : OutputState F A) (kbps : Int) : OutputState F A :=
  { d with
    videoEncoder := d.videoEncoder.map fun e => { e with bitrate := e.bitrate.map fun _ => kbps } }

/-- The write that most callers make: not of the value that is there. -/
def changeBitrate (d : OutputState F A) (kbps : Int) : OutputState F A :=
  if d.bitrate = some kbps then d else d.setBitrate kbps

/-- The locked section of `restore_shared_bitrate`. -/
def restoreSharedBitrate (d : OutputState F A) : OutputState F A :=
  if !d.bitrateOverridden then d
  else { d.setBitrate d.originalBitrateKbps with bitrateOverridden := false }

/-- The locked section of `apply_manual_bitrate`. -/
def applyManualBitrate (d : OutputState F A) : OutputState F A :=
  match d.bitrate with
  | none => d
  | some kbps =>
    let d := if d.bitrateOverridden then d else { d with originalBitrateKbps := toInt32 kbps }
    let d := if d.autoBitrate then d else d.setBitrate d.manualBitrateKbps
    { d with bitrateOverridden := true }

def setBitrateControl (d : OutputState F A) (automatic : Bool) (manualBitrateKbps : Int) :
    OutputState F A × Int :=
  match d.engine with
  | none => (d, -1)
  | some engine =>
    let manual := clampInt manualBitrateKbps minVideoBitrateKbps maxManualBitrateKbps
    if d.running && !d.dynBitrate then (d, -2)
    else if d.videoEncoder.any (·.bitrate.isNone) then (d, -3)
    else
      let active := if automatic then (d.bitrate.map toInt32).getD manual else manual
      let d := if automatic then d else d.changeBitrate manual
      let set := engine.setVideoBitrate ((max 1 active).toNat * 1000)
      ({ d with engine := some set.1, manualBitrateKbps := manual, autoBitrate := automatic },
        set.2)

def capEncoder (d : OutputState F A) (engine : Engine F A) (maximum : Int) :
    Option Int → OutputState F A × Int
  | none => ({ d with engine := some engine }, 0)
  | some kbps =>
    let active := if toInt32 kbps ≤ 0 then maximum else toInt32 kbps
    let active := min active maximum
    let set := engine.setVideoBitrate (active.toNat * 1000)
    ({ d.changeBitrate active with engine := some set.1 }, set.2)

def setMaxBitrate (d : OutputState F A) (maxBitrateKbps : Int) : OutputState F A × Int :=
  match d.engine with
  | none => (d, -1)
  | some engine =>
    let maximum := clampInt maxBitrateKbps (max 1 d.minBitrateKbps) absoluteMaxBitrateKbps
    let applyToEncoder := d.running && d.autoBitrate
    if applyToEncoder && !d.dynBitrate then (d, -2)
    else if applyToEncoder && d.bitrate.isNone then (d, -3)
    else
      let capped := engine.setMaxVideoBitrate (maximum.toNat * 1000)
      if capped.2 ≠ 0 then ({ d with engine := some capped.1 }, capped.2)
      else
        { d with maxBitrateKbps := maximum }.capEncoder capped.1 maximum
          (if applyToEncoder then d.bitrate else none)

end OutputState
end Srtla
