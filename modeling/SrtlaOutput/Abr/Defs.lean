import Mathlib.Algebra.Order.Field.Rat
import Mathlib.Data.Rat.Floor
import Mathlib.Data.UInt

/-! The adaptive bitrate controller of the engine. Bitrates, clocks and packet counts
are naturals with the source's saturation written out. The moving averages live in a
type `F` with the operations the source uses on its doubles, so what is proved holds
for every way of rounding; `ℚ` is exact arithmetic. -/

namespace Srtla

def u64Max : Nat := 2 ^ 64 - 1

def u32Max : Nat := 2 ^ 32 - 1

def saturatingAdd (a b : Nat) : Nat := min (a + b) u64Max

/-- Rust's `Ord::clamp`, which panics unless `lo ≤ hi`. -/
def clamp (x lo hi : Nat) : Nat := if x < lo then lo else if hi < x then hi else x

class F64 (F : Type) extends Add F, Sub F, Mul F, Div F, Max F, Min F, LT F, OfScientific F where
  decLt : DecidableLT F
  beq : F → F → Bool
  ofNat : Nat → F
  isFinite : F → Bool
  trunc : F → Nat

instance F64.decidableLT (F : Type) [F64 F] : DecidableLT F := F64.decLt

instance : F64 ℚ where
  decLt := inferInstance
  beq a b := a == b
  ofNat n := n
  isFinite _ := true
  trunc q := ⌊q⌋.toNat

namespace Abr

def defaultMinBps : Nat := 500000
def defaultStartBps : Nat := 1500000
def bitrateIncreaseMinBps : Nat := 30000
def bitrateIncreaseIntervalMs : Nat := 500
def bitrateIncreaseScale : Nat := 30
def bitrateDecreaseMinBps : Nat := 100000
def bitrateDecreaseIntervalMs : Nat := 200
def bitrateDecreaseFastIntervalMs : Nat := 250
def bitrateDecreaseScale : Nat := 10
def roundingBps : Nat := 100000

inductive ControlState
  | disconnected | waiting | hold | increasing | light | heavy | severe
  deriving DecidableEq, Repr

def ControlState.text : ControlState → String
  | .disconnected => "Disconnected"
  | .waiting => "Waiting for SRT feedback"
  | .hold => "Hold"
  | .increasing => "Increasing"
  | .light => "Light congestion"
  | .heavy => "Heavy congestion"
  | .severe => "Severe congestion"

structure AbrConfig where
  minBps : Nat := defaultMinBps
  startBps : Nat := defaultStartBps
  maxBps : Nat
  deriving DecidableEq, Repr

/-- `AbrConfig::default`, the limits of a configuration without an `abr` object. -/
def AbrConfig.default : AbrConfig where
  minBps := defaultMinBps
  startBps := defaultStartBps
  maxBps := defaultStartBps

def AbrConfig.normalized (c : AbrConfig) : AbrConfig :=
  let maxBps := max c.maxBps roundingBps
  let minBps := min c.minBps maxBps
  { minBps, startBps := clamp c.startBps minBps maxBps, maxBps }

structure LinkCapacity where
  enabled : Bool
  payloadEligible : Bool
  capacityReady : Bool
  targetBps : UInt64
  deliveredBps : UInt64
  deriving DecidableEq, Repr

structure SrtCapacity where
  ready : Bool
  sampledAtMs : Nat
  bandwidthBps : Nat
  sendRateBps : Nat
  sendBufferMs : Nat
  sendBufferPackets : Nat
  rttMs : Nat
  latencyMs : Nat
  retransmitPermille : Nat
  droppedBytes : Nat
  deriving DecidableEq, Repr

structure AbrSample where
  links : List LinkCapacity
  audioBps : Nat
  currentVideoBps : Nat
  nowMs : Nat
  capacityReady : Bool
  allLinksDown : Bool
  srt : SrtCapacity
  deriving DecidableEq, Repr

structure AbrDecision where
  linkCapacityBps : UInt64 := 0
  srtCapacityBps : Nat := 0
  estimatedCapacityBps : Nat := 0
  mediaBudgetBps : Nat := 0
  recommendedBps : Nat := 0
  appliedBps : Nat := 0
  changed : Bool := false
  emergency : Bool := false
  srtLimited : Bool := false
  transportStressed : Bool := false
  controlState : String := ""
  queueLightPackets : Nat := 0
  queueHeavyPackets : Nat := 0
  queueSeverePackets : Nat := 0
  rttIncreaseBelowMs : Nat := 0
  rttDecreaseAboveMs : Nat := 0
  deriving DecidableEq, Repr

structure AbrController (F : Type) where
  config : AbrConfig
  internalBitrateBps : Nat
  lastSrtSampleMs : Option Nat
  sendBufferAverage : F
  sendBufferJitter : F
  previousSendBuffer : Nat
  rttAverage : F
  rttAverageDelta : F
  previousRttMs : Nat
  rttMinimum : F
  rttJitter : F
  throughput : F
  nextIncreaseMs : Nat
  nextDecreaseMs : Nat
  lastControlState : ControlState
  queueLightPackets : Nat
  queueHeavyPackets : Nat
  queueSeverePackets : Nat
  rttIncreaseBelowMs : Nat
  rttDecreaseAboveMs : Nat
  deriving DecidableEq

variable {F : Type} [F64 F]

def toU32 (value : F) : Nat :=
  if !F64.isFinite value || decide (¬(0.0 : F) < value) then 0
  else if decide (¬value < F64.ofNat u32Max) then u32Max
  else F64.trunc value

def roundedBps (value : Nat) : Nat := value / roundingBps * roundingBps

namespace AbrController

def new (config : AbrConfig) : AbrController F :=
  let config := config.normalized
  { config
    internalBitrateBps := config.startBps
    lastSrtSampleMs := none
    sendBufferAverage := 0.0
    sendBufferJitter := 0.0
    previousSendBuffer := 0
    rttAverage := 0.0
    rttAverageDelta := 0.0
    previousRttMs := 300
    rttMinimum := 200.0
    rttJitter := 0.0
    throughput := 0.0
    nextIncreaseMs := 0
    nextDecreaseMs := 0
    lastControlState := .waiting
    queueLightPackets := 0
    queueHeavyPackets := 0
    queueSeverePackets := 0
    rttIncreaseBelowMs := 0
    rttDecreaseAboveMs := 0 }

def setMaxBps (c : AbrController F) (maxBps : Nat) : AbrController F × Nat :=
  let maxBps := max (max maxBps c.config.minBps) roundingBps
  ({ c with
      config := { c.config with maxBps }
      internalBitrateBps := min c.internalBitrateBps maxBps }, maxBps)

def setCurrentBps (c : AbrController F) (currentBps : Nat) : AbrController F × Nat :=
  let currentBps := clamp currentBps c.config.minBps c.config.maxBps
  ({ c with internalBitrateBps := currentBps }, currentBps)

def resetForBitrate (c : AbrController F) (currentBps : Nat) : AbrController F :=
  { c with
    internalBitrateBps := clamp currentBps c.config.minBps c.config.maxBps
    lastSrtSampleMs := none
    sendBufferAverage := 0.0
    sendBufferJitter := 0.0
    previousSendBuffer := 0
    rttAverage := 0.0
    rttAverageDelta := 0.0
    previousRttMs := 300
    rttMinimum := 200.0
    rttJitter := 0.0
    throughput := 0.0
    nextIncreaseMs := 0
    nextDecreaseMs := 0
    lastControlState := .waiting
    queueLightPackets := 0
    queueHeavyPackets := 0
    queueSeverePackets := 0
    rttIncreaseBelowMs := 0
    rttDecreaseAboveMs := 0 }

def updateMeasurements (c : AbrController F) (srt : SrtCapacity) : AbrController F :=
  let sendBuffer : F := F64.ofNat srt.sendBufferPackets
  let sendBufferAverage := c.sendBufferAverage * 0.99 + sendBuffer * 0.01
  let sendBufferJitter := c.sendBufferJitter * 0.99
  let bufferDelta := sendBuffer - F64.ofNat c.previousSendBuffer
  let sendBufferJitter := if sendBufferJitter < bufferDelta then bufferDelta else sendBufferJitter
  let rtt : F := F64.ofNat srt.rttMs
  let rttAverage :=
    if F64.beq c.rttAverage 0.0 then rtt else c.rttAverage * 0.99 + rtt * 0.01
  let rttDelta := rtt - F64.ofNat c.previousRttMs
  let rttAverageDelta := c.rttAverageDelta * 0.8 + rttDelta * 0.2
  let rttMinimum := c.rttMinimum * 1.001
  let rttMinimum :=
    if srt.rttMs ≠ 100 ∧ rtt < rttMinimum ∧ rttAverageDelta < 1.0 then rtt else rttMinimum
  let rttJitter := c.rttJitter * 0.99
  let rttJitter := if rttJitter < rttDelta then rttDelta else rttJitter
  let throughputSample : F := F64.ofNat srt.sendRateBps / 1024.0
  { c with
    sendBufferAverage
    sendBufferJitter
    previousSendBuffer := srt.sendBufferPackets
    rttAverage
    rttAverageDelta
    previousRttMs := srt.rttMs
    rttMinimum
    rttJitter
    throughput := c.throughput * 0.97 + throughputSample * 0.03 }

def updateThresholds (c : AbrController F) (srt : SrtCapacity) : AbrController F :=
  let queueHeavy :=
    max 50.0 (c.sendBufferAverage + max (c.sendBufferJitter * 3.0) c.sendBufferAverage)
  let halfLatencyPackets := (c.throughput / 8.0) * F64.ofNat (srt.latencyMs / 2) / 1316.0
  { c with
    queueSeverePackets := toU32 ((c.sendBufferAverage + c.sendBufferJitter) * 4.0)
    queueHeavyPackets := toU32 (min queueHeavy halfLatencyPackets)
    queueLightPackets := toU32 (max 50.0 (c.sendBufferAverage + c.sendBufferJitter * 2.5))
    rttDecreaseAboveMs := toU32 (c.rttAverage + max (c.rttJitter * 4.0) (c.rttAverage * 0.15))
    rttIncreaseBelowMs := toU32 (c.rttMinimum + max 1.0 (c.rttJitter * 2.0)) }

def decision (c : AbrController F) (sample : AbrSample) (linkCapacityBps : UInt64)
    (currentBps appliedBps : Nat) (emergency stressed : Bool) : AbrDecision :=
  { linkCapacityBps
    srtCapacityBps := 0
    estimatedCapacityBps := 0
    mediaBudgetBps := saturatingAdd c.internalBitrateBps sample.audioBps
    recommendedBps := appliedBps
    appliedBps
    changed := appliedBps != currentBps
    emergency
    srtLimited := false
    transportStressed := stressed
    controlState := c.lastControlState.text
    queueLightPackets := c.queueLightPackets
    queueHeavyPackets := c.queueHeavyPackets
    queueSeverePackets := c.queueSeverePackets
    rttIncreaseBelowMs := c.rttIncreaseBelowMs
    rttDecreaseAboveMs := c.rttDecreaseAboveMs }

def unusable (srt : SrtCapacity) : Bool := !srt.ready || srt.rttMs == 0 || srt.latencyMs == 0

def holds (c : AbrController F) (srt : SrtCapacity) : Bool :=
  unusable srt || c.lastSrtSampleMs == some srt.sampledAtMs
    || c.lastSrtSampleMs.any (fun last => srt.sampledAtMs < last)

/-- The control law, on thresholds already updated from the sample. The two flags are
`emergency` and `stressed`. -/
def control (c : AbrController F) (sample : AbrSample) : AbrController F × Bool × Bool :=
  let rttMs := sample.srt.rttMs
  let sendBufferPackets := sample.srt.sendBufferPackets
  let severe := rttMs ≥ sample.srt.latencyMs / 3 ∨ sendBufferPackets > c.queueSeverePackets
  let heavy := rttMs > sample.srt.latencyMs / 5 ∨ sendBufferPackets > c.queueHeavyPackets
  let light := rttMs > c.rttDecreaseAboveMs ∨ sendBufferPackets > c.queueLightPackets
  let mayIncrease := rttMs < c.rttIncreaseBelowMs ∧ c.rttAverageDelta < 0.01
  if c.internalBitrateBps > c.config.minBps ∧ severe then
    ({ c with
        internalBitrateBps := c.config.minBps
        nextDecreaseMs := saturatingAdd sample.nowMs bitrateDecreaseIntervalMs
        lastControlState := .severe }, true, true)
  else if sample.nowMs > c.nextDecreaseMs ∧ heavy then
    let decrease :=
      saturatingAdd bitrateDecreaseMinBps (c.internalBitrateBps / bitrateDecreaseScale)
    ({ c with
        internalBitrateBps := c.internalBitrateBps - decrease
        nextDecreaseMs := saturatingAdd sample.nowMs bitrateDecreaseFastIntervalMs
        lastControlState := .heavy }, false, true)
  else if sample.nowMs > c.nextDecreaseMs ∧ light then
    ({ c with
        internalBitrateBps := c.internalBitrateBps - bitrateDecreaseMinBps
        nextDecreaseMs := saturatingAdd sample.nowMs bitrateDecreaseIntervalMs
        lastControlState := .light }, false, true)
  else if sample.nowMs > c.nextIncreaseMs ∧ mayIncrease then
    let increase :=
      saturatingAdd bitrateIncreaseMinBps (c.internalBitrateBps / bitrateIncreaseScale)
    ({ c with
        internalBitrateBps := saturatingAdd c.internalBitrateBps increase
        nextIncreaseMs := saturatingAdd sample.nowMs bitrateIncreaseIntervalMs
        lastControlState := .increasing }, false, false)
  else ({ c with lastControlState := .hold }, false, false)

def clampInternal (c : AbrController F) : AbrController F :=
  { c with internalBitrateBps := clamp c.internalBitrateBps c.config.minBps c.config.maxBps }

def appliedBps (c : AbrController F) : Nat :=
  clamp (roundedBps c.internalBitrateBps) c.config.minBps c.config.maxBps

/-- The sum of the link targets wraps, as in the release build. -/
def linkCapacity (links : List LinkCapacity) : UInt64 :=
  ((links.filter fun link => link.enabled && link.payloadEligible && link.capacityReady).map
    (·.targetBps)).sum

def learn (c : AbrController F) (srt : SrtCapacity) : AbrController F :=
  ({ c with lastSrtSampleMs := some srt.sampledAtMs }.updateMeasurements srt).updateThresholds srt

def decide (c : AbrController F) (sample : AbrSample) : AbrController F × AbrDecision :=
  let linkCapacityBps := linkCapacity sample.links
  let current := clamp sample.currentVideoBps c.config.minBps c.config.maxBps
  if sample.allLinksDown then
    let c :=
      { c with internalBitrateBps := c.config.minBps, lastControlState := .disconnected }
    (c, c.decision sample linkCapacityBps current c.appliedBps true true)
  else if c.holds sample.srt then
    let c := if unusable sample.srt then { c with lastControlState := .waiting } else c
    (c, c.decision sample linkCapacityBps current current false false)
  else
    let (c, emergency, stressed) := (c.learn sample.srt).control sample
    let c := c.clampInternal
    (c, c.decision sample linkCapacityBps current c.appliedBps emergency stressed)

end AbrController
end Abr
end Srtla
