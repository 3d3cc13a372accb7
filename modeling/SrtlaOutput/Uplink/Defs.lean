import SrtlaOutput.Abr.Defs
import SrtlaOutput.Wire.Defs
import Mathlib.Data.List.AList

/-! The parts of an uplink in the vendored sender: serial numbers, the packet logs, the
congestion window, round trips, rates, batches, reconnects and the phase. Clocks are naturals
of milliseconds; windows and packet counts are integers. The doubles live in a type `F`. -/

namespace Srtla.Uplink
open Wire
variable {F : Type}

def i32Max : ℤ := 2 ^ 31 - 1

/-- Rust's conversion of a double to an unsigned number of 32 bits. -/
def truncU32 [F64 F] (x : F) : UInt32 :=
  if x < 0.0 then 0 else UInt32.ofNat (min (F64.trunc x) u32Max)

def truncU64 [F64 F] (x : F) : ℕ := if x < 0.0 then 0 else min (F64.trunc x) u64Max

def saturatingMul (a b : ℕ) : ℕ := min (a * b) u64Max

/-! Serial numbers of 31 bits. -/

def seqSpace : UInt32 := 0x80000000
def seqHalf : UInt32 := seqSpace / 2
def seqMask : Int32 := 0x7fffffff

def noAckYet : Int32 := Int32.minValue

def seqNormalize (seq : Int32) : Int32 := seq &&& seqMask

/-- The signed distance from `b` to `a`, the shorter way round. -/
def seqDiff (a b : Int32) : ℤ :=
  let d := (a.toUInt32 - b.toUInt32) &&& seqMask.toUInt32
  if seqHalf ≤ d then (d - seqSpace).toInt32.toInt else d.toInt32.toInt

def seqAfter (a b : Int32) : Bool := decide (0 < seqDiff a b)

def seqNext (seq : Int32) : Int32 := ((seq.toUInt32 + 1) &&& seqMask.toUInt32).toInt32

/-! Logs of packets and their send times. -/

abbrev PacketLog := AList fun _ : Int32 => ℕ

def PacketLog.retain (keep : Int32 → ℕ → Bool) (log : PacketLog) : PacketLog :=
  ⟨log.entries.filter fun e => keep e.1 e.2,
    log.nodupKeys.sublist List.filter_sublist⟩

/-! Scheduling limits. -/

def connTimeoutMs : ℕ := 5000
def stallMinInFlightPackets : ℤ := 32
def stallAckStaleMs : ℕ := 3000
def stallStaleRttMult : ℕ := 4
def stallStaleFloorMs : ℕ := 1000
def stallRejoinDwellMult : ℕ := 2
def stallRejoinBackoffMax : ℕ := 16
def stallRejoinProbationMult : ℕ := stallRejoinDwellMult + 1
def stallProbeOneInN : ℕ := 100
def silencePullFloorMs : ℕ := 250
def silencePullRttMult : ℕ := 2
def probeLogSoftCap : ℕ := 128
def probeLogMaxAgeMs : ℕ := 10000

inductive SchedulingMode
  | classic | enhanced
  deriving DecidableEq, Repr

structure ConfigSnapshot where
  mode : SchedulingMode := .enhanced
  qualityEnabled : Bool := true
  stallDeselect : Bool := true
  stallMinInFlight : ℤ := stallMinInFlightPackets
  stallAckStaleMs : ℕ := Uplink.stallAckStaleMs
  connTimeoutMs : ℕ := Uplink.connTimeoutMs
  negotiatedLatencyMs : ℕ := 0
  deriving DecidableEq, Repr

def ConfigSnapshot.effectiveQualityEnabled (c : ConfigSnapshot) : Bool :=
  c.qualityEnabled && decide (c.mode ≠ .classic)

/-- A full log of probes loses its old entries, or all of them. -/
def PacketLog.recordProbe (log : PacketLog) (seq : Int32) (nowMs : ℕ) : PacketLog :=
  let log :=
    if probeLogSoftCap ≤ log.entries.length then
      let kept := log.retain fun _ sent => decide (nowMs - probeLogMaxAgeMs ≤ sent)
      if probeLogSoftCap ≤ kept.entries.length then ∅ else kept
    else log
  log.insert seq nowMs

/-! The congestion window, counted in thousandths of a packet. -/

def windowMin : ℤ := 1
def windowDef : ℤ := 20
def windowMax : ℤ := 60
def windowMult : ℤ := 1000
def windowDecr : ℤ := 100
def windowIncr : ℤ := 30

def nakBurstWindowMs : ℕ := 1000
def normalMinWaitMs : ℕ := 2000
def fastMinWaitMs : ℕ := 500
def normalIncrementWaitMs : ℕ := 1000
def fastIncrementWaitMs : ℕ := 300
def fastRecoveryDisableWindow : ℤ := 12000

structure CongestionControl where
  nakCount : ℤ := 0
  lastNakTimeMs : ℕ := 0
  lastWindowIncreaseMs : ℕ := 0
  fastRecoveryMode : Bool := false
  nakBurstCount : ℤ := 0
  deriving DecidableEq, Repr

namespace CongestionControl

def handleNak (c : CongestionControl) (window : ℤ) (nowMs : ℕ) : CongestionControl × ℤ :=
  let sinceLast := nowMs - c.lastNakTimeMs
  let burst :=
    if 0 < c.lastNakTimeMs ∧ sinceLast < nakBurstWindowMs then
      if c.nakBurstCount = 0 then 2 else min (c.nakBurstCount + 1) i32Max
    else 0
  let window := max (window - windowDecr) (windowMin * windowMult)
  ({ c with
      nakCount := min (c.nakCount + 1) i32Max
      lastNakTimeMs := nowMs
      fastRecoveryMode := c.fastRecoveryMode || decide (window ≤ 2000)
      nakBurstCount := burst }, window)

def handleSrtlaAckSpecificClassic (window inFlight : ℤ) : ℤ :=
  if window < min (inFlight * windowMult) i32Max then
    min (window + windowIncr - 1) (windowMax * windowMult)
  else window

def handleSrtlaAckEnhanced (c : CongestionControl) (window inFlight : ℤ) :
    CongestionControl × ℤ :=
  let window := handleSrtlaAckSpecificClassic window inFlight
  ({ c with
      fastRecoveryMode := c.fastRecoveryMode && decide (window < fastRecoveryDisableWindow) }, window)

/-- The time since the last reported loss; without one, the largest time there is. -/
def sinceNak (c : CongestionControl) (nowMs : ℕ) : ℕ :=
  if 0 < c.lastNakTimeMs then nowMs - c.lastNakTimeMs else u64Max

def baseIncrement (c : CongestionControl) (nowMs : ℕ) : ℕ :=
  let bonus := if c.fastRecoveryMode then 2 else 1
  let incr := windowIncr.toNat
  if 10000 < c.sinceNak nowMs then incr * 2 * bonus
  else if 7000 < c.sinceNak nowMs then incr * bonus
  else if 5000 < c.sinceNak nowMs then incr * bonus / 2
  else incr * bonus / 4

def endBurst (c : CongestionControl) (nowMs : ℕ) : CongestionControl :=
  if nakBurstWindowMs ≤ c.sinceNak nowMs ∧ 0 < c.nakBurstCount then { c with nakBurstCount := 0 }
  else c

def minWait (c : CongestionControl) : ℕ := if c.fastRecoveryMode then fastMinWaitMs else normalMinWaitMs

def incrementWait (c : CongestionControl) : ℕ :=
  if c.fastRecoveryMode then fastIncrementWaitMs else normalIncrementWaitMs

/-- The growth with time. It is halved while the round trip is rising. -/
def performWindowRecovery [F64 F] (c : CongestionControl) (window : ℤ) (connected : Bool)
    (velocity : F) (nowMs : ℕ) : CongestionControl × ℤ :=
  if !connected || decide (windowMax * windowMult ≤ window) then (c, window)
  else
    let c := c.endBurst nowMs
    if c.minWait < c.sinceNak nowMs ∧ c.incrementWait < nowMs - c.lastWindowIncreaseMs then
      let scale : F := if (2.0 : F) < velocity then 0.5 else 1.0
      let incr := F64.trunc (F64.ofNat (c.baseIncrement nowMs) * scale)
      let window := min (window + incr) (windowMax * windowMult)
      ({ c with
          lastWindowIncreaseMs := nowMs
          fastRecoveryMode := c.fastRecoveryMode && decide (window < fastRecoveryDisableWindow) },
        window)
    else (c, window)

def timeSinceLastNakMs (c : CongestionControl) (nowMs : ℕ) : Option ℕ :=
  if c.lastNakTimeMs = 0 then none else some (nowMs - c.lastNakTimeMs)

end CongestionControl

/-! Round trips. -/

section RoundTrips
variable [F64 F]

/-- The estimate of a value and of its trend for each sample. -/
structure KalmanFilter (F : Type) where
  x : F
  v : F
  p00 : F
  p01 : F
  p10 : F
  p11 : F
  initialized : Bool

def KalmanFilter.new : KalmanFilter F where
  x := 0.0
  v := 0.0
  p00 := 0.0
  p01 := 0.0
  p10 := 0.0
  p11 := 0.0
  initialized := false

def KalmanFilter.update (k : KalmanFilter F) (measurement : F) : KalmanFilter F :=
  if !F64.isFinite measurement then k
  else if !k.initialized then
    { x := measurement, v := 0.0, p00 := 2.0, p01 := 0.0, p10 := 0.0, p11 := 2.0,
      initialized := true }
  else
    let xPred := k.x + k.v
    let p00 := k.p00 + k.p10 + k.p01 + k.p11 + 0.5
    let p01 := k.p01 + k.p11
    let p10 := k.p10 + k.p11
    let p11 := k.p11 + 0.1
    let y := measurement - xPred
    let s := p00 + 2.0
    if max s (0.0 - s) < 1e-12 then k
    else
      let k0 := p00 / s
      let k1 := p10 / s
      { x := xPred + k0 * y
        v := k.v + k1 * y
        p00 := (1.0 - k0) * p00
        p01 := (1.0 - k0) * p01
        p10 := p10 - k1 * p00
        p11 := p11 - k1 * p01
        initialized := true }

def fastWindowSamples : ℕ := 10
def slowWindowSamples : ℕ := 100
def rttSampleFilterSize : ℕ := 15
def maxPlausibleRttMs : ℕ := 10000

def pushSample (n : ℕ) (window : List F) (sample : F) : List F :=
  let window := window ++ [sample]
  window.drop (window.length - n)

def minSample (window : List F) : F := window.foldl min 1.7976931348623157e308

/-- The fields that the sender reads of `RttTracker`. -/
structure RttTracker (F : Type) where
  waitingForKeepaliveResponse : Bool
  lastRttMeasurementMs : ℕ
  kalmanRtt : KalmanFilter F
  rttMinMs : F
  rttMinFastWindow : List F
  rttMinSlowWindow : List F
  rttSampleFilter : List F

namespace RttTracker

def new : RttTracker F where
  waitingForKeepaliveResponse := false
  lastRttMeasurementMs := 0
  kalmanRtt := .new
  rttMinMs := 200.0
  rttMinFastWindow := []
  rttMinSlowWindow := []
  rttSampleFilter := []

def updateEstimate (t : RttTracker F) (rttMs nowMs : ℕ) : RttTracker F :=
  let current : F := F64.ofNat rttMs
  let filter := pushSample rttSampleFilterSize t.rttSampleFilter current
  let filtered := minSample filter
  if !t.kalmanRtt.initialized then
    { t with
      rttSampleFilter := filter
      kalmanRtt := t.kalmanRtt.update current
      rttMinMs := filtered
      rttMinFastWindow := t.rttMinFastWindow ++ [filtered]
      rttMinSlowWindow := t.rttMinSlowWindow ++ [filtered]
      lastRttMeasurementMs := nowMs }
  else
    let fast := pushSample fastWindowSamples t.rttMinFastWindow filtered
    let slow := pushSample slowWindowSamples t.rttMinSlowWindow filtered
    { t with
      rttSampleFilter := filter
      kalmanRtt := t.kalmanRtt.update current
      rttMinMs := min (minSample fast) (minSample slow)
      rttMinFastWindow := fast
      rttMinSlowWindow := slow
      lastRttMeasurementMs := nowMs }

/-- A round trip, unless no path can have it; says whether it was taken. -/
def recordRoundTrip (t : RttTracker F) (sentMs nowMs : ℕ) : RttTracker F × Bool :=
  let rtt := nowMs - sentMs
  if rtt = 0 ∨ maxPlausibleRttMs < rtt then (t, false) else (t.updateEstimate rtt nowMs, true)

def recordKeepaliveSent (t : RttTracker F) : RttTracker F :=
  { t with waitingForKeepaliveResponse := true }

def handleKeepaliveResponse (t : RttTracker F) (data : List UInt8) (nowMs : ℕ) :
    RttTracker F × Bool :=
  if !t.waitingForKeepaliveResponse then (t, false)
  else
    match extractKeepaliveTimestamp data with
    | some ts =>
      let (t, taken) := t.recordRoundTrip ts.toNat nowMs
      ({ t with waitingForKeepaliveResponse := false }, taken)
    | none => ({ t with waitingForKeepaliveResponse := false }, false)

def needsMeasurement (t : RttTracker F) (connected : Bool) (connectionEstablishedMs nowMs : ℕ) :
    Bool :=
  decide (connectionEstablishedMs ≠ 0) && connected && !t.waitingForKeepaliveResponse &&
    (decide (t.lastRttMeasurementMs = 0) || decide (3000 < nowMs - t.lastRttMeasurementMs))

end RttTracker

/-! Rates. -/

def bitrateUpdateIntervalMs : ℕ := 2000

structure BitrateTracker (F : Type) where
  bytesSentTotal : ℕ
  bytesSentWindow : ℕ
  lastRateUpdateMs : ℕ
  currentBitrateBps : F
  rateReady : Bool

namespace BitrateTracker

def new (nowMs : ℕ) : BitrateTracker F where
  bytesSentTotal := 0
  bytesSentWindow := 0
  lastRateUpdateMs := nowMs
  currentBitrateBps := 0.0
  rateReady := false

def updateOnSend (t : BitrateTracker F) (bytesSent : ℕ) : BitrateTracker F :=
  { t with bytesSentTotal := saturatingAdd t.bytesSentTotal bytesSent }

def calculate (t : BitrateTracker F) (nowMs : ℕ) : BitrateTracker F :=
  let diff := nowMs - t.lastRateUpdateMs
  if bitrateUpdateIntervalMs ≤ diff then
    let bits := saturatingMul (t.bytesSentTotal - t.bytesSentWindow) 8
    { t with
      currentBitrateBps := F64.ofNat bits * 1000.0 / F64.ofNat diff
      lastRateUpdateMs := nowMs
      bytesSentWindow := t.bytesSentTotal
      rateReady := true }
  else t

end BitrateTracker

/-! Batches. -/

inductive BatchRegime
  | lowActivity | normal | highLoad
  deriving DecidableEq, Repr

def BatchRegime.batchSize : BatchRegime → ℕ
  | .lowActivity => 4
  | .normal => 16
  | .highLoad => 32

def BatchRegime.fromBps (bps : F) : BatchRegime :=
  if (5000000.0 : F) < bps then .highLoad
  else if (500000.0 : F) < bps then .normal
  else .lowActivity

end RoundTrips

def flushIntervalMs : ℕ := 15

structure DrainedPacket where
  data : List UInt8
  seq : Option UInt32
  timeMs : ℕ
  deriving DecidableEq, Repr

/-- The three parallel vectors of the source are one queue. -/
structure BatchSender where
  queue : List DrainedPacket := []
  lastFlushMs : ℕ := 0
  regime : BatchRegime := .normal
  deriving DecidableEq, Repr

namespace BatchSender

def queuePacket (b : BatchSender) (data : List UInt8) (seq : Option UInt32) (nowMs : ℕ) :
    BatchSender × Bool :=
  let queue := b.queue ++ [{ data, seq, timeMs := nowMs }]
  ({ b with queue }, decide (b.regime.batchSize ≤ queue.length))

def setRegime (b : BatchSender) (regime : BatchRegime) : BatchSender := { b with regime }

def needsTimeFlush (b : BatchSender) (nowMs : ℕ) : Bool :=
  !b.queue.isEmpty && decide (flushIntervalMs ≤ nowMs - b.lastFlushMs)

def hasQueuedPackets (b : BatchSender) : Bool := !b.queue.isEmpty

def queuedCount (b : BatchSender) : ℤ := b.queue.length

def drain (b : BatchSender) (nowMs : ℕ) : BatchSender × List DrainedPacket :=
  ({ b with queue := [], lastFlushMs := nowMs }, b.queue)

def reset (b : BatchSender) : BatchSender := { b with queue := [], lastFlushMs := 0 }

end BatchSender

/-! Reconnects. -/

def startupGraceMs : ℕ := 5000
def baseReconnectDelayMs : ℕ := 5000
def maxBackoffDelayMs : ℕ := 120000
def maxBackoffCount : ℕ := 5

structure ReconnectionState where
  lastReconnectAttemptMs : ℕ := 0
  reconnectFailureCount : ℕ := 0
  connectionEstablishedMs : ℕ := 0
  startupGraceDeadlineMs : ℕ := 0
  deriving DecidableEq, Repr

namespace ReconnectionState

def backoffDelay (r : ReconnectionState) : ℕ :=
  min (baseReconnectDelayMs * 2 ^ min r.reconnectFailureCount maxBackoffCount) maxBackoffDelayMs

def shouldAttemptReconnect (r : ReconnectionState) (now : ℕ) : Bool :=
  if r.connectionEstablishedMs = 0 then
    if now ≤ r.startupGraceDeadlineMs then false
    else if r.lastReconnectAttemptMs = 0 then true
    else decide (1000 ≤ now - r.lastReconnectAttemptMs)
  else if r.lastReconnectAttemptMs = 0 then true
  else decide (r.backoffDelay ≤ now - r.lastReconnectAttemptMs)

def recordAttempt (r : ReconnectionState) (now : ℕ) : ReconnectionState :=
  let r := { r with lastReconnectAttemptMs := now }
  if r.connectionEstablishedMs = 0 then r
  else { r with reconnectFailureCount := min (r.reconnectFailureCount + 1) u32Max }

def markSuccess (r : ReconnectionState) : ReconnectionState := { r with reconnectFailureCount := 0 }

def resetStartupGrace (r : ReconnectionState) (now : ℕ) : ReconnectionState :=
  { r with startupGraceDeadlineMs := now + startupGraceMs }

end ReconnectionState

/-! Phases. -/

def warmingRttProbes : ℕ := 2
def warmingTimeoutMs : ℕ := 5000

inductive LinkPhase
  | registering
  | warming (rttProbes enteredMs : ℕ)
  | live
  | degraded
  deriving DecidableEq, Repr

def LinkPhase.isSchedulable : LinkPhase → Bool
  | .registering => false
  | _ => true

def LinkPhase.weight [F64 F] : LinkPhase → F
  | .registering => 0.0
  | .warming _ _ => 0.8
  | .live => 1.0
  | .degraded => 1.0

inductive WeakReason
  | healthy | highRtt | queueBuilding | noTraffic | lowShare | bypassed
  deriving DecidableEq, Repr

def WeakReason.isDelay : WeakReason → Bool
  | .highRtt | .queueBuilding => true
  | _ => false

structure CachedQuality (F : Type) where
  multiplier : F
  lastCalculatedMs : ℕ

def CachedQuality.default [F64 F] : CachedQuality F where
  multiplier := 1.0
  lastCalculatedMs := 0

end Srtla.Uplink
