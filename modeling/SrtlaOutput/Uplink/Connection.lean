import SrtlaOutput.Uplink.Defs

/-! An uplink of the vendored sender and its methods. They touch no socket: what is to be
sent is returned, and the clock is an argument. -/

namespace Srtla.Uplink
open Wire
variable {F A : Type}

structure Connection (F A : Type) where
  connId : UInt64
  localIp : A
  adminEnabled : Bool
  connected : Bool
  window : ℤ
  inFlightPackets : ℤ
  packetLog : PacketLog
  /-- Duplicates that were sent to measure the link; no cumulative acknowledgement clears them. -/
  probeLog : PacketLog
  highestAckedSeq : Int32
  lastReceived : Option ℕ
  lastKeepaliveSent : Option ℕ
  lastAckOrRttSampleMs : ℕ
  stallGated : Bool
  stallLatchedSinceMs : ℕ
  stallRecoverySinceMs : ℕ
  stallProbeCounter : ℕ
  stallReleasedAtMs : ℕ
  stallRejoinBackoff : ℕ
  stallRejoinRampStartMs : ℕ
  stallRejoinRampMs : ℕ
  stallRejoinRampFromStallGate : Bool
  soleCarrier : Bool
  soleCarrierSinceMs : ℕ
  soleCarrierExcluded : Bool
  silencePulled : Bool
  connTimeoutMs : ℕ
  delayBudgetMs : ℕ
  rtt : RttTracker F
  congestion : CongestionControl
  bitrate : BitrateTracker F
  deliveredBitrate : BitrateTracker F
  reconnection : ReconnectionState
  qualityCache : CachedQuality F
  batchSender : BatchSender
  phase : LinkPhase
  weak : Bool
  weakReason : WeakReason
  qualityExcluded : Bool
  ccTargetBps : ℕ
  lossDegraded : Bool

section Free
variable [F64 F]

def stallRejoinRampFloor : F := 0.05

def rejoinRampMultiplier (rampStartMs rampMs nowMs : ℕ) : F :=
  if rampStartMs = 0 ∨ rampMs = 0 then 1.0
  else
    let elapsed := nowMs - rampStartMs
    if rampMs ≤ elapsed then 1.0
    else
      let progress : F := F64.ofNat elapsed / F64.ofNat rampMs
      let share := stallRejoinRampFloor + (1.0 - stallRejoinRampFloor) * progress
      if share < stallRejoinRampFloor then stallRejoinRampFloor
      else if 1.0 < share then 1.0
      else share

/-- The multiplier of the dwell: it doubles while rejoins fail to hold. -/
def stallRejoinBackoffNext (backoff releasedAtMs heldForMs probationMs : ℕ) : ℕ :=
  if releasedAtMs = 0 ∨ probationMs ≤ heldForMs then 1
  else
    let doubled := if backoff ≤ 1 then 2 else min (backoff * 2) u32Max
    min doubled stallRejoinBackoffMax

/-- Half of the round trip fits the receiver's buffer, as far as both are known. -/
def deliveryProofIsTimely (smoothRttMs : F) (budgetMs : ℕ) : Bool :=
  if budgetMs = 0 ∨ ¬ 0.0 < smoothRttMs then true
  else !decide (F64.ofNat budgetMs < smoothRttMs / 2.0)

end Free

namespace Connection
variable [F64 F]

def setAdminEnabled (c : Connection F A) (enabled : Bool) (nowMs : ℕ) :
    Connection F A :=
  if enabled then { c with adminEnabled := true, phase := .warming 0 nowMs, ccTargetBps := 0 }
  else { c with adminEnabled := false }

def newRegistering (connId : UInt64) (localIp : A) (now : ℕ) : Connection F A where
  connId
  localIp
  adminEnabled := true
  connected := false
  window := windowDef * windowMult
  inFlightPackets := 0
  packetLog := ∅
  probeLog := ∅
  highestAckedSeq := noAckYet
  lastReceived := none
  lastKeepaliveSent := none
  lastAckOrRttSampleMs := 0
  stallGated := false
  stallLatchedSinceMs := 0
  stallRecoverySinceMs := 0
  stallProbeCounter := 0
  stallReleasedAtMs := 0
  stallRejoinBackoff := 0
  stallRejoinRampStartMs := 0
  stallRejoinRampMs := 0
  stallRejoinRampFromStallGate := false
  soleCarrier := false
  soleCarrierSinceMs := 0
  soleCarrierExcluded := false
  silencePulled := false
  connTimeoutMs := Uplink.connTimeoutMs
  delayBudgetMs := 0
  rtt := .new
  congestion := {}
  bitrate := .new now
  deliveredBitrate := .new now
  reconnection := { startupGraceDeadlineMs := now + startupGraceMs }
  qualityCache := .default
  batchSender := {}
  phase := .registering
  weak := false
  weakReason := .healthy
  qualityExcluded := false
  ccTargetBps := 0
  lossDegraded := false

def getScore (c : Connection F A) : ℤ :=
  if !c.connected then -1
  else
    let total := min (c.inFlightPackets + c.batchSender.queuedCount) i32Max
    c.window.tdiv (max (min (total + 1) i32Max) 1)

/-! Packets that go out. -/

def registerPacket (c : Connection F A) (seq : Int32) (sendTimeMs : ℕ) :
    Connection F A :=
  let log := c.packetLog.insert seq sendTimeMs
  { c with packetLog := log, inFlightPackets := log.entries.length }

def queueDataPacket (c : Connection F A) (data : List UInt8) (seq : Option UInt32)
    (nowMs : ℕ) : Connection F A × Bool :=
  let (batchSender, full) := c.batchSender.queuePacket data seq nowMs
  ({ c with bitrate := c.bitrate.updateOnSend data.length, batchSender }, full)

def recordProbe (c : Connection F A) (seq : Int32) (nowMs : ℕ) : Connection F A :=
  { c with probeLog := c.probeLog.recordProbe seq nowMs }

def queueProbePacket (c : Connection F A) (data : List UInt8) (seq : UInt32) (nowMs : ℕ) :
    Connection F A × Bool :=
  let c := { c with bitrate := c.bitrate.updateOnSend data.length }
  let c := c.recordProbe seq.toInt32 nowMs
  let (batchSender, full) := c.batchSender.queuePacket data none nowMs
  ({ c with batchSender }, full)

/-- The drained packets count as under way before they are sent. -/
def takeBatch (c : Connection F A) (now : ℕ) : Connection F A × List DrainedPacket :=
  let (batchSender, batch) := c.batchSender.drain now
  let c := { c with batchSender }
  (batch.foldl (fun c p =>
    match p.seq with
    | some s => c.registerPacket s.toInt32 p.timeMs
    | none => c) c, batch)

omit [F64 F] in
theorem takeBatch_induction {motive : Connection F A → Prop} {c : Connection F A} {now : ℕ}
    (hdrained : motive { c with batchSender := (c.batchSender.drain now).1 })
    (hregister : ∀ c' p s, motive c' → p ∈ c.batchSender.queue → p.seq = some s →
      motive (c'.registerPacket s.toInt32 p.timeMs)) : motive (c.takeBatch now).1 := by
  refine List.foldlRecOn (motive := motive) _ _ hdrained fun c' hc' p hp => ?_
  split
  next s hs => exact hregister c' p s hc' hp hs
  · exact hc'

def getSmoothRttMs (c : Connection F A) : F := max c.rtt.kalmanRtt.x 0.0

def keepalivePacket (c : Connection F A) (now : ℕ) : Connection F A × List UInt8 :=
  let info : ConnectionInfo := {
    connId := c.connId.toUInt32
    window := .ofInt c.window
    inFlight := .ofInt c.inFlightPackets
    rttMs := truncU32 c.rtt.kalmanRtt.x
    nakCount := .ofNat c.congestion.nakCount.toNat
    bitrateBytesPerSec := truncU32 (c.bitrate.currentBitrateBps / 8.0) }
  let measure := !c.rtt.waitingForKeepaliveResponse &&
    (decide (c.rtt.lastRttMeasurementMs = 0) ||
      decide (3000 < now - c.rtt.lastRttMeasurementMs))
  ({ c with
      lastKeepaliveSent := some now
      rtt := if measure then c.rtt.recordKeepaliveSent else c.rtt },
    createKeepalivePacketExt info (.ofNat now))

def probeReg2Packet (c : Connection F A) (probeId : SrtlaId) (now : ℕ) :
    Connection F A × List UInt8 :=
  ({ c with reconnection := c.reconnection.resetStartupGrace now }, createReg2Packet probeId)

def needsRttMeasurement (c : Connection F A) (nowMs : ℕ) : Bool :=
  c.rtt.needsMeasurement c.connected c.reconnection.connectionEstablishedMs nowMs

def needsKeepalive (c : Connection F A) (nowMs : ℕ) : Bool :=
  c.connected && c.lastKeepaliveSent.all fun last => decide (1000 ≤ nowMs - last)

def needsBatchFlush (c : Connection F A) (nowMs : ℕ) : Bool :=
  c.batchSender.needsTimeFlush nowMs

/-! Acknowledgements and losses. -/

/-- From this width on, a range is cleared by a sweep of the log. -/
def targetedRemovalLimit : ℤ := 64

def removeRange : ℕ → Int32 → PacketLog → PacketLog
  | 0, _, log => log
  | n + 1, seq, log => removeRange n (seqNext seq) (log.erase (seqNext seq))

def handleSrtAck (c : Connection F A) (ack : Int32) (nowMs : ℕ) (ownsAckedSeq : Bool) :
    Connection F A :=
  let ack := seqNormalize ack
  let oldHighest := c.highestAckedSeq
  let firstAck := oldHighest == noAckYet
  if !firstAck && !seqAfter ack oldHighest then c
  else
    let ackSendTimeMs := c.packetLog.lookup ack
    let advance := if firstAck then i32Max else seqDiff ack oldHighest
    let log :=
      if advance ≤ targetedRemovalLimit then removeRange advance.toNat oldHighest c.packetLog
      else c.packetLog.retain fun seq _ => seqAfter seq ack
    { c with
      highestAckedSeq := ack
      packetLog := log
      inFlightPackets := log.entries.length
      rtt := match ackSendTimeMs with
        | some sentMs => if ownsAckedSeq then (c.rtt.recordRoundTrip sentMs nowMs).1 else c.rtt
        | none => c.rtt }

def handleNak (c : Connection F A) (seq : Int32) (nowMs : ℕ) : Connection F A × Bool :=
  if (c.packetLog.lookup seq).isSome then
    let log := c.packetLog.erase seq
    let (congestion, window) := c.congestion.handleNak c.window nowMs
    ({ c with packetLog := log, inFlightPackets := log.entries.length, congestion, window }, true)
  else (c, false)

/-- An answered probe proves the path but moves no window. -/
def handleSrtlaAckSpecific (c : Connection F A) (seq : Int32) (classicMode : Bool)
    (nowMs : ℕ) : Connection F A × Bool :=
  match c.probeLog.lookup seq with
  | some sentMs =>
    ({ c with
        probeLog := c.probeLog.erase seq
        lastAckOrRttSampleMs := nowMs
        rtt := (c.rtt.recordRoundTrip sentMs nowMs).1 }, true)
  | none =>
    match c.packetLog.lookup seq with
    | some sentMs =>
      let log := c.packetLog.erase seq
      let inFlight : ℤ := log.entries.length
      let (congestion, window) :=
        if classicMode then
          (c.congestion, CongestionControl.handleSrtlaAckSpecificClassic c.window inFlight)
        else c.congestion.handleSrtlaAckEnhanced c.window inFlight
      ({ c with
          packetLog := log
          inFlightPackets := inFlight
          lastAckOrRttSampleMs := nowMs
          rtt := (c.rtt.recordRoundTrip sentMs nowMs).1
          congestion
          window }, true)
    | none => (c, false)

def handleSrtlaAckGlobal (c : Connection F A) : Connection F A :=
  if c.connected && c.lastReceived.isSome then
    { c with window := min (c.window + 1) (windowMax * windowMult) }
  else c

def recordDeliveredBytes (c : Connection F A) (bytes : ℕ) : Connection F A :=
  { c with deliveredBitrate := c.deliveredBitrate.updateOnSend bytes }

def recordSweepPrunedDeliveryProof (c : Connection F A) (sentMs nowMs : ℕ) :
    Connection F A :=
  { c with lastAckOrRttSampleMs := nowMs, rtt := (c.rtt.recordRoundTrip sentMs nowMs).1 }

/-! Housekeeping. -/

def performWindowRecovery (c : Connection F A) (nowMs : ℕ) : Connection F A :=
  let (congestion, window) :=
    c.congestion.performWindowRecovery c.window c.connected c.rtt.kalmanRtt.v nowMs
  { c with congestion, window }

def recordRttProbe (c : Connection F A) : Connection F A :=
  match c.phase with
  | .warming rttProbes enteredMs =>
    if warmingRttProbes ≤ rttProbes + 1 then { c with phase := .live }
    else { c with phase := .warming (rttProbes + 1) enteredMs }
  | _ => c

def updatePhase (c : Connection F A) (nowMs : ℕ) : Connection F A :=
  let lowQuality := decide (c.qualityCache.multiplier < 0.5)
  let nakBurst := decide (5 ≤ c.congestion.nakBurstCount)
  let nakDegraded := lowQuality && nakBurst
  let nakRecovered := !lowQuality && !nakBurst
  match c.phase with
  | .warming _ enteredMs =>
    if warmingTimeoutMs ≤ nowMs - enteredMs then { c with phase := .live } else c
  | .live => if nakDegraded || c.lossDegraded then { c with phase := .degraded } else c
  | .degraded => if nakRecovered && !c.lossDegraded then { c with phase := .live } else c
  | .registering => c

def isSchedulable (c : Connection F A) : Bool := c.phase.isSchedulable

def calculateBitrate (c : Connection F A) (nowMs : ℕ) : Connection F A :=
  { c with
    bitrate := c.bitrate.calculate nowMs
    deliveredBitrate := c.deliveredBitrate.calculate nowMs }

def recomputeBatchRegime (c : Connection F A) : Connection F A :=
  { c with batchSender := c.batchSender.setRegime (.fromBps c.bitrate.currentBitrateBps) }

def isTimedOut (c : Connection F A) (nowMs : ℕ) : Bool :=
  if !c.connected then
    if c.reconnection.connectionEstablishedMs = 0 ∧ nowMs < c.reconnection.startupGraceDeadlineMs
    then false
    else c.lastReceived.all fun lr => decide (c.connTimeoutMs ≤ nowMs - lr)
  else c.lastReceived.any fun lr => decide (c.connTimeoutMs ≤ nowMs - lr)

/-! The stall latch: quick to drop a link, slow to let it rejoin. -/

def effectiveStallStaleMs (c : Connection F A) (ceilingMs : ℕ) : ℕ :=
  let srtt := c.getSmoothRttMs
  if ¬ 0.0 < srtt then ceilingMs
  else min (max (saturatingMul (truncU64 srtt) stallStaleRttMult) stallStaleFloorMs) ceilingMs

def proofStale (c : Connection F A) (nowMs staleCeilingMs : ℕ) : Bool :=
  decide (c.lastAckOrRttSampleMs ≠ 0) &&
    decide (c.effectiveStallStaleMs staleCeilingMs ≤ nowMs - c.lastAckOrRttSampleMs)

def isStalled (c : Connection F A) (nowMs : ℕ) (minInFlight : ℤ) (staleCeilingMs : ℕ) :
    Bool :=
  c.connected && decide (minInFlight ≤ c.inFlightPackets) && c.proofStale nowMs staleCeilingMs

def rampMultiplier (c : Connection F A) (nowMs : ℕ) : F :=
  rejoinRampMultiplier c.stallRejoinRampStartMs c.stallRejoinRampMs nowMs

/-- A ramp that runs is not started again. -/
def armRejoinRamp (c : Connection F A) (nowMs rampMs : ℕ) (fromStallGate : Bool) :
    Connection F A :=
  if c.rampMultiplier nowMs < 1.0 then c
  else { c with
    stallRejoinRampStartMs := nowMs
    stallRejoinRampMs := rampMs
    stallRejoinRampFromStallGate := fromStallGate }

/-- What engages the latch: a stall, or a silence that outlasted the proof. -/
def engages (c : Connection F A) (nowMs : ℕ) (minInFlight : ℤ) (staleCeilingMs : ℕ) : Bool :=
  c.isStalled nowMs minInFlight staleCeilingMs ||
    (c.silencePulled && c.proofStale nowMs staleCeilingMs)

def proofFresh (c : Connection F A) (nowMs staleCeilingMs : ℕ) : Bool :=
  decide (c.lastAckOrRttSampleMs ≠ 0) &&
    decide (nowMs - c.lastAckOrRttSampleMs < c.effectiveStallStaleMs staleCeilingMs) &&
    deliveryProofIsTimely c.getSmoothRttMs c.delayBudgetMs

def baseDwellMs (c : Connection F A) (staleCeilingMs : ℕ) : ℕ :=
  saturatingMul (c.effectiveStallStaleMs staleCeilingMs) stallRejoinDwellMult

def dwellMs (c : Connection F A) (staleCeilingMs : ℕ) : ℕ :=
  saturatingMul (c.baseDwellMs staleCeilingMs) (max c.stallRejoinBackoff 1)

def engageLatch (c : Connection F A) (nowMs staleCeilingMs : ℕ) : Connection F A :=
  if c.stallLatchedSinceMs = 0 then
    let probationMs :=
      saturatingMul (c.effectiveStallStaleMs staleCeilingMs) stallRejoinProbationMult
    { c with
      stallRejoinBackoff := stallRejoinBackoffNext c.stallRejoinBackoff c.stallReleasedAtMs
        (nowMs - c.stallReleasedAtMs) probationMs
      stallLatchedSinceMs := nowMs
      stallRecoverySinceMs := 0 }
  else { c with stallRecoverySinceMs := 0 }

def startRecovery (c : Connection F A) (nowMs : ℕ) : Connection F A :=
  if c.stallRecoverySinceMs = 0 then { c with stallRecoverySinceMs := nowMs } else c

def releaseLatch (c : Connection F A) (nowMs staleCeilingMs : ℕ) : Connection F A :=
  let c := { c with
    stallLatchedSinceMs := 0
    stallRecoverySinceMs := 0
    stallReleasedAtMs := nowMs }
  c.armRejoinRamp nowMs (c.baseDwellMs staleCeilingMs) true

def updateStallLatch (c : Connection F A) (nowMs : ℕ) (minInFlight : ℤ)
    (staleCeilingMs : ℕ) : Connection F A :=
  if c.engages nowMs minInFlight staleCeilingMs then c.engageLatch nowMs staleCeilingMs
  else if c.stallLatchedSinceMs = 0 then c
  else if !c.proofFresh nowMs staleCeilingMs then { c with stallRecoverySinceMs := 0 }
  else
    let c := c.startRecovery nowMs
    if c.dwellMs staleCeilingMs ≤ nowMs - c.stallRecoverySinceMs then
      c.releaseLatch nowMs staleCeilingMs
    else c

def stallLatched (c : Connection F A) : Bool := decide (c.stallLatchedSinceMs ≠ 0)

/-- The guard was switched off. Ramps that other gates armed go on. -/
def clearStallLatch (c : Connection F A) : Connection F A :=
  let c := { c with
    stallLatchedSinceMs := 0
    stallRecoverySinceMs := 0
    stallReleasedAtMs := 0
    stallRejoinBackoff := 0 }
  if c.stallRejoinRampFromStallGate then { c with
    stallRejoinRampStartMs := 0
    stallRejoinRampMs := 0
    stallRejoinRampFromStallGate := false }
  else c

def clearQualityGateState (c : Connection F A) : Connection F A :=
  { c with
    qualityExcluded := false
    soleCarrier := false
    soleCarrierExcluded := false
    soleCarrierSinceMs := 0 }

def stallProbeDue (c : Connection F A) : Connection F A × Bool :=
  if stallProbeOneInN ≤ c.stallProbeCounter + 1 then ({ c with stallProbeCounter := 0 }, true)
  else ({ c with stallProbeCounter := c.stallProbeCounter + 1 }, false)

def silencePullWindowMs (c : Connection F A) (staleCeilingMs : ℕ) : ℕ :=
  let srtt := c.getSmoothRttMs
  let base :=
    if ¬ 0.0 < srtt then silencePullFloorMs
    else max (saturatingMul (truncU64 srtt) silencePullRttMult) silencePullFloorMs
  min base (c.effectiveStallStaleMs staleCeilingMs)

def isBrieflySilent (c : Connection F A) (nowMs : ℕ) (minInFlight : ℤ)
    (staleCeilingMs : ℕ) : Bool :=
  c.connected && decide (minInFlight ≤ c.inFlightPackets) &&
    c.lastReceived.any fun lr => decide (c.silencePullWindowMs staleCeilingMs ≤ nowMs - lr)

def updateSilencePull (c : Connection F A) (nowMs : ℕ) (minInFlight : ℤ)
    (staleCeilingMs : ℕ) : Connection F A :=
  if c.isBrieflySilent nowMs minInFlight staleCeilingMs then
    { c with silencePulled := true }
  else if !c.silencePulled then c
  else
    let spoke := c.lastReceived.any fun lr =>
      decide (nowMs - lr < c.silencePullWindowMs staleCeilingMs)
    if spoke || !c.connected then { c with silencePulled := false } else c

/-! Resets. -/

def clearPreRegistrationState (c : Connection F A) (nowMs : ℕ) : Connection F A :=
  { c with
    packetLog := ∅
    probeLog := ∅
    inFlightPackets := 0
    highestAckedSeq := noAckYet
    congestion := {}
    deliveredBitrate := .new nowMs
    batchSender := c.batchSender.reset
    qualityCache := .default
    phase := .warming 0 nowMs }

def resetCoreState (c : Connection F A) : Connection F A :=
  { c with
    connected := false
    window := windowDef * windowMult
    inFlightPackets := 0
    packetLog := ∅
    probeLog := ∅
    highestAckedSeq := noAckYet
    batchSender := c.batchSender.reset
    phase := .registering
    lastAckOrRttSampleMs := 0
    stallGated := false
    stallLatchedSinceMs := 0
    stallRecoverySinceMs := 0
    stallProbeCounter := 0
    stallReleasedAtMs := 0
    stallRejoinBackoff := 0
    stallRejoinRampStartMs := 0
    stallRejoinRampMs := 0
    stallRejoinRampFromStallGate := false
    soleCarrier := false
    soleCarrierSinceMs := 0
    soleCarrierExcluded := false
    silencePulled := false }

/-- The soft reset. The deadline of 0 makes the link timed out at once. -/
def markForRecovery (c : Connection F A) : Connection F A :=
  let c := { c with
    lastReceived := none
    lastKeepaliveSent := none
    rtt := { c.rtt with waitingForKeepaliveResponse := false } }
  let c := c.resetCoreState
  { c with reconnection := { c.reconnection with startupGraceDeadlineMs := 0 } }

def resetForReconnect (c : Connection F A) (now : ℕ) : Connection F A :=
  let c := { c with lastReceived := none }
  let c := c.resetCoreState
  { c with
    congestion := {}
    rtt := .new
    bitrate := .new now
    deliveredBitrate := .new now
    reconnection := { c.reconnection with
      lastReconnectAttemptMs := now
      reconnectFailureCount := 0 } }

end Connection

/-! Quality. -/

class F64Exp (F : Type) extends F64 F where
  exp : F → F

instance : F64Exp ℚ where
  exp q := (1 + q / 1024) ^ 1024

section Quality
variable [F64Exp F]

def startupGracePeriodMs : ℕ := 30000
def qualityCacheIntervalMs : ℕ := 50

def calculateRttBonus (c : Connection F A) : F :=
  if ¬ 0.0 < c.getSmoothRttMs then 1.0
  else max (min (200.0 / max c.getSmoothRttMs 50.0) 1.03) 1.0

def calculateQualityMultiplier (c : Connection F A) (nowMs : ℕ) : F :=
  if nowMs - c.reconnection.connectionEstablishedMs < startupGracePeriodMs then
    if c.congestion.nakCount = 0 then 1.1 else 0.98
  else
    let quality : F :=
      match c.congestion.timeSinceLastNakMs nowMs with
      | some ageMs =>
        let mult := 1.0 - 0.5 * F64Exp.exp ((0.0 - F64.ofNat ageMs) / 2000.0)
        if 5 ≤ c.congestion.nakBurstCount ∧ ageMs < 3000 then mult * 0.7 else mult
      | none => if c.congestion.nakCount = 0 then 1.1 else 1.0
    quality * calculateRttBonus c

def Connection.getCachedQualityMultiplier (c : Connection F A) (nowMs : ℕ) :
    Connection F A × F :=
  let c :=
    if qualityCacheIntervalMs ≤ nowMs - c.qualityCache.lastCalculatedMs then
      { c with qualityCache := {
          multiplier := calculateQualityMultiplier c nowMs
          lastCalculatedMs := nowMs } }
    else c
  (c, c.qualityCache.multiplier)

end Quality

end Srtla.Uplink
