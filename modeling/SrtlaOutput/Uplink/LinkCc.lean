import SrtlaOutput.Uplink.Connection
import Mathlib.Logic.Function.Basic

/-! The congestion controller of the links. It looks at each link once in a tick and says what
rate it may carry and whether it has been losing too much for too long. -/

namespace Srtla.Uplink
variable {F A : Type}

def lossWindowMs : ℕ := 1000
def lossBackoffPermille : ℕ := 5
def backoffPermille : ℕ := 850
def backoffMinLoadPermille : ℕ := 300
def backoffEfficacyTicks : ℕ := 3
def backoffEfficacyImprovementPermille : ℕ := 800
def lossUncongestiveRetestTicks : ℕ := 30
def aiStepPermille : ℕ := 20
def haiStepPermille : ℕ := 60
def fastRecoveryStepPermille : ℕ := 40
def fastRecoveryTicks : ℕ := 5
def drainPermille : ℕ := 750
def assumedSrtPayloadBytes : ℕ := 1316
def minTargetBps : ℕ := 100000
def maxTargetBps : ℕ := 200000000
def initialTargetBps : ℕ := 1000000
def lossDegradeSustainMs : ℕ := 4000
def ccRttMinWindowMs : ℕ := 30000

inductive CcState
  | bootstrap | climbing | holding | backingOff | drain
  deriving DecidableEq, Repr

inductive ClimbMode
  | normal | hai | fastRecovery
  deriving DecidableEq, Repr

def ClimbMode.stepPermille : ClimbMode → ℕ
  | .normal => aiStepPermille
  | .hai => haiStepPermille
  | .fastRecovery => fastRecoveryStepPermille

structure LossSample where
  tsMs : ℕ
  lost : ℕ
  sent : ℕ
  deriving DecidableEq, Repr

structure LinkCongestionState (F : Type) where
  state : CcState
  climbMode : ClimbMode
  targetBps : ℕ
  rttEwmaMs : F
  rttVarMs : F
  /-- Without a sample the minimum is infinite. -/
  rttMinMs : Option F
  rttMinStampMs : ℕ
  lastRttUpdateMs : ℕ
  lossSamples : List LossSample
  windowLost : ℕ
  windowSent : ℕ
  fastRecoveryTicks : ℕ
  prevBytesSentTotal : ℕ
  prevNakTotal : ℤ
  trafficBaselineSet : Bool
  lossEwma : F
  lossEwmaLastMs : ℕ
  lossHighSinceMs : ℕ
  lossDegraded : Bool
  backoffTicks : ℕ
  backoffEntryLossPm : ℕ
  lossUncongestive : Bool
  uncongestiveTicks : ℕ
  drainArmed : Bool

namespace LinkCongestionState

section
variable [F64 F]

def default : LinkCongestionState F where
  state := .bootstrap
  climbMode := .normal
  targetBps := minTargetBps
  rttEwmaMs := 0.0
  rttVarMs := 0.0
  rttMinMs := none
  rttMinStampMs := 0
  lastRttUpdateMs := 0
  lossSamples := []
  windowLost := 0
  windowSent := 0
  fastRecoveryTicks := 0
  prevBytesSentTotal := 0
  prevNakTotal := 0
  trafficBaselineSet := false
  lossEwma := 0.0
  lossEwmaLastMs := 0
  lossHighSinceMs := 0
  lossDegraded := false
  backoffTicks := 0
  backoffEntryLossPm := 0
  lossUncongestive := false
  uncongestiveTicks := 0
  drainArmed := true

/-! Round trips. -/

def updateRttMin (s : LinkCongestionState F) (rttMs : F) (nowMs : ℕ) : LinkCongestionState F :=
  let stale := decide (ccRttMinWindowMs < nowMs - s.rttMinStampMs)
  let lower := s.rttMinMs.all fun rttMin => !F64.isFinite rttMin || decide (rttMs < rttMin)
  if lower || stale then { s with rttMinMs := some rttMs, rttMinStampMs := nowMs } else s

/-- The weight of what is known, against a new sample; an old estimate has none. -/
def oldWeight (ageMs : ℕ) : Option F :=
  if 2000 ≤ ageMs then none
  else if 1000 ≤ ageMs then some 1.0
  else if 500 ≤ ageMs then some 4.0
  else if 250 ≤ ageMs then some 8.0
  else some 16.0

def recordRtt (s : LinkCongestionState F) (rttMs : F) (nowMs : ℕ) : LinkCongestionState F :=
  if !F64.isFinite rttMs || !decide (0.0 < rttMs) then s
  else
    let age := nowMs - s.lastRttUpdateMs
    let s :=
      match if F64.beq s.rttEwmaMs 0.0 then none else oldWeight age with
      | none => { s with rttEwmaMs := rttMs, rttVarMs := 0.0 }
      | some wOld =>
        let dev := max (rttMs - s.rttEwmaMs) (0.0 - (rttMs - s.rttEwmaMs))
        { s with
          rttEwmaMs := (rttMs * 1.0 + s.rttEwmaMs * wOld) / (1.0 + wOld)
          rttVarMs := (dev * 1.0 + s.rttVarMs * 3.0) / 4.0 }
    let s := { s with lastRttUpdateMs := nowMs }
    s.updateRttMin rttMs nowMs

/-! Losses. -/

def evictExpired (s : LinkCongestionState F) (nowMs : ℕ) : LinkCongestionState F :=
  let expired := fun l : LossSample => decide (l.tsMs < nowMs - lossWindowMs)
  let gone := s.lossSamples.takeWhile expired
  { s with
    lossSamples := s.lossSamples.dropWhile expired
    windowSent := gone.foldl (fun w l => w - l.sent) s.windowSent
    windowLost := gone.foldl (fun w l => w - l.lost) s.windowLost }

def recordLoss (s : LinkCongestionState F) (sent lost nowMs : ℕ) : LinkCongestionState F :=
  let s := { s with
    lossSamples := s.lossSamples ++ [({ tsMs := nowMs, lost, sent } : LossSample)]
    windowSent := min (s.windowSent + sent) u32Max
    windowLost := min (s.windowLost + lost) u32Max }
  s.evictExpired nowMs

/-- A loss without a packet counts as one of one. -/
def observeTraffic (s : LinkCongestionState F) (bytesSentTotal : ℕ) (nakTotal : ℤ) (nowMs : ℕ) :
    LinkCongestionState F :=
  let seen := { s with
    prevBytesSentTotal := bytesSentTotal, prevNakTotal := nakTotal, trafficBaselineSet := true }
  if !s.trafficBaselineSet then seen
  else
    let deltaBytes := bytesSentTotal - s.prevBytesSentTotal
    let deltaNak := (min (nakTotal - s.prevNakTotal) i32Max).toNat
    if deltaBytes = 0 ∧ deltaNak = 0 then seen
    else
      let sentPkts := min (deltaBytes / assumedSrtPayloadBytes) u32Max
      seen.recordLoss (max sentPkts (if 0 < deltaNak then 1 else 0)) deltaNak nowMs

def lossPermille (s : LinkCongestionState F) : ℕ :=
  if s.windowSent = 0 then 0 else min (saturatingMul s.windowLost 1000 / s.windowSent) 1000000

/-- The verdict on the cuts so far. A loss that three of them did not lower is not the link's own. -/
def updateBackoffEfficacy (s : LinkCongestionState F) (lossHigh : Bool) (lossPm : ℕ) :
    LinkCongestionState F :=
  if !lossHigh then
    { s with backoffTicks := 0, backoffEntryLossPm := 0, lossUncongestive := false,
             uncongestiveTicks := 0 }
  else if s.lossUncongestive then
    if lossUncongestiveRetestTicks ≤ s.uncongestiveTicks + 1 then
      { s with lossUncongestive := false, uncongestiveTicks := 0, backoffTicks := 0,
               backoffEntryLossPm := lossPm }
    else { s with uncongestiveTicks := s.uncongestiveTicks + 1 }
  else if s.state ≠ .backingOff then { s with backoffTicks := 0, backoffEntryLossPm := lossPm }
  else if s.backoffTicks + 1 < backoffEfficacyTicks then
    { s with backoffTicks := s.backoffTicks + 1 }
  else if lossPm * 1000 < s.backoffEntryLossPm * backoffEfficacyImprovementPermille then
    { s with backoffTicks := 0, backoffEntryLossPm := lossPm }
  else { s with backoffTicks := s.backoffTicks + 1, lossUncongestive := true, uncongestiveTicks := 0 }

/-! The target. -/

def rttInflation (s : LinkCongestionState F) : F :=
  match s.rttMinMs with
  | some rttMin => if F64.isFinite rttMin && decide (0.0 < rttMin) then s.rttEwmaMs / rttMin else 1.0
  | none => 1.0

def queueDelayMs (s : LinkCongestionState F) : F :=
  match s.rttMinMs with
  | some rttMin => if F64.isFinite rttMin then max (s.rttEwmaMs - rttMin) 0.0 else 0.0
  | none => 0.0

def drainSignal (s : LinkCongestionState F) : Bool :=
  !decide (s.rttInflation < 2.0) && !decide (s.queueDelayMs < 20.0)

def inflated (s : LinkCongestionState F) : Bool := decide (1.5 < s.rttInflation)

def pickClimbMode (s : LinkCongestionState F) : ClimbMode :=
  if 0 < s.fastRecoveryTicks then .fastRecovery
  else if (0.0 : F) < s.rttEwmaMs ∧ ¬ s.rttEwmaMs * 0.10 < s.rttVarMs then .hai
  else .normal

def holdFloor (s : LinkCongestionState F) : LinkCongestionState F :=
  { s with state := .bootstrap, climbMode := .normal, targetBps := minTargetBps }

def saneOffered (s : LinkCongestionState F) (offeredBps : ℕ) : ℕ :=
  let baseline : F := F64.ofNat (max s.targetBps initialTargetBps)
  truncU64 (min (F64.ofNat offeredBps) (4.0 * baseline))

def seedTarget (s : LinkCongestionState F) (sane proven : ℕ) : LinkCongestionState F :=
  if s.state = .bootstrap ∧ s.targetBps = minTargetBps then
    { s with targetBps := clamp (max (max sane proven) initialTargetBps) minTargetBps maxTargetBps }
  else s

/-- A target below what is delivered is wrong, unless a drain asked for it. -/
def reconcile (s : LinkCongestionState F) (proven : ℕ) : LinkCongestionState F :=
  if s.drainArmed then { s with targetBps := clamp (max s.targetBps proven) minTargetBps maxTargetBps }
  else s

def nextState (s : LinkCongestionState F) (lossHigh loaded : Bool) : CcState :=
  if lossHigh && loaded && !s.lossUncongestive then .backingOff
  else if s.drainSignal then .drain
  else if s.inflated then .holding
  else .climbing

def armFastRecovery (s : LinkCongestionState F) (next : CcState) : LinkCongestionState F :=
  if (s.state = .backingOff ∨ s.state = .drain) ∧ next = .climbing then
    { s with fastRecoveryTicks := Uplink.fastRecoveryTicks }
  else s

def nextTarget (s : LinkCongestionState F) (prevState next : CcState) (mode : ClimbMode)
    (sane proven : ℕ) : F × Bool :=
  let prev : F := F64.ofNat s.targetBps
  match next with
  | .bootstrap => (prev, s.drainArmed)
  | .climbing =>
    let step := prev * F64.ofNat mode.stepPermille / 1000.0
    let measuredCap := F64.ofNat sane * 2.0
    (if 0 < sane then max prev (F64.ofNat minTargetBps) + max (min step (measuredCap - prev)) 0.0
      else prev, s.drainArmed)
  | .holding => (prev, s.drainArmed)
  | .backingOff =>
    let decreased := prev * F64.ofNat backoffPermille / 1000.0
    (max decreased (min (F64.ofNat proven) prev), s.drainArmed)
  | .drain =>
    if prevState ≠ .drain ∧ s.drainArmed = true then
      let decreased := prev * F64.ofNat drainPermille / 1000.0
      let deliveredGuard := F64.ofNat proven * F64.ofNat drainPermille / 1000.0
      (max decreased (min deliveredGuard prev), false)
    else (prev, s.drainArmed)

def settle (s : LinkCongestionState F) (next : CcState) (sane proven : ℕ) : LinkCongestionState F :=
  let prevState := s.state
  let s := { s.armFastRecovery next with state := next }
  let mode := if next = .climbing then s.pickClimbMode else .normal
  let target := s.nextTarget prevState next mode sane proven
  { s with
    climbMode := mode
    targetBps := clamp (truncU64 target.1) minTargetBps maxTargetBps
    drainArmed := target.2
    fastRecoveryTicks := if next = .climbing then s.fastRecoveryTicks - 1 else 0 }

end

section
variable [F64Exp F]

def nextLossEwma (s : LinkCongestionState F) (lossPm nowMs : ℕ) : F :=
  let share : F := F64.ofNat lossPm / 1000.0
  let inst : F := if share < 0.0 then 0.0 else if 1.0 < share then 1.0 else share
  if s.lossEwmaLastMs = 0 then inst
  else
    let dt : F := F64.ofNat (nowMs - s.lossEwmaLastMs)
    let alpha := 1.0 - F64Exp.exp ((0.0 - dt) / 2000.0)
    s.lossEwma + (inst - s.lossEwma) * alpha

def updateLossEwma (s : LinkCongestionState F) (lossPm nowMs : ℕ) : LinkCongestionState F :=
  let ewma := s.nextLossEwma lossPm nowMs
  let s := { s with lossEwma := ewma, lossEwmaLastMs := nowMs }
  if 0.55 < ewma then
    if s.lossHighSinceMs = 0 then { s with lossHighSinceMs := nowMs }
    else if lossDegradeSustainMs ≤ nowMs - s.lossHighSinceMs then { s with lossDegraded := true }
    else s
  else
    { s with
      lossHighSinceMs := 0
      lossDegraded := s.lossDegraded && !decide (ewma < 0.25) }

def tickMeasured (s : LinkCongestionState F) (offeredBps deliveredBps nowMs : ℕ) :
    LinkCongestionState F :=
  let lossPm := s.lossPermille
  let s := s.updateLossEwma lossPm nowMs
  let s := { s with drainArmed := s.drainArmed || !s.inflated }
  let sane := s.saneOffered offeredBps
  let proven := min deliveredBps offeredBps
  let s := (s.seedTarget sane proven).reconcile proven
  let loaded := decide (s.targetBps * backoffMinLoadPermille ≤ sane * 1000)
  let lossHigh := decide (lossBackoffPermille < lossPm)
  let s := s.updateBackoffEfficacy lossHigh lossPm
  s.settle (s.nextState lossHigh loaded) sane proven

def tickWithDeliverySample (s : LinkCongestionState F) (offeredBps deliveredBps : ℕ)
    (rateSampleReady : Bool) (nowMs : ℕ) : LinkCongestionState F :=
  let s := s.evictExpired nowMs
  if !rateSampleReady || decide (offeredBps = 0) || decide (deliveredBps = 0) then s.holdFloor
  else if !F64.isFinite s.rttEwmaMs || F64.beq s.rttEwmaMs 0.0 then s.holdFloor
  else s.tickMeasured offeredBps deliveredBps nowMs

end

end LinkCongestionState

/-! All links. -/

structure LinkCcController (F : Type) where
  perConn : UInt64 → Option (LinkCongestionState F)

namespace LinkCcController
variable [F64Exp F]

def new : LinkCcController F where
  perConn _ := none

structure Sample (F : Type) where
  rttMs : F
  bytesSentTotal : ℕ
  nakTotal : ℤ
  offeredBps : ℕ
  deliveredBps : ℕ
  rateSampleReady : Bool
  nowMs : ℕ

def sample (c : Connection F A) (nowMs : ℕ) : Sample F where
  rttMs := c.getSmoothRttMs
  bytesSentTotal := c.bitrate.bytesSentTotal
  nakTotal := c.congestion.nakCount
  offeredBps := truncU64 (max c.bitrate.currentBitrateBps 0.0)
  deliveredBps := truncU64 (max c.deliveredBitrate.currentBitrateBps 0.0)
  rateSampleReady := c.bitrate.rateReady && c.deliveredBitrate.rateReady
  nowMs

/-- The body of the loop of `tick_all`. -/
def observe (s : LinkCongestionState F) (x : Sample F) : LinkCongestionState F :=
  let s := if 0.0 < x.rttMs then s.recordRtt x.rttMs x.nowMs else s
  (s.observeTraffic x.bytesSentTotal x.nakTotal x.nowMs).tickWithDeliverySample x.offeredBps
    x.deliveredBps x.rateSampleReady x.nowMs

def visit (nowMs : ℕ) (cc : LinkCcController F) (c : Connection F A) : LinkCcController F where
  perConn := Function.update cc.perConn c.connId
    (some (observe ((cc.perConn c.connId).getD .default) (sample c nowMs)))

def tickAll (cc : LinkCcController F) (conns : List (Connection F A)) (nowMs : ℕ) :
    LinkCcController F :=
  let seen := conns.foldl (visit nowMs) cc
  { perConn := fun id => if conns.any (·.connId == id) then seen.perConn id else none }

/-- What the links read of the snapshots: the rate they may carry, and the verdict on their loss. -/
def verdict (cc : LinkCcController F) (connId : UInt64) : Option (ℕ × Bool) :=
  (cc.perConn connId).map fun s => (s.targetBps, s.lossDegraded)

end LinkCcController

end Srtla.Uplink
