import SrtlaOutput.Engine.Sender
import SrtlaOutput.Lib.FirstMatch

/-! The engine behind the C interface: one function for each exported call, with the name of
the call but for `srtla_engine_`, on the state the engine mutex guards. Every call is atomic,
because it holds that mutex. Where a call takes an `Option`, `none` is the null pointer. A
received datagram comes with the bytes the call copies out, and a snapshot stands for the
text of its document. -/

namespace Srtla
open Abr FirstMatch

def engineInputCapacity : Nat := 1024
def engineOutputCapacity : Nat := 256
def srtStatsMaxAgeMs : Nat := 200

def sessionIdle : Nat := 0
def sessionConnecting : Nat := 1
def sessionConnected : Nat := 2
def sessionReconnecting : Nat := 3
def sessionFatal : Nat := 4
def sessionStopped : Nat := 5

/-- A configured link with its telemetry; the defaults are those of the JSON fields. -/
structure EngineLinkConfig where
  id : UInt64
  label : String
  address : String := ""
  enabled : Bool := true
  connected : Bool := false
  capacityReady : Bool := false
  payloadEligible : Bool := false
  targetBps : UInt64 := 0
  qualityPercent : UInt8 := 0
  rttMs : UInt32 := 0
  lossPermille : UInt32 := 0
  nakCount : UInt64 := 0
  usedBps : UInt64 := 0
  deliveredBps : UInt64 := 0
  state : String := ""
  ccState : String := ""
  stallGateEvents : UInt64 := 0
  exclusionReason : String := ""
  deriving DecidableEq, Repr

structure EngineConfig where
  receiverHost : String := ""
  receiverPort : UInt16 := 0
  streamId : String := ""
  latencyMs : Nat := 0
  passphrase : String := ""
  pbkeylen : Nat := 0
  scheduler : String := ""
  links : List EngineLinkConfig := []
  abr : Option AbrConfig := none
  audioBps : Nat := 0
  deriving DecidableEq, Repr

structure LinkSnapshot where
  id : String
  label : String
  adminEnabled : Bool
  connected : Bool
  payloadEligible : Bool
  capacityReady : Bool
  targetBps : UInt64
  state : String
  qualityPercent : UInt8
  rttMs : UInt32
  lossPermille : UInt32
  nakCount : UInt64
  usedBps : UInt64
  deliveredBps : UInt64
  ccState : String
  stallGateEvents : UInt64
  exclusionReason : String
  deriving DecidableEq, Repr

structure EngineSnapshot where
  receiverHost : String
  receiverPort : UInt16
  running : Bool
  state : String
  error : String
  queueIn : Nat
  queueOut : Nat
  linkCapacityBps : UInt64
  srtBandwidthBps : Nat
  srtCapacityBps : Nat
  srtSendRateBps : Nat
  srtSendBufferMs : Nat
  srtSendBufferPackets : Nat
  srtPacketsInFlight : Nat
  srtRttMs : Nat
  srtLatencyMs : Nat
  srtSenderLossPackets : Nat
  srtRetransmitPermille : Nat
  srtDroppedBytes : Nat
  srtStatsReady : Bool
  srtLimited : Bool
  transportStressed : Bool
  estimatedCapacityBps : Nat
  recommendedVideoBps : Nat
  currentVideoBps : Nat
  abrState : String
  abrQueueLightPackets : Nat
  abrQueueHeavyPackets : Nat
  abrQueueSeverePackets : Nat
  abrRttIncreaseBelowMs : Nat
  abrRttDecreaseAboveMs : Nat
  srtSessionState : String
  srtConnected : Bool
  links : List LinkSnapshot
  deriving DecidableEq, Repr

/-- The statistics structure of the C interface, without its reserved words. -/
structure SrtlaSrtStats where
  structSize : Nat
  sampledAtMs : Nat
  bandwidthBps : Nat
  sendRateBps : Nat
  sentUniqueBytes : Nat
  retransmittedBytes : Nat
  droppedBytes : Nat
  sendBufferMs : Nat
  packetsInFlight : Nat
  senderLossPackets : Nat
  rttMs : Nat
  sendBufferPackets : Nat
  latencyMs : Nat
  deriving DecidableEq, Repr

def srtStatsSize : Nat := 88

structure SrtTransportStats where
  sampledAtMs : Nat := 0
  bandwidthBps : Nat := 0
  sendRateBps : Nat := 0
  sentUniqueBytes : Nat := 0
  retransmittedBytes : Nat := 0
  droppedBytes : Nat := 0
  sendBufferMs : Nat := 0
  sendBufferPackets : Nat := 0
  packetsInFlight : Nat := 0
  rttMs : Nat := 0
  latencyMs : Nat := 0
  senderLossPackets : Nat := 0
  deriving DecidableEq, Repr

def SrtTransportStats.retransmitPermille (s : SrtTransportStats) : Nat :=
  if s.retransmittedBytes = 0 then 0
  else min (s.retransmittedBytes * 1000 / max s.sentUniqueBytes 1) 1000

structure DatagramQueue where
  queue : List (List UInt8) := []
  capacity : Nat
  closed : Bool := false
  deriving DecidableEq, Repr

namespace DatagramQueue

def push (q : DatagramQueue) (packet : List UInt8) : DatagramQueue × Bool :=
  if q.closed then (q, false)
  else if q.queue.length ≥ q.capacity then (q, false)
  else ({ q with queue := q.queue ++ [packet] }, true)

def pop (q : DatagramQueue) : DatagramQueue × Option (List UInt8) :=
  match q.queue with
  | [] => (q, none)
  | packet :: rest => ({ q with queue := rest }, some packet)

def close (q : DatagramQueue) : DatagramQueue := { q with closed := true }

def reopen (q : DatagramQueue) : DatagramQueue := { q with closed := false, queue := [] }

end DatagramQueue

structure LinkStatsUpdate where
  id : UInt64
  connected : Bool := false
  payloadEligible : Bool := false
  capacityReady : Bool := false
  targetBps : UInt64 := 0
  qualityPercent : UInt8 := 0
  rttMs : UInt32 := 0
  lossPermille : UInt32 := 0
  nakCount : UInt64 := 0
  usedBps : UInt64 := 0
  deliveredBps : UInt64 := 0
  state : String := ""
  deriving DecidableEq, Repr

def LinkStatsUpdate.ofLink (l : EngineLinkConfig) : LinkStatsUpdate :=
  { id := l.id, connected := l.connected, payloadEligible := l.payloadEligible,
    capacityReady := l.capacityReady, targetBps := l.targetBps,
    qualityPercent := l.qualityPercent, rttMs := l.rttMs, lossPermille := l.lossPermille,
    nakCount := l.nakCount, usedBps := l.usedBps, deliveredBps := l.deliveredBps,
    state := l.state }

/-- A JSON argument as the parser sees it: no text, a text it rejects, a bare array, or a
configuration object. -/
inductive JsonArg (α : Type)
  | null
  | invalid
  | array (items : List α)
  | object (config : EngineConfig)

structure Engine (F A : Type) where
  config : EngineConfig
  input : DatagramQueue
  output : DatagramQueue
  running : Bool
  abr : AbrController F
  currentVideoBps : Nat
  audioBps : Nat
  lastError : String
  sessionState : Nat
  sessionError : String
  srtStats : SrtTransportStats
  lastAbrDecision : AbrDecision
  runner : Option (EmbeddedSender F A)
  deriving DecidableEq

/-- `CString::new`, which refuses an interior NUL. -/
def cString (text fallback : String) : String :=
  if text.toList.contains (Char.ofNat 0) then fallback else text

def eqIgnoreAsciiCase (a b : String) : Bool :=
  a.toList.map Char.toLower == b.toList.map Char.toLower

variable {F A : Type} [F64 F] [IpAddr A]

def qualityPercent (multiplier : F) : UInt8 :=
  let q := if multiplier < 0.0 then 0.0 else if 1.0 < multiplier then 1.0 else multiplier
  UInt8.ofNat (F64.trunc (q * 100.0))

def embeddedLinks (A : Type) [IpAddr A] (links : List EngineLinkConfig) :
    List (EmbeddedLink A) :=
  links.filterMap fun link => (IpAddr.parse link.address).map fun address =>
    { id := link.id, label := link.label, address, enabled := link.enabled }

/-- One entry of the stats document, written over the link it describes. -/
def syncLink (update : RunnerLinkStats F A) (link : EngineLinkConfig) : EngineLinkConfig :=
  let connected := update.connected && !update.timedOut
  { link with
    connected
    capacityReady := update.capacityReady
    targetBps := update.ccTargetBps
    qualityPercent := qualityPercent update.qualityMultiplier
    rttMs := update.rttMs
    lossPermille := update.ccLossPermille
    nakCount := UInt64.ofNat update.nakCount.toInt.toNat
    usedBps := update.bitrateBytesPerSec.toUInt64 * 8
    deliveredBps := update.deliveredBps
    state :=
      if !link.enabled then "Standby"
      else if !connected then "Offline"
      else if update.stallGated then "Stalled"
      else if !update.capacityReady then "Warming"
      else if update.ccState == "backing_off" || update.ccLossDegraded then "Degraded"
      else "Live"
    ccState := update.ccState
    stallGateEvents := update.stallGateEvents
    exclusionReason :=
      if !update.payloadEligible then
        if update.stallGated then "stalled"
        else if update.ccLossDegraded then "sustained loss"
        else if update.weakReason ≠ "" then update.weakReason
        else "scheduler"
      else ""
    enabled := if update.adminEnabled != link.enabled then update.adminEnabled else link.enabled
    address := IpAddr.toString update.ip
    payloadEligible := update.payloadEligible }

def syncLinks (updates : List (RunnerLinkStats F A)) (links : List EngineLinkConfig) :
    List EngineLinkConfig :=
  updates.foldl (fun links update =>
    modifyFirst (fun link => link.address == IpAddr.toString update.ip) (syncLink update) links)
    links

def toggleLink (enabled : Bool) (link : EngineLinkConfig) : EngineLinkConfig :=
  let link :=
    if enabled && !link.enabled then
      { link with
        capacityReady := false, targetBps := 0, deliveredBps := 0, qualityPercent := 0
        state := "Warming" }
    else link
  let link :=
    if !enabled then { link with capacityReady := false, deliveredBps := 0, state := "Standby" }
    else link
  { link with enabled }

/-- New interfaces are opt-in; a known id keeps its flag. -/
def carryChoice (old : List EngineLinkConfig) (link : EngineLinkConfig) : EngineLinkConfig :=
  match old.find? (·.id == link.id) with
  | some o => { link with enabled := o.enabled }
  | none => { link with enabled := false }

def writeLinkStats (update : LinkStatsUpdate) (link : EngineLinkConfig) : EngineLinkConfig :=
  { link with
    connected := update.connected
    payloadEligible := update.payloadEligible
    capacityReady := update.capacityReady
    targetBps := update.targetBps
    qualityPercent := update.qualityPercent
    rttMs := update.rttMs
    lossPermille := update.lossPermille
    nakCount := update.nakCount
    usedBps := update.usedBps
    deliveredBps := update.deliveredBps
    state := update.state }

def linkSnapshot (l : EngineLinkConfig) : LinkSnapshot :=
  { id := ToString.toString l.id.toNat
    label := l.label
    adminEnabled := l.enabled
    connected := l.connected
    payloadEligible := l.enabled && l.payloadEligible && l.connected
    capacityReady := l.capacityReady
    targetBps := l.targetBps
    state := if !l.enabled then "Standby" else if l.state = "" then "Warming" else l.state
    qualityPercent := l.qualityPercent
    rttMs := l.rttMs
    lossPermille := l.lossPermille
    nakCount := l.nakCount
    usedBps := l.usedBps
    deliveredBps := l.deliveredBps
    ccState := l.ccState
    stallGateEvents := l.stallGateEvents
    exclusionReason := l.exclusionReason }

def linkCapacityOf (link : EngineLinkConfig) : LinkCapacity :=
  { enabled := link.enabled, payloadEligible := link.payloadEligible,
    capacityReady := link.capacityReady, targetBps := link.targetBps,
    deliveredBps := link.deliveredBps }

namespace Engine

def create (config : EngineConfig) : Engine F A :=
  let abr : AbrController F := .new (config.abr.getD .default)
  { config
    input := { capacity := engineInputCapacity }
    output := { capacity := engineOutputCapacity }
    running := false
    abr
    currentVideoBps := abr.config.startBps
    audioBps := config.audioBps
    lastError := ""
    sessionState := sessionIdle
    sessionError := ""
    srtStats := {}
    lastAbrDecision := {}
    runner := none }

def withLinks (e : Engine F A) (links : List EngineLinkConfig) : Engine F A :=
  { e with config := { e.config with links } }

def startRunner (e : Engine F A) : Engine F A :=
  { e with
    runner := some <| .start
      { receiverHost := e.config.receiverHost
        receiverPort := e.config.receiverPort
        links := embeddedLinks A e.config.links
        schedulerClassic := eqIgnoreAsciiCase e.config.scheduler "classic" } }

/-- No runner yet, and an address one could send from. -/
def wantsRunner (e : Engine F A) : Bool :=
  e.runner.isNone && e.config.links.any fun link => (IpAddr.parse link.address : Option A).isSome

def ensureRunner (e : Engine F A) : Engine F A :=
  if e.running && e.wantsRunner then e.startRunner else e

def syncStats (e : Engine F A) (stats : RunnerStats F A) : Engine F A :=
  { e.withLinks (syncLinks stats.links e.config.links) with
    lastError :=
      if eqIgnoreAsciiCase stats.state "error" then cString stats.error "embedded runner error"
      else e.lastError }

def syncRunnerStats (e : Engine F A) : Engine F A :=
  match e.runner.bind (·.stats) with
  | none => e
  | some stats => e.syncStats stats

def start (e : Engine F A) : Engine F A × Int :=
  let e :=
    { e with
      input := e.input.reopen
      output := e.output.reopen
      lastError := ""
      sessionState := sessionIdle
      sessionError := ""
      srtStats := {}
      lastAbrDecision := {}
      abr := e.abr.resetForBitrate e.currentVideoBps }
  ({ (if e.wantsRunner then e.startRunner else e) with running := true }, 0)

def stop (e : Engine F A) : Engine F A × Int :=
  ({ e with
      running := false
      sessionState := sessionStopped
      sessionError := ""
      srtStats := {}
      lastAbrDecision := {}
      input := e.input.close
      output := e.output.close
      runner := none }, 0)

def submitResult (e : Engine F A) : Except EmbeddedSubmitError Unit → Engine F A × Int
  | .ok () => ({ e with lastError := "" }, 0)
  | .error .backpressure => ({ e with lastError := "input queue backpressure" }, -2)
  | .error .stopped => ({ e with lastError := "embedded runner stopped" }, -4)

def submitSrtDatagram (e : Engine F A) (data : List UInt8) : Engine F A × Int :=
  if data.isEmpty then (e, -1)
  else if !e.running then ({ e with lastError := "engine is not running" }, -4)
  else
    match e.runner with
    | none =>
      let pushed := e.input.push data
      if pushed.2 then ({ e with input := pushed.1, lastError := "" }, 0)
      else ({ e with input := pushed.1, lastError := "input queue backpressure" }, -2)
    | some runner =>
      let submitted := runner.submit data
      { e with runner := some submitted.1 }.submitResult submitted.2

def deliver (e : Engine F A) (capacity : Nat) : Option (List UInt8) → Engine F A × Int × List UInt8
  | none => (e, 0, [])
  | some packet =>
    if packet.length > capacity then ({ e with lastError := "receive buffer too small" }, -3, [])
    else (e, packet.length, packet)

def receiveSrtDatagram (e : Engine F A) (capacity : Nat) : Engine F A × Int × List UInt8 :=
  if capacity = 0 then (e, -1, [])
  else if !e.running then (e, 0, [])
  else
    match e.runner with
    | none =>
      if e.output.queue.head?.any fun packet => packet.length > capacity then
        ({ e with lastError := "receive buffer too small" }, -3, [])
      else { e with output := e.output.pop.1 }.deliver capacity e.output.pop.2
    | some runner =>
      { e with runner := some runner.receive.1 }.deliver capacity runner.receive.2

def tellRunner (e : Engine F A) (send : EmbeddedSender F A → EmbeddedSender F A × Bool)
    (backpressure : String) : Engine F A × Int :=
  match e.runner with
  | none => (e, 0)
  | some runner =>
    let sent := send runner
    if sent.2 then ({ e with runner := some sent.1 }, 0)
    else ({ e with runner := some sent.1, lastError := backpressure }, -2)

def setLinkEnabled (e : Engine F A) (linkId : UInt64) (enabled : Bool) : Engine F A × Int :=
  let links := e.config.links
  if !(links.any (·.id == linkId)) then (e, -2)
  else if e.running && !enabled && (links.find? (·.id == linkId)).any (·.enabled)
      && decide ((links.filter (·.enabled)).length ≤ 1) then (e, -3)
  else
    (e.withLinks (modifyFirst (·.id == linkId) (toggleLink enabled) links)).ensureRunner.tellRunner
      (·.setLinkEnabled linkId enabled) "link control queue backpressure"

def replaceLinks (e : Engine F A) (links : List EngineLinkConfig) : Engine F A × Int :=
  let e := (e.withLinks (links.map (carryChoice e.config.links))).ensureRunner
  e.tellRunner (·.updateLinks (embeddedLinks A e.config.links)) "adapter update queue backpressure"

def updateAdapters (e : Engine F A) : JsonArg EngineLinkConfig → Engine F A × Int
  | .null => (e, -1)
  | .invalid => ({ e with lastError := "invalid adapter JSON" }, -2)
  | .array links => e.replaceLinks links
  | .object config => e.replaceLinks config.links

def writeStats (e : Engine F A) (updates : List LinkStatsUpdate) : Engine F A × Int :=
  (e.withLinks (updates.foldl (fun links update =>
    modifyFirst (·.id == update.id) (writeLinkStats update) links) e.config.links), 0)

def updateLinkStats (e : Engine F A) : JsonArg LinkStatsUpdate → Engine F A × Int
  | .null => (e, -1)
  | .invalid => ({ e with lastError := "invalid link stats JSON" }, -2)
  | .array updates => e.writeStats updates
  | .object config => e.writeStats (config.links.map .ofLink)

def updateSrtStats (e : Engine F A) : Option SrtlaSrtStats → Engine F A × Int
  | none => (e, -1)
  | some stats =>
    if stats.structSize < srtStatsSize then (e, -1)
    else
      ({ e with
          srtStats :=
            { sampledAtMs := stats.sampledAtMs
              bandwidthBps := stats.bandwidthBps
              sendRateBps := stats.sendRateBps
              sentUniqueBytes := stats.sentUniqueBytes
              retransmittedBytes := stats.retransmittedBytes
              droppedBytes := stats.droppedBytes
              sendBufferMs := stats.sendBufferMs
              sendBufferPackets := stats.sendBufferPackets
              packetsInFlight := stats.packetsInFlight
              rttMs := stats.rttMs
              latencyMs := stats.latencyMs
              senderLossPackets := stats.senderLossPackets } }, 0)

def setAudioBitrate (e : Engine F A) (audioBps : Nat) : Engine F A × Int :=
  ({ e with audioBps }, 0)

def setVideoBitrate (e : Engine F A) (videoBps : Nat) : Engine F A × Int :=
  ({ e with
      currentVideoBps := max videoBps 1
      abr := (e.abr.setCurrentBps videoBps).1
      lastAbrDecision := {} }, 0)

def setMaxVideoBitrate (e : Engine F A) (maxVideoBps : Nat) : Engine F A × Int :=
  if maxVideoBps = 0 then (e, -1)
  else ({ e with abr := (e.abr.setMaxBps maxVideoBps).1, lastAbrDecision := {} }, 0)

def setSessionState (e : Engine F A) (state : Nat) (error : Option String) : Engine F A × Int :=
  if state > sessionStopped then (e, -1)
  else
    let sessionError := error.getD ""
    ({ e with
        sessionState := state
        srtStats := if state ≠ sessionConnected then {} else e.srtStats
        lastAbrDecision := if state ≠ sessionConnected then {} else e.lastAbrDecision
        abr :=
          if e.sessionState ≠ state then e.abr.resetForBitrate e.currentVideoBps else e.abr
        sessionError
        lastError :=
          if state = sessionFatal then cString sessionError "SRT session failure"
          else e.lastError }, 0)

def allLinksDown (e : Engine F A) : Bool :=
  e.sessionState != sessionConnected || !(e.config.links.any fun l => l.enabled && l.connected)

def srtCapacity (e : Engine F A) (nowMs : Nat) : SrtCapacity :=
  { ready := e.sessionState == sessionConnected
      && decide (nowMs - e.srtStats.sampledAtMs ≤ srtStatsMaxAgeMs)
    sampledAtMs := e.srtStats.sampledAtMs
    bandwidthBps := e.srtStats.bandwidthBps
    sendRateBps := e.srtStats.sendRateBps
    sendBufferMs := e.srtStats.sendBufferMs
    sendBufferPackets := e.srtStats.sendBufferPackets
    rttMs := e.srtStats.rttMs
    latencyMs :=
      if e.srtStats.latencyMs > 0 then e.srtStats.latencyMs else max e.config.latencyMs 1
    retransmitPermille := e.srtStats.retransmitPermille
    droppedBytes := e.srtStats.droppedBytes }

def abrSample (e : Engine F A) (nowMs : Nat) : AbrSample :=
  let links := e.config.links.map linkCapacityOf
  { links
    audioBps := e.audioBps
    currentVideoBps := e.currentVideoBps
    nowMs
    capacityReady := links.any fun l => l.enabled && l.payloadEligible && l.capacityReady
    allLinksDown := e.allLinksDown
    srt := e.srtCapacity nowMs }

def decideAbr (e : Engine F A) (nowMs : Nat) : Engine F A × AbrDecision :=
  let decided := e.abr.decide (e.abrSample nowMs)
  ({ e with
      abr := decided.1
      currentVideoBps := decided.2.appliedBps
      lastAbrDecision := decided.2 }, decided.2)

def applyAbr (e : Engine F A) (nowMs : Nat) : Engine F A × Nat :=
  ((e.syncRunnerStats.decideAbr nowMs).1, (e.syncRunnerStats.decideAbr nowMs).2.appliedBps)

def srtSessionStateText (state : Nat) : String :=
  if state = sessionConnecting then "Connecting"
  else if state = sessionConnected then "Connected"
  else if state = sessionReconnecting then "Reconnecting"
  else if state = sessionFatal then "Fatal"
  else if state = sessionStopped then "Stopped"
  else "Idle"

def snapshot (e : Engine F A) : EngineSnapshot :=
  let srtConnected := e.sessionState == sessionConnected
  let links := e.config.links
  let hasLiveLink := links.any fun l => l.enabled && l.connected && l.payloadEligible
  let decision := e.lastAbrDecision
  let decisionCurrent := decide (decision.recommendedBps > 0)
  { receiverHost := e.config.receiverHost
    receiverPort := e.config.receiverPort
    running := e.running
    state :=
      if e.lastError ≠ "" ∨ e.sessionState = sessionFatal then "Error"
      else if !e.running then "Idle"
      else if e.sessionState = sessionConnecting then "Starting"
      else if e.sessionState = sessionReconnecting ∨ e.sessionState = sessionStopped then
        "Reconnecting"
      else if srtConnected && hasLiveLink then "Live"
      else if links.any (·.enabled) then "Reconnecting"
      else "Waiting for network"
    error := if e.lastError ≠ "" then e.lastError else e.sessionError
    queueIn := e.input.queue.length
    queueOut := e.output.queue.length
    linkCapacityBps := AbrController.linkCapacity (links.map linkCapacityOf)
    srtBandwidthBps := e.srtStats.bandwidthBps
    srtCapacityBps := if decisionCurrent then decision.srtCapacityBps else 0
    srtSendRateBps := e.srtStats.sendRateBps
    srtSendBufferMs := e.srtStats.sendBufferMs
    srtSendBufferPackets := e.srtStats.sendBufferPackets
    srtPacketsInFlight := e.srtStats.packetsInFlight
    srtRttMs := e.srtStats.rttMs
    srtLatencyMs := e.srtStats.latencyMs
    srtSenderLossPackets := e.srtStats.senderLossPackets
    srtRetransmitPermille := e.srtStats.retransmitPermille
    srtDroppedBytes := e.srtStats.droppedBytes
    srtStatsReady := srtConnected && decide (e.srtStats.sampledAtMs > 0)
      && decide (e.srtStats.rttMs > 0) && decide (e.srtStats.latencyMs > 0)
    srtLimited := decisionCurrent && decision.srtLimited
    transportStressed := decisionCurrent && decision.transportStressed
    estimatedCapacityBps := if decisionCurrent then decision.estimatedCapacityBps else 0
    recommendedVideoBps :=
      if decisionCurrent then decision.recommendedBps
      else if !(links.any fun l => l.enabled && l.connected) then e.abr.config.minBps
      else e.currentVideoBps
    currentVideoBps := e.currentVideoBps
    abrState :=
      if decisionCurrent then decision.controlState
      else if !srtConnected then "Disconnected"
      else "Waiting for SRT feedback"
    abrQueueLightPackets := decision.queueLightPackets
    abrQueueHeavyPackets := decision.queueHeavyPackets
    abrQueueSeverePackets := decision.queueSeverePackets
    abrRttIncreaseBelowMs := decision.rttIncreaseBelowMs
    abrRttDecreaseAboveMs := decision.rttDecreaseAboveMs
    srtSessionState := srtSessionStateText e.sessionState
    srtConnected
    links := links.map linkSnapshot }

def copyStatsJson (e : Engine F A) : Engine F A × EngineSnapshot :=
  (e.syncRunnerStats, e.syncRunnerStats.snapshot)

end Engine

/-- A call on a live handle, or an action of the runner thread between two calls. -/
inductive Input (F A : Type)
  | start
  | stop
  | submitSrtDatagram (data : List UInt8)
  | receiveSrtDatagram (capacity : Nat)
  | setLinkEnabled (linkId : UInt64) (enabled : Bool)
  | updateAdapters (adapters : JsonArg EngineLinkConfig)
  | updateLinkStats (stats : JsonArg LinkStatsUpdate)
  | updateSrtStats (stats : Option SrtlaSrtStats)
  | setAudioBitrate (audioBps : Nat)
  | setVideoBitrate (videoBps : Nat)
  | setMaxVideoBitrate (maxVideoBps : Nat)
  | setSessionState (state : Nat) (error : Option String)
  | applyAbr (nowMs : Nat)
  | copyStatsJson
  | lastError
  | runner (effect : RunnerEffect F A)

inductive Reply
  | code (code : Int)
  | received (code : Int) (bytes : List UInt8)
  | bitrate (bps : Nat)
  | snapshot (snapshot : EngineSnapshot)
  | text (text : String)
  | silent
  deriving DecidableEq, Repr

def Engine.step (e : Engine F A) : Input F A → Engine F A × Reply
  | .start => (e.start.1, .code e.start.2)
  | .stop => (e.stop.1, .code e.stop.2)
  | .submitSrtDatagram data =>
    ((e.submitSrtDatagram data).1, .code (e.submitSrtDatagram data).2)
  | .receiveSrtDatagram capacity =>
    ((e.receiveSrtDatagram capacity).1,
      .received (e.receiveSrtDatagram capacity).2.1 (e.receiveSrtDatagram capacity).2.2)
  | .setLinkEnabled linkId enabled =>
    ((e.setLinkEnabled linkId enabled).1, .code (e.setLinkEnabled linkId enabled).2)
  | .updateAdapters adapters =>
    ((e.updateAdapters adapters).1, .code (e.updateAdapters adapters).2)
  | .updateLinkStats stats => ((e.updateLinkStats stats).1, .code (e.updateLinkStats stats).2)
  | .updateSrtStats stats => ((e.updateSrtStats stats).1, .code (e.updateSrtStats stats).2)
  | .setAudioBitrate bps => ((e.setAudioBitrate bps).1, .code (e.setAudioBitrate bps).2)
  | .setVideoBitrate bps => ((e.setVideoBitrate bps).1, .code (e.setVideoBitrate bps).2)
  | .setMaxVideoBitrate bps =>
    ((e.setMaxVideoBitrate bps).1, .code (e.setMaxVideoBitrate bps).2)
  | .setSessionState state error =>
    ((e.setSessionState state error).1, .code (e.setSessionState state error).2)
  | .applyAbr nowMs => ((e.applyAbr nowMs).1, .bitrate (e.applyAbr nowMs).2)
  | .copyStatsJson => (e.copyStatsJson.1, .snapshot e.copyStatsJson.2)
  | .lastError => (e, .text e.lastError)
  | .runner effect => ({ e with runner := e.runner.map (·.after effect) }, .silent)

end Srtla
