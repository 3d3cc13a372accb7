import SrtlaOutput.Bond.Registration
import SrtlaOutput.Bond.Selection
import SrtlaOutput.Bond.Sequence
import SrtlaOutput.Lib.Sweep
import SrtlaOutput.Runner.Defs

/-! The loop of the embedded sender: its uplinks, the registration, the ring of sequence
numbers, and the steps that take a datagram, a packet of the receiver, a control message or a
tick. A step reads the clock once. Which sockets take a packet is up to the network. -/

namespace Srtla.Bond
open Wire Uplink
variable {F A : Type}

/-- A packet on the wire of an uplink, or one for the SRT caller. -/
inductive Output
  | uplink (connId : UInt64) (data : List UInt8)
  | client (data : List UInt8)
  deriving DecidableEq, Repr

/-- The ring and the packets sent, as a loop over the uplinks threads them. -/
structure Effects where
  sequence : SequenceTracker
  out : List Output := []

def Effects.send (e : Effects) (connId : UInt64) (data : List UInt8) : Effects :=
  { e with out := e.out ++ [.uplink connId data] }

section Flush
variable [F64 F]

def recoverConnection (e : Effects) (c : Connection F A) : Effects × Connection F A :=
  ({ e with sequence := e.sequence.removeConnection c.connId }, c.markForRecovery)

/-- The socket takes the whole batch, or refuses it after the first `k` packets. -/
def flushConnection (e : Effects) (c : Connection F A) (now : ℕ) (refused : Option ℕ) :
    Effects × Connection F A :=
  let (c, batch) := c.takeBatch now
  match batch, refused with
  | [], _ => (e, c)
  | _ :: _, none => ({ e with out := e.out ++ batch.map fun p => .uplink c.connId p.data }, c)
  | _ :: _, some k =>
    recoverConnection { e with out := e.out ++ (batch.take k).map fun p => .uplink c.connId p.data } c

def flushLink (now : ℕ) (refused : ℕ → Option ℕ) (i : ℕ) (e : Effects) (c : Connection F A) :
    Effects × Connection F A :=
  if c.needsBatchFlush now || c.batchSender.hasQueuedPackets then
    flushConnection e c now (refused i)
  else (e, c)

def flushAllBatches (e : Effects) (conns : List (Connection F A)) (now : ℕ)
    (refused : ℕ → Option ℕ) : Effects × List (Connection F A) :=
  Sweep.run (flushLink now refused) 0 e conns

/-! A datagram of the SRT caller. -/

def selectPreRegistrationConnection (conns : List (Connection F A)) (lastSelected : Option ℕ)
    (nowMs : ℕ) : Option ℕ :=
  let last := lastSelected.filter fun idx =>
    conns[idx]?.any fun c => c.connected && !c.isTimedOut nowMs
  last.or (conns.findIdx? fun c => !c.isTimedOut nowMs)

def forwardLink (sel : ℕ) (pkt : List UInt8) (seq : Option UInt32) (now : ℕ)
    (refused : ℕ → Option ℕ) (i : ℕ) (e : Effects) (c : Connection F A) :
    Effects × Connection F A :=
  if i ≠ sel then (e, c)
  else
    let (c, needsFlush) := c.queueDataPacket pkt seq now
    let e := match seq with
      | some s => { e with sequence := e.sequence.insertWithSize s c.connId now pkt.length }
      | none => e
    if needsFlush then flushConnection e c now (refused i) else (e, c)

def forwardViaConnection (e : Effects) (conns : List (Connection F A)) (sel : ℕ)
    (pkt : List UInt8) (seq : Option UInt32) (now : ℕ) (refused : ℕ → Option ℕ) :
    Effects × List (Connection F A) :=
  Sweep.run (forwardLink sel pkt seq now refused) 0 e conns

/-- A link that is held out gets a copy of one packet in a hundred. -/
def probeLink (sel : ℕ) (pkt : List UInt8) (seq : UInt32) (now : ℕ) (refused : ℕ → Option ℕ)
    (i : ℕ) (e : Effects) (c : Connection F A) : Effects × Connection F A :=
  if i = sel then (e, c)
  else if !c.adminEnabled || !(c.stallGated || c.qualityExcluded) || !c.connected then (e, c)
  else
    let (c, due) := c.stallProbeDue
    if !due then (e, c)
    else
      let (c, needsFlush) := c.queueProbePacket (setSrtDataRetransmit pkt) seq now
      if needsFlush then flushConnection e c now (refused i) else (e, c)

def sendStallProbes (e : Effects) (conns : List (Connection F A)) (sel : ℕ)
    (pkt : List UInt8) (seq : UInt32) (now : ℕ) (refused : ℕ → Option ℕ) :
    Effects × List (Connection F A) :=
  Sweep.run (probeLink sel pkt seq now refused) 0 e conns

end Flush

/-- The local variables of `run_embedded`, with its `ConfigSnapshot`. -/
structure State (F A : Type) where
  configuredLinks : List (EmbeddedLink A)
  connections : List (Connection F A)
  reg : SrtlaRegistrationManager
  sequence : SequenceTracker
  lastSelected : Option ℕ
  config : ConfigSnapshot
  allFailedAt : Option ℕ

namespace State

/-- The choice for a datagram once the bond is registered. A retransmission goes to the link of
the best quality. -/
def chooseIdx [F64Exp F] (conns : List (Connection F A)) (lastSelected : Option ℕ)
    (pkt : List UInt8) (now : ℕ) (config : ConfigSnapshot) :
    List (Connection F A) × Option ℕ :=
  let (conns, sel) := selectConnectionIdx conns lastSelected now config
  if (getSrtSequenceNumber pkt).isSome && isSrtDataRetransmit pkt then
    (conns, (selectBestQualityIdx conns now).or sel)
  else (conns, sel)

def handleSrtDatagram [F64Exp F] (b : State F A) (pkt : List UInt8) (now : ℕ)
    (refused : ℕ → Option ℕ) : State F A × List Output :=
  if pkt.isEmpty then (b, [])
  else
    let seq := getSrtSequenceNumber pkt
    if !b.reg.hasConnected then
      match selectPreRegistrationConnection b.connections b.lastSelected now with
      | some sel =>
        let (e, conns) :=
          forwardViaConnection { sequence := b.sequence } b.connections sel pkt seq now refused
        ({ b with connections := conns, sequence := e.sequence, lastSelected := some sel }, e.out)
      | none => (b, [])
    else
      let (conns, sel) := chooseIdx b.connections b.lastSelected pkt now b.config
      match sel with
      | some sel =>
        let (e, conns) :=
          forwardViaConnection { sequence := b.sequence } conns sel pkt seq now refused
        let (e, conns) := match seq with
          | some s => sendStallProbes e conns sel pkt s now refused
          | none => (e, conns)
        ({ b with connections := conns, sequence := e.sequence, lastSelected := some sel }, e.out)
      | none => ({ b with connections := conns }, [])

end State

/-! A packet of the receiver. -/

structure SrtlaIncoming where
  forwardToClient : List (List UInt8) := []
  ackNumbers : List UInt32 := []
  nakNumbers : List UInt32 := []
  srtlaAckNumbers : List UInt32 := []
  reg1Send : Option (List UInt8) := none
  negotiatedLatencyMs : Option UInt16 := none

section Receive
variable [F64 F]

def processKeepalive (c : Connection F A) (data : List UInt8) (now : ℕ) :
    Connection F A :=
  let (rtt, answered) := c.rtt.handleKeepaliveResponse data now
  let c := { c with rtt }
  if answered then { c.recordRttProbe with lastAckOrRttSampleMs := now } else c

def registered (c : Connection F A) (now : ℕ) : RegistrationEvent → Connection F A
  | .reg3 =>
    let c := c.clearPreRegistrationState now
    { c with
      connected := true
      lastReceived := some now
      reconnection := { c.reconnection with
        connectionEstablishedMs :=
          if c.reconnection.connectionEstablishedMs = 0 then now
          else c.reconnection.connectionEstablishedMs
        reconnectFailureCount := 0 } }
  | .regErr => { c with connected := false, lastReceived := none }
  | .regNgp => c
  | .reg2 => c

def readPacket (type : UInt16) (data : List UInt8) : SrtlaIncoming :=
  if type = srtTypeAck then
    { ackNumbers := (parseSrtAck data).toList, forwardToClient := [data] }
  else if type = srtTypeNak then { nakNumbers := parseSrtNak data, forwardToClient := [data] }
  else if type = srtlaTypeAck then { srtlaAckNumbers := parseSrtlaAck data }
  else if type = srtTypeHandshake then
    { negotiatedLatencyMs := (parseSrtHandshakeLatency data).bind fun hs =>
        if hs.isResponse then hs.rcvMs else none
      forwardToClient := [data] }
  else if type = srtlaTypeKeepalive then {}
  else { forwardToClient := [data] }

def processUplinkPacket (c : Connection F A) (connIdx : ℕ) (reg : SrtlaRegistrationManager)
    (data : List UInt8) (now : ℕ) :
    Connection F A × SrtlaRegistrationManager × SrtlaIncoming :=
  match getPacketType data with
  | none => (c, reg, {})
  | some type =>
    let (reg, event) := reg.processRegistrationPacket connIdx data now
    match event with
    | some event =>
      let (reg, reg1Send) :=
        if event = .regNgp then reg.reg1IfNgpImmediate connIdx now else (reg, none)
      (registered c now event, reg, { reg1Send })
    | none =>
      let c := { c with lastReceived := some now }
      (if type = srtlaTypeKeepalive then processKeepalive c data now else c, reg,
        readPacket type data)

def nakFirst (nak : Int32) (now : ℕ) : List (Connection F A) → List (Connection F A)
  | [] => []
  | c :: cs =>
    let (c', found) := c.handleNak nak now
    if found then c' :: cs else c :: nakFirst nak now cs

def attributeNak (conns : List (Connection F A)) (sequence : SequenceTracker) (nak : UInt32)
    (now : ℕ) : List (Connection F A) :=
  match (sequence.get nak now).bind fun id => conns.findIdx? (·.connId == id) with
  | some pos => conns.modify pos fun c => (c.handleNak nak.toInt32 now).1
  | none => nakFirst nak.toInt32 now conns

def handleAck (sequence : SequenceTracker) (now : ℕ) (conns : List (Connection F A))
    (ack : UInt32) : List (Connection F A) :=
  let owner := sequence.get ack now
  conns.map fun c => c.handleSrtAck ack.toInt32 now (owner == some c.connId)

def ackOther (skip : ℕ) (seq : Int32) (classic : Bool) (now : ℕ) :
    ℕ → List (Connection F A) → List (Connection F A)
  | _, [] => []
  | i, c :: cs =>
    if i = skip then c :: ackOther skip seq classic now (i + 1) cs
    else
      let (c', found) := c.handleSrtlaAckSpecific seq classic now
      if found then c' :: cs else c :: ackOther skip seq classic now (i + 1) cs

def ackArrival (c : Connection F A) (seq : UInt32) (delivery : Option DeliveryCredit)
    (classic : Bool) (now : ℕ) : Connection F A × Bool :=
  let credit := delivery.filter (·.newlyCredited)
  let c := match credit with
    | some credit => c.recordDeliveredBytes credit.wireBytes
    | none => c
  let (c, found) := c.handleSrtlaAckSpecific seq.toInt32 classic now
  let c := match credit with
    | some credit => if found then c else c.recordSweepPrunedDeliveryProof credit.timestampMs now
    | none => c
  (c, found || delivery.isSome)

def handleSrtlaAck (idx : ℕ) (classic : Bool) (now : ℕ)
    (s : SequenceTracker × List (Connection F A)) (seq : UInt32) :
    SequenceTracker × List (Connection F A) :=
  match s.2[idx]? with
  | none => s
  | some c =>
    let (sequence, delivery) := s.1.acknowledgeDelivery seq c.connId now
    let (c, found) := ackArrival c seq delivery classic now
    let conns := s.2.set idx c
    let conns := if found then conns else ackOther idx seq.toInt32 classic now 0 conns
    (sequence, conns.map (·.handleSrtlaAckGlobal))

end Receive

namespace State

def processConnectionEvents [F64 F] (b : State F A) (idx : ℕ) (incoming : SrtlaIncoming) (now : ℕ) :
    State F A :=
  let classic := decide (b.config.mode = .classic)
  let conns := incoming.ackNumbers.foldl (handleAck b.sequence now) b.connections
  let (sequence, conns) :=
    incoming.srtlaAckNumbers.foldl (handleSrtlaAck idx classic now) (b.sequence, conns)
  let conns := incoming.nakNumbers.foldl (fun conns nak => attributeNak conns sequence nak now) conns
  { b with connections := conns, sequence }

def handleUplinkPacket [F64 F] (b : State F A) (connId : UInt64) (data : List UInt8) (now : ℕ) :
    State F A × List Output :=
  if data.isEmpty then (b, [])
  else
    match b.connections.findIdx? (·.connId == connId) with
    | none => (b, [])
    | some idx =>
      match b.connections[idx]? with
      | none => (b, [])
      | some c =>
        let (c, reg, incoming) := processUplinkPacket c idx b.reg data now
        let config := match incoming.negotiatedLatencyMs with
          | some ms => { b.config with negotiatedLatencyMs := ms.toNat }
          | none => b.config
        ({ b with connections := b.connections.set idx c, reg, config }.processConnectionEvents
            idx incoming now,
          (incoming.reg1Send.toList.map fun p => .uplink connId p) ++
            incoming.forwardToClient.map .client)

end State

/-! Control messages. -/

section Control
variable [DecidableEq A] [F64 F]

/-- What the network makes of a connect: the ids of the uplinks that were opened in time. -/
def applyConnectionChanges (conns : List (Connection F A)) (newIps : List A)
    (opened : A → Option UInt64) (now : ℕ) : List (Connection F A) :=
  let current := conns.map (·.localIp)
  let needed := newIps.eraseDups.filter fun ip => !current.contains ip
  conns.filter (fun c => newIps.contains c.localIp) ++
    needed.filterMap fun ip => (opened ip).map fun id => .newRegistering id ip now

def setAdminEnabled (configured : List (EmbeddedLink A)) (now : ℕ) (c : Connection F A) :
    Connection F A :=
  match configured.find? (·.address == c.localIp) with
  | some link => if c.adminEnabled ≠ link.enabled then c.setAdminEnabled link.enabled now else c
  | none => c

namespace State

/-- Uplinks that are not wanted any more take their packets in the ring with them. -/
def changeConnections (b : State F A) (newIps : List A) (opened : A → Option UInt64) (now : ℕ) :
    State F A :=
  let removed := b.connections.filter fun c => !newIps.contains c.localIp
  { b with
    connections := applyConnectionChanges b.connections newIps opened now
    sequence := removed.foldl (fun t c => t.removeConnection c.connId) b.sequence
    lastSelected := if removed.isEmpty then b.lastSelected else none }

def startProbing (b : State F A) (now : ℕ) : State F A × List Output :=
  let (reg, connections, probes) := b.reg.startProbing b.connections now
  ({ b with reg, connections },
    probes.filterMap fun p => b.connections[p.1]?.map fun c => .uplink c.connId p.2)

/-- A REG2 for each new uplink; it arms the grant for the answer. -/
def joinNew (isNew : Connection F A → Bool) :
    ℕ → SrtlaRegistrationManager → List (Connection F A) → SrtlaRegistrationManager × List Output
  | _, reg, [] => (reg, [])
  | i, reg, c :: cs =>
    if isNew c then
      let (reg, packet) := reg.buildReg2 i
      let (reg, out) := joinNew isNew (i + 1) reg cs
      (reg, .uplink c.connId packet :: out)
    else joinNew isNew (i + 1) reg cs

def joinLinks (b : State F A) (oldIps : List A) (isNew : Connection F A → Bool) (now : ℕ) :
    State F A × List Output :=
  if oldIps.isEmpty && !b.connections.isEmpty && !b.reg.hasConnected then b.startProbing now
  else
    let (reg, out) := joinNew isNew 0 b.reg b.connections
    ({ b with reg }, out)

def setLink (b : State F A) (id : UInt64) (enabled : Bool) (opened : A → Option UInt64)
    (now : ℕ) : State F A × List Output :=
  match b.configuredLinks.find? (·.id == id) with
  | none => (b, [])
  | some link =>
    if !enabled && decide (EmbeddedRunner.enabledCount b.configuredLinks ≤ 1) then (b, [])
    else
      let links := EmbeddedRunner.configure b.configuredLinks (.setLink id enabled)
      let oldIps := b.connections.map (·.localIp)
      let ips := if enabled && !oldIps.contains link.address then oldIps ++ [link.address] else oldIps
      let b := { b with configuredLinks := links }.changeConnections ips opened now
      let b := { b with connections := b.connections.map (setAdminEnabled links now) }
      b.joinLinks oldIps
        (fun c => !oldIps.contains c.localIp && decide (c.localIp = link.address) && enabled) now

def updateLinks (b : State F A) (links : List (EmbeddedLink A)) (opened : A → Option UInt64)
    (now : ℕ) : State F A × List Output :=
  let oldIps := b.connections.map (·.localIp)
  let ips := (links.filter fun link => link.enabled || oldIps.contains link.address).map (·.address)
  let b := { b with configuredLinks := links }.changeConnections ips opened now
  let b := { b with connections := b.connections.map (setAdminEnabled links now) }
  b.joinLinks oldIps (fun c => !oldIps.contains c.localIp &&
    links.any fun link => decide (link.address = c.localIp) && link.enabled) now

def handleControl (b : State F A) (opened : A → Option UInt64) (now : ℕ) :
    Control A → State F A × List Output
  | .setLink id enabled => b.setLink id enabled opened now
  | .updateLinks links => b.updateLinks links opened now

end State
end Control

/-! The housekeeping tick. -/

def globalTimeoutMs : ℕ := 10000

section Housekeeping
variable [F64 F]

structure TickEffects extends Effects where
  reg : SrtlaRegistrationManager

def rebuildUplinkSocket (e : Effects) (c : Connection F A) (now : ℕ) (reopened : Bool) :
    Effects × Connection F A :=
  if reopened then
    let c := c.resetForReconnect now
    ({ e with sequence := e.sequence.removeConnection c.connId },
      { c with reconnection := c.reconnection.markSuccess.resetStartupGrace now })
  else recoverConnection e c

def resendRegistration (e : TickEffects) (i : ℕ) (connId : UInt64) (now : ℕ) : TickEffects :=
  match e.reg.pendingReg2Idx with
  | some idx =>
    if idx = i then
      let (reg, packet) := e.reg.buildReg1For i now
      { e with reg, toEffects := e.toEffects.send connId packet }
    else e
  | none =>
    let (reg, packet) := e.reg.buildReg2 i
    { e with reg, toEffects := e.toEffects.send connId packet }

def sendKeepalive (e : TickEffects) (c : Connection F A) (now : ℕ) (due : Bool) :
    TickEffects × Connection F A :=
  if due then
    let (c, packet) := c.keepalivePacket now
    ({ e with toEffects := e.toEffects.send c.connId packet }, c)
  else (e, c)

def tickLink (now : ℕ) (classic : Bool) (reopened : ℕ → Bool) (i : ℕ) (e : TickEffects)
    (c : Connection F A) : TickEffects × Connection F A :=
  if c.isTimedOut now then
    if c.reconnection.shouldAttemptReconnect now then
      let c := { c with reconnection := c.reconnection.recordAttempt now }
      let (effects, c) := rebuildUplinkSocket e.toEffects c now (reopened i)
      (resendRegistration { e with toEffects := effects } i c.connId now, c)
    else (e, c)
  else
    let (e, c) := sendKeepalive e c now (c.needsKeepalive now)
    let (e, c) := sendKeepalive e c now (c.needsRttMeasurement now)
    let c := if classic then c else c.performWindowRecovery now
    (e, ((c.calculateBitrate now).updatePhase now).recomputeBatchRegime)

/-- The end of the probing gives the selected link a new grace period. -/
def finishProbing (reg : SrtlaRegistrationManager) (conns : List (Connection F A)) (now : ℕ) :
    SrtlaRegistrationManager × List (Connection F A) :=
  if reg.isProbing then
    let reg := reg.checkProbingComplete now
    if reg.isProbing then (reg, conns)
    else
      match reg.reg1TargetIdx with
      | some idx => (reg, conns.modify idx fun c =>
          { c with reconnection := c.reconnection.resetStartupGrace now })
      | none => (reg, conns)
  else (reg, conns)

def driverOutput (conns : List (Connection F A)) (sends : RegDriverSends) : List Output :=
  (sends.reg1.bind fun p => conns[p.1]?.map fun c => Output.uplink c.connId p.2).toList ++
    match sends.broadcastReg2 with
    | some packet => conns.map fun c => .uplink c.connId packet
    | none => []

structure TickInput where
  reopened : ℕ → Bool
  /-- The new ids, once the receiver has moved to another address. -/
  moved : Option (SrtlaId × SrtlaId)
  rebuilt : ℕ → Bool
  verdict : UInt64 → Option (ℕ × Bool)

def rehomeBond (b : State F A) (now : ℕ) (ids : SrtlaId × SrtlaId) (rebuilt : ℕ → Bool) :
    State F A × List Output :=
  let (e, conns) := Sweep.run (fun i e c => rebuildUplinkSocket e c now (rebuilt i)) 0
    { sequence := b.sequence } b.connections
  { b with
    connections := conns
    sequence := e.sequence
    reg := b.reg.resetForRehome ids.1 ids.2 }.startProbing now

def watchFailures (b : State F A) (now : ℕ) (input : TickInput) : State F A × List Output :=
  if b.connections.any fun c => !c.isTimedOut now then ({ b with allFailedAt := none }, [])
  else
    let failedAt := b.allFailedAt.getD now
    let b := { b with allFailedAt := some failedAt }
    match input.moved with
    | some ids =>
      if globalTimeoutMs < now - failedAt ∧ ¬ b.connections.isEmpty then
        let (b, out) := rehomeBond b now ids input.rebuilt
        ({ b with allFailedAt := some now }, out)
      else (b, [])
    | none => (b, [])

def handleHousekeeping (b : State F A) (now : ℕ) (input : TickInput) : State F A × List Output :=
  let reg := b.reg.clearPendingIfTimedOut now
  let (reg, conns) := finishProbing reg b.connections now
  let (e, conns) := Sweep.run
    (tickLink now (decide (b.config.mode = .classic)) input.reopened) 0
    { sequence := b.sequence, reg } conns
  let (reg, sends) :=
    (e.reg.updateActiveConnections conns).regDriverPendingSends conns.length now
  let (b, out) := watchFailures
    { b with connections := conns, sequence := e.sequence, reg } now input
  (b, e.out ++ driverOutput conns sends ++ out)

def applyVerdict (verdict : UInt64 → Option (ℕ × Bool)) (c : Connection F A) : Connection F A :=
  { c with
    ccTargetBps := ((verdict c.connId).map (·.1)).getD 0
    lossDegraded := ((verdict c.connId).map (·.2)).getD false }

variable [DecidableEq A]

/-- The tick up to the verdicts: a retry while there are no uplinks, and housekeeping. -/
def State.work (b : State F A) (opened : A → Option UInt64) (now : ℕ) (input : TickInput) :
    State F A × List Output :=
  let (b, joined) :=
    if b.connections.isEmpty then
      let b := b.changeConnections (EmbeddedRunner.enabledIps b.configuredLinks) opened now
      if !b.connections.isEmpty && !b.reg.hasConnected then b.startProbing now else (b, [])
    else (b, [])
  let (b, out) := handleHousekeeping b now input
  (b, joined ++ out)

def State.judge (b : State F A) (verdict : UInt64 → Option (ℕ × Bool)) : State F A :=
  { b with connections := b.connections.map (applyVerdict verdict) }

def State.tick (b : State F A) (opened : A → Option UInt64) (now : ℕ) (input : TickInput) :
    State F A × List Output :=
  let (b, out) := b.work opened now input
  (b.judge input.verdict, out)

end Housekeeping

/-! Runs. -/

inductive Event (A : Type)
  | datagram (pkt : List UInt8) (now : ℕ) (refused : ℕ → Option ℕ)
  | packet (connId : UInt64) (data : List UInt8) (now : ℕ)
  | control (message : Control A) (opened : A → Option UInt64) (now : ℕ)
  | tick (opened : A → Option UInt64) (now : ℕ) (input : TickInput)
  | flush (now : ℕ) (refused : ℕ → Option ℕ)

def Event.now : Event A → ℕ
  | .datagram _ now _ => now
  | .packet _ _ now => now
  | .control _ _ now => now
  | .tick _ now _ => now
  | .flush now _ => now

namespace State
variable [F64Exp F] [DecidableEq A]

def step (b : State F A) : Event A → State F A × List Output
  | .datagram pkt now refused => b.handleSrtDatagram pkt now refused
  | .packet connId data now => b.handleUplinkPacket connId data now
  | .control message opened now => b.handleControl opened now message
  | .tick opened now input => b.tick opened now input
  | .flush now refused =>
    let (e, conns) := flushAllBatches { sequence := b.sequence } b.connections now refused
    ({ b with connections := conns, sequence := e.sequence }, e.out)

/-- The state after the connect before the loop, and its first probes. This connect tries one
link after the other, also where two share an address. -/
def start (links : List (EmbeddedLink A)) (opened : ℕ → Option UInt64) (now : ℕ)
    (mode : SchedulingMode) (id probeId : SrtlaId) : State F A × List Output :=
  let connections := (EmbeddedRunner.enabledIps links).zipIdx.filterMap fun ip =>
    (opened ip.2).map fun id => Connection.newRegistering id ip.1 now
  let b : State F A := {
    configuredLinks := links
    connections
    reg := .new id probeId
    sequence := .new
    lastSelected := none
    config := { mode }
    allFailedAt := none }
  if connections.isEmpty then (b, []) else b.startProbing now

end State

end Srtla.Bond
