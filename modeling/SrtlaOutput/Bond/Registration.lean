import SrtlaOutput.Uplink.Connection
import Mathlib.Data.List.MinMax

/-! The registration manager: it decides which handshake packets go out and which of those
that come in are answers to them. Uplinks are named by their position. -/

namespace Srtla.Bond
open Wire Uplink
variable {F A : Type}

def reg2TimeoutMs : ℕ := 4000
def reg3TimeoutMs : ℕ := 4000

inductive RegistrationEvent
  | regNgp | reg2 | reg3 | regErr
  deriving DecidableEq, Repr

inductive ProbingState
  | notStarted | probing | waitingForProbes | complete
  deriving DecidableEq, Repr

structure ProbeResult where
  connIdx : ℕ
  probeSentMs : ℕ
  rttMs : Option ℕ
  deriving DecidableEq, Repr

/-- What the driver wants to be sent: a REG1 to one uplink, a REG2 to all of them. -/
structure RegDriverSends where
  reg1 : Option (ℕ × List UInt8) := none
  broadcastReg2 : Option (List UInt8) := none

structure SrtlaRegistrationManager where
  srtlaId : SrtlaId
  pendingReg2Idx : Option ℕ
  pendingTimeoutAtMs : ℕ
  activeConnections : ℕ
  hasConnected : Bool
  broadcastReg2Pending : Bool
  reg1TargetIdx : Option ℕ
  reg1NextSendAtMs : ℕ
  probingState : ProbingState
  probeId : SrtlaId
  probeResults : List ProbeResult
  /-- The uplinks that a REG3 is accepted for, once. -/
  awaitingReg3 : List ℕ
  connectedSnapshot : List Bool
  deriving DecidableEq

namespace SrtlaRegistrationManager

def new (id probeId : SrtlaId) : SrtlaRegistrationManager where
  srtlaId := id
  pendingReg2Idx := none
  pendingTimeoutAtMs := 0
  activeConnections := 0
  hasConnected := false
  broadcastReg2Pending := false
  reg1TargetIdx := none
  reg1NextSendAtMs := 0
  probingState := .notStarted
  probeId
  probeResults := []
  awaitingReg3 := []
  connectedSnapshot := []

def renewedId (old fresh : SrtlaId) : SrtlaId :=
  ⟨old.bytes.take (srtlaIdLen / 2) ++ fresh.bytes.drop (srtlaIdLen / 2), by
    rw [List.length_append, List.length_take, List.length_drop, old.length_eq, fresh.length_eq]
    decide⟩

/-- Back to the state before any REG1, with a new second half of the id. -/
def resetForRehome (r : SrtlaRegistrationManager) (fresh probeId : SrtlaId) :
    SrtlaRegistrationManager :=
  { r with
    srtlaId := renewedId r.srtlaId fresh
    pendingReg2Idx := none
    pendingTimeoutAtMs := 0
    activeConnections := 0
    broadcastReg2Pending := false
    reg1TargetIdx := none
    reg1NextSendAtMs := 0
    awaitingReg3 := []
    connectedSnapshot := []
    probingState := .notStarted
    probeId
    probeResults := [] }

def armReg3Grant (r : SrtlaRegistrationManager) (connIdx : ℕ) : SrtlaRegistrationManager :=
  if connIdx ∈ r.awaitingReg3 then r
  else { r with awaitingReg3 := r.awaitingReg3 ++ [connIdx] }

def revokeReg3Grant (r : SrtlaRegistrationManager) (connIdx : ℕ) : SrtlaRegistrationManager :=
  { r with awaitingReg3 := r.awaitingReg3.filter (· ≠ connIdx) }

def isConnectedSnapshot (r : SrtlaRegistrationManager) (connIdx : ℕ) : Bool :=
  r.connectedSnapshot.getD connIdx false

def buildReg1For (r : SrtlaRegistrationManager) (connIdx now : ℕ) :
    SrtlaRegistrationManager × List UInt8 :=
  ({ r with
      pendingReg2Idx := some connIdx
      reg1TargetIdx := some connIdx
      pendingTimeoutAtMs := now + reg2TimeoutMs
      reg1NextSendAtMs := now + 1000 }, createReg1Packet r.srtlaId)

def buildReg2 (r : SrtlaRegistrationManager) (connIdx : ℕ) :
    SrtlaRegistrationManager × List UInt8 :=
  (r.armReg3Grant connIdx, createReg2Packet r.srtlaId)

/-! Probing: the first answer to a packet that no receiver knows measures an uplink. -/

def startProbing [F64 F] (r : SrtlaRegistrationManager) (connections : List (Connection F A))
    (now : ℕ) :
    SrtlaRegistrationManager × List (Connection F A) × List (ℕ × List UInt8) :=
  if r.probingState ≠ .notStarted ∨ 0 < r.activeConnections then (r, connections, [])
  else
    let results := (List.range connections.length).map fun idx =>
      { connIdx := idx, probeSentMs := now, rttMs := none }
    let probes := (List.range connections.length).map fun idx => (idx, createReg2Packet r.probeId)
    let r := { r with probeResults := results }
    (if results.isEmpty then { r with probingState := .complete }
      else { r with probingState := .waitingForProbes, pendingTimeoutAtMs := now + 2000 },
      connections.map fun c => (c.probeReg2Packet r.probeId now).1, probes)

/-- The first result of the uplink takes the time of its first answer. -/
def answerProbe (connIdx now : ℕ) : List ProbeResult → List ProbeResult
  | [] => []
  | p :: ps =>
    if p.connIdx = connIdx then
      (if p.rttMs.isNone then { p with rttMs := some (now - p.probeSentMs) } else p) :: ps
    else p :: answerProbe connIdx now ps

def handleProbeResponse (r : SrtlaRegistrationManager) (connIdx now : ℕ) :
    SrtlaRegistrationManager :=
  if r.probingState ≠ .waitingForProbes then r
  else { r with probeResults := answerProbe connIdx now r.probeResults }

def checkProbingComplete (r : SrtlaRegistrationManager) (now : ℕ) : SrtlaRegistrationManager :=
  if r.probingState ≠ .waitingForProbes then r
  else if (r.probeResults.all (·.rttMs.isSome)) || decide (r.pendingTimeoutAtMs ≤ now) then
    let best := (r.probeResults.filter (·.rttMs.isSome)).argmin fun p => p.rttMs.getD 0
    { r with
      reg1TargetIdx := some (best.elim 0 (·.connIdx))
      reg1NextSendAtMs := now
      probingState := .complete
      pendingTimeoutAtMs := 0 }
  else r

def isProbing (r : SrtlaRegistrationManager) : Bool :=
  decide (r.probingState = .probing) || decide (r.probingState = .waitingForProbes)

/-! Packets that come in. -/

def handleRegNgp (r : SrtlaRegistrationManager) (connIdx nowMs : ℕ) : SrtlaRegistrationManager :=
  if r.probingState = .waitingForProbes then r.handleProbeResponse connIdx nowMs
  else if r.activeConnections = 0 ∧ r.pendingReg2Idx = none then
    { r with reg1TargetIdx := some connIdx, reg1NextSendAtMs := nowMs }
  else r

def idOfReg2 (buf : List UInt8) (h : srtlaTypeReg2Len ≤ buf.length) : SrtlaId :=
  ⟨(buf.drop 2).take srtlaIdLen, by
    rw [List.length_take, List.length_drop]
    rw [srtlaTypeReg2Len] at h
    omega⟩

def handleReg2 (r : SrtlaRegistrationManager) (connIdx : ℕ) (buf : List UInt8) (nowMs : ℕ) :
    SrtlaRegistrationManager :=
  if h : srtlaTypeReg2Len ≤ buf.length then
    if r.pendingReg2Idx = some connIdx then
      { r with
        srtlaId := idOfReg2 buf h
        pendingReg2Idx := none
        pendingTimeoutAtMs := nowMs + reg3TimeoutMs
        broadcastReg2Pending := true
        reg1TargetIdx := none
        reg1NextSendAtMs := 0 }
    else r
  else r

def handleReg3 (r : SrtlaRegistrationManager) (connIdx : ℕ) : SrtlaRegistrationManager × Bool :=
  if connIdx ∈ r.awaitingReg3 then
    ({ r.revokeReg3Grant connIdx with hasConnected := true }, true)
  else (r, false)

def handleRegErr (r : SrtlaRegistrationManager) (connIdx nowMs : ℕ) :
    SrtlaRegistrationManager × Bool :=
  if r.pendingReg2Idx = some connIdx then
    (({ r with
        pendingReg2Idx := none
        pendingTimeoutAtMs := 0
        reg1TargetIdx := none
        reg1NextSendAtMs := nowMs + reg2TimeoutMs } : SrtlaRegistrationManager).revokeReg3Grant
      connIdx, true)
  else if connIdx ∈ r.awaitingReg3 then (r.revokeReg3Grant connIdx, true)
  else (r, false)

def processRegistrationPacket (r : SrtlaRegistrationManager) (connIdx : ℕ) (buf : List UInt8)
    (nowMs : ℕ) : SrtlaRegistrationManager × Option RegistrationEvent :=
  if getPacketType buf = some srtlaTypeRegNgp then
    (r.handleRegNgp connIdx nowMs, some .regNgp)
  else if getPacketType buf = some srtlaTypeReg2 then
    (r.handleReg2 connIdx buf nowMs, some .reg2)
  else if getPacketType buf = some srtlaTypeReg3 then
    let (r, accepted) := r.handleReg3 connIdx
    (r, if accepted then some .reg3 else none)
  else if getPacketType buf = some srtlaTypeRegErr then
    let (r, accepted) := r.handleRegErr connIdx nowMs
    (r, if accepted then some .regErr else none)
  else (r, none)

def reg1IfNgpImmediate (r : SrtlaRegistrationManager) (connIdx now : ℕ) :
    SrtlaRegistrationManager × Option (List UInt8) :=
  if r.activeConnections = 0 ∧ r.pendingReg2Idx = none ∧ r.reg1TargetIdx = some connIdx ∧
      r.reg1NextSendAtMs ≤ now then
    let (r, packet) := r.buildReg1For connIdx now
    (r, some packet)
  else (r, none)

/-! The driver. -/

def driveReg1 (r : SrtlaRegistrationManager) (now : ℕ) :
    SrtlaRegistrationManager × Option (ℕ × List UInt8) :=
  match r.reg1TargetIdx with
  | some idx =>
    if r.activeConnections = 0 ∧ r.pendingReg2Idx = none ∧ r.reg1NextSendAtMs ≤ now then
      ({ r with
          pendingReg2Idx := some idx
          pendingTimeoutAtMs := now + reg2TimeoutMs
          reg1NextSendAtMs := now + reg2TimeoutMs }, some (idx, createReg1Packet r.srtlaId))
    else (r, none)
  | none => (r, none)

/-- An uplink that was connected at the last count needs no grant. -/
def driveReg2 (r : SrtlaRegistrationManager) (connectionCount : ℕ) :
    SrtlaRegistrationManager × Option (List UInt8) :=
  if r.broadcastReg2Pending then
    let armed := (List.range connectionCount).foldl (fun r idx =>
      if r.isConnectedSnapshot idx then r else r.armReg3Grant idx) r
    ({ armed with broadcastReg2Pending := false }, some (createReg2Packet r.srtlaId))
  else (r, none)

def regDriverPendingSends (r : SrtlaRegistrationManager) (connectionCount now : ℕ) :
    SrtlaRegistrationManager × RegDriverSends :=
  let (r, reg1) := r.driveReg1 now
  let (r, broadcastReg2) := r.driveReg2 connectionCount
  (r, { reg1, broadcastReg2 })

def updateActiveConnections (r : SrtlaRegistrationManager)
    (connections : List (Connection F A)) : SrtlaRegistrationManager :=
  { r with
    activeConnections := connections.countP (·.connected)
    connectedSnapshot := connections.map (·.connected) }

def clearPendingIfTimedOut (r : SrtlaRegistrationManager) (nowMs : ℕ) : SrtlaRegistrationManager :=
  if r.pendingReg2Idx.isSome ∧ r.pendingTimeoutAtMs ≠ 0 ∧ r.pendingTimeoutAtMs ≤ nowMs then
    { r with
      pendingReg2Idx := none
      pendingTimeoutAtMs := 0
      reg1TargetIdx := none
      reg1NextSendAtMs := nowMs }
  else r

end SrtlaRegistrationManager

end Srtla.Bond
