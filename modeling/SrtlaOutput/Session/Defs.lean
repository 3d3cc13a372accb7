import SrtlaOutput.Engine.Defs
import SrtlaOutput.Lib.Resource
import SrtlaOutput.Lib.Schedule

/-! The SRT session: its owner, which starts and stops it, the connector thread with its
reconnect loop, and the callers of `send_ts` and `sample_stats`. A region under `socket_mutex`
is one step, and so is an access to an atomic flag. -/

namespace Srtla
open Resource

inductive SrtSessionStatus
  | idle
  | connecting
  | connected
  | reconnecting
  | fatal
  | stopped
  deriving DecidableEq, Repr

def SrtSessionStatus.state : SrtSessionStatus → Nat
  | .idle => sessionIdle
  | .connecting => sessionConnecting
  | .connected => sessionConnected
  | .reconnecting => sessionReconnecting
  | .fatal => sessionFatal
  | .stopped => sessionStopped

abbrev SrtSocket := Nat

inductive SrtUse
  | sendmsg
  | bistats
  | getsockflag
  deriving DecidableEq, Repr

/-- `srt_create_socket` gives a socket out, and `srt_close` takes it back. -/
abbrev SrtCall := Resource.Event SrtSocket SrtUse

inductive SrtSocketState
  | init
  | opened
  | listening
  | connecting
  | connected
  | broken
  | closing
  | closed
  | nonexist
  deriving DecidableEq, Repr

inductive AddressFamily
  | inet
  | inet6
  deriving DecidableEq, Repr

structure SessionSettings where
  streamId : List UInt8
  passphrase : List UInt8
  latencyMs : Int
  pbkeylen : Int
  deriving DecidableEq, Repr

def utf8Lead (byte : UInt8) : Option (Nat × Nat) :=
  if byte ≤ 0x7f then some (1, byte.toNat)
  else if 0xc2 ≤ byte && byte ≤ 0xdf then some (2, (byte &&& 0x1f).toNat)
  else if 0xe0 ≤ byte && byte ≤ 0xef then some (3, (byte &&& 0x0f).toNat)
  else if 0xf0 ≤ byte && byte ≤ 0xf4 then some (4, (byte &&& 0x07).toNat)
  else none

def utf8Continue (codepoint : Nat) : List UInt8 → Option Nat
  | [] => some codepoint
  | byte :: rest =>
    if byte &&& 0xc0 ≠ 0x80 then none
    else utf8Continue (codepoint * 64 + (byte &&& 0x3f).toNat) rest

def utf8Rejects (width codepoint : Nat) : Bool :=
  (width == 2 && codepoint < 0x80) || (width == 3 && codepoint < 0x800) ||
    (width == 4 && (codepoint < 0x10000 || codepoint > 0x10ffff)) ||
    (0xd800 ≤ codepoint && codepoint ≤ 0xdfff)

def validUtf8 : List UInt8 → Bool
  | [] => true
  | byte :: rest =>
    match utf8Lead byte with
    | none => false
    | some (width, bits) =>
      if rest.length < width - 1 then false
      else
        match utf8Continue bits (rest.take (width - 1)) with
        | none => false
        | some codepoint =>
          if utf8Rejects width codepoint then false else validUtf8 (rest.drop (width - 1))
termination_by value => value.length
decreasing_by
  rw [List.length_drop, List.length_cons]
  omega

def SessionSettings.validEncryption (settings : SessionSettings) : Bool :=
  (settings.passphrase.isEmpty ||
    (10 ≤ settings.passphrase.length && settings.passphrase.length ≤ 79 &&
      validUtf8 settings.passphrase)) &&
    (settings.pbkeylen == 16 || settings.pbkeylen == 24 || settings.pbkeylen == 32)

inductive SockOption
  | latency (ms : Int)
  | connTimeo (ms : Int)
  | sndSyn (on : Bool)
  | passphrase (value : List UInt8)
  | pbKeyLen (bytes : Int)
  | streamId (value : List UInt8)
  | ipv6Only (on : Bool)
  deriving DecidableEq, Repr

def SockOption.name : SockOption → String
  | .latency _ => "SRTO_LATENCY"
  | .connTimeo _ => "SRTO_CONNTIMEO"
  | .sndSyn _ => "SRTO_SNDSYN"
  | .passphrase _ => "SRTO_PASSPHRASE"
  | .pbKeyLen _ => "SRTO_PBKEYLEN"
  | .streamId _ => "SRTO_STREAMID"
  | .ipv6Only _ => "SRTO_IPV6ONLY"

def SessionSettings.sockOptions (settings : SessionSettings) (family : AddressFamily) :
    List SockOption :=
  [.latency settings.latencyMs, .connTimeo 1000, .sndSyn false] ++
    (if settings.passphrase.isEmpty then [] else [.passphrase settings.passphrase]) ++
    [.pbKeyLen settings.pbkeylen] ++
    (if settings.streamId.isEmpty then [] else [.streamId settings.streamId]) ++
    (if family = .inet6 then [.ipv6Only true] else [])

def srtError (operation detail : String) : String :=
  if detail = "" then operation else operation ++ ": " ++ detail

inductive AfterRelease
  | leave
  | pause
  | again
  | dropped
  deriving DecidableEq, Repr

/-- Where the connector thread is. The number of a wait counts its sleeps of 100 ms. -/
inductive ConnectorPc
  | test
  | resolve
  | createSocket
  | publish
  | published
  | setOptions (rest : List SockOption)
  | setExternalTransport
  | bind
  | connect
  | handshake (waits : Nat)
  | negotiate
  | markConnected
  | announce
  | watch
  | unmark
  | disconnected
  | reportDisconnect
  | release (after : AfterRelease)
  | released
  | pause (waits : Nat)
  | returned
  deriving DecidableEq, Repr

structure Connector where
  pc : ConnectorPc := .test
  backoff : Nat := 1
  everConnected : Bool := false
  family : AddressFamily := .inet
  socket : Option SrtSocket := none
  deriving DecidableEq, Repr

structure ConnectorAnswer where
  remote : Option AddressFamily := none
  socket : Option SrtSocket := none
  ok : Bool := true
  detail : String := ""
  state : SrtSocketState := .connected
  peerLatency : Option Int := none
  deriving DecidableEq, Repr

inductive OwnerPc
  | idle
  | starting
  | launching
  | stopping
  | joining
  | joined
  deriving DecidableEq, Repr

/-- `sending` and `sampling` count the callers that have seen the session connected. `calls`
is the log of libsrt, and `reports` that of `set_status`. -/
structure SrtSession where
  settings : SessionSettings
  negotiatedLatencyMs : Int
  socket : Option SrtSocket := none
  stop : Bool := false
  connected : Bool := false
  connector : Option Connector := none
  sessionStatus : SrtSessionStatus := .idle
  error : String := ""
  owner : OwnerPc := .idle
  sending : Nat := 0
  sampling : Nat := 0
  calls : List SrtCall := []
  reports : List (SrtSessionStatus × String) := []
  deriving DecidableEq, Repr

inductive SessionStep
  | start
  | reportConnecting
  | launch (created : Bool)
  | connector (a : ConnectorAnswer)
  | stop
  | closeCurrent
  | join
  | reportStopped
  | beginSend
  | send
  | beginSample
  | sample (ok : Bool)
  deriving DecidableEq, Repr

namespace Connector

def again (c : Connector) : Connector :=
  { c with pc := .test, backoff := if c.backoff = 1 then 2 else 5 }

/-- What a lost or a failed connection is reported as. -/
def retryStatus (c : Connector) : SrtSessionStatus :=
  if c.everConnected then .reconnecting else .connecting

end Connector

namespace SrtSession

def create (settings : SessionSettings) : SrtSession where
  settings := settings
  negotiatedLatencyMs := settings.latencyMs

def setStatus (s : SrtSession) (status : SrtSessionStatus) (error : String := "") : SrtSession :=
  { s with sessionStatus := status, error, reports := s.reports ++ [(status, error)] }

def closeSocket (s : SrtSession) : Option SrtSocket → SrtSession
  | none => s
  | some socket =>
    if s.socket = some socket then
      { s with socket := none, calls := s.calls ++ [.release socket] }
    else s

def closeCurrentSocket (s : SrtSession) : SrtSession :=
  match s.socket with
  | none => s
  | some socket => { s with socket := none, calls := s.calls ++ [.release socket] }

def withConnector (s : SrtSession) (c : Connector) : SrtSession := { s with connector := some c }

/-- A step of the connector. Where it tests `stop` and then asks libsrt, the answer comes at the
test, since nothing else reads what lies between. -/
def connectorStep (s : SrtSession) (c : Connector) (a : ConnectorAnswer) : SrtSession :=
  match c.pc with
  | .test => s.withConnector { c with pc := if s.stop then .returned else .resolve }
  | .resolve =>
    match a.remote with
    | none =>
      let s := if c.everConnected then s.setStatus .reconnecting "Resolving SRT receiver" else s
      s.withConnector { c with pc := .pause 0 }
    | some family => s.withConnector { c with pc := .createSocket, family }
  | .createSocket =>
    match a.socket with
    | none =>
      (s.setStatus .fatal (srtError "srt_create_socket" a.detail)).withConnector
        { c with pc := .returned }
    | some socket =>
      { s with calls := s.calls ++ [Resource.Event.acquire socket] }.withConnector
        { c with pc := .publish, socket := some socket }
  | .publish => { s with socket := c.socket }.withConnector { c with pc := .published }
  | .published =>
    s.withConnector
      { c with
        pc := if s.stop then .release .leave else .setOptions (s.settings.sockOptions c.family) }
  | .setOptions [] => s.withConnector { c with pc := .setExternalTransport }
  | .setOptions (option :: rest) =>
    if a.ok then s.withConnector { c with pc := .setOptions rest }
    else
      (s.setStatus .fatal (srtError option.name a.detail)).withConnector
        { c with pc := .release .leave }
  | .setExternalTransport =>
    if a.ok then s.withConnector { c with pc := .bind }
    else
      (s.setStatus .fatal (srtError "srt_set_external_transport" a.detail)).withConnector
        { c with pc := .release .leave }
  | .bind =>
    if a.ok then s.withConnector { c with pc := .connect }
    else
      (s.setStatus c.retryStatus (srtError "srt_bind" a.detail)).withConnector
        { c with pc := .release .pause }
  | .connect =>
    if a.ok then s.withConnector { c with pc := .handshake 0 }
    else
      (s.setStatus c.retryStatus (srtError "srt_connect" a.detail)).withConnector
        { c with pc := .release .pause }
  | .handshake waits =>
    let error := srtError "SRT connection handshake" a.detail
    let failed :=
      (s.setStatus c.retryStatus (if error = "" then "SRT connection timed out" else error))
        |>.withConnector { c with pc := .release .again }
    if waits < 50 && !s.stop then
      match a.state with
      | .connected => s.withConnector { c with pc := .negotiate }
      | .broken | .closing | .closed | .nonexist => failed
      | _ => s.withConnector { c with pc := .handshake (waits + 1) }
    else failed
  | .negotiate =>
    let negotiatedLatencyMs :=
      match a.peerLatency with
      | some ms => if ms > 0 then ms else s.settings.latencyMs
      | none => s.settings.latencyMs
    { s with negotiatedLatencyMs }.withConnector { c with pc := .markConnected }
  | .markConnected =>
    { s with connected := true }.withConnector { c with pc := .announce, backoff := 1 }
  | .announce =>
    (s.setStatus .connected).withConnector { c with pc := .watch, everConnected := true }
  | .watch =>
    if s.stop then s.withConnector { c with pc := .unmark }
    else
      match a.state with
      | .broken | .closed | .nonexist => s.withConnector { c with pc := .unmark }
      | _ => s.withConnector { c with pc := .watch }
  | .unmark => { s with connected := false }.withConnector { c with pc := .disconnected }
  | .disconnected =>
    s.withConnector { c with pc := if s.stop then .release .dropped else .reportDisconnect }
  | .reportDisconnect =>
    (s.setStatus .reconnecting "SRT session disconnected").withConnector
      { c with pc := .release .dropped }
  | .release after =>
    (s.closeSocket c.socket).withConnector <|
      match after with
      | .leave => { c with pc := .returned }
      | .pause => { c with pc := .pause 0 }
      | .again => c.again
      | .dropped => { c with pc := .released }
  | .released => s.withConnector (if s.stop then c.again else { c with pc := .pause 0 })
  | .pause waits =>
    s.withConnector
      (if waits < c.backoff * 10 && !s.stop then { c with pc := .pause (waits + 1) } else c.again)
  | .returned => s

def sendLocked (s : SrtSession) : SrtSession :=
  match s.socket with
  | none => s
  | some socket => { s with calls := s.calls ++ [Resource.Event.use .sendmsg socket] }

/-- `sample_stats` under the mutex. Statistics that cannot be read end it. -/
def sampleLocked (s : SrtSession) (ok : Bool) : SrtSession :=
  match s.socket with
  | none => s
  | some socket =>
    let s := { s with calls := s.calls ++ [Resource.Event.use .bistats socket] }
    if ok then { s with calls := s.calls ++ [Resource.Event.use .getsockflag socket] } else s

def joinable (s : SrtSession) : Bool := s.connector.all (·.pc = .returned)

def next (s : SrtSession) : SessionStep → Option SrtSession
  | .start =>
    if s.owner ≠ .idle then none
    else if s.connector.isSome then some s
    else if !s.settings.validEncryption then
      some (s.setStatus .fatal "Invalid SRT encryption settings")
    else some { s with stop := false, owner := .starting }
  | .reportConnecting =>
    if s.owner = .starting then some { s.setStatus .connecting with owner := .launching } else none
  | .launch created =>
    if s.owner ≠ .launching then none
    else if created then some { s with connector := some {}, owner := .idle }
    else
      some ({ s with stop := true, connected := false, owner := .idle }.setStatus .fatal
        "Failed to start SRT connector thread")
  | .connector a => s.connector.map fun c => s.connectorStep c a
  | .stop => if s.owner = .idle then some { s with stop := true, owner := .stopping } else none
  | .closeCurrent =>
    if s.owner = .stopping then some { s.closeCurrentSocket with owner := .joining } else none
  | .join =>
    if s.owner = .joining && s.joinable then some { s with connector := none, owner := .joined }
    else none
  | .reportStopped =>
    if s.owner = .joined then
      some { { s with connected := false }.setStatus .stopped with owner := .idle }
    else none
  | .beginSend => some (if s.connected then { s with sending := s.sending + 1 } else s)
  | .send =>
    if s.sending = 0 then none else some { s with sending := s.sending - 1 }.sendLocked
  | .beginSample => some (if s.connected then { s with sampling := s.sampling + 1 } else s)
  | .sample ok =>
    if s.sampling = 0 then none else some ({ s with sampling := s.sampling - 1 }.sampleLocked ok)

/-- libsrt gives out no socket that has not been closed. -/
def FreshSockets (s : SrtSession) : SessionStep → Prop
  | .connector a => ∀ socket ∈ a.socket, held s.calls socket = false
  | _ => True

end SrtSession
end Srtla
