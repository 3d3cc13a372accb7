import SrtlaOutput.Abr.Defs

/-! The engine's side of the embedded sender: the handle through which the engine and
the runner thread exchange control messages, datagrams and the stats document. -/

namespace Srtla

/-- Textual network addresses: `str::parse::<IpAddr>` and `IpAddr::to_string`. -/
class IpAddr (A : Type) where
  parse : String → Option A
  toString : A → String

structure EmbeddedLink (A : Type) where
  id : UInt64
  label : String
  address : A
  enabled : Bool
  deriving DecidableEq, Repr

structure EmbeddedSenderConfig (A : Type) where
  receiverHost : String
  receiverPort : UInt16
  links : List (EmbeddedLink A)
  schedulerClassic : Bool
  deriving DecidableEq, Repr

inductive Control (A : Type)
  | setLink (id : UInt64) (enabled : Bool)
  | updateLinks (links : List (EmbeddedLink A))
  deriving DecidableEq, Repr

structure RunnerLinkStats (F A : Type) where
  ip : A
  connected : Bool := false
  timedOut : Bool := false
  adminEnabled : Bool := false
  payloadEligible : Bool := false
  capacityReady : Bool := false
  ccTargetBps : UInt64 := 0
  qualityMultiplier : F
  rttMs : UInt32 := 0
  bitrateBytesPerSec : UInt32 := 0
  deliveredBps : UInt64 := 0
  ccState : String := ""
  stallGated : Bool := false
  stallGateEvents : UInt64 := 0
  weakReason : String := ""
  ccLossDegraded : Bool := false
  ccLossPermille : UInt32 := 0
  nakCount : Int32 := 0
  deriving DecidableEq

structure RunnerStats (F A : Type) where
  links : List (RunnerLinkStats F A) := []
  state : String := ""
  error : String := ""
  deriving DecidableEq

def controlCapacity : Nat := 32

/-- `stats` is what the engine parses from the shared text, `none` where it does not
parse; `alive` says that the runner thread still holds its ends of the channels. -/
structure EmbeddedSender (F A : Type) where
  config : EmbeddedSenderConfig A
  control : List (Control A) := []
  alive : Bool := true
  stats : Option (RunnerStats F A) := some {}
  input : List (List UInt8) := []
  output : List (List UInt8) := []
  deriving DecidableEq

inductive EmbeddedSubmitError
  | backpressure | stopped
  deriving DecidableEq, Repr

namespace EmbeddedSender
variable {F A : Type}

def start (config : EmbeddedSenderConfig A) : EmbeddedSender F A := { config }

def trySend (s : EmbeddedSender F A) (message : Control A) : EmbeddedSender F A × Bool :=
  if s.alive && s.control.length < controlCapacity then
    ({ s with control := s.control ++ [message] }, true)
  else (s, false)

def setLinkEnabled (s : EmbeddedSender F A) (id : UInt64) (enabled : Bool) :
    EmbeddedSender F A × Bool := s.trySend (.setLink id enabled)

def updateLinks (s : EmbeddedSender F A) (links : List (EmbeddedLink A)) :
    EmbeddedSender F A × Bool := s.trySend (.updateLinks links)

/-- A full input channel blocks the submitter, so the call returns once there is room. -/
def submit (s : EmbeddedSender F A) (packet : List UInt8) :
    EmbeddedSender F A × Except EmbeddedSubmitError Unit :=
  if s.alive then ({ s with input := s.input ++ [packet] }, .ok ()) else (s, .error .stopped)

def receive (s : EmbeddedSender F A) : EmbeddedSender F A × Option (List UInt8) :=
  match s.output with
  | [] => (s, none)
  | packet :: rest => ({ s with output := rest }, some packet)

end EmbeddedSender

inductive RunnerEffect (F A : Type)
  | publish (stats : Option (RunnerStats F A))
  | takeControl
  | takeInput
  | produce (packet : List UInt8)
  | exit

def EmbeddedSender.after {F A : Type} (s : EmbeddedSender F A) :
    RunnerEffect F A → EmbeddedSender F A
  | .publish stats => { s with stats }
  | .takeControl => { s with control := s.control.tail }
  | .takeInput => { s with input := s.input.tail }
  | .produce packet => { s with output := s.output ++ [packet] }
  | .exit => { s with alive := false }

end Srtla
